import Dbml.Json.Number

/-!
# JSON symbols

A text is read as a sequence of symbols: punctuation and scalar values. White space between them
is passed over. At the first place that is no symbol the sequence ends with a fault.
-/

namespace Dbml.Json

set_option linter.unusedVariables false

inductive Symbol
  | openObject
  | closeObject
  | openArray
  | closeArray
  | comma
  | colon
  | null
  | bool (b : Bool)
  | number (n : Number)
  /-- A string, which has no text when a surrogate in it stands alone. -/
  | string (text : Option String)
  /-- No symbol. -/
  | fault
  deriving DecidableEq, Repr

namespace Symbol

def isSpace (c : Char) : Bool :=
  c == ' ' || c == '\n' || c == '\t' || c == '\r'

/-! ## Strings -/

/-- One part of a string: a character, or a code unit given by four digits. -/
inductive Piece
  | char (c : Char)
  | unit (n : Nat)
  deriving DecidableEq, Repr

def hexValue? (c : Char) : Option Nat :=
  if c.isDigit then some (c.toNat - '0'.toNat)
  else if 'a' ≤ c ∧ c ≤ 'f' then some (c.toNat - 'a'.toNat + 10)
  else if 'A' ≤ c ∧ c ≤ 'F' then some (c.toNat - 'A'.toNat + 10)
  else none

/-- The code unit of four hexadecimal digits. -/
def unitOf? (a b c d : Char) : Option Nat := do
  return ((← hexValue? a) * 16 + (← hexValue? b)) * 256
    + ((← hexValue? c) * 16 + (← hexValue? d))

/-- The character that a backslash before `c` stands for. -/
def escaped? (c : Char) : Option Char :=
  match c with
  | '"' => some '"'
  | '\\' => some '\\'
  | '/' => some '/'
  | 'b' => some '\x08'
  | 'f' => some '\x0c'
  | 'n' => some '\n'
  | 'r' => some '\r'
  | 't' => some '\t'
  | _ => none

/-- The pieces up to the closing quote, and what follows it. -/
def readPieces : List Char → Option (List Piece × List Char)
  | [] => none
  | '"' :: cs => some ([], cs)
  | '\\' :: 'u' :: a :: b :: c :: d :: cs => do
    let unit ← unitOf? a b c d
    let (pieces, rest) ← readPieces cs
    return (.unit unit :: pieces, rest)
  | '\\' :: e :: cs => do
    let c ← escaped? e
    let (pieces, rest) ← readPieces cs
    return (.char c :: pieces, rest)
  | c :: cs =>
    if c.toNat < 0x20 ∨ c = '\\' then none
    else do
      let (pieces, rest) ← readPieces cs
      return (.char c :: pieces, rest)

def isHigh (n : Nat) : Bool :=
  0xD800 ≤ n && n < 0xDC00

def isLow (n : Nat) : Bool :=
  0xDC00 ≤ n && n < 0xE000

/-- The characters of the pieces: two code units of a pair make one, and neither may be alone. -/
def joinPieces : List Piece → Option (List Char)
  | [] => some []
  | .char c :: rest => (joinPieces rest).map (c :: ·)
  | .unit high :: .unit low :: rest =>
    if isHigh high then
      if isLow low then
        (joinPieces rest).map
          (Char.ofNat (0x10000 + (high - 0xD800) * 0x400 + (low - 0xDC00)) :: ·)
      else none
    else if isLow high then none
    else (joinPieces (.unit low :: rest)).map (Char.ofNat high :: ·)
  | .unit n :: rest =>
    if isHigh n || isLow n then none else (joinPieces rest).map (Char.ofNat n :: ·)

/-! ## One symbol -/

/-- What follows the word, when the characters begin with it. -/
def afterWord (word cs : List Char) : Option (List Char) :=
  if cs.take word.length = word then some (cs.drop word.length) else none

/-- Reads the symbol that begins with `c` and goes on in `cs`. -/
def readSymbol (c : Char) (cs : List Char) : Option (Symbol × List Char) :=
  match c with
  | '\x7b' => some (.openObject, cs)
  | '\x7d' => some (.closeObject, cs)
  | '[' => some (.openArray, cs)
  | ']' => some (.closeArray, cs)
  | ',' => some (.comma, cs)
  | ':' => some (.colon, cs)
  | 'n' => (afterWord ['u', 'l', 'l'] cs).map (.null, ·)
  | 't' => (afterWord ['r', 'u', 'e'] cs).map (.bool true, ·)
  | 'f' => (afterWord ['a', 'l', 's', 'e'] cs).map (.bool false, ·)
  | '"' =>
    (readPieces cs).map fun (pieces, rest) =>
      (.string ((joinPieces pieces).map String.ofList), rest)
  | '-' => (Number.read true cs).map fun (n, rest) => (.number n, rest)
  | c =>
    if c.isDigit then (Number.read false (c :: cs)).map fun (n, rest) => (.number n, rest)
    else none

theorem readPieces_length_le {cs rest : List Char} {pieces : List Piece}
    (h : readPieces cs = some (pieces, rest)) : rest.length ≤ cs.length := by
  fun_induction readPieces cs generalizing pieces with
  | case1 => cases h
  | case2 => cases h; simp
  | case3 a b c d cs ih =>
    simp only [Option.bind_eq_bind, Option.bind_eq_some_iff, Option.pure_def] at h
    obtain ⟨_, _, ⟨_, _⟩, read, eq⟩ := h
    cases eq
    exact Nat.le_trans (ih read) (by simp only [List.length_cons]; omega)
  | case4 e cs _ ih =>
    simp only [Option.bind_eq_bind, Option.bind_eq_some_iff, Option.pure_def] at h
    obtain ⟨_, _, ⟨_, _⟩, read, eq⟩ := h
    cases eq
    exact Nat.le_trans (ih read) (by simp only [List.length_cons]; omega)
  | case5 => cases h
  | case6 c cs _ _ _ _ ih =>
    simp only [Option.bind_eq_bind, Option.bind_eq_some_iff, Option.pure_def] at h
    obtain ⟨⟨_, _⟩, read, eq⟩ := h
    cases eq
    exact Nat.le_succ_of_le (ih read)

theorem afterWord_length_le {word cs rest : List Char} (h : afterWord word cs = some rest) :
    rest.length ≤ cs.length := by
  unfold afterWord at h
  split at h <;> cases h
  simp

theorem readSymbol_length_le {c : Char} {cs rest : List Char} {symbol : Symbol}
    (h : readSymbol c cs = some (symbol, rest)) : rest.length ≤ cs.length := by
  unfold readSymbol at h
  split at h
  · cases h; simp
  · cases h; simp
  · cases h; simp
  · cases h; simp
  · cases h; simp
  · cases h; simp
  · obtain ⟨_, read, eq⟩ := Option.map_eq_some_iff.1 h
    cases eq; exact afterWord_length_le read
  · obtain ⟨_, read, eq⟩ := Option.map_eq_some_iff.1 h
    cases eq; exact afterWord_length_le read
  · obtain ⟨_, read, eq⟩ := Option.map_eq_some_iff.1 h
    cases eq; exact afterWord_length_le read
  · obtain ⟨⟨_, _⟩, read, eq⟩ := Option.map_eq_some_iff.1 h
    cases eq; exact readPieces_length_le read
  · obtain ⟨⟨_, _⟩, read, eq⟩ := Option.map_eq_some_iff.1 h
    cases eq; exact Nat.le_of_lt (Number.read_length_lt read)
  · split at h
    · obtain ⟨⟨_, _⟩, read, eq⟩ := Option.map_eq_some_iff.1 h
      cases eq
      have := Number.read_length_lt read
      simp only [List.length_cons] at this; omega
    · cases h

def symbols : List Char → List Symbol
  | [] => []
  | c :: cs =>
    if isSpace c then symbols cs
    else match read : readSymbol c cs with
      | none => [.fault]
      | some (symbol, rest) => symbol :: symbols rest
termination_by cs => cs.length
decreasing_by
  · simp
  · have := readSymbol_length_le read
    simp only [List.length_cons]; omega

end Symbol

end Dbml.Json
