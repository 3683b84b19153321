import Dbml.Proofs.Json.Symbols
import Dbml.Text.Units

/-!
# How strings are written

A character of a string stands for itself, or is escaped: by a letter behind a backslash, or by its
UTF-16 code units. Main statement: `Spells.readStrokes`, a string is read as what is spelled.
-/

namespace Dbml.Json

/-! ## Strokes -/

/-- A hexadecimal digit, whose letters may be capitals. -/
structure Hex where
  value : Fin 16
  capital : Bool

def Hex.char (digit : Hex) : Char :=
  if digit.capital then (hexDigit digit.value).toUpper else hexDigit digit.value

/-- The last digit of a number. -/
def Hex.ofNat (n : Nat) (capital : Bool) : Hex :=
  ⟨Fin.ofNat 16 n, capital⟩

theorem Hex.char_ofNat (n : Nat) : (ofNat n false).char = hexDigit (n % 16) := rfl

/-- A UTF-16 code unit in four hexadecimal digits. -/
structure CodeUnit where
  a : Hex
  b : Hex
  c : Hex
  d : Hex

def CodeUnit.value (unit : CodeUnit) : Nat :=
  (unit.a.value * 16 + unit.b.value) * 256 + (unit.c.value * 16 + unit.d.value)

def CodeUnit.ofNat (n : Nat) (capitals : Bool) : CodeUnit where
  a := .ofNat (n / 0x1000) capitals
  b := .ofNat (n / 0x100) capitals
  c := .ofNat (n / 0x10) capitals
  d := .ofNat n capitals

theorem CodeUnit.value_ofNat {n : Nat} (small : n < 0x10000) (capitals : Bool) :
    (ofNat n capitals).value = n := by
  have digits : (ofNat n capitals).value =
      (n / 0x1000 % 16 * 16 + n / 0x100 % 16) * 256 + (n / 0x10 % 16 * 16 + n % 16) := rfl
  omega

/-- What may stand behind a backslash, and the character it stands for there. -/
def shortEscapes : List (Char × Char) :=
  [('"', '"'), ('\\', '\\'), ('/', '/'), ('b', '\x08'), ('f', '\x0c'), ('n', '\n'), ('r', '\r'),
    ('t', '\t')]

/-- A part of a string as it is written: a character as it is, or a backslash and what follows
it. -/
inductive Stroke
  | plain (c : Char) (allowed : c ≠ '"' ∧ c ≠ '\\' ∧ 0x20 ≤ c.toNat)
  | short (letter c : Char) (listed : (letter, c) ∈ shortEscapes)
  | unit (unit : CodeUnit)

namespace Stroke

def chars : Stroke → List Char
  | .plain c _ => [c]
  | .short letter _ _ => ['\\', letter]
  | .unit u => ['\\', 'u', u.a.char, u.b.char, u.c.char, u.d.char]

/-- What the part is read as. -/
def piece : Stroke → Symbol.Piece
  | .plain c _ | .short _ c _ => .char c
  | .unit u => .unit u.value

end Stroke

/-- The strokes write the characters one after another: each as it is, by a short escape, or by its
UTF-16 code units. -/
inductive Spells : List Char → List Stroke → Prop
  | nil : Spells [] []
  | plain {c : Char} {cs : List Char} {strokes : List Stroke}
    (allowed : c ≠ '"' ∧ c ≠ '\\' ∧ 0x20 ≤ c.toNat) (rest : Spells cs strokes) :
    Spells (c :: cs) (.plain c allowed :: strokes)
  | short {letter c : Char} {cs : List Char} {strokes : List Stroke}
    (listed : (letter, c) ∈ shortEscapes) (rest : Spells cs strokes) :
    Spells (c :: cs) (.short letter c listed :: strokes)
  | units {c : Char} {cs : List Char} {strokes : List Stroke} {units : List CodeUnit}
    (values : units.map (·.value) = Text.charUnits c) (rest : Spells cs strokes) :
    Spells (c :: cs) (units.map .unit ++ strokes)

/-- A character by its only code unit. -/
theorem Spells.one {c : Char} {cs : List Char} {strokes : List Stroke} {unit : CodeUnit}
    (value : [unit.value] = Text.charUnits c) (rest : Spells cs strokes) :
    Spells (c :: cs) (.unit unit :: strokes) :=
  .units (show [unit].map (·.value) = _ from value) rest

/-- A character by its two code units. -/
theorem Spells.pair {c : Char} {cs : List Char} {strokes : List Stroke} {high low : CodeUnit}
    (values : [high.value, low.value] = Text.charUnits c) (rest : Spells cs strokes) :
    Spells (c :: cs) (.unit high :: .unit low :: strokes) :=
  .units (show [high, low].map (·.value) = _ from values) rest

/-- The characters between the quotes of a string. -/
def strokeChars (strokes : List Stroke) : List Char :=
  strokes.flatMap Stroke.chars

/-- The text that is read off a string, if no surrogate in it stands alone. -/
def readStrokes (strokes : List Stroke) : Option String :=
  (Symbol.joinPieces (strokes.map Stroke.piece)).map String.ofList

namespace Symbol

theorem hexValue?_char (digit : Hex) : hexValue? digit.char = some digit.value := by
  obtain ⟨value, capital⟩ := digit
  have all : ∀ (value : Fin 16) (capital : Bool),
      hexValue? (Hex.char ⟨value, capital⟩) = some value.val := by decide
  exact all value capital

theorem unitOf?_chars (u : CodeUnit) :
    unitOf? u.a.char u.b.char u.c.char u.d.char = some u.value := by
  simp only [unitOf?, hexValue?_char, Option.bind_eq_bind, Option.bind_some, Option.pure_def,
    CodeUnit.value]

theorem escaped?_of_listed {letter c : Char} (listed : (letter, c) ∈ shortEscapes) :
    escaped? letter = some c := by
  have all : ∀ pair ∈ shortEscapes, escaped? pair.1 = some pair.2 := by decide
  exact all _ listed

/-- Each stroke is one piece. -/
theorem readPieces_strokes (strokes : List Stroke) (rest : List Char) :
    readPieces (strokeChars strokes ++ '"' :: rest) = some (strokes.map Stroke.piece, rest) := by
  induction strokes with
  | nil => simp [strokeChars, readPieces]
  | cons stroke strokes ih =>
    rw [strokeChars, List.flatMap_cons, List.append_assoc, List.map_cons]
    cases stroke with
    | plain c allowed => exact readPieces_plain allowed.1 allowed.2.1 (by omega) ih
    | short letter c listed => exact readPieces_escaped (escaped?_of_listed listed) ih
    | unit u => exact readPieces_unit (unitOf?_chars u) ih

/-! ### Code units -/

/-- A code unit that is a character is one by itself. -/
theorem joinPieces_scalar {n : Nat} (pieces : List Piece) (notHigh : isHigh n = false)
    (notLow : isLow n = false) :
    joinPieces (.unit n :: pieces) = (joinPieces pieces).map (Char.ofNat n :: ·) := by
  cases pieces with
  | nil => simp [joinPieces, notHigh, notLow]
  | cons piece pieces => cases piece <;> simp [joinPieces, notHigh, notLow]

/-- The code units of a character are read as the character. -/
theorem joinPieces_charUnits (c : Char) (pieces : List Piece) :
    joinPieces ((Text.charUnits c).map .unit ++ pieces) = (joinPieces pieces).map (c :: ·) := by
  have valid := c.valid
  unfold Text.charUnits
  by_cases small : c.toNat < 0x10000
  · have plane : isHigh c.toNat = false ∧ isLow c.toNat = false := by
      simp only [isHigh, isLow, Bool.and_eq_false_iff, decide_eq_false_iff_not]
      simp only [UInt32.isValidChar, Nat.isValidChar, Char.toNat] at valid ⊢
      omega
    rw [if_pos small, List.map_singleton, List.singleton_append,
      joinPieces_scalar _ plane.1 plane.2, Char.ofNat_toNat]
  · have top : c.toNat < 0x110000 := by
      simp only [UInt32.isValidChar, Nat.isValidChar, Char.toNat] at valid ⊢
      omega
    have high : isHigh (0xD800 + (c.toNat - 0x10000) / 0x400) = true := by
      simp [isHigh]
      omega
    have low : isLow (0xDC00 + (c.toNat - 0x10000) % 0x400) = true := by
      simp [isLow]
      omega
    have whole : 0x10000 + (0xD800 + (c.toNat - 0x10000) / 0x400 - 0xD800) * 0x400
        + (0xDC00 + (c.toNat - 0x10000) % 0x400 - 0xDC00) = c.toNat := by omega
    rw [if_neg small]
    simp only [List.map_cons, List.map_nil, List.cons_append, List.nil_append]
    rw [joinPieces, if_pos high, if_pos low, whole, Char.ofNat_toNat]

end Symbol

/-- A string is read as what its strokes spell. -/
theorem Spells.joinPieces {cs : List Char} {strokes : List Stroke} (spells : Spells cs strokes) :
    Symbol.joinPieces (strokes.map Stroke.piece) = some cs := by
  induction spells with
  | nil => rfl
  | plain allowed _ ih => rw [List.map_cons, Stroke.piece, Symbol.joinPieces_char, ih]; rfl
  | short listed _ ih => rw [List.map_cons, Stroke.piece, Symbol.joinPieces_char, ih]; rfl
  | @units c cs strokes units values _ ih =>
    have pieces : (units.map Stroke.unit).map Stroke.piece = (Text.charUnits c).map .unit := by
      rw [← values, List.map_map, List.map_map]
      rfl
    rw [List.map_append, pieces, Symbol.joinPieces_charUnits, ih]
    rfl

theorem Spells.readStrokes {s : String} {strokes : List Stroke} (spells : Spells s.toList strokes) :
    readStrokes strokes = some s := by
  rw [Json.readStrokes, spells.joinPieces, Option.map_some, String.ofList_toList]

/-! ## What is escaped when a string is written -/

/-- The stroke that a character is written as. -/
def Stroke.ofChar (c : Char) : Stroke :=
  match c with
  | '"' => .short '"' '"' (by decide)
  | '\\' => .short '\\' '\\' (by decide)
  | '\x08' => .short 'b' '\x08' (by decide)
  | '\x0c' => .short 'f' '\x0c' (by decide)
  | '\n' => .short 'n' '\n' (by decide)
  | '\r' => .short 'r' '\r' (by decide)
  | '\t' => .short 't' '\t' (by decide)
  | c =>
    if allowed : c ≠ '"' ∧ c ≠ '\\' ∧ 0x20 ≤ c.toNat then .plain c allowed
    else .unit (.ofNat c.toNat false)

/-- A character is plain, escaped by a letter, or a control character. -/
theorem Stroke.ofChar_cases (c : Char) :
    (∃ allowed, ofChar c = .plain c allowed ∧ escape c = [c]) ∨
    (∃ letter listed, ofChar c = .short letter c listed ∧ escape c = ['\\', letter]) ∨
    (c.toNat < 0x20 ∧ ofChar c = .unit (.ofNat c.toNat false) ∧
      escape c = ['\\', 'u', '0', '0', hexDigit (c.toNat / 16), hexDigit (c.toNat % 16)]) := by
  unfold ofChar
  split
  case h_8 quote backslash backspace formFeed newline carriageReturn tab =>
    have other : escape c = if c.toNat < 0x20 then
        ['\\', 'u', '0', '0', hexDigit (c.toNat / 16), hexDigit (c.toNat % 16)] else [c] := by
      unfold escape
      split <;> first | contradiction | rfl
    by_cases small : c.toNat < 0x20
    · have refused : ¬ (c ≠ '"' ∧ c ≠ '\\' ∧ 0x20 ≤ c.toNat) := fun allowed =>
        absurd small (Nat.not_lt.2 allowed.2.2)
      exact .inr (.inr ⟨small, dif_neg refused, other.trans (if_pos small)⟩)
    · exact .inl ⟨⟨quote, backslash, Nat.not_lt.1 small⟩, dif_pos _, other.trans (if_neg small)⟩
  all_goals exact .inr (.inl ⟨_, by decide, rfl, rfl⟩)

theorem Stroke.chars_ofChar (c : Char) : (ofChar c).chars = escape c := by
  rcases ofChar_cases c with ⟨_, eq, escaped⟩ | ⟨_, _, eq, escaped⟩ | ⟨small, eq, escaped⟩
  · rw [eq, escaped, chars]
  · rw [eq, escaped, chars]
  · have zeros : c.toNat / 0x1000 % 16 = 0 ∧ c.toNat / 0x100 % 16 = 0 := by omega
    have high : c.toNat / 0x10 % 16 = c.toNat / 16 := by omega
    rw [eq, escaped, chars]
    simp only [CodeUnit.ofNat, Hex.char_ofNat, zeros, high]
    rfl

theorem strokeChars_map_ofChar (cs : List Char) :
    strokeChars (cs.map Stroke.ofChar) = cs.flatMap escape := by
  simp only [strokeChars, List.flatMap_map, Stroke.chars_ofChar]

/-- What is written spells what it is written for. -/
theorem Spells.map_ofChar (cs : List Char) : Spells cs (cs.map Stroke.ofChar) := by
  induction cs with
  | nil => exact .nil
  | cons c cs ih =>
    rw [List.map_cons]
    rcases Stroke.ofChar_cases c with ⟨allowed, eq, -⟩ | ⟨letter, listed, eq, -⟩ | ⟨small, eq, -⟩
    · exact eq ▸ .plain allowed ih
    · exact eq ▸ .short listed ih
    · have value : [(CodeUnit.ofNat c.toNat false).value] = Text.charUnits c := by
        rw [Text.charUnits, if_pos (by omega), CodeUnit.value_ofNat (by omega)]
      exact eq ▸ .one value ih

end Dbml.Json
