import Dbml.Text.Blank
import Dbml.Text.Numeric
import Dbml.Token

/-!
# Reading one token

A token is told by its first character and read off the front of what follows. Main statement:
`readToken_append`, nothing of what is read from is lost.
-/

namespace Dbml.Token

open Text

/-! ## The parts of a token -/

def beginsWord (c : Char) : Bool :=
  isAlphabetic c || c == '_'

def continuesWord (c : Char) : Bool :=
  isAlphanumeric c || c == '_'

/-- Splits off the digits of a number after its first one: a fraction belongs to it when a digit
follows the point. -/
def splitNumber (cs : List Char) : List Char × List Char :=
  let whole := cs.takeWhile Char.isDigit
  match cs.dropWhile Char.isDigit with
  | '.' :: d :: more =>
    if d.isDigit then
      (whole ++ '.' :: d :: more.takeWhile Char.isDigit, more.dropWhile Char.isDigit)
    else (whole, '.' :: d :: more)
  | rest => (whole, rest)

/-- Splits at the closing quote of the line; a backslash takes the next character with it, except
between backquotes. -/
def splitQuoted (quote : Char) : List Char → Option (List Char × List Char)
  | [] => none
  | c :: cs =>
    if c = quote then some ([], cs)
    else if c = '\n' then none
    else if c = '\\' && quote != '\x60' then
      match cs with
      | [] => none
      | e :: cs =>
        if e = '\n' then none
        else (splitQuoted quote cs).map fun (raw, rest) => (c :: e :: raw, rest)
    else (splitQuoted quote cs).map fun (raw, rest) => (c :: raw, rest)

/-- Splits at the first three single quotes; `before` is what was passed, last one first. -/
def splitTriple (before : List Char) : List Char → Option (List Char × List Char)
  | [] => none
  | '\'' :: '\'' :: '\'' :: rest => some (before.reverse, rest)
  | c :: cs => splitTriple (c :: before) cs

/-- The character that a backslash before `c` stands for. -/
def unescapeChar (c : Char) : Char :=
  match c with
  | 'n' => '\n'
  | 't' => '\t'
  | 'r' => '\r'
  | c => c

/-- The text that stands between two quotes, with escapes undone. -/
def unescape : List Char → List Char
  | '\\' :: c :: cs => unescapeChar c :: unescape cs
  | c :: cs => c :: unescape cs
  | [] => []

/-! ## One token -/

/-- A token, the characters it is written with after the first, and what follows it. -/
structure Reading where
  token : Token
  tail : List Char
  rest : List Char

/-- Reads a quoted token; a quote that is not closed on its line is a stray character. -/
def readQuoted (quote : Char) (token : List Char → Token) (cs : List Char) : Reading :=
  match splitQuoted quote cs with
  | some (raw, rest) => ⟨token raw, raw ++ [quote], rest⟩
  | none => ⟨.stray quote, [], cs⟩

/-- Reads the token that begins with `c` and goes on in `cs`; none when three quotes are not
closed. -/
def readToken (c : Char) (cs : List Char) : Option Reading :=
  if c = '\n' then some ⟨.newline, [], cs⟩
  else if c = '\'' ∧ cs.take 2 = ['\'', '\''] then
    (splitTriple [] (cs.drop 2)).map fun (raw, rest) =>
      ⟨.multiStr (String.ofList (trim raw)), '\'' :: '\'' :: raw ++ ['\'', '\'', '\''], rest⟩
  else if c = '\'' ∨ c = '"' then
    some (readQuoted c (fun raw => .str (String.ofList (unescape raw))) cs)
  else if c = '\x60' then some (readQuoted c (fun raw => .expr (String.ofList raw)) cs)
  else if c = '#' then
    let digits := cs.takeWhile Char.isAlphanum
    if digits.isEmpty then some ⟨.stray c, [], cs⟩
    else some ⟨.color (String.ofList (c :: digits)), digits, cs.dropWhile Char.isAlphanum⟩
  else if c = '<' ∧ cs.head? = some '>' then some ⟨.mark .lessGreater, ['>'], cs.drop 1⟩
  else match Mark.ofChar? c with
    | some m => some ⟨.mark m, [], cs⟩
    | none =>
      if c.isDigit then
        let (digits, rest) := splitNumber cs
        some ⟨.num (String.ofList (c :: digits)), digits, rest⟩
      else if beginsWord c then
        let letters := cs.takeWhile continuesWord
        some ⟨.ident (String.ofList (c :: letters)), letters, cs.dropWhile continuesWord⟩
      else some ⟨.stray c, [], cs⟩

/-! ## Nothing is lost -/

theorem splitNumber_append (cs : List Char) :
    (splitNumber cs).1 ++ (splitNumber cs).2 = cs := by
  have whole := List.takeWhile_append_dropWhile (p := Char.isDigit) (l := cs)
  unfold splitNumber
  simp only
  split
  next d more rest =>
    rw [rest] at whole
    split
    · simpa [List.takeWhile_append_dropWhile] using whole
    · exact whole
  · exact whole

theorem splitQuoted_append {quote : Char} {cs raw rest : List Char}
    (h : splitQuoted quote cs = some (raw, rest)) : raw ++ quote :: rest = cs := by
  fun_induction splitQuoted quote cs generalizing raw rest with
  | case1 => cases h
  | case2 => cases h; rfl
  | case3 => cases h
  | case4 => cases h
  | case5 => cases h
  | case6 c _ _ _ e cs _ ih =>
    obtain ⟨⟨r, s⟩, split, eq⟩ := Option.map_eq_some_iff.1 h
    cases eq
    simp [ih split]
  | case7 c cs _ _ _ ih =>
    obtain ⟨⟨r, s⟩, split, eq⟩ := Option.map_eq_some_iff.1 h
    cases eq
    simp [ih split]

theorem splitTriple_append {before cs raw rest : List Char}
    (h : splitTriple before cs = some (raw, rest)) :
    raw ++ '\'' :: '\'' :: '\'' :: rest = before.reverse ++ cs := by
  fun_induction splitTriple before cs with
  | case1 => cases h
  | case2 => cases h; rfl
  | case3 before c cs _ ih => simpa using ih h

theorem readQuoted_append (quote : Char) (token : List Char → Token) (cs : List Char) :
    (readQuoted quote token cs).tail ++ (readQuoted quote token cs).rest = cs := by
  unfold readQuoted
  split
  next raw rest split => simpa using splitQuoted_append split
  · rfl

/-- A token's spelling and what follows it make up what was read from. -/
theorem readToken_append {c : Char} {cs : List Char} {r : Reading}
    (h : readToken c cs = some r) : r.tail ++ r.rest = cs := by
  unfold readToken at h
  split at h
  · cases h; rfl
  split at h
  next triple =>
    obtain ⟨⟨raw, rest⟩, split, eq⟩ := Option.map_eq_some_iff.1 h
    cases eq
    have parts := splitTriple_append split
    have whole := List.take_append_drop 2 cs
    rw [triple.2] at whole
    simp only [List.reverse_nil, List.nil_append] at parts
    rw [← parts] at whole
    simpa using whole
  split at h
  · cases h; exact readQuoted_append _ _ _
  split at h
  · cases h; exact readQuoted_append _ _ _
  split at h
  · simp only at h
    split at h <;> cases h
    · rfl
    · exact List.takeWhile_append_dropWhile
  split at h
  next lessGreater =>
    cases h
    cases cs with
    | nil => cases lessGreater.2
    | cons d cs => simpa using lessGreater.2.symm
  split at h
  · cases h; rfl
  split at h
  · cases h; exact splitNumber_append cs
  split at h
  · cases h; exact List.takeWhile_append_dropWhile
  · cases h; rfl

end Dbml.Token
