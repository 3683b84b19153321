import Dbml.Proofs.Json.Strokes
import Mathlib.Data.List.Chain

/-!
# The words of a JSON text

A text consists of words, with white space around them. Main statement: `Spaced.symbols_eq`, every
word is read as its symbol, whatever white space there is, if no number is followed by a word that
would carry it on.
-/

namespace Dbml.Json

/-! ## Numbers -/

structure Digits where
  chars : List Char
  some_digit : chars ≠ []
  all : chars.all Char.isDigit = true

theorem Digits.isDigit (digits : Digits) : ∀ c ∈ digits.chars, c.isDigit = true :=
  List.all_eq_true.1 digits.all

/-- The digits of a count, with none that could be left out. -/
def Digits.ofCount (n : Nat) : Digits where
  chars := Nat.toDigits 10 n
  some_digit := Nat.toDigits_ne_nil
  all := List.all_eq_true.2 fun _ => Nat.isDigit_of_mem_toDigits (by decide) (by decide)

theorem Digits.zero_alone (n : Nat) (cs : List Char) (zero : (ofCount n).chars = '0' :: cs) :
    cs = [] := by
  change Nat.toDigits 10 n = '0' :: cs at zero
  obtain rfl := Number.eq_zero_of_toDigits n zero
  rw [Nat.toDigits_zero] at zero
  exact (List.cons.inj zero).2.symm

inductive Sign
  | none
  | plus
  | minus
  deriving DecidableEq

def Sign.chars : Sign → List Char
  | .none => []
  | .plus => ['+']
  | .minus => ['-']

structure Exponent where
  capital : Bool
  sign : Sign
  digits : Digits

def Exponent.chars (e : Exponent) : List Char :=
  (if e.capital then 'E' else 'e') :: (e.sign.chars ++ e.digits.chars)

def Exponent.value (e : Exponent) : Int :=
  let size : Int := Number.ofDigits e.digits.chars
  if e.sign = .minus then -size else size

/-- A number as it is written. -/
structure Numeral where
  negative : Bool
  whole : Digits
  /-- A zero before the point stands alone. -/
  zero_alone : ∀ cs, whole.chars = '0' :: cs → cs = []
  fraction : Option Digits
  exponent : Option Exponent

namespace Numeral

def fractionChars (fraction : Option Digits) : List Char :=
  fraction.elim [] fun digits => '.' :: digits.chars

def exponentChars (exponent : Option Exponent) : List Char :=
  exponent.elim [] Exponent.chars

/-- What stands behind the sign. -/
def unsigned (n : Numeral) : List Char :=
  n.whole.chars ++ (fractionChars n.fraction ++ exponentChars n.exponent)

def chars (n : Numeral) : List Char :=
  if n.negative then '-' :: n.unsigned else n.unsigned

def number (n : Numeral) : Number :=
  .ofSpelling
    { negative := n.negative
      whole := n.whole.chars
      fraction := n.fraction.elim [] Digits.chars
      exponent := n.exponent.map Exponent.value }

/-- A count as it is written. -/
def ofCount (n : Nat) : Numeral where
  negative := false
  whole := .ofCount n
  zero_alone := Digits.zero_alone n
  fraction := none
  exponent := none

theorem chars_ofCount (n : Nat) : (ofCount n).chars = Nat.toDigits 10 n :=
  List.append_nil _

end Numeral

namespace Number

variable {rest : List Char}

theorem exists_digit (digits : Digits) :
    ∃ c cs, digits.chars = c :: cs ∧ c.isDigit = true := by
  obtain ⟨c, cs, eq⟩ := List.exists_cons_of_ne_nil digits.some_digit
  exact ⟨c, cs, eq, digits.isDigit c (eq ▸ List.mem_cons_self)⟩

theorem Ends.no_digit (ends : Ends rest) : ∀ c ∈ rest.head?, c.isDigit = false :=
  fun c first => (ends c first).1

/-- A part of a number ends before its exponent. -/
theorem no_digit_exponentChars (exponent : Option Exponent) (ends : Ends rest) :
    ∀ c ∈ (Numeral.exponentChars exponent ++ rest).head?, c.isDigit = false ∧ c ≠ '.' := by
  intro c first
  cases exponent with
  | none => exact ⟨(ends c first).1, (ends c first).2.1⟩
  | some e =>
    simp only [Numeral.exponentChars, Option.elim_some, Exponent.chars, List.cons_append,
      List.head?_cons, Option.mem_some] at first
    subst first
    cases e.capital <;> decide

theorem no_digit_fractionChars (fraction : Option Digits) {rest : List Char}
    (ends : ∀ c ∈ rest.head?, c.isDigit = false ∧ c ≠ '.') :
    ∀ c ∈ (Numeral.fractionChars fraction ++ rest).head?, c.isDigit = false := by
  intro c first
  cases fraction with
  | none => exact (ends c first).1
  | some digits =>
    cases (Option.some.inj first : '.' = c)
    decide

theorem readWhole_digits {whole : Digits} (zero_alone : ∀ cs, whole.chars = '0' :: cs → cs = [])
    (ends : ∀ c ∈ rest.head?, c.isDigit = false) :
    readWhole (whole.chars ++ rest) = some (whole.chars, rest) := by
  obtain ⟨c, cs, eq, -⟩ := exists_digit whole
  by_cases zero : c = '0'
  · subst zero
    obtain rfl := zero_alone cs eq
    have stop : rest.head?.any Char.isDigit = false := by
      cases rest with
      | nil => rfl
      | cons c rest => exact ends c rfl
    simp [eq, readWhole, stop]
  · rw [← readDigits_append whole.some_digit whole.isDigit ends, eq, List.cons_append, readWhole]
    exact fun _ same => zero (List.cons.inj same).1

theorem readFraction_chars (fraction : Option Digits)
    (ends : ∀ c ∈ rest.head?, c.isDigit = false ∧ c ≠ '.') :
    readFraction (Numeral.fractionChars fraction ++ rest) =
      some (fraction.elim [] Digits.chars, rest) := by
  cases fraction with
  | some digits =>
    exact readDigits_append digits.some_digit digits.isDigit fun c first => (ends c first).1
  | none =>
    cases rest with
    | nil => rfl
    | cons c rest =>
      rw [Numeral.fractionChars, Option.elim_none, List.nil_append, readFraction]
      · rfl
      · exact fun _ same => (ends c rfl).2 (List.cons.inj same).1

theorem readExponent_chars (exponent : Option Exponent) (ends : Ends rest) :
    readExponent (Numeral.exponentChars exponent ++ rest) =
      some (exponent.map Exponent.value, rest) := by
  cases exponent with
  | none =>
    cases rest with
    | nil => rfl
    | cons c rest => simp [Numeral.exponentChars, readExponent, ends c rfl]
  | some e =>
    obtain ⟨capital, sign, digits⟩ := e
    have read := readDigits_append digits.some_digit digits.isDigit ends.no_digit
    have letter : (if capital then 'E' else 'e') = 'e' ∨ (if capital then 'E' else 'e') = 'E' := by
      cases capital <;> decide
    simp only [Numeral.exponentChars, Option.elim_some, Exponent.chars, List.cons_append,
      List.append_assoc, readExponent, if_pos letter, Option.map_some]
    cases sign with
    | plus => simp [Sign.chars, read, Exponent.value]
    | minus => simp [Sign.chars, read, Exponent.value]
    | none =>
      obtain ⟨c, cs, eq, digit⟩ := exists_digit digits
      have unsigned : c ≠ '-' ∧ c ≠ '+' := by
        constructor <;> rintro rfl <;> exact absurd digit (by decide)
      have first : (digits.chars ++ rest).head? = some c := by rw [eq]; rfl
      simp [Sign.chars, first, unsigned, read, Exponent.value]

theorem read_unsigned (n : Numeral) (ends : Ends rest) :
    read n.negative (n.unsigned ++ rest) = some (n.number, rest) := by
  have exponent := readExponent_chars n.exponent ends
  have ends := no_digit_exponentChars n.exponent ends
  have fraction := readFraction_chars n.fraction ends
  have whole := readWhole_digits n.zero_alone (no_digit_fractionChars n.fraction ends)
  simp [read, Numeral.unsigned, whole, fraction, exponent, Numeral.number]

end Number

theorem Symbol.isSpace_digit {c : Char} (digit : c.isDigit = true) : isSpace c = false := by
  rw [Bool.eq_false_iff]
  intro space
  simp only [isSpace, Bool.or_eq_true, beq_iff_eq] at space
  rcases space with ((rfl | rfl) | rfl) | rfl <;> exact absurd digit (by decide)

theorem Numeral.symbols_chars (n : Numeral) {rest : List Char} (ends : Number.Ends rest) :
    Symbol.symbols (n.chars ++ rest) = .number n.number :: Symbol.symbols rest := by
  have read := Number.read_unsigned n ends
  cases sign : n.negative with
  | true =>
    rw [sign] at read
    rw [chars, if_pos sign, List.cons_append]
    refine Symbol.symbols_cons (by decide) ?_
    simp [Symbol.readSymbol, read]
  | false =>
    obtain ⟨c, cs, eq, digit⟩ := Number.exists_digit n.whole
    rw [sign, unsigned, eq, List.cons_append, List.cons_append] at read
    rw [chars, if_neg (by simp [sign]), unsigned, eq, List.cons_append, List.cons_append]
    refine Symbol.symbols_cons (Symbol.isSpace_digit digit) ?_
    rw [Symbol.readSymbol, if_pos digit, read]
    · rfl
    all_goals rintro rfl; exact absurd digit (by decide)

/-! ## Words -/

/-- A word of a text: a bracket or a separator, or a scalar value. -/
inductive Lexeme
  | openObject
  | closeObject
  | openArray
  | closeArray
  | comma
  | colon
  | null
  | bool (b : Bool)
  | number (n : Numeral)
  | string (strokes : List Stroke)

namespace Lexeme

def chars : Lexeme → List Char
  | .openObject => ['\x7b']
  | .closeObject => ['\x7d']
  | .openArray => ['[']
  | .closeArray => [']']
  | .comma => [',']
  | .colon => [':']
  | .null => "null".toList
  | .bool true => "true".toList
  | .bool false => "false".toList
  | .number n => n.chars
  | .string strokes => '"' :: strokeChars strokes ++ ['"']

/-- What the word is read as. -/
def symbol : Lexeme → Symbol
  | .openObject => .openObject
  | .closeObject => .closeObject
  | .openArray => .openArray
  | .closeArray => .closeArray
  | .comma => .comma
  | .colon => .colon
  | .null => .null
  | .bool b => .bool b
  | .number n => .number n.number
  | .string strokes => .string (readStrokes strokes)

/-- Whether the word is a value. -/
def isScalar : Lexeme → Bool
  | .null | .bool _ | .number _ | .string _ => true
  | _ => false

/-- One value does not follow another at once. -/
def Parted (first second : Lexeme) : Prop :=
  ¬ (first.isScalar = true ∧ second.isScalar = true)

theorem symbols_chars (word : Lexeme) {rest : List Char}
    (ends : word.isScalar = true → Number.Ends rest) :
    Symbol.symbols (word.chars ++ rest) = word.symbol :: Symbol.symbols rest := by
  cases word with
  | openObject | closeObject | openArray | closeArray | comma | colon | null =>
    exact Symbol.symbols_cons (by decide) rfl
  | bool b => cases b <;> exact Symbol.symbols_cons (by decide) rfl
  | number n => exact n.symbols_chars (ends rfl)
  | string strokes =>
    rw [chars, List.cons_append, List.cons_append, List.append_assoc, List.singleton_append]
    refine Symbol.symbols_cons (by decide) ?_
    simp [Symbol.readSymbol, Symbol.readPieces_strokes, symbol, readStrokes]

/-- No number goes on in a bracket or a separator. -/
theorem ends_chars {word : Lexeme} (mark : word.isScalar = false) (rest : List Char) :
    Number.Ends (word.chars ++ rest) := by
  cases word with
  | null | bool | number | string => cases mark
  | openObject | closeObject | openArray | closeArray | comma | colon =>
    exact Number.ends_cons (by decide)

end Lexeme

/-! ## Texts -/

/-- The text consists of the words, with white space before each and behind the last. -/
inductive Spaced : List Lexeme → List Char → Prop
  | nil {gap : List Char} (space : ∀ c ∈ gap, Symbol.isSpace c = true) : Spaced [] gap
  | cons {gap text : List Char} {word : Lexeme} {words : List Lexeme}
    (space : ∀ c ∈ gap, Symbol.isSpace c = true) (rest : Spaced words text) :
    Spaced (word :: words) (gap ++ (word.chars ++ text))

namespace Spaced

variable {gap text : List Char} {words : List Lexeme}

/-- More white space in front makes no difference. -/
theorem indent (spaced : Spaced words text) (space : ∀ c ∈ gap, Symbol.isSpace c = true) :
    Spaced words (gap ++ text) := by
  cases spaced with
  | nil more => exact .nil fun c listed => (List.mem_append.1 listed).elim (space c) (more c)
  | cons more rest =>
    rw [← List.append_assoc]
    exact .cons (fun c listed => (List.mem_append.1 listed).elim (space c) (more c)) rest

/-- A word right behind what stands before it. -/
theorem word (word : Lexeme) (rest : Spaced words text) :
    Spaced (word :: words) (word.chars ++ text) := by
  have nothing : ∀ c ∈ ([] : List Char), Symbol.isSpace c = true := nofun
  exact .cons nothing rest

theorem symbols_indent (space : ∀ c ∈ gap, Symbol.isSpace c = true) :
    Symbol.symbols (gap ++ text) = Symbol.symbols text := by
  induction gap with
  | nil => rfl
  | cons c gap ih =>
    rw [List.cons_append, Symbol.symbols_space (space c List.mem_cons_self)]
    exact ih fun c listed => space c (List.mem_cons_of_mem _ listed)

theorem ends_indent (space : ∀ c ∈ gap, Symbol.isSpace c = true) (ends : Number.Ends text) :
    Number.Ends (gap ++ text) := by
  cases gap with
  | nil => exact ends
  | cons c gap =>
    have first := space c List.mem_cons_self
    simp only [Symbol.isSpace, Bool.or_eq_true, beq_iff_eq] at first
    rcases first with ((rfl | rfl) | rfl) | rfl <;> exact Number.ends_cons (by decide)

/-- A number before the text ends there, if the text does not begin with a value. -/
theorem ends (spaced : Spaced words text) (mark : ∀ word ∈ words.head?, word.isScalar = false) :
    Number.Ends text := by
  cases spaced with
  | nil space =>
    rw [← List.append_nil text]
    exact ends_indent space nofun
  | cons space _ => exact ends_indent space (Lexeme.ends_chars (mark _ rfl) _)

theorem symbols_eq (spaced : Spaced words text) (parted : words.IsChain Lexeme.Parted) :
    Symbol.symbols text = words.map Lexeme.symbol := by
  induction spaced with
  | nil space =>
    have nothing : Symbol.symbols (_ ++ []) = Symbol.symbols [] := symbols_indent space
    rwa [List.append_nil, Symbol.symbols] at nothing
  | @cons gap text word words space rest ih =>
    rw [List.isChain_cons] at parted
    have ends (scalar : word.isScalar = true) : Number.Ends text :=
      rest.ends fun next first =>
        Bool.eq_false_iff.2 fun other => parted.1 next first ⟨scalar, other⟩
    rw [symbols_indent space, word.symbols_chars ends, ih parted.2, List.map_cons]

end Spaced

/-! ### Telling whether a text consists of words -/

/-- A word is never empty, and begins with no white space. -/
theorem Lexeme.exists_chars (word : Lexeme) :
    ∃ c cs, word.chars = c :: cs ∧ Symbol.isSpace c = false := by
  cases word with
  | openObject | closeObject | openArray | closeArray | comma | colon | null =>
    exact ⟨_, _, rfl, by decide⟩
  | string strokes => exact ⟨_, _, rfl, by decide⟩
  | bool b => cases b <;> exact ⟨_, _, rfl, by decide⟩
  | number n =>
    obtain ⟨c, cs, eq, digit⟩ := Number.exists_digit n.whole
    rw [chars, Numeral.chars]
    split
    · exact ⟨_, _, rfl, by decide⟩
    · exact ⟨c, _, by rw [Numeral.unsigned, eq, List.cons_append], Symbol.isSpace_digit digit⟩

def isSpaced : List Lexeme → List Char → Bool
  | [], text => text.all Symbol.isSpace
  | word :: words, text =>
    let solid := text.dropWhile Symbol.isSpace
    word.chars.isPrefixOf solid && isSpaced words (solid.drop word.chars.length)

theorem isSpaced_iff {words : List Lexeme} {text : List Char} :
    isSpaced words text = true ↔ Spaced words text := by
  induction words generalizing text with
  | nil =>
    rw [isSpaced, List.all_eq_true]
    exact ⟨.nil, fun spaced => by cases spaced; assumption⟩
  | cons word words ih =>
    rw [isSpaced, Bool.and_eq_true, List.isPrefixOf_iff_prefix, ih]
    constructor
    · rintro ⟨⟨rest, first⟩, later⟩
      rw [← first, List.drop_left] at later
      rw [← List.takeWhile_append_dropWhile (p := Symbol.isSpace) (l := text), ← first]
      exact .cons (List.all_eq_true.1 List.all_takeWhile) later
    · intro spaced
      cases spaced with
      | @cons gap rest _ _ space later =>
        obtain ⟨c, cs, eq, solid⟩ := word.exists_chars
        have front : (gap ++ (word.chars ++ rest)).dropWhile Symbol.isSpace =
            word.chars ++ rest := by
          rw [List.dropWhile_append_of_pos space, eq, List.cons_append,
            List.dropWhile_cons_of_neg (by simp [solid])]
        rw [front, List.drop_left]
        exact ⟨List.prefix_append .., later⟩

instance (words : List Lexeme) (text : List Char) : Decidable (Spaced words text) :=
  decidable_of_iff _ isSpaced_iff

end Dbml.Json
