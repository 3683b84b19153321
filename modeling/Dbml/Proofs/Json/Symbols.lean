import Dbml.Json
import Dbml.Json.Symbol

/-!
# Reading symbols

How one symbol is read off a text: a string piece by piece, a number as far as its digits go, and
white space not at all. Main statement: `Symbol.symbols_cons`.
-/

namespace Dbml.Json

variable {cs rest : List Char}

/-! ## Strings -/

namespace Symbol

theorem joinPieces_char (c : Char) (pieces : List Piece) :
    joinPieces (.char c :: pieces) = (joinPieces pieces).map (c :: ·) := by
  rw [joinPieces]

theorem readPieces_unit {a b c d : Char} {n : Nat} {pieces : List Piece}
    (unit : unitOf? a b c d = some n) (read : readPieces cs = some (pieces, rest)) :
    readPieces ('\\' :: 'u' :: a :: b :: c :: d :: cs) = some (.unit n :: pieces, rest) := by
  simp [readPieces, unit, read]

theorem readPieces_escaped {e c : Char} {pieces : List Piece} (is_escaped : escaped? e = some c)
    (read : readPieces cs = some (pieces, rest)) :
    readPieces ('\\' :: e :: cs) = some (.char c :: pieces, rest) := by
  have : e ≠ 'u' := by rintro rfl; simp [escaped?] at is_escaped
  simp [readPieces, is_escaped, read, this]

theorem readPieces_plain {c : Char} {pieces : List Piece} (quote : c ≠ '"')
    (backslash : c ≠ '\\') (large : ¬ c.toNat < 0x20)
    (read : readPieces cs = some (pieces, rest)) :
    readPieces (c :: cs) = some (.char c :: pieces, rest) := by
  rw [readPieces]
  · simp [large, backslash, read]
  · exact quote
  · rintro _ _ _ _ _ rfl
    exact absurd rfl backslash
  · rintro _ _ rfl
    exact absurd rfl backslash

/-! ## One symbol after another -/

theorem symbols_space {c : Char} (space : isSpace c = true) : symbols (c :: cs) = symbols cs := by
  rw [symbols, if_pos space]

theorem symbols_cons {c : Char} {symbol : Symbol} (solid : isSpace c = false)
    (read : readSymbol c cs = some (symbol, rest)) :
    symbols (c :: cs) = symbol :: symbols rest := by
  rw [symbols, if_neg (by simp [solid])]
  split
  next none => rw [read] at none; cases none
  next again => rw [read] at again; cases again; rfl

end Symbol

/-! ## Counts -/

namespace Number

/-- The number that a count is read as. -/
def ofCount (n : Nat) : Number :=
  ofSpelling { negative := false, whole := Nat.toDigits 10 n, fraction := [], exponent := none }

/-- What follows a number goes on with none of its characters. -/
def Ends (rest : List Char) : Prop :=
  ∀ c ∈ rest.head?, c.isDigit = false ∧ c ≠ '.' ∧ c ≠ 'e' ∧ c ≠ 'E'

theorem ends_cons {c : Char} (other : c.isDigit = false ∧ c ≠ '.' ∧ c ≠ 'e' ∧ c ≠ 'E') :
    Ends (c :: rest) := by
  simpa [Ends] using other

/-- Only nothing is written with a zero in front. -/
theorem eq_zero_of_toDigits (n : Nat) {cs : List Char} (digits : Nat.toDigits 10 n = '0' :: cs) :
    n = 0 := by
  induction n using Nat.strongRecOn generalizing cs with
  | ind n ih =>
    rw [Nat.toDigits_eq_if (by decide)] at digits
    split at digits
    next small =>
      have : ∀ n < 10, n.digitChar = '0' → n = 0 := by decide
      exact this n small (by simpa using (List.cons.inj digits).1)
    next large =>
      obtain ⟨front, eq, -⟩ := List.append_eq_cons_iff.1 digits |>.resolve_left
        (fun nil => Nat.toDigits_ne_nil nil.1)
      have := ih (n / 10) (by omega) eq
      omega

theorem readDigits_append {digits : List Char} (some_digit : digits ≠ [])
    (all : ∀ c ∈ digits, c.isDigit = true) (ends : ∀ c ∈ rest.head?, c.isDigit = false) :
    readDigits (digits ++ rest) = some (digits, rest) := by
  have stop : rest.takeWhile Char.isDigit = [] ∧ rest.dropWhile Char.isDigit = rest := by
    cases rest with
    | nil => exact ⟨rfl, rfl⟩
    | cons c rest => simp [ends c rfl]
  rw [readDigits, List.takeWhile_append_of_pos all, List.dropWhile_append_of_pos all, stop.1,
    stop.2, List.append_nil]
  simp [some_digit]

end Number

end Dbml.Json
