/-!
# JSON numbers

A number is told apart by what a model can do with it: a count of at most 64 bits is a value, any
other number is read as a double and then of no use, and one too large for a double is a fault.
-/

namespace Dbml.Json

inductive Number
  /-- A count of at most 64 bits, written with digits only. -/
  | count (n : Nat)
  /-- Any other number that a double can hold. -/
  | other
  /-- A number too large for a double. -/
  | excessive
  deriving DecidableEq, Repr

namespace Number

def countLimit : Nat := Nat.pow 2 64 - 1

/-! ## The size of doubles -/

/-- The number rounded to 53 binary digits, a half to the even neighbour. -/
def roundToDouble (n : Nat) : Nat :=
  let unit := Nat.pow 2 (n.log2 + 1 - 53)
  let low := n / unit
  let rest := 2 * (n % unit)
  let up := rest > unit ∨ rest = unit ∧ low % 2 = 1
  unit * (if up then low + 1 else low)

/-- From this number on, rounding leaves the range of doubles. -/
def doubleLimit : Nat := Nat.pow 2 1024 - Nat.pow 2 970

/-- Whether `significand * 10 ^ exponent` is too large for a double, when both factors are rounded
before they are multiplied. -/
def exceedsDouble (significand : Nat) (exponent : Int) : Bool :=
  match exponent with
  | .negSucc _ => false
  | .ofNat e =>
    significand != 0 &&
      (308 < e || doubleLimit ≤ roundToDouble significand * roundToDouble (Nat.pow 10 e))

/-! ## Digits -/

/-- The number that the digits continue, as far as it stays a count, and how many were taken. -/
def accumulate (n taken : Nat) : List Char → Nat × Nat
  | [] => (n, taken)
  | c :: cs =>
    let next := n * 10 + (c.toNat - '0'.toNat)
    if countLimit < next then (n, taken) else accumulate next (taken + 1) cs

/-- The number of digits, without a limit. -/
def ofDigits (digits : List Char) : Nat :=
  digits.foldl (fun n c => n * 10 + (c.toNat - '0'.toNat)) 0

structure Spelling where
  negative : Bool
  /-- The digits before the point. -/
  whole : List Char
  /-- The digits behind the point, which are none when there is no point. -/
  fraction : List Char
  exponent : Option Int

def ofSpelling (n : Spelling) : Number :=
  let (head, taken) := accumulate 0 0 n.whole
  if !n.negative && taken == n.whole.length && n.fraction.isEmpty && n.exponent.isNone then
    .count head
  else
    let (significand, used) := accumulate head 0 n.fraction
    let shift : Int := (n.whole.length - taken : Nat) - (used : Nat)
    if exceedsDouble significand (shift + n.exponent.getD 0) then .excessive else .other

/-! ## Reading -/

/-- Splits off the digits in front, of which there must be one. -/
def readDigits (cs : List Char) : Option (List Char × List Char) :=
  let digits := cs.takeWhile Char.isDigit
  if digits.isEmpty then none else some (digits, cs.dropWhile Char.isDigit)

/-- Splits off the digits before the point; a zero stands alone. -/
def readWhole : List Char → Option (List Char × List Char)
  | '0' :: cs => if (cs.head?.any Char.isDigit) then none else some (['0'], cs)
  | cs => readDigits cs

/-- Splits off a point and digits, if there is a point. -/
def readFraction : List Char → Option (List Char × List Char)
  | '.' :: cs => readDigits cs
  | cs => some ([], cs)

/-- Splits off an exponent, if there is one. -/
def readExponent : List Char → Option (Option Int × List Char)
  | [] => some (none, [])
  | c :: cs =>
    if c = 'e' ∨ c = 'E' then
      let negative := cs.head? = some '-'
      let signed := negative ∨ cs.head? = some '+'
      (readDigits (if signed then cs.drop 1 else cs)).map fun (digits, rest) =>
        let e : Int := ofDigits digits
        (some (if negative then -e else e), rest)
    else some (none, c :: cs)

def read (negative : Bool) (cs : List Char) : Option (Number × List Char) := do
  let (whole, cs) ← readWhole cs
  let (fraction, cs) ← readFraction cs
  let (exponent, cs) ← readExponent cs
  return (ofSpelling { negative, whole, fraction, exponent }, cs)

/-! ## Reading moves on -/

theorem readDigits_length_lt {cs digits rest : List Char}
    (h : readDigits cs = some (digits, rest)) : rest.length < cs.length := by
  have parts := congrArg List.length (List.takeWhile_append_dropWhile (p := Char.isDigit) (l := cs))
  unfold readDigits at h
  simp only at h
  split at h
  · cases h
  next some_digit =>
    cases h
    have : 0 < (cs.takeWhile Char.isDigit).length := by
      simpa [List.length_pos_iff] using some_digit
    rw [List.length_append] at parts
    omega

theorem readWhole_length_lt {cs digits rest : List Char}
    (h : readWhole cs = some (digits, rest)) : rest.length < cs.length := by
  unfold readWhole at h
  split at h
  · split at h <;> cases h
    simp
  · exact readDigits_length_lt h

theorem readFraction_length_le {cs digits rest : List Char}
    (h : readFraction cs = some (digits, rest)) : rest.length ≤ cs.length := by
  unfold readFraction at h
  split at h
  · have := readDigits_length_lt h
    simp only [List.length_cons]; omega
  · cases h; simp

theorem readExponent_length_le {cs rest : List Char} {exponent : Option Int}
    (h : readExponent cs = some (exponent, rest)) : rest.length ≤ cs.length := by
  unfold readExponent at h
  split at h
  · cases h; simp
  · split at h
    · obtain ⟨⟨digits, after⟩, read, eq⟩ := Option.map_eq_some_iff.1 h
      cases eq
      have := readDigits_length_lt read
      split at this <;> simp only [List.length_drop, List.length_cons] at this ⊢ <;> omega
    · cases h; simp

theorem read_length_lt {negative : Bool} {cs rest : List Char} {n : Number}
    (h : read negative cs = some (n, rest)) : rest.length < cs.length := by
  simp only [read, Option.bind_eq_bind, Option.bind_eq_some_iff, Option.pure_def] at h
  obtain ⟨⟨_, a⟩, whole, ⟨_, b⟩, fraction, ⟨_, c⟩, exponent, eq⟩ := h
  cases eq
  exact Nat.lt_of_le_of_lt
    (Nat.le_trans (readExponent_length_le exponent) (readFraction_length_le fraction))
    (readWhole_length_lt whole)

end Number

end Dbml.Json
