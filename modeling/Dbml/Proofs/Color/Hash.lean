import Dbml.Color
import Mathlib.Algebra.Order.Group.Unbundled.Int
import Mathlib.Data.List.Induction
import Mathlib.Tactic.Linarith

/-!
# The hash of a name in exact integers

The hash is taken with words of 64 bits, and one operand is cut to 32 bits on the way. Over names
that are not too long nothing wraps, so that the words hold what exact integers would; over shorter
ones all values are integers that a double holds exactly. Main statement: `ofName_exact`.
-/

namespace Dbml.Color

/-! ## Exact steps -/

/-- What a signed word of 32 bits keeps of an integer. -/
def cut32 (n : Int) : Int :=
  n.bmod (2 ^ 32)

/-- The hash as it is after a shift by five places, less the hash. -/
def exactDifference (hash : Int) : Int :=
  cut32 (cut32 hash * 32) - hash

def exactStep (hash : Int) (unit : Nat) : Int :=
  unit + exactDifference hash

def exactHash (units : List Nat) : Int :=
  units.foldl exactStep 0

/-- The hash over the units and what is added to the next one are smaller than the limit. -/
structure Below (limit : Int) (units : List Nat) : Prop where
  hash : |exactHash units| < limit
  difference : |exactDifference (exactHash units)| < limit

/-- The difference as words of 64 bits hold it. -/
def difference (hash : Int64) : Int64 :=
  (hash.toInt32 <<< 5).toInt64 - hash

theorem exactHash_concat (units : List Nat) (unit : Nat) :
    exactHash (units ++ [unit]) = exactStep (exactHash units) unit := by
  rw [exactHash, List.foldl_append, exactHash]
  rfl

/-! ## How large the values get -/

theorem abs_cut32_le (n : Int) : |cut32 n| ≤ 2 ^ 31 := by
  have low : -(2 ^ 32 / 2) ≤ cut32 n := Int.le_bmod (by decide)
  have high : cut32 n < (2 ^ 32 + 1) / 2 := Int.bmod_lt (by decide)
  rw [abs_le]
  omega

theorem abs_exactDifference_le (hash : Int) : |exactDifference hash| ≤ |hash| + 2 ^ 31 := by
  have cut := abs_cut32_le (cut32 hash * 32)
  calc |exactDifference hash|
      ≤ |cut32 (cut32 hash * 32)| + |hash| := abs_sub _ _
    _ ≤ |hash| + 2 ^ 31 := by omega

theorem abs_exactStep_le (hash : Int) {unit : Nat} (small : unit < 2 ^ 16) :
    |exactStep hash unit| ≤ |hash| + (2 ^ 31 + 2 ^ 16) := by
  have next := abs_exactDifference_le hash
  have size : |(unit : Int)| = unit := Nat.abs_cast unit
  calc |exactStep hash unit|
      ≤ |(unit : Int)| + |exactDifference hash| := abs_add_le _ _
    _ ≤ |hash| + (2 ^ 31 + 2 ^ 16) := by omega

/-- Every unit makes the hash larger by little more than the shifted operand. -/
theorem abs_exactHash_le {units : List Nat} (small : ∀ unit ∈ units, unit < 2 ^ 16) :
    |exactHash units| ≤ units.length * (2 ^ 31 + 2 ^ 16) := by
  induction units using List.reverseRecOn with
  | nil => decide
  | append_singleton units unit ih =>
    have before := ih fun other listed => small other (List.mem_append_left _ listed)
    have step := abs_exactStep_le (exactHash units) (small unit (by simp))
    rw [exactHash_concat, List.length_append, List.length_singleton]
    push_cast
    linarith

/-- Nothing grows beyond the limit over so many units. -/
theorem below_of_length {units : List Nat} (small : ∀ unit ∈ units, unit < 2 ^ 16) {limit : Int}
    (room : units.length * (2 ^ 31 + 2 ^ 16) + 2 ^ 31 < limit) : Below limit units := by
  have hash := abs_exactHash_le small
  have next := abs_exactDifference_le (exactHash units)
  exact ⟨by omega, by omega⟩

/-! ## Words hold the exact values -/

theorem toInt_shift (word : Int32) : (word <<< 5).toInt = cut32 (word.toInt * 32) := by
  have places : ((5 : Int32).toBitVec.smod 32).toNat = 5 := by decide
  have whole : word.toInt = (word.toBitVec.toNat : Int).bmod (2 ^ 32) :=
    BitVec.toInt_eq_toNat_bmod word.toBitVec
  show ((word <<< 5).toBitVec).toInt = _
  rw [Int32.toBitVec_shiftLeft, BitVec.shiftLeft_eq', places, BitVec.toInt_shiftLeft,
    Nat.shiftLeft_eq, cut32, whole, Int.bmod_mul_bmod]
  rfl

theorem bmod_eq_of_abs_lt {n : Int} (small : |n| < 2 ^ 63) : n.bmod (2 ^ 64) = n := by
  obtain ⟨low, high⟩ := abs_lt.1 small
  exact Int.bmod_eq_of_le (by omega) (by omega)

/-- The difference does not wrap when the exact one is small enough. -/
theorem toInt_difference {hash : Int64} (small : |exactDifference hash.toInt| < 2 ^ 63) :
    (difference hash).toInt = exactDifference hash.toInt := by
  rw [difference, Int64.toInt_sub, Int32.toInt_toInt64, toInt_shift, Int64.toInt_toInt32]
  exact bmod_eq_of_abs_lt small

theorem toInt_hashStep {hash : Int64} {unit : Nat} (low : unit < 2 ^ 16)
    (difference : |exactDifference hash.toInt| < 2 ^ 63)
    (step : |exactStep hash.toInt unit| < 2 ^ 63) :
    (hashStep hash unit).toInt = exactStep hash.toInt unit := by
  have size : (Int64.ofNat unit).toInt = unit := Int64.toInt_ofNat_of_lt (by omega)
  have next : (hash.toInt32 <<< 5).toInt64 - hash = Color.difference hash := rfl
  rw [hashStep, Int64.toInt_add, size, next, toInt_difference difference]
  exact bmod_eq_of_abs_lt step

/-- The hash is the exact one as long as that stays below the limit of a word. -/
theorem toInt_foldl_hashStep {units : List Nat} (small : ∀ unit ∈ units, unit < 2 ^ 16)
    (below : ∀ before, before <+: units → Below (2 ^ 63) before) :
    (units.foldl hashStep 0).toInt = exactHash units := by
  induction units using List.reverseRecOn with
  | nil => rfl
  | append_singleton units unit ih =>
    have first : units <+: units ++ [unit] := List.prefix_append _ _
    have before := ih (fun other listed => small other (List.mem_append_left _ listed))
      fun part inside => below part (inside.trans first)
    have difference := (below units first).difference
    have step := (below _ (List.prefix_refl _)).hash
    rw [exactHash_concat] at step ⊢
    rw [← before] at difference step ⊢
    rw [List.foldl_append]
    exact toInt_hashStep (small unit (by simp)) difference step

/-! ## Names -/

theorem lt_of_mem_units {name : String} {unit : Nat} (listed : unit ∈ Text.units name) :
    unit < 2 ^ 16 := by
  obtain ⟨c, -, among⟩ := List.mem_flatMap.1 listed
  have valid : c.toNat < 0x110000 := by
    have := c.valid
    rcases this with low | high
    · exact Nat.lt_trans low (by decide)
    · exact high.2
  unfold Text.charUnits at among
  split at among
  · rw [List.mem_singleton] at among
    omega
  · simp only [List.mem_cons, List.not_mem_nil, or_false] at among
    omega

/-- Over a name of at most `2 ^ 31` units no value of the hash or of the difference wraps, and each
is what exact integers give; over one of at most `2 ^ 21` units every value stays below `2 ^ 53`. The
colour is the one in the palette at the exact hash. -/
theorem ofName_exact {name : String} (short : (Text.units name).length ≤ 2 ^ 31) :
    (∀ before, before <+: Text.units name →
      (before.foldl hashStep 0).toInt = exactHash before ∧
      (difference (before.foldl hashStep 0)).toInt = exactDifference (exactHash before) ∧
      Below (2 ^ 63) before) ∧
    palette[(exactHash (Text.units name)).natAbs % 10]? = some (ofName name) ∧
    ((Text.units name).length ≤ 2 ^ 21 → ∀ before, before <+: Text.units name →
      Below (2 ^ 53) before) := by
  have small {before : List Nat} (first : before <+: Text.units name) :
      ∀ unit ∈ before, unit < 2 ^ 16 := fun unit listed => lt_of_mem_units (first.subset listed)
  have below {before : List Nat} (first : before <+: Text.units name) : Below (2 ^ 63) before := by
    have length := first.length_le
    exact below_of_length (small first) (by omega)
  have exact {before : List Nat} (first : before <+: Text.units name) :
      (before.foldl hashStep 0).toInt = exactHash before :=
    toInt_foldl_hashStep (small first) fun part inside => below (inside.trans first)
  refine ⟨fun before first => ⟨exact first, ?_, below first⟩, ?_, fun shorter before first => ?_⟩
  · rw [toInt_difference (by rw [exact first]; exact (below first).difference), exact first]
  · have index : (exactHash (Text.units name)).natAbs % palette.length < palette.length :=
      Nat.mod_lt _ (by decide)
    have same : hash name = (Text.units name).foldl hashStep 0 := rfl
    rw [ofName, same, exact (List.prefix_refl _), List.getD_eq_getElem?_getD]
    show palette[(exactHash (Text.units name)).natAbs % palette.length]? = _
    rw [List.getElem?_eq_getElem index]
    rfl
  · have length := first.length_le
    exact below_of_length (small first) (by omega)

/-- The hash of this name does not fit into 32 bits. -/
theorem ofName_exact_categories :
    2 ^ 31 < |exactHash (Text.units "categories")| ∧ ofName "categories" = "#FF6B6B" ∧
    (Text.units "categories").length ≤ 2 ^ 31 ∧ (Text.units "categories").length ≤ 2 ^ 21 ∧
    (∀ before, before <+: Text.units "categories" →
      (before.foldl hashStep 0).toInt = exactHash before ∧
      (difference (before.foldl hashStep 0)).toInt = exactDifference (exactHash before) ∧
      Below (2 ^ 63) before) ∧
    palette[(exactHash (Text.units "categories")).natAbs % 10]? = some (ofName "categories") ∧
    ∀ before, before <+: Text.units "categories" → Below (2 ^ 53) before := by
  have length : (Text.units "categories").length = 10 := by decide +kernel
  have short : (Text.units "categories").length ≤ 2 ^ 31 := by omega
  have shorter : (Text.units "categories").length ≤ 2 ^ 21 := by omega
  obtain ⟨exact, color, precise⟩ := ofName_exact short
  exact ⟨by decide +kernel, by decide +kernel, short, shorter, exact, color, precise shorter⟩

end Dbml.Color
