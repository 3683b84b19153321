import Dbml.Proofs.Source.Contents

/-!
# Copied ranges of tokens

A range of tokens is copied when the same tokens stand in another source, at some distance, with the
same gaps between them. Whatever is found in a range is found in its copy at that distance. Main
statements: one lemma for each way to look into a range.
-/

namespace Dbml

namespace TokenRange

/-- The range `d` tokens behind. -/
def shift (range : TokenRange) (d : Nat) : TokenRange :=
  ⟨range.start + d, range.stop + d⟩

variable (range : TokenRange) (d : Nat)

@[simp] theorem shift_start : (range.shift d).start = range.start + d := rfl

@[simp] theorem shift_stop : (range.shift d).stop = range.stop + d := rfl

@[simp] theorem shift_size : (range.shift d).size = range.size := by
  simp only [size, shift]
  omega

@[simp] theorem shift_isEmpty : (range.shift d).isEmpty = range.isEmpty := by
  simp [isEmpty]

@[simp] theorem shift_drop (n : Nat) : (range.shift d).drop n = (range.drop n).shift d := by
  simp only [drop, shift, mk.injEq, and_true]
  omega

end TokenRange

/-- The tokens of the range stand in the second source `d` numbers further, with the same gaps
between them; `place` tells where each token is. -/
structure Copied (s s' : Source) (place : Nat → Nat) (d : Nat) (range : TokenRange) : Prop where
  bound : range.stop ≤ s.size
  place : ∀ i, range.start ≤ i → i < range.stop → place i = i + d
  token : ∀ i, range.start ≤ i → i < range.stop → s'.token? (i + d) = s.token? i
  adjacent : ∀ i, range.start < i → i < range.stop → s'.isAdjacent (i + d) = s.isAdjacent i
  text : ∀ part : TokenRange, range.start ≤ part.start → part.stop ≤ range.stop →
    s'.text (part.shift d) = s.text part

namespace Copied

open Source

variable {s s' : Source} {place : Nat → Nat} {d i count : Nat} {range : TokenRange}

/-- A part of a copied range is copied. -/
theorem restrict {part : TokenRange} (copied : Copied s s' place d range)
    (low : range.start ≤ part.start) (high : part.stop ≤ range.stop) :
    Copied s s' place d part where
  bound := Nat.le_trans high copied.bound
  place i first last := copied.place i (Nat.le_trans low first) (Nat.lt_of_lt_of_le last high)
  token i first last := copied.token i (Nat.le_trans low first) (Nat.lt_of_lt_of_le last high)
  adjacent i first last :=
    copied.adjacent i (Nat.lt_of_le_of_lt low first) (Nat.lt_of_lt_of_le last high)
  text part first last := copied.text part (Nat.le_trans low first) (Nat.le_trans last high)

theorem between {i j : Nat} (copied : Copied s s' place d range) (low : range.start ≤ i)
    (high : j ≤ range.stop) : Copied s s' place d ⟨i, j⟩ :=
  copied.restrict low high

theorem drop (copied : Copied s s' place d range) (n : Nat) : Copied s s' place d (range.drop n) :=
  copied.restrict (Nat.le_add_right _ _) (Nat.le_refl _)

/-! ## One token -/

theorem holds (copied : Copied s s' place d range) (p : Token → Bool) (low : range.start ≤ i)
    (high : i < range.stop) : s'.holds (i + d) p = s.holds i p := by
  rw [Source.holds, copied.token i low high, Source.holds]

theorem isMark (copied : Copied s s' place d range) (mark : Mark) (low : range.start ≤ i)
    (high : i < range.stop) : s'.isMark (i + d) mark = s.isMark i mark := by
  rw [Source.isMark, copied.token i low high, Source.isMark]

theorem isKeyword (copied : Copied s s' place d range) (keyword : String)
    (low : range.start ≤ i) (high : i < range.stop) :
    s'.isKeyword (i + d) keyword = s.isKeyword i keyword :=
  copied.holds _ low high

/-! ## Searches -/

theorem findFrom (copied : Copied s s' place d range) (p : Token → Bool) (low : range.start ≤ i)
    (high : i + count ≤ range.stop) :
    s'.findFrom p (i + d) count = (s.findFrom p i count).map (· + d) := by
  induction count generalizing i with
  | zero => rfl
  | succ count ih =>
    have rest := ih (i := i + 1) (by omega) (by omega)
    rw [Source.findFrom, Source.findFrom, copied.holds p low (by omega), Nat.add_right_comm, rest]
    split <;> rfl

theorem find? (copied : Copied s s' place d range) (p : Token → Bool) :
    s'.find? (range.shift d) p = (s.find? range p).map (· + d) := by
  rw [Source.find?, TokenRange.shift_size, Source.find?]
  by_cases some_token : range.start ≤ range.stop
  · exact copied.findFrom p (Nat.le_refl _) (by simp only [TokenRange.size]; omega)
  · rw [show range.size = 0 by simp only [TokenRange.size]; omega]
    rfl

theorem findOutsideFrom (copied : Copied s s' place d range) (left right : Mark)
    (p : Token → Bool) (depth : Nat) (low : range.start ≤ i) (high : i + count ≤ range.stop) :
    s'.findOutsideFrom left right p depth (i + d) count =
      (s.findOutsideFrom left right p depth i count).map (· + d) := by
  induction count generalizing i depth with
  | zero => rfl
  | succ count ih =>
    have rest (depth : Nat) := ih (i := i + 1) depth (by omega) (by omega)
    rw [Source.findOutsideFrom, Source.findOutsideFrom, copied.isMark left low (by omega),
      copied.isMark right low (by omega), copied.holds p low (by omega), Nat.add_right_comm,
      rest, rest, rest]
    split
    · rfl
    split
    · rfl
    split <;> rfl

theorem findOutside? (copied : Copied s s' place d range) (left right : Mark)
    (p : Token → Bool) :
    s'.findOutside? left right (range.shift d) p =
      (s.findOutside? left right range p).map (· + d) := by
  rw [Source.findOutside?, TokenRange.shift_size, Source.findOutside?]
  by_cases some_token : range.start ≤ range.stop
  · exact copied.findOutsideFrom left right p 0 (Nat.le_refl _)
      (by simp only [TokenRange.size]; omega)
  · rw [show range.size = 0 by simp only [TokenRange.size]; omega]
    rfl

theorem matchingFrom (copied : Copied s s' place d range) (left right : Mark) (depth : Nat)
    (low : range.start ≤ i) (high : i + count ≤ range.stop) :
    s'.matchingFrom left right depth (i + d) count =
      (s.matchingFrom left right depth i count).map (· + d) := by
  induction count generalizing i depth with
  | zero => rfl
  | succ count ih =>
    have rest (depth : Nat) := ih (i := i + 1) depth (by omega) (by omega)
    rw [Source.matchingFrom, Source.matchingFrom, copied.isMark left low (by omega),
      copied.isMark right low (by omega), Nat.add_right_comm, rest, rest, rest]
    split
    · rfl
    split
    · split <;> rfl
    · rfl

/-- The partner of a bracket in the range. -/
theorem matching (copied : Copied s s' place d range) (left right : Mark)
    (low : range.start ≤ i) :
    s'.matching (i + d) (range.stop + d) left right =
      (s.matching i range.stop left right).map (· + d) := by
  rw [Source.matching, Source.matching, Nat.add_sub_add_right]
  by_cases inside : i ≤ range.stop
  · exact copied.matchingFrom left right 0 low (by omega)
  · rw [show range.stop - i = 0 by omega]
    rfl

/-! ## All tokens -/

theorem tokens (copied : Copied s s' place d range) :
    s'.tokens (range.shift d) = s.tokens range := by
  obtain ⟨start, stop⟩ := range
  show s'.tokens ⟨start + d, stop + d⟩ = s.tokens ⟨start, stop⟩
  have bound : stop ≤ s.size := copied.bound
  induction size : stop - start generalizing start with
  | zero => rw [tokens_of_not_lt (by omega), tokens_of_not_lt (by omega)]
  | succ n ih =>
    obtain ⟨t, here⟩ := exists_token? (s := s) (i := start) (by omega)
    have there : s'.token? (start + d) = some t :=
      (copied.token start (Nat.le_refl _) (by simp only; omega)).trans here
    have rest := ih (start + 1) (copied.restrict (Nat.le_succ start) (Nat.le_refl _)) (by omega)
    rw [tokens_of_lt (by omega) here, tokens_of_lt (by omega) there, ← rest, Nat.add_right_comm]

end Copied

end Dbml
