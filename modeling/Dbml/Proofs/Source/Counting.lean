import Dbml.Proofs.Source.Bracket

/-!
# Brackets by counting

A bracket is closed where, counted from it on, as many brackets are closed as opened. Main
statements: no partner of a bracket is found when it is never closed, and only then
(`matching_eq_none_iff`), and every bracket among balanced tokens is closed among them
(`isClosed_of_balanced`).
-/

namespace Dbml.Source

variable {s : Source} {left right : Mark} {depth i j k stop count : Nat}

/-! ## Parts of ranges -/

theorem tokens_append (low : i ≤ j) (high : j ≤ k) :
    s.tokens ⟨i, j⟩ ++ s.tokens ⟨j, k⟩ = s.tokens ⟨i, k⟩ := by
  simp only [tokens]
  rw [← List.map_append, ← Array.toList_append, Array.extract_append_extract, Nat.min_eq_left low,
    Nat.max_eq_right high]

theorem length_tokens (bound : stop ≤ s.size) : (s.tokens ⟨i, stop⟩).length = stop - i := by
  rw [size] at bound
  simp only [tokens, List.length_map, Array.length_toList, Array.size_extract]
  omega

theorem take_tokens (low : i ≤ j) (high : j ≤ stop) (bound : stop ≤ s.size) :
    (s.tokens ⟨i, stop⟩).take (j - i) = s.tokens ⟨i, j⟩ := by
  have length := length_tokens (i := i) (Nat.le_trans high bound)
  rw [← tokens_append low high, ← length, List.take_left]

/-! ## Closed brackets -/

/-- From the bracket with number `i` up to token `j`, as many brackets are closed as opened. -/
def Evens (s : Source) (left right : Mark) (i j : Nat) : Prop :=
  (s.tokens ⟨i, j + 1⟩).count (.mark left) = (s.tokens ⟨i, j + 1⟩).count (.mark right)

/-- The bracket with number `i` is closed by a token before number `stop`. -/
def IsClosed (s : Source) (left right : Mark) (i stop : Nat) : Prop :=
  ∃ j, i ≤ j ∧ j < stop ∧ s.Evens left right i j

/-- Where no partner is found, the brackets that are open stay open. -/
theorem staysOpen_of_matchingFrom_eq_none (differ : left ≠ right) (bound : i + count ≤ s.size)
    (none : s.matchingFrom left right (depth + 1) i count = none) :
    StaysOpen left right depth (s.tokens ⟨i, i + count⟩) := by
  induction count generalizing i depth with
  | zero =>
    rw [tokens_of_not_lt (by omega)]
    exact staysOpen_nil
  | succ count ih =>
    obtain ⟨t, here⟩ := exists_token? (s := s) (i := i) (by omega)
    have shift : i + (count + 1) = i + 1 + count := by omega
    rw [matchingFrom, isMark_of_token? here, isMark_of_token? here] at none
    rw [tokens_of_lt (by omega) here, shift]
    by_cases isLeft : t = .mark left
    · subst isLeft
      rw [if_pos (by simp)] at none
      exact (staysOpen_left differ).2 (ih (by omega) none)
    by_cases isRight : t = .mark right
    · subst isRight
      rw [if_neg (by simp [differ.symm]), if_pos (by simp)] at none
      by_cases last : depth + 1 ≤ 1
      · rw [if_pos last] at none
        cases none
      · rw [if_neg last] at none
        obtain ⟨lower, rfl⟩ : ∃ lower, depth = lower + 1 := ⟨depth - 1, by omega⟩
        exact (staysOpen_right differ).2 ⟨by omega, ih (by omega) none⟩
    · rw [if_neg (by simp [isLeft]), if_neg (by simp [isRight])] at none
      exact (staysOpen_other isLeft isRight).2 (ih (by omega) none)

/-- Behind a bracket without a partner no more brackets are closed than opened. -/
theorem staysOpen_of_matching_eq_none (differ : left ≠ right) (inside : i < stop)
    (bound : stop ≤ s.size) (opens : s.isMark i left = true)
    (none : s.matching i stop left right = none) :
    StaysOpen left right 0 (s.tokens ⟨i + 1, stop⟩) := by
  have size : stop - i = stop - (i + 1) + 1 := by omega
  have last : i + 1 + (stop - (i + 1)) = stop := by omega
  rw [matching, size, matchingFrom, if_pos opens] at none
  have opened := staysOpen_of_matchingFrom_eq_none differ (by omega) none
  rwa [last] at opened

/-- Up to the partner that is found for a bracket, as many brackets are closed as opened. -/
theorem evens_of_matching (differ : left ≠ right) (bound : stop ≤ s.size)
    (opens : s.isMark i left = true) (found : s.matching i stop left right = some j) :
    s.Evens left right i j := by
  obtain ⟨later, balanced⟩ := balanced_of_matching differ bound opens found
  have later : i + 1 ≤ j := later
  have closer := isMark_iff_token?.1 (matching_bounds found).2.2
  have same := balanced.closed
  rw [Evens, tokens_of_lt (by omega) (isMark_iff_token?.1 opens),
    ← tokens_append later (Nat.le_succ j), tokens_of_lt (Nat.lt_succ_self j) closer,
    tokens_of_not_lt (Nat.lt_irrefl _)]
  simp only [List.count_cons, List.count_append, List.count_nil, beq_iff_eq,
    Token.mark.injEq, differ, differ.symm, if_false, if_true]
  omega

/-- A bracket has no partner when it is never closed, and only then. -/
theorem matching_eq_none_iff (differ : left ≠ right) (bound : stop ≤ s.size)
    (opens : s.isMark i left = true) :
    s.matching i stop left right = none ↔ ¬ s.IsClosed left right i stop := by
  have opener := isMark_iff_token?.1 opens
  constructor
  · rintro none ⟨j, low, high, even⟩
    have opened := staysOpen_of_matching_eq_none differ (by omega) bound opens none (j - i)
    rw [show j - i = j + 1 - (i + 1) by omega, take_tokens (by omega) (by omega) bound] at opened
    rw [Evens, tokens_of_lt (by omega) opener] at even
    simp only [List.count_cons, beq_iff_eq, Token.mark.injEq, differ, if_false, if_true] at even
    omega
  · intro stays
    cases found : s.matching i stop left right with
    | none => rfl
    | some j =>
      have place := matching_bounds found
      exact absurd ⟨j, place.1, place.2.1, evens_of_matching differ bound opens found⟩ stays

/-- Every bracket among balanced tokens is closed among them. -/
theorem isClosed_of_balanced (differ : left ≠ right) (bound : stop ≤ s.size)
    (body : Balanced left right (s.tokens ⟨i, stop⟩)) (low : i ≤ j) (high : j < stop)
    (opens : s.isMark j left = true) : s.IsClosed left right j stop := by
  refine Classical.byContradiction fun stays => ?_
  have none := (matching_eq_none_iff differ bound opens).2 stays
  -- The brackets before it are not closed beyond those opened, nor are those behind it.
  have before := body.staysOpen (j - i)
  have behind := staysOpen_of_matching_eq_none differ high bound opens none
    (s.tokens ⟨j + 1, stop⟩).length
  have closed := body.closed
  rw [take_tokens low (Nat.le_of_lt high) bound] at before
  rw [List.take_length] at behind
  rw [← tokens_append low (Nat.le_of_lt high), tokens_of_lt high (isMark_iff_token?.1 opens)]
    at closed
  simp only [List.count_cons, List.count_append, beq_iff_eq, Token.mark.injEq, differ, if_false,
    if_true] at closed
  omega

end Dbml.Source
