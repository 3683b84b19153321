import Dbml.Proofs.Source.Counting
import Mathlib.Order.Bounds.Basic

/-!
# Partners of brackets

The partner of a bracket is the first token behind it up to which, counted from the bracket on, as
many brackets are closed as opened. Before it some bracket is open all the time, so that a bracket
that closes always has one to close, and partners do not cross. Main statement:
`matching_finds_partner`.
-/

namespace Dbml.Source

variable {s : Source} {left right : Mark} {i j k i' j' stop stop' : Nat}

/-- The tokens behind the bracket with number `i`, before number `stop`, up to which as many brackets
are closed as opened. -/
def closings (s : Source) (left right : Mark) (i stop : Nat) : Set Nat :=
  {j | i < j ∧ j < stop ∧ s.Evens left right i j}

/-! ## Before the partner -/

/-- As long as no partner is found, no more brackets are closed than opened behind the first one. -/
theorem staysOpen_of_unmatched (differ : left ≠ right) (bound : stop ≤ s.size)
    (opens : s.isMark i left = true) (later : i < k) (inside : k ≤ stop)
    (unmatched : ∀ j, s.matching i stop left right = some j → k ≤ j) :
    StaysOpen left right 0 (s.tokens ⟨i + 1, k⟩) := by
  have front {last : Nat} (low : k ≤ last) (high : last ≤ s.size)
      (opened : StaysOpen left right 0 (s.tokens ⟨i + 1, last⟩)) :
      StaysOpen left right 0 (s.tokens ⟨i + 1, k⟩) := by
    intro n
    have part := opened (min n (k - (i + 1)))
    rwa [← List.take_take, take_tokens later low high] at part
  cases found : s.matching i stop left right with
  | none =>
    exact front inside bound
      (staysOpen_of_matching_eq_none differ (by omega) bound opens found)
  | some j =>
    have place := matching_bounds found
    exact front (unmatched j found) (by omega)
      (balanced_of_matching differ bound opens found).2.staysOpen

/-- Where no more brackets are closed than opened behind the first one, that one is open. -/
theorem count_of_staysOpen (differ : left ≠ right) (opens : s.isMark i left = true) (later : i < k)
    (opened : StaysOpen left right 0 (s.tokens ⟨i + 1, k⟩)) :
    (s.tokens ⟨i, k⟩).count (.mark left) = (s.tokens ⟨i, k⟩).count (.mark right) +
      (0 + 1 + (s.tokens ⟨i + 1, k⟩).count (.mark left) -
        (s.tokens ⟨i + 1, k⟩).count (.mark right)) := by
  have whole := opened (s.tokens ⟨i + 1, k⟩).length
  rw [List.take_length] at whole
  rw [tokens_of_lt later (isMark_iff_token?.1 opens)]
  simp only [List.count_cons, beq_iff_eq, Token.mark.injEq, differ, if_false, if_true]
  omega

/-- The search goes on with the brackets that are open, and there are some. -/
theorem exists_depth (differ : left ≠ right) (bound : stop ≤ s.size)
    (opens : s.isMark i left = true) (later : i < k) (inside : k ≤ stop)
    (unmatched : ∀ j, s.matching i stop left right = some j → k ≤ j) :
    ∃ depth, 0 < depth ∧ (s.tokens ⟨i, k⟩).count (.mark left) =
        (s.tokens ⟨i, k⟩).count (.mark right) + depth ∧
      s.matching i stop left right = s.matchingFrom left right depth k (stop - k) := by
  have opened := staysOpen_of_unmatched differ bound opens later inside unmatched
  have whole := opened (s.tokens ⟨i + 1, k⟩).length
  rw [List.take_length] at whole
  have length : (s.tokens ⟨i + 1, k⟩).length = k - (i + 1) :=
    length_tokens (Nat.le_trans inside bound)
  have skipped := matchingFrom_skip differ (reads_tokens s (i + 1) k) opened (stop - k)
  rw [length, show k - (i + 1) + (stop - k) = stop - (i + 1) by omega,
    show i + 1 + (k - (i + 1)) = k by omega] at skipped
  refine ⟨_, ?_, count_of_staysOpen differ opens later opened, ?_⟩
  · omega
  · rw [matching, show stop - i = stop - (i + 1) + 1 by omega, matchingFrom, if_pos opens, skipped]

/-! ## The partner -/

theorem mem_closings_of_matching (differ : left ≠ right) (bound : stop ≤ s.size)
    (opens : s.isMark i left = true) (found : s.matching i stop left right = some j) :
    j ∈ s.closings left right i stop :=
  ⟨(balanced_of_matching differ bound opens found).1, (matching_bounds found).2.1,
    evens_of_matching differ bound opens found⟩

/-- No other token up to which the brackets are even stands before the partner. -/
theorem isLeast_of_matching (differ : left ≠ right) (bound : stop ≤ s.size)
    (opens : s.isMark i left = true) (found : s.matching i stop left right = some j) :
    IsLeast (s.closings left right i stop) j := by
  refine ⟨mem_closings_of_matching differ bound opens found, fun k ⟨later, inside, even⟩ => ?_⟩
  refine Nat.not_lt.1 fun early => ?_
  have last : k + 1 ≤ stop := inside
  obtain ⟨depth, positive, counted, -⟩ :=
    exists_depth (k := k + 1) differ bound opens (by omega) last fun j' found' => by
      rw [found] at found'
      cases found'
      exact early
  rw [Evens] at even
  omega

theorem matching_eq_none_iff_closings (differ : left ≠ right) (bound : stop ≤ s.size)
    (opens : s.isMark i left = true) :
    s.matching i stop left right = none ↔ s.closings left right i stop = ∅ := by
  rw [matching_eq_none_iff differ bound opens, Set.eq_empty_iff_forall_notMem]
  have opener := isMark_iff_token?.1 opens
  constructor
  · rintro stays j ⟨later, inside, even⟩
    exact stays ⟨j, Nat.le_of_lt later, inside, even⟩
  · rintro empty ⟨j, low, inside, even⟩
    rcases Nat.lt_or_eq_of_le low with later | rfl
    · exact empty j ⟨later, inside, even⟩
    · rw [Evens, tokens_of_lt (Nat.lt_succ_self i) opener, tokens_of_not_lt (Nat.lt_irrefl _)] at even
      simp [differ] at even

theorem matching_eq_some_iff (differ : left ≠ right) (bound : stop ≤ s.size)
    (opens : s.isMark i left = true) :
    s.matching i stop left right = some j ↔ IsLeast (s.closings left right i stop) j := by
  refine ⟨isLeast_of_matching differ bound opens, fun least => ?_⟩
  cases found : s.matching i stop left right with
  | none =>
    rw [matching_eq_none_iff_closings differ bound opens] at found
    exact absurd least.1 (by rw [found]; exact Set.notMem_empty j)
  | some j' => rw [(isLeast_of_matching differ bound opens found).unique least]

/-! ## Partners of two brackets -/

/-- A partner that is found is found in a longer range as well. -/
theorem matching_longer (order : stop ≤ stop') (found : s.matching i stop left right = some j) :
    s.matching i stop' left right = some j :=
  matchingFrom_longer (Nat.sub_le_sub_right order i) found

/-- A bracket between two partners has its partner between them. -/
theorem exists_matching_between (differ : left ≠ right) (bound : stop ≤ s.size)
    (opens : s.isMark i left = true) (found : s.matching i stop left right = some j)
    (opens' : s.isMark i' left = true) (later : i < i') (inside : i' < j) :
    ∃ j' < j, s.matching i' stop left right = some j' := by
  have place := matching_bounds found
  have body := (balanced_of_matching differ bound opens found).2
  have closed := isClosed_of_balanced differ (by omega) body later inside opens'
  cases found' : s.matching i' j left right with
  | none => exact absurd closed ((matching_eq_none_iff differ (by omega) opens').1 found')
  | some j' =>
    exact ⟨j', (matching_bounds found').2.1, matching_longer (Nat.le_of_lt place.2.1) found'⟩

/-- The partner of a later bracket stands before the first one's, if the later one does. -/
theorem nested_or_behind (differ : left ≠ right) (bound : stop ≤ s.size)
    (opens : s.isMark i left = true) (opens' : s.isMark i' left = true) (later : i < i')
    (found : s.matching i stop left right = some j)
    (found' : s.matching i' stop' left right = some j') : j < i' ∨ j' < j := by
  rcases Nat.lt_trichotomy i' j with inside | rfl | behind
  · obtain ⟨j'', before, found''⟩ :=
      exists_matching_between differ bound opens found opens' later inside
    -- Both searches find the partner in the longer of the two ranges.
    have first := matching_longer (Nat.le_max_left stop stop') found''
    have second := matching_longer (Nat.le_max_right stop stop') found'
    rw [first] at second
    cases second
    exact .inr before
  · exact absurd (eq_of_isMark opens' (matching_bounds found).2.2) differ
  · exact .inl behind

/-- What is found for the bracket with number `i` before token `stop`: the first token up to which
the brackets are even, if there is one. -/
structure FindsPartner (s : Source) (left right : Mark) (i stop : Nat) : Prop where
  some_iff : ∀ j, s.matching i stop left right = some j ↔
    IsLeast (s.closings left right i stop) j
  none_iff : s.matching i stop left right = none ↔ s.closings left right i stop = ∅
  /-- Up to the partner more brackets are opened than closed, and the search goes on with the
  difference, which is never zero. -/
  depth : ∀ k, i < k → k ≤ stop → (∀ j, s.matching i stop left right = some j → k ≤ j) →
    ∃ depth, 0 < depth ∧
      (s.tokens ⟨i, k⟩).count (.mark left) = (s.tokens ⟨i, k⟩).count (.mark right) + depth ∧
      s.matching i stop left right = s.matchingFrom left right depth k (stop - k)
  between : ∀ j, s.matching i stop left right = some j →
    Balanced left right (s.tokens ⟨i + 1, j⟩)
  /-- Of two brackets with their partners one pair stands in the other or behind it. -/
  apart : ∀ i' stop' j j', stop' ≤ s.size → s.isMark i' left = true → i' ≠ i →
    s.matching i stop left right = some j → s.matching i' stop' left right = some j' →
    j < i' ∨ j' < i ∨ i < i' ∧ j' < j ∨ i' < i ∧ j < j'

/-- The search for the partner of a bracket finds the first token up to which as many brackets are
closed as opened, and none when there is no such token. -/
theorem matching_finds_partner (differ : left ≠ right) (bound : stop ≤ s.size)
    (opens : s.isMark i left = true) : s.FindsPartner left right i stop where
  some_iff _ := matching_eq_some_iff differ bound opens
  none_iff := matching_eq_none_iff_closings differ bound opens
  depth _ later inside unmatched := exists_depth differ bound opens later inside unmatched
  between _ found := (balanced_of_matching differ bound opens found).2
  apart i' stop' j j' bound' opens' other found found' := by
    rcases Nat.lt_or_gt_of_ne other with before | behind
    · rcases nested_or_behind differ bound' opens' opens before found' found with apart | inner
      · exact .inr (.inl apart)
      · exact .inr (.inr (.inr ⟨before, inner⟩))
    · rcases nested_or_behind differ bound opens opens' behind found found' with apart | inner
      · exact .inl apart
      · exact .inr (.inr (.inl ⟨behind, inner⟩))

/-- A pair of brackets in another, and a bracket that is not closed. -/
def nestedParensText : String :=
  "(a (b) c) (d"

theorem matching_finds_partner_nestedParens : ∃ s, ofString nestedParensText = .ok s ∧
    s.matching 0 s.size .openParen .closeParen = some 6 ∧
    s.matching 2 s.size .openParen .closeParen = some 4 ∧
    s.matching 7 s.size .openParen .closeParen = none ∧
    s.isMark 0 .openParen = true ∧ s.FindsPartner .openParen .closeParen 0 s.size := by
  have evaluated : (ofString nestedParensText).toOption.map
      (fun s => ([0, 2, 7].map fun i => s.matching i s.size .openParen .closeParen,
        s.isMark 0 .openParen)) = some ([some 6, some 4, none], true) := by decide +kernel
  obtain ⟨s, read, same⟩ := Option.map_eq_some_iff.1 evaluated
  simp only [List.map_cons, List.map_nil, Prod.mk.injEq, List.cons.injEq, and_true] at same
  obtain ⟨⟨outer, inner, unclosed⟩, opens⟩ := same
  exact ⟨s, eq_ok_of_toOption read, outer, inner, unclosed, opens,
    matching_finds_partner (by decide) (Nat.le_refl _) opens⟩

end Dbml.Source
