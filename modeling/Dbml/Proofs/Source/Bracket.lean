import Dbml.Proofs.Source.Contents

/-!
# Brackets and their partners

Tokens are balanced when brackets of one kind close each other in them. Main statements: the
partner of a bracket is found behind a balanced body (`matching_eq_some`), and what stands between
a bracket and the partner that is found is balanced (`balanced_of_matching`).
-/

namespace Dbml

variable {left right : Mark} {depth : Nat} {t : Token} {ts us : List Token}

/-! ## Balanced tokens -/

/-- Read from the front, never more than `depth` brackets are closed beyond those opened. -/
def StaysOpen (left right : Mark) (depth : Nat) (ts : List Token) : Prop :=
  ∀ n, (ts.take n).count (.mark right) ≤ depth + (ts.take n).count (.mark left)

/-- Read from the front, the depth of the brackets is never negative, and zero at the end. -/
structure Balanced (left right : Mark) (ts : List Token) : Prop where
  staysOpen : StaysOpen left right 0 ts
  closed : ts.count (.mark left) = ts.count (.mark right)

theorem staysOpen_iff : StaysOpen left right depth ts ↔ ∀ n < ts.length + 1,
    (ts.take n).count (.mark right) ≤ depth + (ts.take n).count (.mark left) := by
  constructor
  · intro opened n _
    exact opened n
  · intro opened n
    by_cases inside : n < ts.length + 1
    · exact opened n inside
    · have whole := opened ts.length (Nat.lt_succ_self _)
      rw [List.take_length] at whole
      rw [List.take_of_length_le (by omega)]
      exact whole

instance : Decidable (StaysOpen left right depth ts) :=
  decidable_of_iff _ staysOpen_iff.symm

instance : Decidable (Balanced left right ts) :=
  decidable_of_iff (StaysOpen left right 0 ts ∧ ts.count (.mark left) = ts.count (.mark right))
    ⟨fun ⟨opened, closed⟩ => ⟨opened, closed⟩, fun ⟨opened, closed⟩ => ⟨opened, closed⟩⟩

theorem staysOpen_nil : StaysOpen left right depth [] := by
  intro n
  simp

theorem staysOpen_left (differ : left ≠ right) :
    StaysOpen left right depth (.mark left :: ts) ↔ StaysOpen left right (depth + 1) ts := by
  constructor
  · intro opened n
    have bound := opened (n + 1)
    simp only [List.take_succ_cons, List.count_cons, beq_iff_eq, Token.mark.injEq, differ,
      if_false, if_true] at bound
    omega
  · intro opened n
    cases n with
    | zero => simp
    | succ n =>
      have bound := opened n
      simp only [List.take_succ_cons, List.count_cons, beq_iff_eq, Token.mark.injEq, differ,
        if_false, if_true]
      omega

theorem staysOpen_right (differ : left ≠ right) :
    StaysOpen left right depth (.mark right :: ts) ↔
      0 < depth ∧ StaysOpen left right (depth - 1) ts := by
  constructor
  · intro opened
    have first := opened 1
    simp only [List.take_succ_cons, List.take_zero, List.count_cons, List.count_nil, beq_iff_eq,
      Token.mark.injEq, differ.symm, if_false, if_true] at first
    refine ⟨by omega, fun n => ?_⟩
    have bound := opened (n + 1)
    simp only [List.take_succ_cons, List.count_cons, beq_iff_eq, Token.mark.injEq, differ.symm,
      if_false, if_true] at bound
    omega
  · rintro ⟨positive, opened⟩ n
    cases n with
    | zero => simp
    | succ n =>
      have bound := opened n
      simp only [List.take_succ_cons, List.count_cons, beq_iff_eq, Token.mark.injEq, differ.symm,
        if_false, if_true]
      omega

theorem staysOpen_other (noLeft : t ≠ .mark left) (noRight : t ≠ .mark right) :
    StaysOpen left right depth (t :: ts) ↔ StaysOpen left right depth ts := by
  constructor
  · intro opened n
    have bound := opened (n + 1)
    simpa [List.take_succ_cons, List.count_cons, noLeft, noRight] using bound
  · intro opened n
    cases n with
    | zero => simp
    | succ n => simpa [List.take_succ_cons, List.count_cons, noLeft, noRight] using opened n

theorem staysOpen_append (first : StaysOpen left right depth ts)
    (second : StaysOpen left right (depth + ts.count (.mark left) - ts.count (.mark right)) us) :
    StaysOpen left right depth (ts ++ us) := by
  intro n
  have whole := first ts.length
  have start := first n
  have rest := second (n - ts.length)
  rw [List.take_length] at whole
  rw [List.take_append, List.count_append, List.count_append]
  by_cases short : n ≤ ts.length
  · rw [show n - ts.length = 0 by omega, List.take_zero, List.count_nil, List.count_nil]
    omega
  · rw [List.take_of_length_le (by omega)]
    omega

theorem balanced_nil : Balanced left right [] :=
  ⟨staysOpen_nil, rfl⟩

theorem balanced_append (first : Balanced left right ts) (second : Balanced left right us) :
    Balanced left right (ts ++ us) := by
  refine ⟨staysOpen_append first.staysOpen ?_, ?_⟩
  · rw [first.closed, Nat.add_sub_cancel]
    exact second.staysOpen
  · rw [List.count_append, List.count_append, first.closed, second.closed]

/-- Tokens without the brackets are balanced. -/
theorem balanced_of_others (others : ∀ t ∈ ts, t ≠ .mark left ∧ t ≠ .mark right) :
    Balanced left right ts := by
  have noLeft : ∀ us ⊆ ts, us.count (.mark left) = 0 := fun us part =>
    List.count_eq_zero.2 fun listed => (others _ (part listed)).1 rfl
  have noRight : ∀ us ⊆ ts, us.count (.mark right) = 0 := fun us part =>
    List.count_eq_zero.2 fun listed => (others _ (part listed)).2 rfl
  refine ⟨fun n => ?_, ?_⟩
  · rw [noRight _ (List.take_subset n ts)]
    exact Nat.zero_le _
  · rw [noLeft ts (List.Subset.refl ts), noRight ts (List.Subset.refl ts)]

theorem balanced_flatMap {α : Type} {xs : List α} {f : α → List Token}
    (parts : ∀ x ∈ xs, Balanced left right (f x)) : Balanced left right (xs.flatMap f) := by
  induction xs with
  | nil => exact balanced_nil
  | cons x xs ih =>
    rw [List.flatMap_cons]
    exact balanced_append (parts x (by simp)) (ih fun y listed => parts y (by simp [listed]))

/-- A balanced body between its brackets is balanced. -/
theorem balanced_wrap (differ : left ≠ right) (body : Balanced left right ts) :
    Balanced left right (.mark left :: ts ++ [.mark right]) := by
  constructor
  · rw [List.cons_append, staysOpen_left differ]
    refine staysOpen_append (fun n => ?_) ?_
    · have bound := body.staysOpen n
      omega
    · rw [body.closed, Nat.add_sub_cancel, staysOpen_right differ]
      exact ⟨by omega, staysOpen_nil⟩
  · have same := body.closed
    simp only [List.cons_append, List.count_cons, List.count_append, List.count_nil, beq_iff_eq,
      Token.mark.injEq, differ, differ.symm, if_false, if_true]
    omega

/-! ## The search for the partner -/

namespace Source

variable {s : Source} {i j stop count : Nat}

/-- Balanced tokens do not begin with the second bracket. -/
theorem not_isMark_of_balanced
    (differ : left ≠ right) (reads : s.Reads i (ts ++ us)) (balanced : Balanced left right ts)
    (nonempty : ts ≠ []) : s.isMark i right = false := by
  obtain ⟨t, rest, rfl⟩ := List.exists_cons_of_ne_nil nonempty
  rw [isMark_of_token? reads.1, decide_eq_false_iff_not]
  rintro rfl
  have open_ := ((staysOpen_right differ).1 balanced.staysOpen).1
  exact Nat.lt_irrefl 0 open_

/-- Brackets that close each other, and others that stay open, are passed over; the depth changes
by what is opened and closed among them. -/
theorem matchingFrom_skip (differ : left ≠ right) (reads : s.Reads i ts)
    (opened : StaysOpen left right depth ts) (count : Nat) :
    s.matchingFrom left right (depth + 1) i (ts.length + count) =
      s.matchingFrom left right (depth + 1 + ts.count (.mark left) - ts.count (.mark right))
        (i + ts.length) count := by
  induction ts generalizing i depth with
  | nil => simp
  | cons t ts ih =>
    have shift : i + (ts.length + 1) = i + 1 + ts.length := by omega
    rw [List.length_cons, Nat.add_right_comm, matchingFrom, isMark_of_token? reads.1,
      isMark_of_token? reads.1, shift]
    by_cases isLeft : t = .mark left
    · subst isLeft
      have rest := ih reads.2 ((staysOpen_left differ).1 opened)
      rw [if_pos (by simp), rest]
      congr 1
      simp only [List.count_cons, beq_iff_eq, Token.mark.injEq, differ, if_false, if_true]
      omega
    by_cases isRight : t = .mark right
    · subst isRight
      obtain ⟨positive, inner⟩ := (staysOpen_right differ).1 opened
      obtain ⟨lower, rfl⟩ : ∃ lower, depth = lower + 1 := ⟨depth - 1, by omega⟩
      have rest := ih reads.2 inner
      rw [Nat.add_sub_cancel] at rest
      rw [if_neg (by simp [differ.symm]), if_pos (by simp), if_neg (by omega), Nat.add_sub_cancel, rest]
      congr 1
      simp only [List.count_cons, beq_iff_eq, Token.mark.injEq, differ.symm, if_false, if_true]
      omega
    · have rest := ih reads.2 ((staysOpen_other isLeft isRight).1 opened)
      rw [if_neg (by simp [isLeft]), if_neg (by simp [isRight]), rest]
      congr 1
      simp [isLeft, isRight]

/-- Behind tokens among which nothing is found the search goes on, and the depth has changed by what
is opened and closed among them. -/
theorem findOutsideFrom_append {p : Token → Bool} (differ : left ≠ right) (reads : s.Reads i ts)
    (opened : StaysOpen left right depth ts)
    (none : s.findOutsideFrom left right p depth i ts.length = none) (count : Nat) :
    s.findOutsideFrom left right p depth i (ts.length + count) =
      s.findOutsideFrom left right p (depth + ts.count (.mark left) - ts.count (.mark right))
        (i + ts.length) count := by
  induction ts generalizing i depth with
  | nil => simp
  | cons t ts ih =>
    have shift : i + (ts.length + 1) = i + 1 + ts.length := by omega
    rw [List.length_cons, findOutsideFrom, isMark_of_token? reads.1, isMark_of_token? reads.1] at none
    rw [List.length_cons, Nat.add_right_comm, findOutsideFrom, isMark_of_token? reads.1,
      isMark_of_token? reads.1, shift]
    by_cases isLeft : t = .mark left
    · subst isLeft
      rw [if_pos (by simp)] at none ⊢
      rw [ih reads.2 ((staysOpen_left differ).1 opened) none]
      congr 1
      simp only [List.count_cons, beq_iff_eq, Token.mark.injEq, differ, if_false, if_true]
      omega
    by_cases isRight : t = .mark right
    · subst isRight
      obtain ⟨positive, inner⟩ := (staysOpen_right differ).1 opened
      rw [if_neg (by simp [differ.symm]), if_pos (by simp)] at none ⊢
      rw [ih reads.2 inner none]
      congr 1
      simp only [List.count_cons, beq_iff_eq, Token.mark.injEq, differ.symm, if_false, if_true]
      omega
    · rw [if_neg (by simp [isLeft]), if_neg (by simp [isRight])] at none ⊢
      by_cases here : depth = 0 ∧ s.holds i p = true
      · rw [if_pos here] at none
        cases none
      · rw [if_neg here] at none ⊢
        rw [ih reads.2 ((staysOpen_other isLeft isRight).1 opened) none]
        congr 1
        simp [isLeft, isRight]

/-- Nothing is found between brackets: those that close each other are passed over, and the depth
changes by what is opened and closed among them. -/
theorem findOutsideFrom_staysOpen {p : Token → Bool} (differ : left ≠ right)
    (reads : s.Reads i ts) (opened : StaysOpen left right depth ts) (count : Nat) :
    s.findOutsideFrom left right p (depth + 1) i (ts.length + count) =
      s.findOutsideFrom left right p
        (depth + 1 + ts.count (.mark left) - ts.count (.mark right)) (i + ts.length) count := by
  induction ts generalizing i depth with
  | nil => simp
  | cons t ts ih =>
    have shift : i + (ts.length + 1) = i + 1 + ts.length := by omega
    rw [List.length_cons, Nat.add_right_comm, findOutsideFrom, isMark_of_token? reads.1,
      isMark_of_token? reads.1, shift]
    by_cases isLeft : t = .mark left
    · subst isLeft
      have rest := ih reads.2 ((staysOpen_left differ).1 opened)
      rw [if_pos (by simp), rest]
      congr 1
      simp only [List.count_cons, beq_iff_eq, Token.mark.injEq, differ, if_false, if_true]
      omega
    by_cases isRight : t = .mark right
    · subst isRight
      obtain ⟨positive, inner⟩ := (staysOpen_right differ).1 opened
      obtain ⟨lower, rfl⟩ : ∃ lower, depth = lower + 1 := ⟨depth - 1, by omega⟩
      have rest := ih reads.2 inner
      rw [Nat.add_sub_cancel] at rest
      rw [if_neg (by simp [differ.symm]), if_pos (by simp), Nat.add_sub_cancel, rest]
      congr 1
      simp only [List.count_cons, beq_iff_eq, Token.mark.injEq, differ.symm, if_false, if_true]
      omega
    · have rest := ih reads.2 ((staysOpen_other isLeft isRight).1 opened)
      rw [if_neg (by simp [isLeft]), if_neg (by simp [isRight]), if_neg (by simp), rest]
      congr 1
      simp [isLeft, isRight]

/-- A balanced body between its brackets is passed over. -/
theorem findOutsideFrom_wrap {p : Token → Bool} (differ : left ≠ right)
    (wrapped : us = .mark left :: ts ++ [.mark right]) (body : Balanced left right ts)
    (reads : s.Reads i us) (count : Nat) :
    s.findOutsideFrom left right p 0 i (us.length + count) =
      s.findOutsideFrom left right p 0 (i + us.length) count := by
  have length : us.length = ts.length + 2 := by
    rw [wrapped, List.length_append, List.length_cons, List.length_singleton]
  rw [wrapped] at reads
  obtain ⟨opens, rest⟩ := reads_cons.1 reads
  obtain ⟨inner, closes⟩ := reads_append.1 rest
  rw [length, show ts.length + 2 + count = ts.length + (count + 1) + 1 by omega,
    show i + (ts.length + 2) = i + 1 + ts.length + 1 by omega, findOutsideFrom,
    if_pos (isMark_iff_token?.2 opens), findOutsideFrom_staysOpen differ inner body.staysOpen,
    body.closed, Nat.add_sub_cancel, findOutsideFrom, isMark_of_token? closes.1,
    isMark_of_token? closes.1, if_neg (by simp [differ.symm]), if_pos (by simp)]

/-- The partner of a bracket stands behind the balanced body. -/
theorem matching_eq_some (differ : left ≠ right)
    (reads : s.Reads i (.mark left :: ts ++ [.mark right])) (body : Balanced left right ts)
    (inside : i + ts.length + 1 < stop) :
    s.matching i stop left right = some (i + ts.length + 1) := by
  obtain ⟨opens, rest⟩ := reads_cons.1 reads
  obtain ⟨inner, closes⟩ := reads_append.1 rest
  obtain ⟨count, size⟩ : ∃ count, stop - i = (ts.length + (count + 1)) + 1 :=
    ⟨stop - i - ts.length - 2, by omega⟩
  rw [matching, size, matchingFrom, if_pos (by simp [isMark_of_token? opens]),
    matchingFrom_skip differ inner body.staysOpen, body.closed, Nat.add_sub_cancel, matchingFrom,
    isMark_of_token? closes.1, isMark_of_token? closes.1, if_neg (by simp [differ.symm]),
    if_pos (by simp), if_pos (by omega), Nat.add_right_comm]

/-- A partner that is found is found in more tokens as well. -/
theorem matchingFrom_longer {open_ more : Nat} (order : count ≤ more)
    (found : s.matchingFrom left right open_ i count = some j) :
    s.matchingFrom left right open_ i more = some j := by
  induction count generalizing i open_ more with
  | zero => cases found
  | succ count ih =>
    obtain ⟨more, rfl⟩ : ∃ n, more = n + 1 := ⟨more - 1, by omega⟩
    have rest {open_ : Nat} (found : s.matchingFrom left right open_ (i + 1) count = some j) :
        s.matchingFrom left right open_ (i + 1) more = some j :=
      ih (Nat.le_of_succ_le_succ order) found
    unfold matchingFrom at found ⊢
    split at found
    next opens => rw [if_pos opens]; exact rest found
    next notLeft =>
      rw [if_neg notLeft]
      split at found
      next closes =>
        rw [if_pos closes]
        split at found
        next last => rw [if_pos last]; exact found
        next inner => rw [if_neg inner]; exact rest found
      next notRight => rw [if_neg notRight]; exact rest found

/-- Before the partner that is found no bracket stays open but those of which `depth + 1` were. -/
theorem staysOpen_of_matchingFrom (differ : left ≠ right) (bound : i + count ≤ s.size)
    (found : s.matchingFrom left right (depth + 1) i count = some j) :
    StaysOpen left right depth (s.tokens ⟨i, j⟩) ∧
      depth + (s.tokens ⟨i, j⟩).count (.mark left) = (s.tokens ⟨i, j⟩).count (.mark right) := by
  induction count generalizing i depth with
  | zero => cases found
  | succ count ih =>
    obtain ⟨t, here⟩ := exists_token? (s := s) (i := i) (by omega)
    have place := matchingFrom_bounds found
    rw [matchingFrom, isMark_of_token? here, isMark_of_token? here] at found
    by_cases isLeft : t = .mark left
    · subst isLeft
      rw [if_pos (by simp)] at found
      have later := (matchingFrom_bounds found).1
      obtain ⟨opened, closed⟩ := ih (by omega) found
      rw [tokens_of_lt later here, staysOpen_left differ]
      refine ⟨opened, ?_⟩
      simp only [List.count_cons, beq_iff_eq, Token.mark.injEq, differ, if_false, if_true]
      omega
    by_cases isRight : t = .mark right
    · subst isRight
      rw [if_neg (by simp [differ.symm]), if_pos (by simp)] at found
      by_cases last : depth + 1 ≤ 1
      · rw [if_pos last] at found
        cases found
        rw [tokens_of_not_lt (by omega)]
        exact ⟨staysOpen_nil, by simp; omega⟩
      · rw [if_neg last] at found
        obtain ⟨lower, rfl⟩ : ∃ lower, depth = lower + 1 := ⟨depth - 1, by omega⟩
        have later := (matchingFrom_bounds found).1
        obtain ⟨opened, closed⟩ := ih (by omega) found
        rw [tokens_of_lt later here, staysOpen_right differ]
        refine ⟨⟨by omega, opened⟩, ?_⟩
        simp only [List.count_cons, beq_iff_eq, Token.mark.injEq, differ.symm, if_false, if_true]
        omega
    · rw [if_neg (by simp [isLeft]), if_neg (by simp [isRight])] at found
      have later := (matchingFrom_bounds found).1
      obtain ⟨opened, closed⟩ := ih (by omega) found
      rw [tokens_of_lt later here, staysOpen_other isLeft isRight]
      exact ⟨opened, by simpa [isLeft, isRight] using closed⟩

/-- What stands between a bracket and the partner that is found for it is balanced. -/
theorem balanced_of_matching (differ : left ≠ right) (bound : stop ≤ s.size)
    (opens : s.isMark i left = true) (found : s.matching i stop left right = some j) :
    i < j ∧ Balanced left right (s.tokens ⟨i + 1, j⟩) := by
  have opener := isMark_iff_token?.1 opens
  have place := matching_bounds found
  obtain ⟨count, size⟩ : ∃ count, stop - i = count + 1 := ⟨stop - i - 1, by omega⟩
  rw [matching, size, matchingFrom, if_pos opens] at found
  obtain ⟨opened, closed⟩ := staysOpen_of_matchingFrom differ (by omega) found
  have later := (matchingFrom_bounds found).1
  exact ⟨by omega, opened, by omega⟩

end Source

end Dbml
