import Dbml.Proofs.Respacing.Copied
import Dbml.Proofs.Respacing.Tokens
import Dbml.Proofs.Segment.Steps

/-!
# Passing over line ends

Most readings of a source pass over line ends. In a source with more line ends, what they find is
found at its new place, and tokens between which none were added are copied. Main statements:
`Respaced.matching` and `Respaced.copied`.
-/

namespace Dbml

namespace Source

/-- From number `i` up to `j` stand only line ends. -/
def Newlines (s : Source) (i j : Nat) : Prop :=
  ∀ k, i ≤ k → k < j → s.token? k = some .newline

variable {s : Source} {i j stop depth : Nat} {limit : Option Nat}

namespace Newlines

theorem tail (newlines : s.Newlines i j) : s.Newlines (i + 1) j :=
  fun k low high => newlines k (Nat.le_of_succ_le low) high

theorem isMark (newlines : s.Newlines i j) {k : Nat} (low : i ≤ k) (high : k < j) (mark : Mark) :
    s.isMark k mark = false := by
  rw [isMark_of_token? (newlines k low high)]
  rfl

theorem append {k : Nat} (first : s.Newlines i j) (second : s.Newlines j k) : s.Newlines i k := by
  intro m low high
  by_cases before : m < j
  · exact first m low before
  · exact second m (Nat.not_lt.1 before) high

end Newlines

/-- A reading that does not change over one line end does not change over several. -/
theorem Newlines.same {α : Type} (newlines : s.Newlines i j) (order : i ≤ j) (f : Nat → α)
    (step : ∀ k, k < j → s.token? k = some .newline → f k = f (k + 1)) : f i = f j := by
  induction size : j - i generalizing i with
  | zero => rw [show i = j by omega]
  | succ n ih =>
    rw [step i (by omega) (newlines i (Nat.le_refl i) (by omega))]
    exact ih newlines.tail (by omega) (by omega)

theorem scanFrom_newlines (newlines : s.Newlines i j) (order : i ≤ j) (inside : j ≤ stop) :
    s.scanFrom limit depth i stop = s.scanFrom limit depth j stop :=
  newlines.same order (s.scanFrom limit depth · stop) fun k less newline =>
    scanFrom_newline (by omega) newline

theorem find?_of_lt {p : Token → Bool} (inside : i < stop) :
    s.find? ⟨i, stop⟩ p = if s.holds i p then some i else s.find? ⟨i + 1, stop⟩ p := by
  rw [find?, find?, TokenRange.size, TokenRange.size]
  simp only
  rw [show stop - i = stop - (i + 1) + 1 by omega, findFrom]

theorem find?_newline {p : Token → Bool} (other : p .newline = false) (inside : i < stop)
    (newline : s.token? i = some .newline) : s.find? ⟨i, stop⟩ p = s.find? ⟨i + 1, stop⟩ p := by
  rw [find?_of_lt inside, holds_of_token? newline, other]
  rfl

theorem find?_newlines {p : Token → Bool} (newlines : s.Newlines i j) (order : i ≤ j)
    (inside : j ≤ stop) (other : p .newline = false) :
    s.find? ⟨i, stop⟩ p = s.find? ⟨j, stop⟩ p :=
  newlines.same order (fun k => s.find? ⟨k, stop⟩ p) fun k less newline =>
    find?_newline other (by omega) newline

theorem matchingFrom_of_lt {left right : Mark} {open_ : Nat} (inside : i < stop) :
    s.matchingFrom left right open_ i (stop - i) =
      if s.isMark i left then s.matchingFrom left right (open_ + 1) (i + 1) (stop - (i + 1))
      else if s.isMark i right then
        if open_ ≤ 1 then some i
        else s.matchingFrom left right (open_ - 1) (i + 1) (stop - (i + 1))
      else s.matchingFrom left right open_ (i + 1) (stop - (i + 1)) := by
  rw [show stop - i = stop - (i + 1) + 1 by omega, matchingFrom]

theorem matchingFrom_newline {left right : Mark} {open_ : Nat} (inside : i < stop)
    (newline : s.token? i = some .newline) :
    s.matchingFrom left right open_ i (stop - i) =
      s.matchingFrom left right open_ (i + 1) (stop - (i + 1)) := by
  rw [matchingFrom_of_lt inside, isMark_of_token? newline, isMark_of_token? newline]
  rfl

theorem matchingFrom_newlines {left right : Mark} {open_ : Nat} (newlines : s.Newlines i j)
    (order : i ≤ j) (inside : j ≤ stop) :
    s.matchingFrom left right open_ i (stop - i) =
      s.matchingFrom left right open_ j (stop - j) :=
  newlines.same order (fun k => s.matchingFrom left right open_ k (stop - k))
    fun k less newline => matchingFrom_newline (by omega) newline

theorem findSome?_tokens_newline {α : Type} {f : Token → Option α} (other : f .newline = none)
    (inside : i < stop) (newline : s.token? i = some .newline) :
    (s.tokens ⟨i, stop⟩).findSome? f = (s.tokens ⟨i + 1, stop⟩).findSome? f := by
  rw [tokens_of_lt inside newline, List.findSome?_cons, other]

theorem findSome?_tokens_newlines {α : Type} {f : Token → Option α} (newlines : s.Newlines i j)
    (order : i ≤ j) (inside : j ≤ stop) (other : f .newline = none) :
    (s.tokens ⟨i, stop⟩).findSome? f = (s.tokens ⟨j, stop⟩).findSome? f :=
  newlines.same order (fun k => (s.tokens ⟨k, stop⟩).findSome? f) fun k less newline =>
    findSome?_tokens_newline other (by omega) newline

end Source

namespace Respaced

open Source

variable {s s' : Source} {shift : Nat → Nat} (respaced : Respaced s s' shift)

include respaced

theorem token (i : Nat) : s'.token? (i + shift i) = s.token? i := by
  rw [token?, respaced.lexeme, Option.map_map]
  rfl

theorem newlines (i : Nat) : s'.Newlines (i + shift i + 1) (i + 1 + shift (i + 1)) :=
  fun k low high => respaced.between i k (by omega) (by omega)

theorem shift_le {i j : Nat} (order : i ≤ j) : shift i ≤ shift j :=
  by
  induction order with
  | refl => exact Nat.le_refl _
  | step _ ih => exact Nat.le_trans ih (respaced.mono _)

theorem place_lt {i j : Nat} (order : i < j) : i + shift i < j + shift j :=
  Nat.add_lt_add_of_lt_of_le order (respaced.shift_le (Nat.le_of_lt order))

theorem span? {i : Nat} {span : Span} (here : s.span? i = some span) :
    s'.span? (i + shift i) = some ⟨span.start + shift i, span.stop + shift i⟩ := by
  obtain ⟨lexeme, found, rfl⟩ := Option.map_eq_some_iff.1 here
  rw [Source.span?, respaced.lexeme, found]
  rfl

theorem isMark (i : Nat) (mark : Mark) : s'.isMark (i + shift i) mark = s.isMark i mark := by
  rw [Source.isMark, respaced.token, Source.isMark]

theorem kindAt (i : Nat) : s'.kindAt (i + shift i) = s.kindAt i := by
  rw [Source.kindAt, respaced.token, Source.kindAt]

/-- Between line ends stand only line ends. -/
theorem newlines_of {i j : Nat} (newlines : s.Newlines i j) (order : i ≤ j) :
    s'.Newlines (i + shift i) (j + shift j) := by
  induction order with
  | refl => exact fun k low high => absurd high (Nat.not_lt.2 low)
  | @step j order ih =>
    have here : s'.Newlines (j + shift j) (j + shift j + 1) := fun k low high => by
      rw [show k = j + shift j by omega, respaced.token]
      exact newlines j order (Nat.lt_succ_self j)
    exact ((ih fun k low high => newlines k low (Nat.lt_succ_of_lt high)).append here).append
      (respaced.newlines j)

/-! ## Searches -/

/-- A reading that passes over line ends gives the same of both sources when it does the same with
each token of the first. -/
theorem reading {α β : Type} {i stop : Nat} (order : i ≤ stop) (g : α → β) (f : Nat → α)
    (f' : Nat → β) (ends : f' (stop + shift stop) = g (f stop))
    (skips : ∀ k, k < stop + shift stop → s'.token? k = some .newline → f' k = f' (k + 1))
    (step : ∀ k, k < stop → f' (k + shift k + 1) = g (f (k + 1)) →
      f' (k + shift k) = g (f k)) : f' (i + shift i) = g (f i) := by
  induction size : stop - i generalizing i with
  | zero =>
    rw [show i = stop by omega]
    exact ends
  | succ n ih =>
    have less : i < stop := by omega
    have mono := respaced.mono i
    have more := respaced.shift_le (i := i + 1) less
    refine step i less ?_
    rw [(respaced.newlines i).same (by omega) f' fun k high => skips k (by omega)]
    exact ih less (by omega)

theorem matchingFrom {left right : Mark} {i stop : Nat} (order : i ≤ stop) (open_ : Nat) :
    s'.matchingFrom left right open_ (i + shift i) (stop + shift stop - (i + shift i)) =
      (s.matchingFrom left right open_ i (stop - i)).map fun k => k + shift k := by
  refine congrFun (respaced.reading order (fun found open_ => (found open_).map fun k => k + shift k)
    (fun k open_ => s.matchingFrom left right open_ k (stop - k))
    (fun k open_ => s'.matchingFrom left right open_ k (stop + shift stop - k)) ?_
    (fun k inside newline => ?_) fun k less later => ?_) open_
  · simp only [Nat.sub_self]
    rfl
  · funext open_
    exact matchingFrom_newline inside newline
  · funext open_
    have later (open_ : Nat) := congrFun later open_
    simp only at later ⊢
    rw [matchingFrom_of_lt (respaced.place_lt less), matchingFrom_of_lt less, respaced.isMark,
      respaced.isMark, later, later, later]
    split
    · rfl
    split
    · split <;> rfl
    · rfl

/-- The partner of a bracket is found at its new place. -/
theorem matching {i stop closing : Nat} {left right : Mark}
    (closes : s.matching i stop left right = some closing) :
    s'.matching (i + shift i) (stop + shift stop) left right = some (closing + shift closing) := by
  have bounds := matching_bounds closes
  rw [Source.matching, respaced.matchingFrom (by omega),
    show s.matchingFrom left right 0 i (stop - i) = some closing from closes]
  rfl

/-- The first token of a kind, line ends apart, is found at its new place. -/
theorem find? {p : Token → Bool} (other : p .newline = false) {i stop : Nat} (order : i ≤ stop) :
    s'.find? ⟨i + shift i, stop + shift stop⟩ p =
      (s.find? ⟨i, stop⟩ p).map fun k => k + shift k := by
  refine respaced.reading order (Option.map fun k => k + shift k) (fun k => s.find? ⟨k, stop⟩ p)
    (fun k => s'.find? ⟨k, stop + shift stop⟩ p) ?_ (fun k => find?_newline other)
    fun k less later => ?_
  · rw [Source.find?, Source.find?, TokenRange.size, TokenRange.size, Nat.sub_self, Nat.sub_self]
    rfl
  · rw [find?_of_lt (respaced.place_lt less), find?_of_lt less, later, Source.holds,
      respaced.token, Source.holds]
    split <;> rfl

theorem findSome?_tokens {α : Type} {f : Token → Option α} {i stop : Nat} (order : i ≤ stop)
    (inside : stop ≤ s.size) (other : f .newline = none) :
    (s'.tokens ⟨i + shift i, stop + shift stop⟩).findSome? f =
      (s.tokens ⟨i, stop⟩).findSome? f := by
  refine respaced.reading order id (fun k => (s.tokens ⟨k, stop⟩).findSome? f)
    (fun k => (s'.tokens ⟨k, stop + shift stop⟩).findSome? f) ?_
    (fun k => findSome?_tokens_newline other) fun k less later => ?_
  · rw [tokens_of_not_lt (Nat.lt_irrefl _), tokens_of_not_lt (Nat.lt_irrefl _)]
    rfl
  · obtain ⟨t, token⟩ := exists_token? (Nat.lt_of_lt_of_le less inside)
    rw [tokens_of_lt (respaced.place_lt less) ((respaced.token k).trans token),
      tokens_of_lt less token, List.findSome?_cons, List.findSome?_cons, later]
    rfl

/-! ## Copied ranges -/

/-- Tokens between which no line ends were added are copied. -/
theorem copied {first stop : Nat} (bound : stop ≤ s.size)
    (whole : ∀ i, first ≤ i → i < stop → shift i = shift first) :
    Copied s s' (fun i => i + shift i) (shift first) ⟨first, stop⟩ where
  bound := bound
  place i low high := by rw [whole i low high]
  token i low high := by rw [← whole i low high, respaced.token]
  adjacent i low high := by
    simp only at low high
    obtain ⟨j, rfl⟩ : ∃ j, i = j + 1 := ⟨i - 1, by omega⟩
    obtain ⟨a, first⟩ := exists_span? (s := s) (i := j) (by omega)
    obtain ⟨b, second⟩ := exists_span? (s := s) (i := j + 1) (by omega)
    have first' := respaced.span? first
    have second' := respaced.span? second
    rw [whole j (by omega) (by omega)] at first'
    rw [whole (j + 1) (by omega) high, Nat.add_right_comm] at second'
    rw [Nat.add_right_comm]
    simp only [isAdjacent, first, second, first', second', Nat.add_right_cancel_iff, BEq.beq]
  text part low high := by
    obtain ⟨start, stop⟩ := part
    by_cases some_token : start < stop
    · obtain ⟨last, rfl⟩ : ∃ last, stop = last + 1 := ⟨stop - 1, by omega⟩
      simp only at low high
      have text := respaced.text start last (by omega) (by omega)
      rw [whole start low (by omega), whole last (by omega) (by omega)] at text
      exact text rfl
    · have empty : (TokenRange.mk start stop).isEmpty = true := by
        simpa [TokenRange.isEmpty] using some_token
      rw [Source.text, TokenRange.shift_isEmpty, Source.text, if_pos empty, if_pos empty]

end Respaced

end Dbml
