import Dbml.Proofs.Respacing.Tokens

/-!
# The order of locations

Locations of characters stand in the order of the text, and so do those of tokens. Main statement:
`isAtMost_location`.
-/

namespace Dbml

open Text

namespace Location

variable {a b c here : Location} {front middle rest cs : List Char}

/-- The first location comes before the second. -/
def Before (a b : Location) : Prop :=
  b.isAtMost a = false

theorem isAtMost_iff :
    a.isAtMost b = true ↔ a.line < b.line ∨ a.line = b.line ∧ a.column ≤ b.column := by
  simp [isAtMost]

theorem before_iff : Before a b ↔ a.line < b.line ∨ a.line = b.line ∧ a.column < b.column := by
  rw [Before, Bool.eq_false_iff, ne_eq, isAtMost_iff]
  omega

theorem Before.isAtMost (before : Before a b) : a.isAtMost b = true := by
  rw [before_iff] at before
  rw [isAtMost_iff]
  omega

theorem Before.trans (first : Before a b) (second : Before b c) : Before a c := by
  rw [before_iff] at first second ⊢
  omega

theorem isAtMost_self : a.isAtMost a = true := by
  simp [isAtMost]

/-- The location behind one character. -/
def next (here : Location) (c : Char) : Location :=
  if c = '\n' then ⟨here.line + 1, 1⟩ else ⟨here.line, here.column + 1⟩

theorem before_next (here : Location) (c : Char) : Before here (here.next c) := by
  rw [before_iff, next]
  split
  · exact .inl (Nat.lt_succ_self _)
  · exact .inr ⟨rfl, Nat.lt_succ_self _⟩

theorem advance_cons (here : Location) (c : Char) (cs : List Char) (bytes : Nat) :
    here.advance (c.utf8Size + bytes) (c :: cs) = (here.next c).advance bytes cs := by
  have size := c.utf8Size_pos
  rw [advance, if_neg (by omega), if_neg (by omega), Nat.add_sub_cancel_left, next]
  split <;> rfl

theorem advance_append (here : Location) (bytes : Nat) (front rest : List Char) :
    here.advance (byteSize front + bytes) (front ++ rest) =
      (here.advance (byteSize front) front).advance bytes rest := by
  induction front generalizing here with
  | nil => rw [byteSize_nil, Nat.zero_add, advance_zero, List.nil_append]
  | cons c front ih =>
    rw [byteSize_cons, Nat.add_assoc, List.cons_append, advance_cons, advance_cons, ih]

theorem before_advance (nonempty : cs ≠ []) : Before here (here.advance (byteSize cs) cs) := by
  induction cs generalizing here with
  | nil => exact absurd rfl nonempty
  | cons c cs ih =>
    rw [byteSize_cons, advance_cons]
    cases cs with
    | nil => exact before_next here c
    | cons d cs => exact (before_next here c).trans (ih (by simp))

/-- Behind some characters the location is a later one. -/
theorem before_ofOffset (nonempty : middle ≠ []) :
    Before (ofOffset (front ++ (middle ++ rest)) (byteSize front))
      (ofOffset (front ++ (middle ++ rest)) (byteSize front + byteSize middle)) := by
  have first := advance_append ⟨1, 1⟩ 0 front (middle ++ rest)
  have second := advance_append ((⟨1, 1⟩ : Location).advance (byteSize front) front) 0 middle rest
  rw [Nat.add_zero, advance_zero] at first second
  rw [ofOffset, ofOffset, advance_append, first, second]
  exact before_advance nonempty

end Location

namespace Source

variable {s : Source} {i j : Nat}

open Location

theorem location_of_span? {span : Span} (here : s.span? i = some span) :
    s.location i = ofOffset s.chars span.start := by
  rw [location, here]
  rfl

theorem location_of_none (none : s.span? i = none) :
    s.location i = ofOffset s.chars (byteSize s.chars) := by
  rw [location, none]
  rfl

/-- A token stands before those behind it, and before the end. -/
theorem before_location (run : Token.Run 0 s.chars s.lexemes.toList) (inside : i < s.size)
    (order : i < j) : Before (s.location i) (s.location j) := by
  obtain ⟨a, first⟩ := exists_span? inside
  obtain ⟨lexeme, listed, rfl⟩ := span?_eq_some first
  have solid := (run.bounds lexeme (List.mem_of_getElem? listed)).2.1
  cases last : s.span? j with
  | some b =>
    obtain ⟨front, middle, d, tail, behind, parts, start, start', -⟩ :=
      exists_spellings run (Nat.le_of_lt order) first last
    have apart := span_apart run order first last
    have nonempty : middle ≠ [] := by
      rintro rfl
      rw [byteSize_nil] at start'
      omega
    rw [location_of_span? first, location_of_span? last, parts, start, start']
    exact before_ofOffset nonempty
  | none =>
    obtain ⟨front, middle, d, tail, behind, parts, start, -, -⟩ :=
      exists_spellings run (Nat.le_refl i) first first
    have whole : s.chars = front ++ ((middle ++ (d :: tail ++ behind)) ++ []) := by
      rw [parts, List.append_nil]
    rw [location_of_span? first, location_of_none last, start, whole, byteSize_append,
      byteSize_append, byteSize_nil, Nat.add_zero]
    exact before_ofOffset (by simp)

theorem location_min (i : Nat) : s.location (min i s.size) = s.location i := by
  rcases Nat.le_total i s.size with inside | behind
  · rw [Nat.min_eq_left inside]
  · have none {k : Nat} (high : s.size ≤ k) : s.span? k = none := by
      rw [span?, Array.getElem?_eq_none high]
      rfl
    rw [Nat.min_eq_right behind, location_of_none (none behind),
      location_of_none (none (Nat.le_refl _))]

/-- Tokens stand in the order of their numbers, the end behind them all. -/
theorem isAtMost_location (run : Token.Run 0 s.chars s.lexemes.toList) (i j : Nat) :
    (s.location i).isAtMost (s.location j) = decide (min i s.size ≤ min j s.size) := by
  rw [← location_min i, ← location_min j]
  rcases Nat.lt_trichotomy (min i s.size) (min j s.size) with less | same | greater
  · rw [(before_location run (by omega) less).isAtMost, decide_eq_true (Nat.le_of_lt less)]
  · rw [same, isAtMost_self, decide_eq_true (Nat.le_refl _)]
  · rw [show _ = false from before_location run (by omega) greater,
      decide_eq_false (Nat.not_le.2 greater)]

end Source

end Dbml
