import Dbml.Proofs.Segment.Removal
import Dbml.Proofs.Statement.Found

/-!
# Statements without a segment

When a segment is taken out of a document, its own statements are gone and all others are collected
as before. Main statement: `filter_statements`.
-/

namespace Dbml

open Segment

namespace Source

variable {s : Source} {dropped dropped' : List Nat} {topLevel : Bool} {around : Option Block}
  {segments children rest : List Segment} {block : Block} {x : Segment}
  {whole left : List Statement}

/-- What a segment in the place adds to the statements of a document: nothing where the document is
not read for statements, else its own, or one that a `Ref` block lists. -/
inductive Makes (s : Source) (dropped : List Nat) : Place → List Statement → Prop
  | nothing {place : Place} : s.Makes dropped place []
  | own {place : Place} (topLevel : Bool) :
    s.Makes dropped place (s.segmentStatements dropped topLevel place.segment)
  | listed {block : Block} {x : Segment} (kind : block.kind = .ref) :
    s.Makes dropped ⟨some block, x⟩ [listedStatement block.header.name? x]

/-- The statements that are left are the whole without those of the segment in one of the places. -/
def Spliced (s : Source) (dropped : List Nat) (x : Segment) (places : List Place)
    (whole left : List Statement) : Prop :=
  ∃ before made after outer, ⟨outer, x⟩ ∈ places ∧ s.Makes dropped ⟨outer, x⟩ made ∧
    whole = before ++ made ++ after ∧ left = before ++ after

theorem Spliced.append {places others : List Place}
    (spliced : s.Spliced dropped x places whole left) (part : places ⊆ others)
    (first last : List Statement) :
    s.Spliced dropped x others (first ++ (whole ++ last)) (first ++ (left ++ last)) := by
  obtain ⟨before, made, after, outer, here, makes, rfl, rfl⟩ := spliced
  exact ⟨first ++ before, made, after ++ last, outer, part here, makes, by simp, by simp⟩

theorem Spliced.same {places : List Place} {outer : Option Block} (here : ⟨outer, x⟩ ∈ places)
    (whole : List Statement) : s.Spliced dropped x places whole whole :=
  ⟨whole, [], [], outer, here, .nothing, by simp, by simp⟩

theorem statements_append (before after : List Segment) :
    s.statements dropped topLevel (before ++ after) =
      s.statements dropped topLevel before ++ s.statements dropped topLevel after := by
  induction before with
  | nil => rw [List.nil_append, statements, List.nil_append]
  | cons x before ih => rw [List.cons_append, statements, statements, ih, List.append_assoc]

/-- The statements depend on what is remembered of the segments' own first tokens alone. -/
theorem statements_congr
    (agree : ∀ place ∈ places around segments, (place.start ∈ dropped ↔ place.start ∈ dropped')) :
    s.statements dropped topLevel segments = s.statements dropped' topLevel segments := by
  induction segments using tree_induction generalizing around topLevel with
  | nil => rw [statements, statements]
  | line line rest ih =>
    rw [statements, statements, segmentStatements, segmentStatements,
      ih fun place there => agree place (List.mem_cons_of_mem _ there)]
  | block block children rest inner ih =>
    have within := @inner false (some block) fun place there =>
      agree place (by simp [places, Segment.inside, there])
    have here : block.start ∈ dropped ↔ block.start ∈ dropped' :=
      agree ⟨around, .block block children⟩ List.mem_cons_self
    have own : dropped.contains block.start = dropped'.contains block.start := by simp [here]
    rw [statements, statements, segmentStatements, segmentStatements, own, within,
      @ih topLevel around fun place there => agree place (by simp [places, there])]

theorem spliced_listed (kind : block.kind = .ref) (removed : Removed x children rest) :
    s.Spliced dropped x (places (some block) children)
      (children.map (listedStatement block.header.name?))
      (rest.map (listedStatement block.header.name?)) := by
  cases removed with
  | here before after =>
    exact ⟨_, _, _, some block, mem_places (by simp), .listed kind, by simp,
      List.map_append⟩
  | inside before after other inner =>
    obtain ⟨outer, there⟩ := (inner.inside before after other).exists_place (some block)
    rw [List.map_append, List.map_append, List.map_cons, List.map_cons, listedStatement,
      listedStatement]
    exact Spliced.same there _

theorem spliced_statements (removed : Removed x segments rest)
    (agree : ∀ place ∈ places around rest, (place.start ∈ dropped ↔ place.start ∈ dropped')) :
    s.Spliced dropped x (places around segments) (s.statements dropped topLevel segments)
      (s.statements dropped' topLevel rest) := by
  induction removed generalizing around topLevel with
  | here before after =>
    rw [places_append] at agree
    have first := @statements_congr s dropped dropped' topLevel around before fun place there =>
      agree place (List.mem_append_left _ there)
    have last := @statements_congr s dropped dropped' topLevel around after fun place there =>
      agree place (List.mem_append_right _ there)
    rw [statements_append, statements_append, statements, ← first, ← last]
    exact ⟨_, _, _, around, mem_places (by simp), .own topLevel, by simp, rfl⟩
  | @inside before after block children rest inner ih =>
    have first := @statements_congr s dropped dropped' topLevel around before fun place there =>
      agree place (by simp [places_append, there])
    have last := @statements_congr s dropped dropped' topLevel around after fun place there =>
      agree place (by simp [places_append, places, there])
    have within := @ih false (some block) fun place there =>
      agree place (by simp [places_append, places, Segment.inside, there])
    have here : block.start ∈ dropped ↔ block.start ∈ dropped' :=
      agree ⟨around, .block block rest⟩ (mem_places (by simp))
    have own : dropped.contains block.start = dropped'.contains block.start := by simp [here]
    obtain ⟨outer, there⟩ := inner.exists_place (some block)
    have part : places (some block) children ⊆
        places around (before ++ .block block children :: after) := places_subset (by simp)
    rw [statements_append, statements_append, statements, statements, ← first, ← last]
    refine Spliced.append ?_ part _ _
    rw [segmentStatements, segmentStatements, ← own]
    cases kind : block.kind with
    | ref => exact spliced_listed kind inner
    | table =>
      dsimp only
      split
      · exact Spliced.same there []
      · exact within
    | tableGroup => exact within
    | _ => exact Spliced.same there []

/-! ## The statements of the segment -/

theorem Makes.position_mem {place : Place} {made : List Statement}
    (makes : s.Makes dropped place made) {statement : Statement} (listed : statement ∈ made) :
    statement.position ∈ place.segment.starts := by
  cases makes with
  | nothing => cases listed
  | own topLevel =>
    have inside : statement ∈ s.statements dropped topLevel [place.segment] := by
      rw [statements, statements, List.append_nil]
      exact listed
    have stands := (sublist_positions s dropped topLevel none [place.segment]).subset
      (List.mem_map_of_mem inside)
    rwa [Removed.starts_cons, places, List.map_nil, List.append_nil] at stands
  | @listed block x kind =>
    rw [List.mem_singleton.1 listed]
    cases x <;> exact List.mem_cons_self

/-- A block without statements of its own adds none, or one that says that it is nested. -/
theorem Makes.nothing_or_listed {outer : Option Block} {made : List Statement}
    (makes : s.Makes dropped ⟨outer, .block block children⟩ made)
    (quiet : ∀ topLevel, s.segmentStatements dropped topLevel (.block block children) = []) :
    made = [] ∨ made = [.nested block.start] := by
  cases makes with
  | nothing => exact .inl rfl
  | own topLevel => exact .inl (quiet topLevel)
  | listed => exact .inr rfl

/-- What is spliced in is told from the rest by a property of its own. -/
theorem filter_splice {α : Type} {p : α → Prop} [DecidablePred p] {before made after : List α}
    (apart : ∀ a ∈ before ++ after, ¬ p a) (own : ∀ a ∈ made, p a) :
    (before ++ made ++ after).filter (¬ p ·) = before ++ after ∧
      (before ++ made ++ after).filter (p ·) = made := by
  have first : ∀ a ∈ before, ¬ p a := fun a listed => apart a (List.mem_append_left _ listed)
  have last : ∀ a ∈ after, ¬ p a := fun a listed => apart a (List.mem_append_right _ listed)
  constructor
  · have keepFirst : before.filter (¬ p ·) = before := List.filter_eq_self.2 (by simpa using first)
    have keepLast : after.filter (¬ p ·) = after := List.filter_eq_self.2 (by simpa using last)
    have dropMade : made.filter (¬ p ·) = [] := List.filter_eq_nil_iff.2 (by simpa using own)
    rw [List.filter_append, List.filter_append, keepFirst, dropMade, keepLast, List.append_nil]
  · have dropFirst : before.filter (p ·) = [] := List.filter_eq_nil_iff.2 (by simpa using first)
    have dropLast : after.filter (p ·) = [] := List.filter_eq_nil_iff.2 (by simpa using last)
    have keepMade : made.filter (p ·) = made := List.filter_eq_self.2 (by simpa using own)
    rw [List.filter_append, List.filter_append, dropFirst, keepMade, dropLast, List.append_nil,
      List.nil_append]

/-- The statements without a segment are those that begin at no token of its own, and those that do
are what it makes. -/
theorem filter_statements (ordered : Place.InOrder (places around segments))
    (removed : Removed x segments rest)
    (agree : ∀ other, other ≠ x.start → (other ∈ dropped ↔ other ∈ dropped')) (topLevel : Bool) :
    s.statements dropped' topLevel rest =
        (s.statements dropped topLevel segments).filter (¬ ·.position ∈ x.starts) ∧
      ∃ outer, ⟨outer, x⟩ ∈ places around segments ∧ s.Makes dropped ⟨outer, x⟩
        ((s.statements dropped topLevel segments).filter (·.position ∈ x.starts)) := by
  -- What is left begins nowhere in the segment, so that neither does any of its statements.
  have away : ∀ place ∈ places around rest, place.start ∉ x.starts :=
    fun place there => removed.notMem_starts ordered there
  have agree : ∀ place ∈ places around rest, (place.start ∈ dropped ↔ place.start ∈ dropped') :=
    fun place there => agree _ fun same => away place there (same ▸ List.mem_cons_self)
  obtain ⟨before, made, after, outer, here, makes, whole, left⟩ :=
    @spliced_statements s dropped dropped' topLevel around segments rest x removed agree
  have apart : ∀ statement ∈ before ++ after, statement.position ∉ x.starts := by
    intro statement listed
    rw [← left] at listed
    obtain ⟨place, there, same⟩ := List.mem_map.1
      ((sublist_positions s dropped' topLevel around rest).subset (List.mem_map_of_mem listed))
    rw [← same]
    exact away place there
  have own : ∀ statement ∈ made, statement.position ∈ x.starts :=
    fun statement listed => makes.position_mem listed
  obtain ⟨others, its⟩ := filter_splice apart own
  rw [whole, left, others, its]
  exact ⟨rfl, outer, here, makes⟩

end Source

end Dbml
