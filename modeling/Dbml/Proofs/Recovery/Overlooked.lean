import Dbml.Proofs.Assembly.Discovery
import Dbml.Proofs.Recovery.PassedOver
import Dbml.Proofs.Segment.Removal
import Dbml.Proofs.Statement.Found

/-!
# Segments that tables and groups overlook

Nothing is taken from a segment that is passed over or left to the references of the document. A
table declares the same without such a segment. Main statement: `declaredTable_removed`.
-/

namespace Dbml

open Segment

namespace Source

variable {s : Source} {segments children rest : List Segment} {x : Segment} {block : Block}
  {line : TokenRange}

/-- The segment in the place is passed over while tables and groups are read, or left to the
references of the document. -/
def Overlooks (s : Source) (place : Place) : Prop :=
  (∃ cause, s.PassesOver place cause) ∨ ∃ statement, s.States place statement

/-- The document may do without the segment in the place: it is overlooked, or a table block that is
dropped wherever it is discovered. -/
inductive Dispensable (s : Source) (segments : List Segment) : Place → Prop
  | overlooked {place : Place} (overlooks : s.Overlooks place) : s.Dispensable segments place
  | dropped {around : Option Block} {block : Block} {children : List Segment}
    (kind : block.kind = .table) (outer : ∀ group ∈ around, group.kind = .tableGroup)
    (drops : ∀ met tail, discovered segments = met ++ ⟨block, children⟩ :: tail →
      s.Discards met ⟨block, children⟩) :
    s.Dispensable segments ⟨around, .block block children⟩

/-- The document may do without the segment in all of the places where it stands. -/
def Spares (s : Source) (segments : List Segment) (x : Segment) (places : List Place) : Prop :=
  ∀ around, ⟨around, x⟩ ∈ places → s.Dispensable segments ⟨around, x⟩

theorem Spares.of_subset {all few : List Place} (spares : s.Spares segments x all)
    (part : few ⊆ all) : s.Spares segments x few :=
  fun around here => spares around (part here)

/-! ## Lines -/

/-- A line is no note when it is a reference. -/
theorem noteLine?_of_shortForm? {found : Option String × TokenRange}
    (short : s.shortForm? line = some found) : s.noteLine? line = none := by
  have reference : s.isKeyword line.start "Ref" = true := by
    by_contra other
    rw [shortForm?, if_neg other] at short
    cases short
  unfold noteLine?
  rw [if_neg]
  rintro ⟨note, -⟩
  unfold isKeyword holds at reference note
  cases read : s.token? line.start with
  | none => rw [read] at note; cases note
  | some token =>
    rw [read] at reference note
    cases token with
    | ident word =>
      simp only [Option.any_some, Token.isKeyword, Token.sameWord, beq_iff_eq] at reference note
      exact absurd (note.symm.trans reference) (by decide)
    | _ => cases note

/-! ## Tables -/

theorem addIndexes_append (table : DeclaredTable) (before after : List Segment) :
    (s.addIndexes table (before ++ after)).value =
      (s.addIndexes (s.addIndexes table before).value after).value := by
  induction before generalizing table with
  | nil => rfl
  | cons x before ih =>
    cases x with
    | line line =>
      rw [List.cons_append, addIndexes, addIndexes, Noted.bind_value, Noted.bind_value]
      exact ih _
    | block inner children =>
      rw [List.cons_append, addIndexes, addIndexes]
      exact ih table

theorem addIndexes_overlooked (kind : block.kind = .indexes)
    (dispensable : s.Dispensable segments ⟨some block, x⟩) (table : DeclaredTable)
    (after : List Segment) :
    (s.addIndexes table (x :: after)).value = (s.addIndexes table after).value := by
  cases x with
  | block inner children => rw [addIndexes]
  | line line =>
    have rejected : (s.index? line).value = none := by
      obtain ⟨⟨cause, passed⟩ | ⟨statement, states⟩⟩ := dispensable
      · cases passed with
        | tableLine other | groupLine other =>
          rw [kind] at other
          cases other
        | index _ rejected =>
          rw [index?, rejected]
          rfl
      · cases states with
        | line other =>
          rcases other block rfl with other | other <;> rw [kind] at other <;> cases other
        | listed other =>
          rw [kind] at other
          cases other
    rw [addIndexes, Noted.bind_value, rejected]
    rfl

theorem addIndexes_removed (kind : block.kind = .indexes) (removed : Removed x children rest)
    (spares : s.Spares segments x (places (some block) children)) (table : DeclaredTable) :
    (s.addIndexes table children).value = (s.addIndexes table rest).value := by
  cases removed with
  | here before after =>
    rw [addIndexes_append, addIndexes_append, addIndexes_overlooked kind]
    exact spares _ (mem_places (by simp))
  | inside before after inner removed =>
    rw [addIndexes_append, addIndexes_append, addIndexes, addIndexes]

theorem applyTableSegment_overlooked (kind : block.kind = .table)
    (overlooks : s.Overlooks ⟨some block, x⟩) (table : DeclaredTable) :
    (s.applyTableSegment table x).value = table := by
  rcases overlooks with ⟨cause, passed⟩ | ⟨statement, states⟩
  · cases passed with
    | groupLine other | index other | inGroup other =>
      rw [kind] at other
      cases other
    | tableLine _ note reference column =>
      rw [applyTableSegment, applyTableLine, note, reference]
      rw [column?, column]
      rfl
    | inTable _ note indexes =>
      rw [applyTableSegment]
      split
      · contradiction
      · contradiction
      · rfl
  · cases states with
    | line _ short =>
      rw [applyTableSegment, applyTableLine, noteLine?_of_shortForm? short, short]
      rfl
    | listed other | nested other =>
      rw [kind] at other
      cases other

theorem applyTableSegment_removed (block : Block) (removed : Removed x children rest)
    (spares : s.Spares segments x (places (some block) children)) (table : DeclaredTable) :
    (s.applyTableSegment table (.block block children)).value =
      (s.applyTableSegment table (.block block rest)).value := by
  rw [applyTableSegment, applyTableSegment]
  split
  · rfl
  next kind => exact addIndexes_removed kind removed spares table
  · rfl

/-- A table declares the same without a segment that the document may do without. -/
theorem declaredTable_removed (kind : block.kind = .table) (removed : Removed x children rest)
    (spares : s.Spares segments x (places (some block) children)) :
    (s.declaredTable block children).value = (s.declaredTable block rest).value := by
  rw [declaredTable_value, declaredTable_value]
  refine Option.map_congr fun heading _ => congrArg heading.complete ?_
  refine removed.foldlM (fun y b c same => by rw [same]) ?_ ?_ rfl
  · rintro before after rfl c same
    rcases spares _ (mem_places (by simp)) with overlooks | ⟨-, outer, -⟩
    · exact (applyTableSegment_overlooked kind overlooks _).trans same
    · rw [outer block rfl] at kind
      cases kind
  · rintro before after inner children' rest' rfl removed' c same
    rw [← same]
    exact applyTableSegment_removed inner removed' (spares.of_subset (places_subset (by simp))) _

end Source

end Dbml
