import Dbml.Proofs.Document.Aliases
import Mathlib.Data.List.Basic

/-!
# Where the groups of a document stand

Groups are read before everything else, so it makes no difference where they stand among the other
segments of a document. Only references that stand on their own are taken in the order of the
document. Main statement: `assemble_regrouped`.
-/

namespace Dbml

/-! ## Regrouped documents -/

namespace Segment

def isGroup : Segment → Bool
  | .block b _ => b.kind = .tableGroup
  | .line _ => false

/-- The groups in their order, each with the number of other segments before it, of which `before`
have been passed. -/
def groupPlaces (before : Nat) : List Segment → List (Nat × Segment)
  | [] => []
  | x :: rest =>
    if x.isGroup then (before, x) :: groupPlaces before rest else groupPlaces (before + 1) rest

/-- The groups that have not as many other segments before them in the second list. -/
def movedGroups (segments others : List Segment) : List Segment :=
  ((groupPlaces 0 segments).zip (groupPlaces 0 others)).filterMap fun (here, there) =>
    if here.1 = there.1 then none else some here.2

end Segment

open Segment

/-- The same groups in the same order, and the same other segments in the same order. -/
structure Regrouped (segments others : List Segment) : Prop where
  groups : segments.filter isGroup = others.filter isGroup
  rest : segments.filter (!·.isGroup) = others.filter (!·.isGroup)

namespace Segment

variable {segments others xs ys : List Segment} {n m : Nat}

theorem groupPlaces_group {x : Segment} (group : x.isGroup = true) (n : Nat) (xs : List Segment) :
    groupPlaces n (x :: xs) = (n, x) :: groupPlaces n xs := by
  rw [groupPlaces, if_pos group]

theorem groupPlaces_other {x : Segment} (other : x.isGroup = false) (n : Nat) (xs : List Segment) :
    groupPlaces n (x :: xs) = groupPlaces (n + 1) xs := by
  rw [groupPlaces, if_neg (by simp [other])]

theorem le_of_mem_groupPlaces {place : Nat × Segment} (listed : place ∈ groupPlaces n xs) :
    n ≤ place.1 := by
  induction xs generalizing n with
  | nil => cases listed
  | cons x xs ih =>
    cases group : x.isGroup with
    | true =>
      rw [groupPlaces_group group] at listed
      rcases List.mem_cons.1 listed with rfl | later
      · exact Nat.le_refl _
      · exact ih later
    | false =>
      rw [groupPlaces_other group] at listed
      exact Nat.le_of_succ_le (ih listed)

theorem map_groupPlaces (n : Nat) (xs : List Segment) :
    (groupPlaces n xs).map Prod.snd = xs.filter isGroup := by
  induction xs generalizing n with
  | nil => rfl
  | cons x xs ih =>
    cases group : x.isGroup with
    | true => rw [groupPlaces_group group, List.map_cons, ih, List.filter_cons_of_pos group]
    | false => rw [groupPlaces_other group, ih, List.filter_cons_of_neg (by simp [group])]

/-- Leaving out some of the groups does not change the places of the others. -/
theorem groupPlaces_filter {keep : Segment → Bool}
    (others : ∀ x : Segment, x.isGroup = false → keep x = true) (n : Nat) (xs : List Segment) :
    groupPlaces n (xs.filter keep) = (groupPlaces n xs).filter (keep ·.2) := by
  induction xs generalizing n with
  | nil => rfl
  | cons x xs ih =>
    cases group : x.isGroup with
    | true =>
      rw [groupPlaces_group group]
      by_cases kept : keep x = true
      · rw [List.filter_cons_of_pos kept, groupPlaces_group group, ih, List.filter_cons_of_pos]
        exact kept
      · rw [List.filter_cons_of_neg kept, ih, List.filter_cons_of_neg]
        exact kept
    | false =>
      rw [List.filter_cons_of_pos (others x group), groupPlaces_other group,
        groupPlaces_other group, ih]

/-- The places of the groups tell how they are mixed with the other segments. -/
theorem eq_of_groupPlaces (places : groupPlaces n xs = groupPlaces n ys)
    (rest : xs.filter (!·.isGroup) = ys.filter (!·.isGroup)) : xs = ys := by
  induction xs generalizing n ys with
  | nil =>
    have groups : ys.filter isGroup = [] := by rw [← map_groupPlaces n, ← places]; rfl
    have all := (List.filter_append_perm isGroup ys).symm
    rw [groups, ← rest] at all
    exact all.eq_nil.symm
  | cons x xs ih =>
    cases ys with
    | nil =>
      have groups : (x :: xs).filter isGroup = [] := by rw [← map_groupPlaces n, places]; rfl
      have all := (List.filter_append_perm isGroup (x :: xs)).symm
      rw [groups, rest] at all
      exact all.eq_nil
    | cons y ys =>
      cases group : x.isGroup with
      | true =>
        cases group' : y.isGroup with
        | true =>
          rw [groupPlaces_group group, groupPlaces_group group'] at places
          rw [List.filter_cons_of_neg (by simp [group]),
            List.filter_cons_of_neg (by simp [group'])] at rest
          obtain ⟨same, places⟩ := List.cons.inj places
          rw [ih places rest, (Prod.mk.inj same).2]
        | false =>
          rw [groupPlaces_group group, groupPlaces_other group'] at places
          have := le_of_mem_groupPlaces (places ▸ List.mem_cons_self)
          simp only at this
          omega
      | false =>
        cases group' : y.isGroup with
        | true =>
          rw [groupPlaces_other group, groupPlaces_group group'] at places
          have := le_of_mem_groupPlaces (places.symm ▸ List.mem_cons_self)
          simp only at this
          omega
        | false =>
          rw [groupPlaces_other group, groupPlaces_other group'] at places
          rw [List.filter_cons_of_pos (by simp [group]),
            List.filter_cons_of_pos (by simp [group'])] at rest
          obtain ⟨same, rest⟩ := List.cons.inj rest
          rw [ih places rest, same]

/-- Groups that have moved and are left out make no difference to the rest. -/
theorem filter_groupPlaces {keep : Segment → Bool} {here there : List (Nat × Segment)}
    (groups : here.map Prod.snd = there.map Prod.snd)
    (moved : ∀ group ∈ (here.zip there).filterMap (fun (here, there) =>
      if here.1 = there.1 then none else some here.2), keep group = false) :
    here.filter (keep ·.2) = there.filter (keep ·.2) := by
  induction here generalizing there with
  | nil =>
    rw [List.map_nil, eq_comm, List.map_eq_nil_iff] at groups
    rw [groups]
  | cons first here ih =>
    cases there with
    | nil => cases groups
    | cons second there =>
      obtain ⟨same, groups⟩ := List.cons.inj groups
      have later := ih groups fun group listed => moved group (by
        rw [List.zip_cons_cons, List.filterMap_cons]
        split
        · exact listed
        · exact List.mem_cons_of_mem _ listed)
      by_cases placed : first.1 = second.1
      · rw [Prod.ext placed same, List.filter_cons, List.filter_cons, later]
      · have left_out : keep first.2 = false := moved first.2 (by simp [placed])
        rw [List.filter_cons_of_neg (by simp [left_out]),
          List.filter_cons_of_neg (by simp [← same, left_out]), later]

end Segment

namespace Regrouped

variable {segments others : List Segment} (regrouped : Regrouped segments others)

include regrouped

theorem perm : segments.Perm others := by
  refine (List.filter_append_perm isGroup segments).symm.trans ?_
  rw [regrouped.groups, regrouped.rest]
  exact List.filter_append_perm isGroup others

/-- What is collected from all segments in their order is the same, when nothing is collected from
the groups that have moved. -/
theorem flatMap_eq {α : Type} {f : Segment → List α}
    (quiet : ∀ group ∈ movedGroups segments others, f group = []) :
    segments.flatMap f = others.flatMap f := by
  let keep : Segment → Bool := fun x => !x.isGroup || !(f x).isEmpty
  have dropped (x : Segment) (left_out : ¬ keep x = true) : f x = [] := by
    simp [keep] at left_out
    exact left_out.2
  have kept (xs : List Segment) : (xs.filter keep).flatMap f = xs.flatMap f := by
    induction xs with
    | nil => rfl
    | cons x xs ih =>
      by_cases stays : keep x = true
      · rw [List.filter_cons_of_pos stays, List.flatMap_cons, ih, List.flatMap_cons]
      · rw [List.filter_cons_of_neg stays, ih, List.flatMap_cons, dropped x stays, List.nil_append]
  have rest (xs : List Segment) :
      (xs.filter keep).filter (!·.isGroup) = xs.filter (!·.isGroup) := by
    rw [List.filter_filter]
    refine List.filter_congr fun x _ => ?_
    cases group : x.isGroup <;> simp [keep, group]
  have places : groupPlaces 0 (segments.filter keep) = groupPlaces 0 (others.filter keep) := by
    have all (x : Segment) (other : x.isGroup = false) : keep x = true := by simp [keep, other]
    rw [groupPlaces_filter all, groupPlaces_filter all]
    refine filter_groupPlaces ?_ fun group moved => ?_
    · rw [map_groupPlaces, map_groupPlaces, regrouped.groups]
    · have silent := quiet group moved
      have listed : group ∈ segments.filter isGroup := by
        obtain ⟨⟨here, there⟩, both, place⟩ := List.mem_filterMap.1 moved
        simp only [Option.ite_none_left_eq_some, Option.some.injEq] at place
        rw [← map_groupPlaces 0, ← place.2]
        exact List.mem_map_of_mem (List.of_mem_zip both).1
      simp [keep, silent, (List.mem_filter.1 listed).2]
  rw [← kept segments, ← kept others]
  rw [eq_of_groupPlaces places (by rw [rest, rest, regrouped.rest])]

end Regrouped

/-! ## What is assembled -/

namespace Assembly

variable {s : Source} {segments others : List Segment}

theorem applyGroup_other {x : Segment} (other : x.isGroup = false) (a : Assembly) :
    applyGroup s a x = pure a := by
  cases x with
  | line range => rfl
  | block b children =>
    simp only [isGroup, decide_eq_false_iff_not] at other
    rw [applyGroup, if_neg other]

theorem applyBlock_group {x : Segment} (group : x.isGroup = true) (a : Assembly) :
    applyBlock s a x = pure a := by
  cases x with
  | line range => rfl
  | block b children =>
    simp only [isGroup, decide_eq_true_eq] at group
    rw [applyBlock, group]

/-- Groups are read from the groups only, and the other blocks from what is no group. -/
theorem ofSegments_eq_filter (s : Source) (segments : List Segment) :
    ofSegments s segments = (segments.filter isGroup).foldlM (applyGroup s) {} >>=
      (segments.filter (!·.isGroup)).foldlM (applyBlock s) := by
  rw [ofSegments, List.foldlM_filter]
  congr 1
  · congr 1
    funext a x
    cases group : x.isGroup with
    | true => rw [if_pos rfl]
    | false => rw [if_neg (by decide), applyGroup_other group]
  · funext a
    rw [List.foldlM_filter]
    congr 1
    funext a x
    cases group : x.isGroup with
    | true => rw [if_neg (by decide), applyBlock_group group]
    | false => rw [Bool.not_false, if_pos rfl]

theorem ofSegments_regrouped (regrouped : Regrouped segments others) :
    ofSegments s others = ofSegments s segments := by
  rw [ofSegments_eq_filter, ← regrouped.groups, ← regrouped.rest, ← ofSegments_eq_filter]

end Assembly

namespace Source

variable {s : Source} {segments others : List Segment}

/-- The relationships of columns in the database. -/
def inlineRelationships (s : Source) (segments : List Segment) : List Relationship :=
  (s.columnRelationships segments).map (·.resolve (s.assemble segments).value.tables)

/-- The relationships in the database of references that stand on their own. -/
def standaloneRelationships (s : Source) (segments : List Segment) : List Relationship :=
  (s.statedRelationshipsOf segments).map (·.resolve (s.assemble segments).value.tables)

/-- Where fewer tables are skipped, all that is found is found again. -/
theorem Refers.of_skips {skips skips' : Block → Prop} (fewer : ∀ block, skips' block → skips block)
    {statement : Statement} (found : s.Refers skips segments statement) :
    s.Refers skips' segments statement := by
  induction found with
  | line here short => exact .line here short
  | listed here kind inner => exact .listed here kind inner
  | group here kind _ ih => exact .group here kind ih
  | table here kind kept _ ih => exact .table here kind (fun skip => kept (fewer _ skip)) ih

theorem statements_eq_flatMap (dropped : List Nat) (topLevel : Bool) (segments : List Segment) :
    s.statements dropped topLevel segments =
      segments.flatMap (s.segmentStatements dropped topLevel) := by
  induction segments with
  | nil => rfl
  | cons x rest ih => rw [statements, ih, List.flatMap_cons]

theorem statedRelationshipsOf_eq (s : Source) (segments : List Segment) :
    s.statedRelationshipsOf segments = segments.flatMap fun x =>
      (s.segmentStatements (Assembly.ofSegments s segments).value.dropped true x).filterMap
        s.accepted? := by
  rw [statedRelationshipsOf, filterMap_references accepted?_eq_none, collected,
    statements_eq_flatMap, List.filterMap_flatMap]

/-- A segment without references makes no relationship on its own. -/
theorem accepted_of_not_refers {x : Segment}
    (quiet : ∀ statement, ¬ s.Refers (fun _ => False) [x] statement) (dropped : List Nat) :
    (s.segmentStatements dropped true x).filterMap s.accepted? = [] := by
  refine List.filterMap_eq_nil_iff.2 fun statement made => accepted?_eq_none statement ?_
  rw [Bool.eq_false_iff]
  intro reference
  have found : s.Refers (fun block => block.start ∈ dropped) [x] statement := by
    have here : statement ∈ s.statements dropped true [x] := by
      rwa [statements, statements, List.append_nil]
    have agree : ∀ block children, (∃ outer, ⟨outer, .block block children⟩ ∈ places none [x]) →
        block.kind = .table → (block.start ∈ dropped ↔ block.start ∈ dropped) :=
      fun _ _ _ _ => Iff.rfl
    exact (mem_statements_iff agree).1 ⟨here, reference⟩
  exact quiet statement (found.of_skips fun _ => False.elim)

/-- The tables, the groups, the project and the relationships of columns do not depend on where the
groups stand, and the other relationships do in their order only; not even that when the groups that
have moved contain no references. -/
theorem assemble_regrouped (s : Source) (regrouped : Regrouped segments others) :
    (s.assemble others).value.tables = (s.assemble segments).value.tables ∧
    (s.assemble others).value.tableGroups = (s.assemble segments).value.tableGroups ∧
    (s.assemble others).value.project = (s.assemble segments).value.project ∧
    (∀ found, (s.assemble found).value.relationships =
      s.inlineRelationships found ++ s.standaloneRelationships found) ∧
    s.inlineRelationships others = s.inlineRelationships segments ∧
    (s.standaloneRelationships others).Perm (s.standaloneRelationships segments) ∧
    ((∀ group ∈ movedGroups segments others, ∀ statement,
        ¬ s.Refers (fun _ => False) [group] statement) →
      s.standaloneRelationships others = s.standaloneRelationships segments) := by
  have assembled := Assembly.ofSegments_regrouped (s := s) regrouped
  have tables : (s.assemble others).value.tables = (s.assemble segments).value.tables :=
    congrArg (·.value.tables) assembled
  have inline : s.columnRelationships others = s.columnRelationships segments :=
    congrArg (·.value.relationships) assembled
  refine ⟨tables, congrArg (·.value.groups) assembled, congrArg (·.value.project) assembled,
    fun found => ?_, ?_, ?_, fun quiet => ?_⟩
  · rw [assemble_relationships, List.map_append, inlineRelationships, standaloneRelationships]
  · rw [inlineRelationships, inline, tables, inlineRelationships]
  · rw [standaloneRelationships, tables, standaloneRelationships, statedRelationshipsOf_eq,
      statedRelationshipsOf_eq, assembled]
    exact (regrouped.perm.symm.flatMap_right _).map _
  · rw [standaloneRelationships, tables, standaloneRelationships, statedRelationshipsOf_eq,
      statedRelationshipsOf_eq, assembled]
    congr 1
    exact (regrouped.flatMap_eq fun group moved =>
      accepted_of_not_refers (quiet group moved) _).symm

/-- A group with a reference, and between a table and a reference one without, which declares the
other table. -/
def groupsText : String :=
  "TableGroup g \x7b\n t\n Ref: t.id > u.id\n\x7d\nTable t \x7b\n id int [ref: > u.id]\n\x7d\n" ++
    "TableGroup h \x7b\n Table u \x7b\n  id int\n \x7d\n\x7d\nRef: u.id < t.id\n"

theorem assemble_regrouped_groupsText :
    ∃ s first table second last, ofString groupsText = .ok s ∧
      s.scan = .ok [first, table, second, last] ∧
      Regrouped [first, table, second, last] [first, second, table, last] ∧
      movedGroups [first, table, second, last] [first, second, table, last] = [second] ∧
      (s.inlineRelationships [first, second, table, last] =
        s.inlineRelationships [first, table, second, last]) ∧
      s.standaloneRelationships [first, second, table, last] =
        s.standaloneRelationships [first, table, second, last] := by
  have evaluated : (ofString groupsText).toOption.bind (fun s => s.scan.toOption.map fun segments =>
      segments.map fun x => (x.isGroup, (s.segmentStatements [] true x).length)) =
      some [(true, 1), (false, 0), (true, 0), (false, 1)] := by decide +kernel
  obtain ⟨s, read, evaluated⟩ := Option.bind_eq_some_iff.1 evaluated
  obtain ⟨segments, scanned, evaluated⟩ := Option.map_eq_some_iff.1 evaluated
  simp only [List.map_eq_cons_iff, List.map_eq_nil_iff, Prod.mk.injEq] at evaluated
  obtain ⟨first, _, rfl, ⟨group, -⟩, table, _, rfl, ⟨other, -⟩, second, _, rfl, ⟨group', silent⟩,
    last, _, rfl, ⟨other', -⟩, rfl⟩ := evaluated
  have regrouped : Regrouped [first, table, second, last] [first, second, table, last] := by
    constructor <;> simp [group, other, group', other']
  have moved : movedGroups [first, table, second, last] [first, second, table, last] =
      [second] := by
    simp [movedGroups, groupPlaces, group, other, group', other']
  have quiet : ∀ statement, ¬ s.Refers (fun _ => False) [second] statement := by
    intro statement found
    have agree : ∀ block children,
        (∃ outer, ⟨outer, .block block children⟩ ∈ places none [second]) →
        block.kind = .table → (block.start ∈ ([] : List Nat) ↔ False) := by simp
    have made : statement ∈ s.statements [] true [second] ∧ statement.isReference = true :=
      (mem_statements_iff agree).2 found
    rw [statements, statements, List.length_eq_zero_iff.1 silent] at made
    exact absurd made.1 List.not_mem_nil
  obtain ⟨-, -, -, -, inline, -, same⟩ := s.assemble_regrouped regrouped
  refine ⟨s, first, table, second, last, eq_ok_of_toOption read, eq_ok_of_toOption scanned,
    regrouped, moved, inline, same fun group listed => ?_⟩
  rw [moved, List.mem_singleton] at listed
  rw [listed]
  exact quiet

end Source

end Dbml
