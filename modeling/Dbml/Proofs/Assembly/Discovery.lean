import Dbml.Proofs.Assembly.Ownership
import Dbml.Proofs.Segment.Places
import Dbml.Proofs.Table.Heading

/-!
# The discovery of tables

The table blocks of a document in the order an assembly discovers them, and which of them it drops:
those that declare no table, and those that repeat the key of an earlier declaration. Main
statements: an invariant that each discovered block carries on holds of the run
(`TableInvariant.ofSegments`), and a block is dropped for these causes only (`mem_dropped_iff`).
-/

namespace Dbml

structure TableBlock where
  block : Block
  children : List Segment

namespace Segment

def tableBlock? : Segment → Option TableBlock
  | .block b children => if b.kind = .table then some ⟨b, children⟩ else none
  | .line _ => none

/-- The table blocks of a group. -/
def groupBlocks : Segment → List TableBlock
  | .block b children => if b.kind = .tableGroup then children.filterMap tableBlock? else []
  | .line _ => []

/-- The table blocks of a document in the order of discovery. -/
def discovered (segments : List Segment) : List TableBlock :=
  segments.flatMap groupBlocks ++ segments.filterMap tableBlock?

theorem tableBlock?_table {block : Block} (kind : block.kind = .table) (children : List Segment) :
    (Segment.block block children).tableBlock? = some ⟨block, children⟩ :=
  if_pos kind

theorem tableBlock?_eq_some {x : Segment} {found : TableBlock} :
    x.tableBlock? = some found ↔
      x = .block found.block found.children ∧ found.block.kind = .table := by
  cases x with
  | line range => simp [tableBlock?]
  | block b children =>
    constructor
    · intro here
      rw [tableBlock?] at here
      split at here
      · cases here
        exact ⟨rfl, by assumption⟩
      · cases here
    · rintro ⟨same, kind⟩
      cases same
      simp [tableBlock?, kind]

theorem exists_place_of_mem_groupBlocks {segments : List Segment} {found : TableBlock}
    (met : found ∈ segments.flatMap groupBlocks) :
    found.block.kind = .table ∧ ∃ group, group.kind = .tableGroup ∧
      ⟨some group, .block found.block found.children⟩ ∈ places none segments := by
  obtain ⟨x, listed, inner⟩ := List.mem_flatMap.1 met
  cases x with
  | line range => cases inner
  | block group children =>
    rw [groupBlocks] at inner
    split at inner
    · rename_i kind
      obtain ⟨y, there, read⟩ := List.mem_filterMap.1 inner
      obtain ⟨rfl, table⟩ := tableBlock?_eq_some.1 read
      exact ⟨table, group, kind, places_subset listed (mem_places there)⟩
    · cases inner

theorem place_of_mem_tableBlocks {segments : List Segment} {found : TableBlock}
    (met : found ∈ segments.filterMap tableBlock?) :
    found.block.kind = .table ∧
      ⟨none, .block found.block found.children⟩ ∈ places none segments := by
  obtain ⟨x, listed, read⟩ := List.mem_filterMap.1 met
  obtain ⟨rfl, table⟩ := tableBlock?_eq_some.1 read
  exact ⟨table, mem_places listed⟩

/-- A discovered block stands at the top level or in a group. -/
theorem exists_place_of_mem_discovered {segments : List Segment} {found : TableBlock}
    (met : found ∈ discovered segments) :
    found.block.kind = .table ∧ ∃ around, (∀ block ∈ around, block.kind = .tableGroup) ∧
      ⟨around, .block found.block found.children⟩ ∈ places none segments := by
  rcases List.mem_append.1 met with inGroup | atTop
  · obtain ⟨table, group, kind, here⟩ := exists_place_of_mem_groupBlocks inGroup
    exact ⟨table, some group, by simpa using kind, here⟩
  · obtain ⟨table, here⟩ := place_of_mem_tableBlocks atTop
    exact ⟨table, none, by simp, here⟩

theorem sublist_tableBlocks (around : Option Block) (segments : List Segment) :
    ((segments.filterMap tableBlock?).map (·.block.start)).Sublist
      ((places around segments).map Place.start) := by
  induction segments with
  | nil => exact List.Sublist.refl _
  | cons x rest ih =>
    rw [places, List.map_cons, List.map_append]
    have behind := ih.trans (List.sublist_append_right (x.inside.map Place.start) _)
    cases read : x.tableBlock? with
    | none =>
      rw [List.filterMap_cons_none read]
      exact behind.cons _
    | some found =>
      obtain ⟨rfl, -⟩ := tableBlock?_eq_some.1 read
      rw [List.filterMap_cons_some read]
      exact behind.cons_cons _

theorem sublist_groupBlocks (around : Option Block) (segments : List Segment) :
    ((segments.flatMap groupBlocks).map (·.block.start)).Sublist
      ((places around segments).map Place.start) := by
  induction segments with
  | nil => exact List.Sublist.refl _
  | cons x rest ih =>
    have own : ((groupBlocks x).map (·.block.start)).Sublist (x.inside.map Place.start) := by
      cases x with
      | line range => exact List.Sublist.refl _
      | block group children =>
        rw [groupBlocks]
        split
        · exact sublist_tableBlocks (some group) children
        · exact List.nil_sublist _
    rw [places, List.map_cons, List.map_append, List.flatMap_cons, List.map_append]
    exact (own.append ih).cons _

/-- No block is discovered twice. -/
theorem nodup_discovered {segments : List Segment}
    (ordered : Place.InOrder (places none segments)) :
    ((discovered segments).map (·.block.start)).Nodup := by
  rw [discovered, List.map_append]
  refine List.nodup_append'.2 ⟨ordered.nodup.sublist (sublist_groupBlocks none segments),
    ordered.nodup.sublist (sublist_tableBlocks none segments), fun start inGroup atTop => ?_⟩
  obtain ⟨found, met, rfl⟩ := List.mem_map.1 inGroup
  obtain ⟨other, met', same⟩ := List.mem_map.1 atTop
  obtain ⟨-, group, -, here⟩ := exists_place_of_mem_groupBlocks met
  obtain ⟨-, there⟩ := place_of_mem_tableBlocks met'
  cases ordered.eq_of_start_eq here there same.symm

end Segment

open Segment

namespace Source

/-- The table that a discovered block declares. -/
def declared? (s : Source) (found : TableBlock) : Option DeclaredTable :=
  (s.declaredTable found.block found.children).value

/-- Whether one of the blocks declares the key. -/
def Declares (s : Source) (met : List TableBlock) (key : String) : Prop :=
  ∃ earlier ∈ met, ∃ table, s.declared? earlier = some table ∧ table.key = key

/-- A block that comes after those met is dropped: it has no name, not a byte between its braces, or
a key that one of those met declares. -/
def Discards (s : Source) (met : List TableBlock) (found : TableBlock) : Prop :=
  tableName? found.block.header = none ∨ s.hasEmptyBody found.block = true ∨
    ∃ table, s.declared? found = some table ∧ s.Declares met table.key

/-- A block of the document is dropped, in the order of discovery. -/
def Drops (s : Source) (segments : List Segment) (block : Block) : Prop :=
  ∃ met children rest, discovered segments = met ++ ⟨block, children⟩ :: rest ∧
    s.Discards met ⟨block, children⟩

variable {s : Source} {met : List TableBlock} {found last : TableBlock} {key : String}

theorem declared?_eq_none : s.declared? found = none ↔
    tableName? found.block.header = none ∨ s.hasEmptyBody found.block = true := by
  rw [declared?, declaredTable_value, Option.map_eq_none_iff, heading?_eq_none]

theorem discards_iff : s.Discards met found ↔
    ∀ table, s.declared? found = some table → s.Declares met table.key := by
  unfold Discards
  rw [← or_assoc, ← declared?_eq_none]
  cases s.declared? found <;> simp

theorem declares_concat : s.Declares (met ++ [last]) key ↔
    s.Declares met key ∨ ∃ table, s.declared? last = some table ∧ table.key = key := by
  simp only [Declares, List.mem_append, List.mem_singleton, or_and_right, exists_or,
    exists_eq_left]

end Source

namespace Assembly

variable {s : Source} {a : Assembly} {seen : List TableBlock}
  {P : Assembly → List TableBlock → Prop}

/-! ## Invariants of discovery -/

/-- An invariant that each discovered block carries on, whether it is dropped or its table added,
and that depends on nothing but the tables, their relationships and the blocks dropped. -/
structure TableInvariant (s : Source) (P : Assembly → List TableBlock → Prop) : Prop where
  frame : ∀ {a b seen}, P a seen → b.tables = a.tables → b.relationships = a.relationships →
    b.dropped = a.dropped → P b seen
  drop : ∀ {a seen} (found : TableBlock), P a seen →
    (∀ table, s.declared? found = some table → a.isDefined table.key = true) →
    P (a.drop found.block) (seen ++ [found])
  add : ∀ {a seen} (found : TableBlock) (table : DeclaredTable) (owner : Option Nat), P a seen →
    s.declared? found = some table → a.isDefined table.key = false →
    P (a.addTable table owner) (seen ++ [found])

/-- A claim leaves the tables, their relationships and the blocks dropped as they are. -/
theorem claim_frame (a : Assembly) (group : Nat) (key : String) :
    (a.claim group key).tables = a.tables ∧ (a.claim group key).relationships = a.relationships ∧
      (a.claim group key).dropped = a.dropped := by
  unfold claim
  split <;> exact ⟨rfl, rfl, rfl⟩

theorem setGroupNote_frame (a : Assembly) (group : Nat) (note : Option String) :
    (a.setGroupNote group note).tables = a.tables ∧
      (a.setGroupNote group note).relationships = a.relationships ∧
      (a.setGroupNote group note).dropped = a.dropped := by
  unfold setGroupNote
  cases note <;> exact ⟨rfl, rfl, rfl⟩

/-- A group is opened with nothing taken from those before it. -/
theorem openGroup_value (s : Source) (block : Block) (name : String) :
    ∃ g, ∀ a, (openGroup s a block name).value = { a with groups := a.groups ++ [g] } := by
  let given := ((block.header.settings.elim [] s.settings).foldlM (applyGroupSetting s) {}).value
  refine ⟨{ id := groupId name, name, note := given.note,
            color := Color.resolve [given.color] none name, tables := [] }, fun a => ?_⟩
  simp only [openGroup, Noted.bind_value]
  split <;> rfl

theorem addProject_frame (s : Source) (a : Assembly) (block : Block) (children : List Segment) :
    ∃ project, (addProject s a block children).value = { a with project } := by
  unfold addProject
  split
  · exact ⟨a.project, rfl⟩
  · split
    · exact ⟨a.project, rfl⟩
    · exact ⟨_, rfl⟩

namespace TableInvariant

theorem placeTable (invariant : TableInvariant s P) (holds : P a seen) (block : Block)
    (children : List Segment) {place : DeclaredTable → Noted Assembly}
    (added : ∀ table, s.declared? ⟨block, children⟩ = some table → a.isDefined table.key = false →
      P (place table).value (seen ++ [⟨block, children⟩])) :
    P (placeTable s a block children place).value (seen ++ [⟨block, children⟩]) := by
  rw [placeTable_value]
  cases declared : (s.declaredTable block children).value with
  | none =>
    refine invariant.drop ⟨block, children⟩ holds fun table same => ?_
    rw [Source.declared?, declared] at same
    cases same
  | some table =>
    dsimp only
    by_cases taken : a.isDefined table.key = true
    · rw [if_pos taken]
      refine invariant.drop ⟨block, children⟩ holds fun other same => ?_
      rw [Source.declared?, declared] at same
      cases same
      exact taken
    · rw [if_neg taken]
      exact added table declared (by simpa using taken)

theorem addTopTable (invariant : TableInvariant s P) (holds : P a seen) (block : Block)
    (children : List Segment) :
    P (addTopTable s a block children).value (seen ++ [⟨block, children⟩]) :=
  invariant.placeTable holds block children fun table declared fresh =>
    invariant.add _ table _ holds declared fresh

theorem addGroupTable (invariant : TableInvariant s P) (holds : P a seen) (group : Option Nat)
    (block : Block) (children : List Segment) :
    P (addGroupTable s group a block children).value (seen ++ [⟨block, children⟩]) := by
  refine invariant.placeTable holds block children fun table declared fresh => ?_
  cases group with
  | none => exact invariant.add _ table none holds declared fresh
  | some group =>
    obtain ⟨tables, relationships, dropped⟩ := claim_frame a group table.key
    have claimed := invariant.frame holds tables relationships dropped
    simp only [Noted.bind_value, claimAt_value, Noted.pure_value]
    exact invariant.add _ table _ claimed declared (by rw [isDefined, tables]; exact fresh)

theorem applyGroupSegment (invariant : TableInvariant s P) {group : Option Nat} {o : OpenGroup}
    (holds : P o.assembly seen) (x : Segment) :
    P (applyGroupSegment s group o x).value.assembly (seen ++ x.tableBlock?.toList) := by
  rcases applyGroupSegment_assembly s group o x with
    ⟨block, children, rfl, kind, after⟩ | ⟨none, after⟩
  · rw [after, tableBlock?_table kind]
    exact invariant.addGroupTable holds group block children
  · cases read : x.tableBlock? with
    | none =>
      rw [Option.toList_none, List.append_nil]
      rcases after with after | ⟨number, key, -, after⟩
      · rw [after]
        exact holds
      · obtain ⟨tables, relationships, dropped⟩ := claim_frame o.assembly number key
        rw [after]
        exact invariant.frame holds tables relationships dropped
    | some found =>
      obtain ⟨rfl, kind⟩ := tableBlock?_eq_some.1 read
      simp only [Assembly.applyGroupSegment, kind, Noted.bind_value]
      exact invariant.addGroupTable holds group found.block found.children

theorem groupBody (invariant : TableInvariant s P) {group : Option Nat} (children : List Segment)
    {o : OpenGroup} (holds : P o.assembly seen) :
    P (children.foldlM (Assembly.applyGroupSegment s group) o).value.assembly
      (seen ++ children.filterMap tableBlock?) := by
  induction children generalizing o seen with
  | nil => simpa using holds
  | cons x rest ih =>
    have after : P (Assembly.applyGroupSegment s group o x).value.assembly
        (seen ++ x.tableBlock?.toList) := invariant.applyGroupSegment holds x
    rw [List.foldlM_cons, Noted.bind_value]
    have all := ih after
    rw [List.append_assoc] at all
    cases read : x.tableBlock? with
    | none => simpa [List.filterMap_cons, read] using all
    | some found => simpa [List.filterMap_cons, read] using all

theorem addGroup (invariant : TableInvariant s P) (holds : P a seen) (block : Block)
    (children : List Segment) :
    P (addGroup s a block children).value (seen ++ children.filterMap tableBlock?) := by
  rw [Assembly.addGroup]
  cases block.header.name? with
  | none => exact invariant.groupBody children holds
  | some name =>
    simp only [Noted.bind_value, Noted.pure_value]
    obtain ⟨g, opened⟩ := openGroup_value s block name
    rw [opened]
    have carried : P { a with groups := a.groups ++ [g] } seen := invariant.frame holds rfl rfl rfl
    have read : P (children.foldlM (Assembly.applyGroupSegment s (some a.groups.length))
        { assembly := { a with groups := a.groups ++ [g] } }).value.assembly
        (seen ++ children.filterMap tableBlock?) := invariant.groupBody children carried
    obtain ⟨tables, relationships, dropped⟩ := setGroupNote_frame _ _ _
    exact invariant.frame read tables relationships dropped

theorem groups (invariant : TableInvariant s P) (segments : List Segment) (holds : P a seen) :
    P (segments.foldlM (applyGroup s) a).value (seen ++ segments.flatMap groupBlocks) := by
  induction segments generalizing a seen with
  | nil => simpa using holds
  | cons x rest ih =>
    rw [List.foldlM_cons, Noted.bind_value, List.flatMap_cons, ← List.append_assoc]
    refine ih ?_
    cases x with
    | line range => simpa [applyGroup, groupBlocks] using holds
    | block block children =>
      by_cases kind : block.kind = .tableGroup
      · rw [applyGroup, groupBlocks, if_pos kind, if_pos kind]
        exact invariant.addGroup holds block children
      · rw [applyGroup, groupBlocks, if_neg kind, if_neg kind, List.append_nil]
        exact holds

theorem applyBlock (invariant : TableInvariant s P) (holds : P a seen) (x : Segment) :
    P (applyBlock s a x).value (seen ++ x.tableBlock?.toList) := by
  cases x with
  | line range => simpa [tableBlock?, Assembly.applyBlock] using holds
  | block block children =>
    by_cases kind : block.kind = .table
    · rw [tableBlock?_table kind]
      simp only [Assembly.applyBlock, kind]
      exact invariant.addTopTable holds block children
    · rw [tableBlock?, if_neg kind, Option.toList_none, List.append_nil, Assembly.applyBlock]
      split
      · contradiction
      · obtain ⟨project, after⟩ := addProject_frame s a block children
        rw [after]
        exact invariant.frame holds rfl rfl rfl
      · exact holds
      · exact holds
      · exact holds

theorem blocks (invariant : TableInvariant s P) (segments : List Segment) (holds : P a seen) :
    P (segments.foldlM (Assembly.applyBlock s) a).value
      (seen ++ segments.filterMap tableBlock?) := by
  induction segments generalizing a seen with
  | nil => simpa using holds
  | cons x rest ih =>
    have after := invariant.applyBlock holds x
    rw [List.foldlM_cons, Noted.bind_value]
    have all := ih after
    rw [List.append_assoc] at all
    cases read : x.tableBlock? with
    | none => simpa [List.filterMap_cons, read] using all
    | some found => simpa [List.filterMap_cons, read] using all

/-- What holds at the start and is carried on by every table block holds of the whole document. -/
theorem ofSegments (invariant : TableInvariant s P) (start : P {} []) (segments : List Segment) :
    P (ofSegments s segments).value (discovered segments) := by
  have grouped := invariant.groups segments start
  rw [List.nil_append] at grouped
  exact invariant.blocks segments grouped

end TableInvariant

/-! ## What is dropped -/

/-- What an assembly that has met the blocks knows of them: the keys they declare, and where those
begin that were dropped. -/
structure Discovering (s : Source) (a : Assembly) (met : List TableBlock) : Prop where
  defined : ∀ key, a.isDefined key = true ↔ s.Declares met key
  dropped : ∀ position, position ∈ a.dropped ↔ ∃ before found after,
    met = before ++ found :: after ∧ found.block.start = position ∧ s.Discards before found

theorem isDefined_addTable (a : Assembly) (table : DeclaredTable) (owner : Option Nat)
    (key : String) :
    (a.addTable table owner).isDefined key = true ↔ a.isDefined key = true ∨ table.key = key := by
  simp only [isDefined, addTable, List.any_append, List.any_cons, List.any_nil, Bool.or_false,
    Bool.or_eq_true, beq_iff_eq]
  rfl

/-- How a list with one more element falls apart around an element. -/
theorem concat_eq_append_cons {α : Type} {xs before after : List α} {last x : α} :
    xs ++ [last] = before ++ x :: after ↔
      (before = xs ∧ x = last ∧ after = []) ∨
        ∃ rest, after = rest ++ [last] ∧ xs = before ++ x :: rest := by
  constructor
  · intro same
    rcases List.eq_nil_or_concat after with rfl | ⟨rest, final, rfl⟩
    · obtain ⟨rfl, here⟩ := List.append_inj' same rfl
      cases here
      exact .inl ⟨rfl, rfl, rfl⟩
    · rw [List.concat_eq_append, ← List.cons_append, ← List.append_assoc] at same
      obtain ⟨rfl, here⟩ := List.append_inj' same rfl
      cases here
      exact .inr ⟨rest, by simp, rfl⟩
  · rintro (⟨rfl, rfl, rfl⟩ | ⟨rest, rfl, rfl⟩)
    · rfl
    · simp

theorem discovering_invariant (s : Source) : TableInvariant s (Discovering s) where
  frame := by
    intro a b met holds tables _ dropped
    exact ⟨fun key => by rw [isDefined, tables]; exact holds.defined key,
      fun position => by rw [dropped]; exact holds.dropped position⟩
  drop := by
    intro a met found holds taken
    have discards : s.Discards met found :=
      Source.discards_iff.2 fun table declared => (holds.defined _).1 (taken table declared)
    refine ⟨fun key => ?_, fun position => ?_⟩
    · rw [Source.declares_concat]
      refine (holds.defined key).trans ⟨.inl, ?_⟩
      rintro (old | ⟨table, declared, rfl⟩)
      · exact old
      · exact Source.discards_iff.1 discards table declared
    · show position ∈ found.block.start :: a.dropped ↔ _
      rw [List.mem_cons, holds.dropped]
      constructor
      · rintro (rfl | ⟨before, old, after, rfl, same, dropped⟩)
        · exact ⟨met, found, [], rfl, rfl, discards⟩
        · exact ⟨before, old, after ++ [found], by simp, same, dropped⟩
      · rintro ⟨before, old, after, split, same, dropped⟩
        rcases concat_eq_append_cons.1 split with ⟨rfl, rfl, rfl⟩ | ⟨rest, rfl, rfl⟩
        · exact .inl same.symm
        · exact .inr ⟨before, old, rest, rfl, same, dropped⟩
  add := by
    intro a met found table owner holds declared fresh
    have keeps : ¬ s.Discards met found := by
      intro discards
      rw [(holds.defined _).2 (Source.discards_iff.1 discards table declared)] at fresh
      cases fresh
    refine ⟨fun key => ?_, fun position => ?_⟩
    · rw [Source.declares_concat, isDefined_addTable, holds.defined, declared]
      simp
    · show position ∈ a.dropped ↔ _
      rw [holds.dropped]
      constructor
      · rintro ⟨before, old, after, rfl, same, dropped⟩
        exact ⟨before, old, after ++ [found], by simp, same, dropped⟩
      · rintro ⟨before, old, after, split, same, dropped⟩
        rcases concat_eq_append_cons.1 split with ⟨rfl, rfl, rfl⟩ | ⟨rest, rfl, rfl⟩
        · exact absurd dropped keeps
        · exact ⟨before, old, rest, rfl, same, dropped⟩

theorem discovering_empty (s : Source) : Discovering s {} [] := by
  refine ⟨fun key => ?_, fun position => ?_⟩
  · simp [isDefined, Source.Declares]
  · simp

/-- The blocks of which an assembly remembers that they were dropped. -/
theorem mem_dropped_iff {segments : List Segment} {position : Nat} :
    position ∈ (ofSegments s segments).value.dropped ↔
      ∃ block, s.Drops segments block ∧ block.start = position := by
  rw [((discovering_invariant s).ofSegments (discovering_empty s) segments).dropped]
  constructor
  · rintro ⟨before, found, after, split, same, dropped⟩
    exact ⟨found.block, ⟨before, found.children, after, split, dropped⟩, same⟩
  · rintro ⟨block, ⟨before, children, after, split, dropped⟩, same⟩
    exact ⟨before, ⟨block, children⟩, after, split, same, dropped⟩

end Assembly

end Dbml
