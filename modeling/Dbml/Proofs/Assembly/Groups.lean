import Dbml.Proofs.Assembly.Discovery
import Dbml.Proofs.Assembly.Notes
import Dbml.Proofs.Finding.Silent

/-!
# The groups and the project of a document

Each group block with a name opens a group by its heading. From then on only the members of the
group change, until the block ends and its note is settled. The project is that of the first project
block with a name. Main statements: `memberless_ofSegments` and `project_ofSegments`.
-/

namespace Dbml

/-- A block with a name, and the segments of its body. -/
structure NamedBlock where
  block : Block
  name : String
  children : List Segment

namespace Segment

/-- The segment as a block of the kind, if it is one and has a name. -/
def namedBlock? (kind : BlockKind) : Segment → Option NamedBlock
  | .block b children =>
    if b.kind = kind then b.header.name?.map fun name => ⟨b, name, children⟩ else none
  | .line _ => none

theorem namedBlock?_of_kind {kind : BlockKind} {b : Block} (own : b.kind = kind)
    (children : List Segment) : (Segment.block b children).namedBlock? kind =
      b.header.name?.map fun name => ⟨b, name, children⟩ :=
  if_pos own

theorem namedBlock?_of_ne {kind : BlockKind} {b : Block} (other : b.kind ≠ kind)
    (children : List Segment) : (Segment.block b children).namedBlock? kind = none :=
  if_neg other

end Segment

theorem map_modify {α β : Type} {change : α → α} {view : α → β} (change' : β → β)
    (commutes : ∀ x, view (change x) = change' (view x)) (xs : List α) (i : Nat) :
    (xs.modify i change).map view = (xs.map view).modify i change' := by
  refine List.ext_getElem? fun j => ?_
  rw [List.getElem?_map, List.getElem?_modify, List.getElem?_modify, List.getElem?_map]
  cases xs[j]? with
  | none => rfl
  | some x =>
    by_cases here : i = j
    · simp [here, commutes]
    · simp [here]

namespace TableGroup

/-- The group without its members. -/
def memberless (g : TableGroup) : TableGroup :=
  { g with tables := [] }

/-- The group with the note, when there is one. -/
def withNote (note : Option String) (g : TableGroup) : TableGroup :=
  { g with note := note.or g.note }

theorem withNote_none (g : TableGroup) : g.withNote none = g := rfl

end TableGroup

open TableGroup

namespace Assembly

variable {s : Source}

/-! ## What tables do not touch -/

/-- The view does not see tables, be they added or dropped, nor the members of groups. -/
structure SeesNoTables {γ : Type} (view : Assembly → γ) : Prop where
  drop : ∀ a block, view (a.drop block) = view a
  addTable : ∀ a table owner, view (a.addTable table owner) = view a
  claim : ∀ a group key, view (a.claim group key) = view a

namespace SeesNoTables

variable {γ : Type} {view : Assembly → γ}

theorem placeTable (blind : SeesNoTables view) (a : Assembly) (block : Block)
    (children : List Segment) {place : DeclaredTable → Noted Assembly}
    (placed : ∀ table, view (place table).value = view a) :
    view (placeTable s a block children place).value = view a := by
  rw [placeTable_value]
  cases (s.declaredTable block children).value with
  | none => exact blind.drop a block
  | some table =>
    dsimp only
    split
    · exact blind.drop a block
    · exact placed table

theorem addTopTable (blind : SeesNoTables view) (a : Assembly) (block : Block)
    (children : List Segment) : view (addTopTable s a block children).value = view a :=
  blind.placeTable a block children fun table => blind.addTable a table _

theorem addGroupTable (blind : SeesNoTables view) (group : Option Nat) (a : Assembly)
    (block : Block) (children : List Segment) :
    view (addGroupTable s group a block children).value = view a := by
  refine blind.placeTable a block children fun table => ?_
  cases group with
  | none => exact blind.addTable a table none
  | some group =>
    simp only [Noted.bind_value, claimAt_value]
    exact (blind.addTable _ table _).trans (blind.claim a group table.key)

theorem applyGroupSegment (blind : SeesNoTables view) (group : Option Nat) (o : OpenGroup)
    (x : Segment) :
    view (applyGroupSegment s group o x).value.assembly = view o.assembly := by
  rcases applyGroupSegment_assembly s group o x with
    ⟨block, children, -, -, after⟩ | ⟨-, after | ⟨number, key, -, after⟩⟩
  · rw [after]
    exact blind.addGroupTable group o.assembly block children
  · rw [after]
  · rw [after]
    exact blind.claim o.assembly number key

/-- The body of a group adds tables and members, and nothing else. -/
theorem groupBody (blind : SeesNoTables view) (group : Option Nat) (children : List Segment)
    (o : OpenGroup) :
    view (children.foldlM (Assembly.applyGroupSegment s group) o).value.assembly =
      view o.assembly :=
  Noted.view_foldlM (fun o : OpenGroup => view o.assembly) (blind.applyGroupSegment group)
    children o

end SeesNoTables

/-! ## The groups but for their members -/

/-- The group that a heading opens. -/
def headedGroup (s : Source) (header : Header) (name : String) : TableGroup :=
  let given := ((header.settings.elim [] s.settings).foldlM (applyGroupSetting s) {}).value
  { id := groupId name, name, note := given.note, color := Color.resolve [given.color] none name,
    tables := [] }

/-- The group that a block comes to, but for its members. -/
def blockGroup (s : Source) (found : NamedBlock) : TableGroup :=
  (headedGroup s found.block.header found.name).withNote (s.bodyNote? found.children)

/-- The groups without their members. -/
def bareGroups (a : Assembly) : List TableGroup :=
  a.groups.map memberless

theorem bareGroups_blind : SeesNoTables bareGroups where
  drop := by
    intro a block
    rfl
  addTable := by
    intro a table owner
    rfl
  claim := by
    intro a group key
    unfold claim
    split
    · rfl
    · have same (g : TableGroup) :
          memberless { g with tables := g.tables ++ [key] } = memberless g := rfl
      exact (map_modify (fun g => g) same a.groups group).trans (List.modify_id group _)

/-- The group that is opened last is given a note. -/
theorem bareGroups_setGroupNote {a : Assembly} {before : List TableGroup} {last : TableGroup}
    (groups : a.bareGroups = before ++ [last]) (note : Option String) :
    (a.setGroupNote before.length note).bareGroups = before ++ [last.withNote note] := by
  cases note with
  | none =>
    rw [withNote_none]
    exact groups
  | some note =>
    have noted (g : TableGroup) :
        memberless { g with note := some note } = (memberless g).withNote (some note) := rfl
    refine (map_modify _ noted a.groups before.length).trans ?_
    show a.bareGroups.modify before.length _ = _
    rw [groups, List.modify_eq_take_drop, List.take_left, List.drop_left]
    rfl

theorem bareGroups_openGroup (a : Assembly) (block : Block) (name : String) :
    (openGroup s a block name).value.bareGroups =
      a.bareGroups ++ [headedGroup s block.header name] := by
  simp only [openGroup, Noted.bind_value]
  split <;> exact List.map_append

theorem bareGroups_applyGroup (a : Assembly) (x : Segment) :
    (applyGroup s a x).value.bareGroups =
      a.bareGroups ++ ((x.namedBlock? .tableGroup).map (blockGroup s)).toList := by
  cases x with
  | line line => exact (List.append_nil a.bareGroups).symm
  | block block children =>
    rw [applyGroup]
    by_cases kind : block.kind = .tableGroup
    · rw [if_pos kind, Segment.namedBlock?_of_kind kind, addGroup]
      cases block.header.name? with
      | none =>
        simp only [Noted.bind_value, Noted.pure_value, bareGroups_blind.groupBody]
        exact (List.append_nil _).symm
      | some name =>
        have opened := bareGroups_openGroup (s := s) a block name
        have body := bareGroups_blind.groupBody (s := s) (some a.groups.length) children
          { assembly := (openGroup s a block name).value }
        have length : a.groups.length = a.bareGroups.length := (List.length_map _).symm
        simp only [Noted.bind_value, Noted.pure_value, note_groupBody]
        rw [length] at body ⊢
        exact bareGroups_setGroupNote (body.trans opened) (s.bodyNote? children)
    · rw [if_neg kind, Segment.namedBlock?_of_ne kind]
      exact (List.append_nil _).symm

theorem bareGroups_applyBlock (a : Assembly) (x : Segment) :
    (applyBlock s a x).value.bareGroups = a.bareGroups := by
  cases x with
  | line line => rfl
  | block block children =>
    unfold applyBlock
    dsimp only
    split
    · exact bareGroups_blind.addTopTable a block children
    · obtain ⟨project, after⟩ := addProject_frame s a block children
      rw [after]
      rfl
    · rfl
    · rfl
    · rfl

/-- The groups of a document without their members, in the order of their blocks. -/
theorem memberless_ofSegments (s : Source) (segments : List Segment) :
    (ofSegments s segments).value.groups.map memberless =
      (segments.filterMap (·.namedBlock? .tableGroup)).map (blockGroup s) := by
  have groups (segments : List Segment) (a : Assembly) :
      (segments.foldlM (applyGroup s) a).value.bareGroups =
        a.bareGroups ++ (segments.filterMap (·.namedBlock? .tableGroup)).map (blockGroup s) := by
    induction segments generalizing a with
    | nil => exact (List.append_nil _).symm
    | cons x rest ih =>
      rw [List.foldlM_cons, Noted.bind_value, ih, bareGroups_applyGroup]
      cases named : x.namedBlock? .tableGroup <;> simp [named]
  show (ofSegments s segments).value.bareGroups = _
  rw [ofSegments, Noted.bind_value, Noted.view_foldlM bareGroups bareGroups_applyBlock,
    groups]
  rfl

/-! ## The project -/

/-- The project of a block. -/
def blockProject (s : Source) (found : NamedBlock) : Project :=
  found.children.foldl (applyProjectSegment s) { name := found.name }

theorem project_blind : SeesNoTables project where
  drop := by
    intro a block
    rfl
  addTable := by
    intro a table owner
    rfl
  claim := by
    intro a group key
    unfold claim
    split <;> rfl

theorem project_applyGroup (a : Assembly) (x : Segment) :
    (applyGroup s a x).value.project = a.project := by
  cases x with
  | line line => rfl
  | block block children =>
    rw [applyGroup]
    by_cases kind : block.kind = .tableGroup
    · rw [if_pos kind, addGroup]
      cases block.header.name? with
      | none => exact project_blind.groupBody none children { assembly := a }
      | some name =>
        have body := project_blind.groupBody (s := s) (some a.groups.length) children
          { assembly := (openGroup s a block name).value }
        have opened : (openGroup s a block name).value.project = a.project := by
          simp only [openGroup, Noted.bind_value]
          split <;> rfl
        simp only [Noted.bind_value, Noted.pure_value]
        unfold setGroupNote
        split <;> exact body.trans opened
    · rw [if_neg kind]
      rfl

theorem project_applyBlock (a : Assembly) (x : Segment) :
    (applyBlock s a x).value.project =
      a.project.or ((x.namedBlock? .project).map (blockProject s)) := by
  cases x with
  | line line => exact (Option.or_none (o := a.project)).symm
  | block block children =>
    by_cases kind : block.kind = .project
    · rw [Segment.namedBlock?_of_kind kind, applyBlock, kind]
      show (addProject s a block children).value.project = _
      unfold addProject
      cases block.header.name? with
      | none => exact (Option.or_none).symm
      | some name =>
        dsimp only
        split
        next taken =>
          obtain ⟨project, here⟩ := Option.isSome_iff_exists.1 taken
          rw [here]
          exact here
        next free =>
          rw [Option.not_isSome_iff_eq_none.1 free]
          rfl
    · rw [Segment.namedBlock?_of_ne kind, Option.map_none, Option.or_none, applyBlock]
      split
      · exact project_blind.addTopTable a block children
      · contradiction
      · rfl
      · rfl
      · rfl

/-- The project of a document is that of its first project block with a name. -/
theorem project_ofSegments (s : Source) (segments : List Segment) :
    (ofSegments s segments).value.project =
      (segments.findSome? (·.namedBlock? .project)).map (blockProject s) := by
  have blocks (segments : List Segment) (a : Assembly) :
      (segments.foldlM (applyBlock s) a).value.project =
        a.project.or ((segments.findSome? (·.namedBlock? .project)).map (blockProject s)) := by
    induction segments generalizing a with
    | nil => exact (Option.or_none).symm
    | cons x rest ih =>
      rw [List.foldlM_cons, Noted.bind_value, ih, project_applyBlock, Option.or_assoc]
      cases named : x.namedBlock? .project <;> simp [named]
  have grouped : (segments.foldlM (applyGroup s) {}).value.project = none :=
    Noted.view_foldlM project project_applyGroup segments {}
  rw [ofSegments, Noted.bind_value, blocks, grouped, Option.none_or]

end Assembly

end Dbml
