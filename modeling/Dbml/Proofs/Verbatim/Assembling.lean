import Dbml.Proofs.Respacing.Settings
import Dbml.Proofs.Verbatim.Tables

/-!
# Databases with other raw texts

Segments that hold no line ends where they should not are assembled into databases that are alike,
from a source and from one that retells it. Main statement: `Retold.assemble`.
-/

namespace Dbml

open Source Noted

section Lists

variable {α β : Type} {Q : α → β → Prop} {xs : List α} {ys : List β}

theorem forall₂_getElem? (related : List.Forall₂ Q xs ys) (i : Nat) :
    Option.Rel Q xs[i]? ys[i]? := by
  induction related generalizing i with
  | nil => exact .none
  | cons first _ ih =>
    cases i with
    | zero => exact .some first
    | succ i => exact ih i

theorem forall₂_modify (related : List.Forall₂ Q xs ys) (i : Nat) {f : α → α} {g : β → β}
    (step : ∀ a b, Q a b → Q (f a) (g b)) : List.Forall₂ Q (xs.modify i f) (ys.modify i g) := by
  induction related generalizing i with
  | nil =>
    rw [List.modify_nil, List.modify_nil]
    exact .nil
  | cons first rest ih =>
    cases i with
    | zero => exact .cons (step _ _ first) rest
    | succ i => exact .cons first (ih i)

/-- Related elements of which a property is the same have it together. -/
theorem any_of_forall₂ (related : List.Forall₂ Q xs ys) {p : α → Bool} {q : β → Bool}
    (same : ∀ a b, Q a b → q b = p a) : ys.any q = xs.any p := by
  induction related with
  | nil => rfl
  | cons first _ ih => rw [List.any_cons, List.any_cons, same _ _ first, ih]

theorem find?_of_forall₂ (related : List.Forall₂ Q xs ys) {p : α → Bool} {q : β → Bool}
    (same : ∀ a b, Q a b → q b = p a) : Option.Rel Q (xs.find? p) (ys.find? q) := by
  induction related with
  | nil => exact .none
  | cons first _ ih =>
    rw [List.find?_cons, List.find?_cons, same _ _ first]
    split
    · exact .some first
    · exact ih

end Lists

section Parts

variable (R : String → String → Prop)

structure Assembly.Alike (a b : Assembly) : Prop where
  tables : List.Forall₂ (Table.Alike R) a.tables b.tables
  groups : List.Forall₂ (TableGroup.Alike R) a.groups b.groups
  owners : b.owners = a.owners
  dropped : b.dropped = a.dropped
  relationships : List.Forall₂ (Relationship.Alike R) a.relationships b.relationships
  project : Option.Rel (Project.Alike R) a.project b.project

structure Assembly.GroupSettings.Alike (a b : Assembly.GroupSettings) : Prop where
  color : Option.Rel R a.color b.color
  note : b.note = a.note

structure Assembly.OpenGroup.Alike (a b : Assembly.OpenGroup) : Prop where
  assembly : Assembly.Alike R a.assembly b.assembly
  note : b.note = a.note

end Parts

variable {R : String → String → Prop} {s t : Source} {segment : Segment}
  {segments children : List Segment} {block : Block} {a b : Assembly}

theorem Table.Alike.key {x y : Table} (alike : Table.Alike R x y) : y.key = x.key := by
  rw [Table.key, alike.schema, alike.name, Table.key]

namespace Assembly

/-! ## Parts of an assembly -/

namespace Alike

variable (alike : Assembly.Alike R a b)

include alike

theorem isDefined (key : String) : b.isDefined key = a.isDefined key :=
  any_of_forall₂ alike.tables fun x y same => by rw [same.key]

theorem owner? (key : String) : b.owner? key = a.owner? key := by
  rw [Assembly.owner?, alike.owners, Assembly.owner?]

theorem claim (group : Nat) (key : String) :
    Assembly.Alike R (a.claim group key) (b.claim group key) := by
  rw [Assembly.claim, Assembly.claim, alike.owner?]
  split
  · exact alike
  · refine { alike with groups := ?_, owners := by rw [alike.owners] }
    exact forall₂_modify alike.groups group fun x y same =>
      { same with tables := by rw [same.tables] }

theorem claimAt {position : Nat} (solid : s.token? position ≠ some .newline) (group : Nat)
    (key : String) :
    Noted.Alike (Finding.Alike R s) (Assembly.Alike R) (a.claimAt group key position)
      (b.claimAt group key position) := by
  have claimed := alike.claim group key
  rw [Assembly.claimAt, Assembly.claimAt, alike.owner?]
  split
  next owner owned =>
    split
    · rw [elim_of_optionRel (forall₂_getElem? alike.groups owner) "" fun x y same => same.id]
      exact alike_note (Finding.alike_same solid) (alike_pure claimed)
    · exact alike_pure claimed
  · exact alike_pure claimed

theorem drop (block : Block) : Assembly.Alike R (a.drop block) (b.drop block) :=
  { alike with dropped := by rw [Assembly.drop, Assembly.drop, alike.dropped] }

theorem addTable (refl : ∀ x, R x x) {x y : DeclaredTable} (same : DeclaredTable.Alike R x y)
    (owner : Option Nat) : Assembly.Alike R (a.addTable x owner) (b.addTable y owner) := by
  have group : Option.Rel (TableGroup.Alike R) (owner.bind (a.groups[·]?))
      (owner.bind (b.groups[·]?)) := by
    cases owner with
    | none => exact .none
    | some owner => exact forall₂_getElem? alike.groups owner
  have table : Table.Alike R
      (x.finish ((owner.bind (a.groups[·]?)).map (·.id)) ((owner.bind (a.groups[·]?)).map (·.color)))
      (y.finish ((owner.bind (b.groups[·]?)).map (·.id))
        ((owner.bind (b.groups[·]?)).map (·.color))) := by
    rw [map_of_optionRel group fun x y alike => alike.id]
    exact same.finish refl _ (optionRel_map group fun x y alike => alike.color)
  exact { alike with
    tables := List.rel_append alike.tables (.cons table .nil)
    relationships := List.rel_append alike.relationships same.relationships }

theorem setGroupNote (group : Nat) (note : Option String) :
    Assembly.Alike R (a.setGroupNote group note) (b.setGroupNote group note) := by
  cases note with
  | none => exact alike
  | some note =>
    exact { alike with groups := forall₂_modify alike.groups group fun x y same =>
      { same with note := rfl } }

end Alike

end Assembly

namespace Retold

open Assembly

variable (retold : Retold R s t)

include retold

/-! ## Table blocks -/

theorem placeTable (inline : (Segment.block block children).Inline s)
    (alike : Assembly.Alike R a b) {settle settle' : DeclaredTable → Noted Assembly}
    (settled : ∀ x y, DeclaredTable.Alike R x y →
      Noted.Alike (Finding.Alike R s) (Assembly.Alike R) (settle x) (settle' y)) :
    Noted.Alike (Finding.Alike R s) (Assembly.Alike R) (placeTable s a block children settle)
      (placeTable t b block children settle') := by
  have solid : s.token? block.start ≠ some .newline := by
    cases inline
    assumption
  refine (retold.declaredTable inline).bind fun declared declared' same => ?_
  cases same with
  | none => exact alike_pure (alike.drop block)
  | some same =>
    dsimp only
    rw [alike.isDefined, same.key]
    split
    · exact alike_note (Finding.alike_same solid) (alike_pure (alike.drop block))
    · exact settled _ _ same

theorem addGroupTable (inline : (Segment.block block children).Inline s)
    (alike : Assembly.Alike R a b) (group : Option Nat) :
    Noted.Alike (Finding.Alike R s) (Assembly.Alike R) (addGroupTable s group a block children)
      (addGroupTable t group b block children) := by
  have solid : s.token? block.start ≠ some .newline := by
    cases inline
    assumption
  refine retold.placeTable inline alike fun x y same => ?_
  cases group with
  | none => exact alike_pure (alike.addTable retold.refl same none)
  | some group =>
    dsimp only
    rw [same.key]
    refine (alike.claimAt solid group x.key).bind fun claimed claimed' alike => ?_
    rw [alike.owner?]
    exact alike_pure (alike.addTable retold.refl same _)

theorem addTopTable (inline : (Segment.block block children).Inline s)
    (alike : Assembly.Alike R a b) :
    Noted.Alike (Finding.Alike R s) (Assembly.Alike R) (addTopTable s a block children)
      (addTopTable t b block children) := by
  refine retold.placeTable inline alike fun x y same => ?_
  rw [same.key, alike.owner?]
  exact alike_pure (alike.addTable retold.refl same _)

/-! ## Group blocks -/

theorem applyGroupSetting {setting : Setting} (inline : setting.Inline s) {x y : GroupSettings}
    (alike : GroupSettings.Alike R x y) :
    Noted.Alike (Finding.Alike R s) (GroupSettings.Alike R) (applyGroupSetting s x setting)
      (applyGroupSetting t y setting) := by
  cases setting with
  | flag words position => exact alike_note (Finding.alike_same inline) (alike_pure alike)
  | invalid position => exact alike_note (Finding.alike_same inline) (alike_pure alike)
  | pair key value position =>
    obtain ⟨solid, value_inline⟩ := inline
    by_cases color : key = "color"
    · subst color
      rw [Assembly.applyGroupSetting, Assembly.applyGroupSetting]
      exact alike_pure { alike with color := retold.color value value_inline }
    by_cases note : key = "note"
    · subst note
      rw [Assembly.applyGroupSetting, Assembly.applyGroupSetting, retold.tokens.quotedText]
      exact alike_pure { alike with note := rfl }
    · rw [Setting.Copied.applyGroupSetting_other color note,
        Setting.Copied.applyGroupSetting_other color note]
      exact alike_note (Finding.alike_same solid) (alike_pure alike)

theorem openGroup (inline : (Segment.block block children).Inline s) (alike : Assembly.Alike R a b)
    (name : String) :
    Noted.Alike (Finding.Alike R s) (Assembly.Alike R) (openGroup s a block name)
      (openGroup t b block name) := by
  cases inline with
  | block start opening closing settings inner =>
    have plain : GroupSettings.Alike R {} {} := ⟨.none, rfl⟩
    have taken : b.groups.any (·.id == groupId name) = a.groups.any (·.id == groupId name) :=
      any_of_forall₂ alike.groups fun x y same => by rw [same.id]
    rw [Assembly.openGroup, Assembly.openGroup, retold.header_settings]
    refine (alike_foldlM_same plain fun x y setting listed alike => retold.applyGroupSetting
      (inline_header_settings settings setting listed) alike).bind fun given given' same => ?_
    have opened : TableGroup.Alike R
        { id := groupId name, name, note := given.note,
          color := Color.resolve [given.color] none name, tables := [] }
        { id := groupId name, name, note := given'.note,
          color := Color.resolve [given'.color] none name, tables := [] } :=
      ⟨rfl, rfl, same.note,
        DeclaredTable.alike_resolve retold.refl (.cons same.color .nil) .none name, rfl⟩
    have groups := List.rel_append alike.groups (.cons opened .nil)
    dsimp only
    rw [taken]
    split
    · exact alike_note (Finding.alike_same start) (alike_pure { alike with groups })
    · exact alike_pure { alike with groups }

theorem applyGroupSegment (inline : segment.Inline s) (group : Option Nat) {x y : OpenGroup}
    (alike : OpenGroup.Alike R x y) :
    Noted.Alike (Finding.Alike R s) (OpenGroup.Alike R) (applyGroupSegment s group x segment)
      (applyGroupSegment t group y segment) := by
  cases inline with
  | @line line some_token inline =>
    have solid := inline line.start (Nat.le_refl _) some_token
    simp only [Assembly.applyGroupSegment, retold.tokens.noteLine?, retold.tokens.shortForm?,
      retold.tokens.tokens]
    split
    · exact alike_pure { alike with note := by rw [alike.note] }
    · split
      · exact alike_pure alike
      · split
        · refine (alike.assembly.claimAt solid _ _).bind fun claimed claimed' same => ?_
          exact alike_pure { alike with assembly := same }
        · exact alike_pure alike
        · exact alike_note (Finding.alike_same solid) (alike_pure alike)
  | block start opening closing settings inner =>
    simp only [Assembly.applyGroupSegment, retold.tokens.blockNote]
    split
    · refine (retold.addGroupTable (.block start opening closing settings inner) alike.assembly
        group).bind fun added added' same => ?_
      exact alike_pure { alike with assembly := same }
    · exact alike_pure { alike with note := by rw [alike.note] }
    · exact alike_note (Finding.alike_same start) (alike_pure alike)

theorem addGroup (inline : (Segment.block block children).Inline s) (alike : Assembly.Alike R a b) :
    Noted.Alike (Finding.Alike R s) (Assembly.Alike R) (addGroup s a block children)
      (addGroup t b block children) := by
  obtain ⟨start, inner⟩ : s.token? block.start ≠ some .newline ∧ ∀ x ∈ children, x.Inline s := by
    cases inline with
    | block start opening closing settings inner => exact ⟨start, inner⟩
  have body {a b : Assembly} (alike : Assembly.Alike R a b) (group : Option Nat) :
      Noted.Alike (Finding.Alike R s) (OpenGroup.Alike R)
        (children.foldlM (Assembly.applyGroupSegment s group) { assembly := a })
        (children.foldlM (Assembly.applyGroupSegment t group) { assembly := b }) :=
    alike_foldlM_same ⟨alike, rfl⟩ fun x y segment listed same =>
      retold.applyGroupSegment (inner segment listed) group same
  rw [Assembly.addGroup, Assembly.addGroup]
  cases block.header.name? with
  | some name =>
    dsimp only
    rw [← alike.groups.length_eq]
    refine (retold.openGroup inline alike name).bind fun opened opened' same => ?_
    refine (body same _).bind fun x y read => alike_pure ?_
    rw [read.note]
    exact read.assembly.setGroupNote _ _
  | none =>
    refine alike_note (Finding.alike_same start) ?_
    exact (body alike none).bind fun x y read => alike_pure read.assembly

/-! ## The project -/

theorem applyProjectSegment (inline : segment.Inline s) {x y : Project}
    (alike : Project.Alike R x y) :
    Project.Alike R (applyProjectSegment s x segment) (applyProjectSegment t y segment) := by
  cases inline with
  | @line line some_token inline =>
    simp only [Assembly.applyProjectSegment, retold.tokens.noteLine?, retold.tokens.isKeyword,
      retold.tokens.isMark]
    split
    · exact { alike with note := rfl }
    · split
      · exact { alike with databaseType := retold.value _ (inline.drop 2) }
      · exact alike
  | block start opening closing settings inner =>
    rw [Assembly.applyProjectSegment, Assembly.applyProjectSegment, retold.tokens.blockNote]
    split
    · exact { alike with note := rfl }
    · exact alike

theorem applyProjectSegments (inline : ∀ x ∈ children, x.Inline s) {x y : Project}
    (alike : Project.Alike R x y) :
    Project.Alike R (children.foldl (Assembly.applyProjectSegment s) x)
      (children.foldl (Assembly.applyProjectSegment t) y) := by
  induction children generalizing x y with
  | nil => exact alike
  | cons first rest ih =>
    obtain ⟨here, later⟩ := List.forall_mem_cons.1 inline
    exact ih later (retold.applyProjectSegment here alike)

theorem addProject (inline : (Segment.block block children).Inline s)
    (alike : Assembly.Alike R a b) :
    Noted.Alike (Finding.Alike R s) (Assembly.Alike R) (addProject s a block children)
      (addProject t b block children) := by
  cases inline with
  | block start opening closing settings inner =>
    rw [Assembly.addProject, Assembly.addProject]
    cases block.header.name? with
    | none => exact alike_note (Finding.alike_same start) (alike_pure alike)
    | some name =>
      dsimp only
      rw [isSome_of_optionRel alike.project]
      split
      · exact alike_note (Finding.alike_same start) (alike_pure alike)
      · have project := retold.applyProjectSegments inner (x := { name }) (y := { name })
          ⟨rfl, .none, rfl⟩
        exact alike_pure { alike with project := .some project }

/-! ## The top level -/

theorem applyGroup (inline : segment.Inline s) (alike : Assembly.Alike R a b) :
    Noted.Alike (Finding.Alike R s) (Assembly.Alike R) (applyGroup s a segment)
      (applyGroup t b segment) := by
  cases segment with
  | line range => exact alike_pure alike
  | block block children =>
    rw [Assembly.applyGroup, Assembly.applyGroup]
    split
    · exact retold.addGroup inline alike
    · exact alike_pure alike

theorem applyBlock (inline : segment.Inline s) (alike : Assembly.Alike R a b) :
    Noted.Alike (Finding.Alike R s) (Assembly.Alike R) (applyBlock s a segment)
      (applyBlock t b segment) := by
  cases segment with
  | line range => exact alike_pure alike
  | block block children =>
    have solid : s.token? block.start ≠ some .newline := by
      cases inline
      assumption
    rw [Assembly.applyBlock, Assembly.applyBlock]
    split
    · exact retold.addTopTable inline alike
    · exact retold.addProject inline alike
    · exact alike_pure alike
    · exact alike_pure alike
    · exact alike_note (Finding.alike_same solid) (alike_pure alike)

theorem ofSegments (inline : ∀ x ∈ segments, x.Inline s) :
    Noted.Alike (Finding.Alike R s) (Assembly.Alike R) (ofSegments s segments)
      (ofSegments t segments) := by
  have empty : Assembly.Alike R {} {} := ⟨.nil, .nil, rfl, rfl, .nil, .none⟩
  have grouped : Noted.Alike (Finding.Alike R s) (Assembly.Alike R)
      (segments.foldlM (Assembly.applyGroup s) {}) (segments.foldlM (Assembly.applyGroup t) {}) :=
    alike_foldlM_same empty fun a b x listed alike => retold.applyGroup (inline x listed) alike
  refine grouped.bind fun a b alike => ?_
  exact alike_foldlM_same alike fun a b x listed alike => retold.applyBlock (inline x listed) alike

end Retold

/-! ## Statements -/

/-- The statement begins with a token that is no line end, and its reference holds none. -/
def Statement.Inline (s : Source) : Statement → Prop
  | .reference position range _ => s.token? position ≠ some .newline ∧ s.Inline range
  | .unknown position | .nested position => s.token? position ≠ some .newline

namespace Source

theorem inline_lineStatement {line : TokenRange} (some_token : line.start < line.stop)
    (inline : s.Inline line) (topLevel : Bool) :
    ∀ x ∈ s.lineStatement topLevel line, x.Inline s := by
  have solid := inline line.start (Nat.le_refl _) some_token
  rw [lineStatement]
  cases found : s.shortForm? line with
  | some pair =>
    obtain ⟨name, range⟩ := pair
    have bounds := shortForm?_bounds found
    simpa using ⟨solid, inline.restrict (Nat.le_of_lt bounds.1) bounds.2⟩
  | none =>
    dsimp only
    split
    · intro x listed
      rw [List.mem_singleton.1 listed]
      exact solid
    · simp

theorem inline_listedStatement (inline : segment.Inline s) (name : Option String) :
    (listedStatement name segment).Inline s := by
  cases inline with
  | @line line some_token inline => exact ⟨inline line.start (Nat.le_refl _) some_token, inline⟩
  | block start => exact start

/-- The statements of segments stand on lines. -/
theorem inline_statements (dropped : List Nat) (topLevel : Bool)
    (inline : ∀ x ∈ segments, x.Inline s) :
    ∀ x ∈ s.statements dropped topLevel segments, x.Inline s := by
  induction segments using Segment.tree_induction generalizing topLevel with
  | nil => simp [statements]
  | line range rest ih =>
    obtain ⟨first, later⟩ := List.forall_mem_cons.1 inline
    rw [statements]
    refine List.forall_mem_append.2 ⟨?_, ih _ later⟩
    cases first with
    | line some_token inline => exact inline_lineStatement some_token inline topLevel
  | block block children rest inner ih =>
    obtain ⟨first, later⟩ := List.forall_mem_cons.1 inline
    rw [statements]
    refine List.forall_mem_append.2 ⟨?_, ih _ later⟩
    cases first with
    | block start opening closing settings body =>
      rw [segmentStatements]
      split
      · intro x listed
        obtain ⟨segment, member, rfl⟩ := List.mem_map.1 listed
        exact inline_listedStatement (body segment member) _
      · split
        · simp
        · exact inner _ body
      · exact inner _ body
      · simp

end Source

namespace Retold

variable (retold : Retold R s t)

include retold

theorem statedRelationship {statement : Statement} (inline : statement.Inline s) :
    Noted.Alike (Finding.Alike R s) (Option.Rel (Relationship.Alike R))
      (s.statedRelationship statement) (t.statedRelationship statement) := by
  cases statement with
  | unknown position => exact alike_note (Finding.alike_same inline) (alike_pure .none)
  | nested position => exact alike_note (Finding.alike_same inline) (alike_pure .none)
  | reference position range name =>
    obtain ⟨solid, inline⟩ := inline
    have read := retold.reference inline name
    rw [Source.statedRelationship, Source.statedRelationship]
    generalize s.reference range name = x at read
    generalize t.reference range name = y at read
    cases read with
    | error same =>
      rw [same]
      exact alike_note (Finding.alike_same solid) (alike_pure .none)
    | ok same =>
      dsimp only
      rw [same.malformed]
      split
      · exact alike_note (Finding.alike_same solid) (alike_pure (.some same.relationship))
      · exact alike_pure (.some same.relationship)

theorem statedRelationships {statements : List Statement}
    (inline : ∀ x ∈ statements, x.Inline s) :
    Noted.Alike (Finding.Alike R s) (List.Forall₂ (Relationship.Alike R))
      (s.statedRelationships statements) (t.statedRelationships statements) := by
  induction statements with
  | nil => exact alike_pure .nil
  | cons statement rest ih =>
    obtain ⟨here, later⟩ := List.forall_mem_cons.1 inline
    refine (retold.statedRelationship here).bind fun x y first => ?_
    refine (ih later).bind fun xs ys others => alike_pure ?_
    exact List.rel_append (forall₂_toList first) others

/-! ## The database -/

omit retold in
/-- A name stands for the same key among tables that are alike. -/
theorem resolveName {tables tables' : List Table}
    (alike : List.Forall₂ (Table.Alike R) tables tables') (name : String) :
    resolveName tables' name = resolveName tables name := by
  have defined : tables'.any (·.key == name) = tables.any (·.key == name) :=
    any_of_forall₂ alike fun x y same => by rw [same.key]
  have named : Option.Rel (Table.Alike R)
      (tables.reverse.find? (·.aliasName == some name))
      (tables'.reverse.find? (·.aliasName == some name)) :=
    find?_of_forall₂ (List.rel_reverse alike) fun x y same => by rw [same.aliasName]
  rw [Dbml.resolveName, Dbml.resolveName, defined]
  split
  · rfl
  · rw [map_of_optionRel named fun x y same => same.key]

/-- Databases that are alike, and findings that are alike one by one. -/
theorem assemble (inline : ∀ x ∈ segments, x.Inline s) :
    Noted.Alike (Finding.Alike R s) (Database.Alike R) (s.assemble segments)
      (t.assemble segments) := by
  refine (retold.ofSegments inline).bind fun a b alike => ?_
  rw [alike.dropped, retold.tokens.statements]
  refine (retold.statedRelationships
    (inline_statements a.dropped true inline)).bind fun stated stated' same => alike_pure ?_
  refine ⟨alike.tables, ?_, alike.groups, alike.project⟩
  rw [List.forall₂_map_left_iff, List.forall₂_map_right_iff]
  refine (List.rel_append alike.relationships same).imp fun x y related => ?_
  rw [Relationship.resolve, Relationship.resolve, related.fromTable, related.toTable,
    resolveName alike.tables, resolveName alike.tables]
  exact { related with fromTable := rfl, toTable := rfl }

end Retold

end Dbml
