import Dbml.Proofs.Assembly.Ownership
import Dbml.Proofs.Canonical.Tables
import Dbml.Proofs.Document.Parse

/-!
# Canonical documents are read back

A canonical document in which no two tables have the same key and no two groups the same id is
parsed to the database it was written for, and nothing is noted about it. Main statement:
`parse_render`.
-/

namespace Dbml.Canonical

open Assembly Source

variable {s : Source} {a : Assembly} {found : List (Option String × Table)}
  {groups : List TableGroup}

/-! ## The assembly on the way -/

/-- What has been assembled when these tables have been found and these groups opened. -/
structure Built (a : Assembly) (found : List (Option String × Table)) (groups : List TableGroup) :
    Prop where
  tables : a.tables = found.map fun (group, table) => table.value group
  groups : a.groups = groups
  relationships : a.relationships = found.flatMap fun (_, table) => table.relationships
  dropped : a.dropped = []
  project : a.project = none
  /-- A key that a group owns is the key of a table. -/
  owned : ∀ key, (a.owner? key).isSome → a.isDefined key = true

theorem Built.isDefined_iff (built : Built a found groups) (key : String) :
    a.isDefined key = true ↔ key ∈ keys found := by
  rw [isDefined, built.tables, List.any_map, List.any_eq_true, keys, List.mem_map]
  constructor
  · rintro ⟨⟨group, table⟩, listed, same⟩
    exact ⟨(group, table), listed, beq_iff_eq.1 same⟩
  · rintro ⟨⟨group, table⟩, listed, same⟩
    exact ⟨(group, table), listed, beq_iff_eq.2 same⟩

theorem Built.isDefined_eq_false (built : Built a found groups) {key : String}
    (fresh : key ∉ keys found) : a.isDefined key = false := by
  cases defined : a.isDefined key with
  | false => rfl
  | true => exact absurd ((built.isDefined_iff key).1 defined) fresh

theorem Built.owner?_eq_none (built : Built a found groups) {key : String}
    (fresh : key ∉ keys found) : a.owner? key = none := by
  cases owner : a.owner? key with
  | none => rfl
  | some group =>
    exact absurd ((built.isDefined_iff key).1 (built.owned key (by rw [owner]; rfl))) fresh

/-- The key of a table that is found later is new. -/
theorem key_notMem {group : Option String} {table : Table} {rest : List (Option String × Table)}
    (nodup : (keys (found ++ (group, table) :: rest)).Nodup) : table.key ∉ keys found := by
  intro taken
  rw [keys, List.map_append, List.map_cons, List.nodup_append] at nodup
  exact nodup.2.2 table.key taken table.key (by simp) rfl

/-! ## Tables -/

/-- The block of a new table is placed without a finding. -/
theorem placeTable_of_in {table : Table} {block : Block} {children : List Segment}
    (header : block.header = ⟨table.names, none, none⟩) (body : s.hasEmptyBody block = false)
    (lines : List.Forall₂ (Line.In s) table.lines children)
    (fresh : a.isDefined table.key = false) (place : DeclaredTable → Noted Assembly) :
    placeTable s a block children place = place table.declared := by
  have key : table.declared.key = table.key := rfl
  rw [placeTable, declaredTable_of_in header body lines, pure_bind]
  simp [key, fresh]

/-- A new table at the top level is in no group. -/
theorem addTopTable_of_in (built : Built a found groups) {table : Table} {block : Block}
    {children : List Segment} (header : block.header = ⟨table.names, none, none⟩)
    (body : s.hasEmptyBody block = false)
    (lines : List.Forall₂ (Line.In s) table.lines children)
    (fresh : table.key ∉ keys found) :
    ∃ b, addTopTable s a block children = pure b ∧ Built b (found ++ [(none, table)]) groups := by
  have noOwner : a.owner? table.declared.key = none := built.owner?_eq_none fresh
  refine ⟨a.addTable table.declared none, ?_, ?_, built.groups, ?_, built.dropped, built.project,
    fun key owned => ?_⟩
  · rw [addTopTable, placeTable_of_in header body lines (built.isDefined_eq_false fresh), noOwner]
  · show a.tables ++ [_] = _
    rw [built.tables, List.map_append]
    rfl
  · show a.relationships ++ _ = _
    rw [built.relationships, List.flatMap_append]
    simp [Table.declared]
  · have earlier := built.owned key owned
    simp only [isDefined, addTable, List.any_append, Bool.or_eq_true] at earlier ⊢
    exact .inl earlier

theorem modify_concat (groups : List TableGroup) (g : TableGroup) (f : TableGroup → TableGroup) :
    (groups ++ [g]).modify groups.length f = groups ++ [f g] := by
  induction groups with
  | nil => rfl
  | cons first rest ih => simp [ih]

/-- A new table in the group that was opened last becomes its member. -/
theorem addGroupTable_of_in {g : TableGroup} (built : Built a found (groups ++ [g]))
    (id : g.id = groupId g.name) (color : g.color = Color.ofName g.name) {table : Table}
    {block : Block} {children : List Segment} (header : block.header = ⟨table.names, none, none⟩)
    (body : s.hasEmptyBody block = false)
    (lines : List.Forall₂ (Line.In s) table.lines children)
    (fresh : table.key ∉ keys found) :
    ∃ b, addGroupTable s (some groups.length) a block children = pure b ∧
      Built b (found ++ [(some g.name, table)])
        (groups ++ [{ g with tables := g.tables ++ [table.key] }]) := by
  have noOwner : a.owner? table.key = none := built.owner?_eq_none fresh
  have claimed : a.claim groups.length table.key =
      { a with
        owners := (table.key, groups.length) :: a.owners
        groups := groups ++ [{ g with tables := g.tables ++ [table.key] }] } := by
    rw [claim, noOwner, built.groups]
    simp only [modify_concat]
  have owner : (a.claim groups.length table.key).owner? table.key = some groups.length := by
    simp [owner?_claim, noOwner]
  refine ⟨(a.claim groups.length table.key).addTable table.declared (some groups.length), ?_, ?_,
    ?_, ?_, ?_, ?_, fun key owned => ?_⟩
  · rw [addGroupTable, placeTable_of_in header body lines (built.isDefined_eq_false fresh)]
    have key : table.declared.key = table.key := rfl
    simp only [key, claimAt, noOwner, pure_bind, owner]
  · simp only [claimed, addTable, built.tables, List.map_append]
    simp [DeclaredTable.finish, Table.declared, Table.value, Color.resolve, id, color]
  · rw [claimed]
    rfl
  · rw [claimed]
    show a.relationships ++ _ = _
    rw [built.relationships, List.flatMap_append]
    simp [Table.declared]
  · rw [claimed]
    exact built.dropped
  · rw [claimed]
    exact built.project
  · have owned : ((a.claim groups.length table.key).owner? key).isSome := owned
    show ((a.claim groups.length table.key).tables ++ [_]).any (·.key == key) = true
    rw [(extends_claim a groups.length table.key).tables, List.any_append, Bool.or_eq_true]
    by_cases same : key = table.key
    · right
      rw [same, List.any_cons, Bool.or_eq_true]
      exact .inl (beq_self_eq_true table.key)
    · left
      rw [owner?_claim, if_neg fun both => same both.2] at owned
      exact built.owned key owned

/-! ## Groups -/

/-- The tables of a group, read while the group is open. -/
theorem foldlM_members {tables : List Table} {children : List Segment}
    (related : List.Forall₂ (Table.In s) tables children) {g : TableGroup}
    (built : Built a found (groups ++ [g])) (id : g.id = groupId g.name)
    (color : g.color = Color.ofName g.name)
    (fresh : (keys (found ++ tables.map (some g.name, ·))).Nodup) :
    ∃ b, children.foldlM (applyGroupSegment s (some groups.length)) { assembly := a } =
        pure { assembly := b } ∧
      Built b (found ++ tables.map (some g.name, ·))
        (groups ++ [{ g with tables := g.tables ++ tables.map Table.key }]) := by
  induction related generalizing a found g with
  | nil => exact ⟨a, rfl, by simpa using built⟩
  | @cons table segment tables children here _ ih =>
    obtain ⟨block, inner, rfl, kind, header, body, lines⟩ := here
    rw [List.map_cons] at fresh
    obtain ⟨b, step, built⟩ :=
      addGroupTable_of_in built id color header body lines (key_notMem fresh)
    rw [List.append_cons] at fresh
    obtain ⟨c, run, built⟩ := ih built id color fresh
    refine ⟨c, ?_, by simpa using built⟩
    have read : applyGroupSegment s (some groups.length) { assembly := a } (.block block inner) =
        pure { assembly := b } := by
      rw [applyGroupSegment.eq_def]
      simp only [kind, step, pure_bind]
    rw [List.foldlM_cons, read, pure_bind]
    exact run

theorem addGroup_of_in {name : String} {tables : List Table} {block : Block}
    {children : List Segment} (header : block.header = ⟨[name], none, none⟩)
    (members : List.Forall₂ (Table.In s) tables children) (built : Built a found groups)
    (new : groupId name ∉ groups.map (·.id))
    (fresh : (keys (found ++ (Item.group name tables).grouped)).Nodup) :
    ∃ b, addGroup s a block children = pure b ∧
      Built b (found ++ (Item.group name tables).grouped)
        (groups ++ (Item.group name tables).groups) := by
  obtain ⟨g, opened⟩ : ∃ g : TableGroup, g =
      { id := groupId name, name, note := none, color := Color.ofName name, tables := [] } :=
    ⟨_, rfl⟩
  have first : a.groups.any (·.id == groupId name) = false := by
    rw [built.groups, List.any_eq_false]
    intro g listed same
    exact new (List.mem_map.2 ⟨g, listed, by simpa using same⟩)
  have opens : openGroup s a block name = pure { a with groups := a.groups ++ [g] } := by
    rw [openGroup, header]
    simp [first, opened, Color.resolve]
  have start : Built { a with groups := a.groups ++ [g] } found (groups ++ [g]) :=
    ⟨built.tables, by rw [built.groups], built.relationships, built.dropped, built.project,
      built.owned⟩
  obtain ⟨b, run, after⟩ := foldlM_members members start (by rw [opened]) (by rw [opened])
    (by simpa [opened, Item.grouped] using fresh)
  refine ⟨b, ?_, ?_⟩
  · have name? : block.header.name? = some name := by
      rw [header]
      simp [Header.name?]
    rw [addGroup, name?]
    simp only [opens, pure_bind, built.groups] at run ⊢
    rw [run, pure_bind]
    rfl
  · simpa [opened, Item.grouped, Item.groups] using after

/-! ## The document -/

theorem foldlM_groups {items : List Item} {segments : List Segment}
    (related : List.Forall₂ (Item.In s) items segments) (built : Built a found groups)
    (fresh : (keys (found ++ items.flatMap Item.grouped)).Nodup)
    (ids : ((groups ++ items.flatMap Item.groups).map (·.id)).Nodup) :
    ∃ b, segments.foldlM (applyGroup s) a = pure b ∧
      Built b (found ++ items.flatMap Item.grouped) (groups ++ items.flatMap Item.groups) := by
  induction related generalizing a found groups with
  | nil => exact ⟨a, rfl, by simpa using built⟩
  | @cons item segment items segments here _ ih =>
    rw [List.flatMap_cons, ← List.append_assoc] at fresh ids ⊢
    rw [List.flatMap_cons, ← List.append_assoc]
    cases item with
    | table t =>
      obtain ⟨block, inner, rfl, kind, -⟩ := here
      have skipped : applyGroup s a (.block block inner) = pure a := by simp [applyGroup, kind]
      rw [List.foldlM_cons, skipped, pure_bind]
      exact ih (by simpa [Item.grouped, Item.groups] using built) fresh ids
    | group name tables =>
      obtain ⟨block, inner, rfl, kind, header, members⟩ := here
      have new : groupId name ∉ groups.map (·.id) := by
        intro taken
        rw [List.map_append, List.map_append, List.nodup_append, List.nodup_append] at ids
        exact ids.1.2.2 _ taken (groupId name) (by simp [Item.groups]) rfl
      have here : (keys (found ++ (Item.group name tables).grouped)).Nodup := by
        rw [keys, List.map_append, List.nodup_append] at fresh
        exact fresh.1
      obtain ⟨b, step, built⟩ := addGroup_of_in header members built new here
      have read : applyGroup s a (.block block inner) = pure b := by
        rw [applyGroup, if_pos kind, step]
      rw [List.foldlM_cons, read, pure_bind]
      exact ih built fresh ids

theorem foldlM_tables {items : List Item} {segments : List Segment}
    (related : List.Forall₂ (Item.In s) items segments) (built : Built a found groups)
    (fresh : (keys (found ++ items.flatMap Item.loose)).Nodup) :
    ∃ b, segments.foldlM (applyBlock s) a = pure b ∧
      Built b (found ++ items.flatMap Item.loose) groups := by
  induction related generalizing a found with
  | nil => exact ⟨a, rfl, by simpa using built⟩
  | @cons item segment items segments here _ ih =>
    rw [List.flatMap_cons, ← List.append_assoc] at fresh ⊢
    cases item with
    | table t =>
      obtain ⟨block, inner, rfl, kind, header, body, lines⟩ := here
      have later : (keys (found ++ (none, t) :: items.flatMap Item.loose)).Nodup := by
        simpa [Item.loose] using fresh
      have new := key_notMem later
      obtain ⟨b, step, built⟩ := addTopTable_of_in built header body lines new
      have read : applyBlock s a (.block block inner) = pure b := by simp [applyBlock, kind, step]
      rw [List.foldlM_cons, read, pure_bind]
      exact ih built fresh
    | group name tables =>
      obtain ⟨block, inner, rfl, kind, -⟩ := here
      have skipped : applyBlock s a (.block block inner) = pure a := by simp [applyBlock, kind]
      rw [List.foldlM_cons, skipped, pure_bind]
      exact ih (by simpa [Item.loose] using built) fresh

/-- Where no table has an alias, names stand for themselves. -/
theorem resolveName_eq_self {tables : List Dbml.Table}
    (bare : ∀ table ∈ tables, table.aliasName = none)
    (name : String) : resolveName tables name = name := by
  unfold resolveName
  split
  · rfl
  · have absent : tables.reverse.find? (·.aliasName == some name) = none := by
      rw [List.find?_eq_none]
      intro table listed
      simp [bare table (List.mem_reverse.1 listed)]
    rw [absent]
    rfl

theorem resolve_eq_self {tables : List Dbml.Table} (bare : ∀ table ∈ tables, table.aliasName = none)
    (relationship : Relationship) : relationship.resolve tables = relationship := by
  rw [Relationship.resolve, resolveName_eq_self bare, resolveName_eq_self bare]

theorem assemble_of_in {items : List Item} {segments : List Segment}
    (related : List.Forall₂ (Item.In s) items segments) (distinct : Distinct items) :
    s.assemble segments = pure (database items) := by
  have start : Built {} [] [] := ⟨rfl, rfl, rfl, rfl, rfl, by simp [owner?]⟩
  have keys := distinct.keys
  rw [members] at keys
  obtain ⟨b, grouped, built⟩ := foldlM_groups related start
    (by rw [Canonical.keys, List.map_append, List.nodup_append] at keys; exact keys.1) distinct.ids
  obtain ⟨c, loose, built⟩ := foldlM_tables related built keys
  have bare : ∀ table ∈ c.tables, table.aliasName = none := by
    rw [built.tables]
    intro table listed
    obtain ⟨⟨group, written⟩, -, rfl⟩ := List.mem_map.1 listed
    rfl
  have resolved : (c.relationships ++ []).map (Relationship.resolve c.tables) =
      c.relationships := by
    rw [List.append_nil]
    exact List.map_id'' (resolve_eq_self bare) c.relationships
  rw [assemble, ofSegments, grouped, pure_bind, loose, pure_bind, built.dropped,
    statements_items related, statedRelationships, pure_bind, resolved, built.tables,
    built.relationships, built.groups, built.project]
  rfl

/-- A canonical document is parsed to the database it was written for, and nothing is noted. -/
theorem parse_render {items : List Item} (distinct : Distinct items) :
    parse (render items) = .ok (database items) ∧
      ∀ strict, parseReport (render items) strict = .ok ⟨database items, []⟩ := by
  have read := ofString_chars (allReadBack_written items) (toList_render items)
  obtain ⟨segments, scanned, related⟩ := scan_written items
  have assembled := assemble_of_in related distinct
  refine ⟨parse_eq_ok.2 ⟨_, segments, read, scanned, by rw [assembled]; rfl⟩, fun strict => ?_⟩
  have report := parseReport_eq_ok strict read scanned (by rw [assembled]; rfl)
  rw [assembled] at report
  exact report

/-- Names and values that would mean something else if they were not quoted. -/
def awkwardItems : List Item :=
  [.group "G\n\x7b" [{ schema := some "a.b", name := "", note := some "\\ \"n\"" }],
    .table
      { schema := none
        name := "as"
        columns :=
          [{ name := "Note", type := "x[]", pk := true, notNull := true, defaultValue := some "",
             reference := some (.oneToMany, ⟨some "public", "t", "c"⟩) },
           { name := "\t", type := "Ref", note := some ",",
             reference := some (.manyToMany, ⟨none, "as", "Note"⟩) }] }]

theorem parse_render_awkward :
    Distinct awkwardItems ∧ parse (render awkwardItems) = .ok (database awkwardItems) ∧
      ∀ strict, parseReport (render awkwardItems) strict = .ok ⟨database awkwardItems, []⟩ := by
  have distinct : Distinct awkwardItems := ⟨by decide, by decide⟩
  exact ⟨distinct, parse_render distinct⟩

end Dbml.Canonical
