import Dbml.Proofs.Assembly.Kept
import Dbml.Proofs.Document.Relationships

/-!
# Aliases

A relationship may name a table by its key or by an alias. Once all tables are known, each name is
replaced by the key it stands for, told here by the tables alone (`StandsFor`) and not by a search.
Main statement: `names_resolved`.
-/

namespace Dbml

variable {tables : List Table} {table : Table} {name key : String}

/-! ## What names stand for -/

/-- The key that a name in a relationship stands for: a key stands for itself, an alias for the last
table that has it, and any other name for itself. -/
inductive StandsFor (tables : List Table) : String → String → Prop
  | ofKey {table : Table} (listed : table ∈ tables) : StandsFor tables table.key table.key
  | ofAlias {before after : List Table} {table : Table} {name : String}
    (noKey : ∀ other ∈ tables, other.key ≠ name) (split : tables = before ++ table :: after)
    (here : table.aliasName = some name) (later : ∀ other ∈ after, other.aliasName ≠ some name) :
    StandsFor tables name table.key
  | unknown {name : String} (noKey : ∀ other ∈ tables, other.key ≠ name)
    (noAlias : ∀ other ∈ tables, other.aliasName ≠ some name) : StandsFor tables name name

theorem any_key_iff : (tables.any (·.key == name)) = true ↔ ∃ table ∈ tables, table.key = name := by
  simp

theorem resolveName_of_key (listed : table ∈ tables) :
    resolveName tables table.key = table.key :=
  if_pos (any_key_iff.2 ⟨table, listed, rfl⟩)

/-- The last table with an alias is the first one from behind. -/
theorem find?_reverse_alias : tables.reverse.find? (·.aliasName == some name) = some table ↔
    ∃ before after, tables = before ++ table :: after ∧ table.aliasName = some name ∧
      ∀ other ∈ after, other.aliasName ≠ some name := by
  rw [List.find?_eq_some_iff_append]
  constructor
  · rintro ⟨here, after, before, split, later⟩
    refine ⟨before.reverse, after.reverse, ?_, by simpa using here, ?_⟩
    · simpa using congrArg List.reverse split
    · simpa using later
  · rintro ⟨before, after, rfl, here, later⟩
    refine ⟨by simpa using here, after.reverse, before.reverse, by simp, ?_⟩
    simpa using later

theorem standsFor_resolveName (tables : List Table) (name : String) :
    StandsFor tables name (resolveName tables name) := by
  unfold resolveName
  split
  next keyed =>
    obtain ⟨table, listed, rfl⟩ := any_key_iff.1 keyed
    exact .ofKey listed
  next unkeyed =>
    have noKey : ∀ other ∈ tables, other.key ≠ name :=
      fun other listed same => unkeyed (any_key_iff.2 ⟨other, listed, same⟩)
    cases found : tables.reverse.find? (·.aliasName == some name) with
    | some table =>
      obtain ⟨before, after, split, here, later⟩ := find?_reverse_alias.1 found
      exact .ofAlias noKey split here later
    | none =>
      refine .unknown noKey fun other listed same => ?_
      have absent := List.find?_eq_none.1 found other (List.mem_reverse.2 listed)
      simp [same] at absent

/-- A name stands for one key only, the one it is resolved to. -/
theorem StandsFor.resolveName_eq (stands : StandsFor tables name key) :
    resolveName tables name = key := by
  cases stands with
  | ofKey listed => exact resolveName_of_key listed
  | @ofAlias before after table _ noKey split here later =>
    have found := find?_reverse_alias.2 ⟨before, after, split, here, later⟩
    have unkeyed : ¬ tables.any (·.key == name) = true :=
      fun keyed => (any_key_iff.1 keyed).elim fun other known => noKey other known.1 known.2
    rw [resolveName, if_neg unkeyed, found]
    rfl
  | unknown noKey noAlias =>
    have unkeyed : ¬ tables.any (·.key == name) = true :=
      fun keyed => (any_key_iff.1 keyed).elim fun other known => noKey other known.1 known.2
    have absent : tables.reverse.find? (·.aliasName == some name) = none :=
      List.find?_eq_none.2 fun other listed => by simpa using noAlias other (by simpa using listed)
    rw [resolveName, if_neg unkeyed, absent]
    rfl

/-! ## Resolved names -/

/-- What a name stands for is a key, or no alias either. -/
theorem StandsFor.keyed_or_noAlias (stands : StandsFor tables name key) :
    (∃ table ∈ tables, table.key = key) ∨ ∀ table ∈ tables, table.aliasName ≠ some key := by
  cases stands with
  | ofKey listed => exact .inl ⟨_, listed, rfl⟩
  | ofAlias _ split _ _ => exact .inl ⟨_, by rw [split]; simp, rfl⟩
  | unknown _ noAlias => exact .inr noAlias

/-- What a name stands for stands for itself. -/
theorem resolveName_resolveName (tables : List Table) (name : String) :
    resolveName tables (resolveName tables name) = resolveName tables name := by
  have stands := standsFor_resolveName tables name
  generalize resolveName tables name = key at stands ⊢
  cases stands with
  | ofKey listed => exact resolveName_of_key listed
  | ofAlias _ split _ _ => exact resolveName_of_key (by rw [split]; simp)
  | unknown noKey noAlias => exact (StandsFor.unknown noKey noAlias).resolveName_eq

namespace Relationship

theorem resolve_resolve (tables : List Table) (relationship : Relationship) :
    (relationship.resolve tables).resolve tables = relationship.resolve tables := by
  simp only [resolve, resolveName_resolveName]

/-- The second relationship is the first with its tables named by the keys they stand for. -/
structure Resolved (tables : List Table) (written final : Relationship) : Prop where
  fromTable : StandsFor tables written.fromTable final.fromTable
  toTable : StandsFor tables written.toTable final.toTable
  fromColumn : final.fromColumn = written.fromColumn
  toColumn : final.toColumn = written.toColumn
  kind : final.kind = written.kind
  name : final.name = written.name
  onDelete : final.onDelete = written.onDelete
  onUpdate : final.onUpdate = written.onUpdate

theorem resolved_resolve (tables : List Table) (relationship : Relationship) :
    Resolved tables relationship (relationship.resolve tables) :=
  ⟨standsFor_resolveName tables _, standsFor_resolveName tables _, rfl, rfl, rfl, rfl, rfl, rfl⟩

end Relationship

/-! ## The relationships of a database -/

namespace Source

variable {s : Source} {segments : List Segment}

/-- The relationships of columns before aliases are replaced. -/
def columnRelationships (s : Source) (segments : List Segment) : List Relationship :=
  (Assembly.ofSegments s segments).value.relationships

/-- The relationships of references that stand on their own, before aliases are replaced. -/
def statedRelationshipsOf (s : Source) (segments : List Segment) : List Relationship :=
  (s.references segments).filterMap s.accepted?

theorem assemble_relationships (s : Source) (segments : List Segment) :
    (s.assemble segments).value.relationships =
      (s.columnRelationships segments ++ s.statedRelationshipsOf segments).map
        (·.resolve (s.assemble segments).value.tables) := by
  rw [statedRelationshipsOf, filterMap_references accepted?_eq_none, ← statedRelationships_value]
  rfl

theorem inlines_columnRelationships (s : Source) (segments : List Segment) :
    List.Forall₂ (fun referrer relationship => s.Inlines referrer.1 referrer.2 relationship)
      (referrers (s.assemble segments).value.tables) (s.columnRelationships segments) :=
  inlinesTables_ofSegments s segments

/-- The relationship of a column begins at a table of the database. -/
theorem exists_table_of_mem_columnRelationships {relationship : Relationship}
    (listed : relationship ∈ s.columnRelationships segments) :
    ∃ table ∈ (s.assemble segments).value.tables, table.key = relationship.fromTable := by
  obtain ⟨referrer, refers, own⟩ :=
    exists_of_mem_of_forall₂ (inlines_columnRelationships s segments) listed
  obtain ⟨table, added, inside⟩ := List.mem_flatMap.1 refers
  obtain ⟨column, -, rfl⟩ := List.mem_map.1 inside
  exact ⟨table, added, own.fromTable.symm⟩

end Source

variable {text : String} {database : Database}

/-- Both tables of each relationship are named by the keys they stand for, and nothing else of the
relationships changes. The relationship of a column keeps the table it begins at; no alias is left
that is not a key; and there is nothing left to be resolved. -/
theorem names_resolved (parsed : parse text = .ok database) :
    ∃ s segments, Source.ofString text = .ok s ∧ s.scan = .ok segments ∧
      List.Forall₂ (fun referrer relationship => s.Inlines referrer.1 referrer.2 relationship)
        (referrers database.tables) (s.columnRelationships segments) ∧
      List.Forall₂ (Relationship.Resolved database.tables)
        (s.columnRelationships segments ++ s.statedRelationshipsOf segments)
        database.relationships ∧
      List.Forall₂ (fun written final => final.fromTable = written.fromTable)
        (s.columnRelationships segments)
        (database.relationships.take (s.columnRelationships segments).length) ∧
      (∀ relationship ∈ database.relationships,
        ∀ name ∈ [relationship.fromTable, relationship.toTable],
          (∃ table ∈ database.tables, table.aliasName = some name) →
            ∃ table ∈ database.tables, table.key = name) ∧
      database.relationships.map (·.resolve database.tables) = database.relationships := by
  obtain ⟨s, segments, read, scanned, rfl⟩ := parse_eq_ok.1 parsed
  have all := Source.assemble_relationships s segments
  refine ⟨s, segments, read, scanned, Source.inlines_columnRelationships s segments, ?_, ?_, ?_, ?_⟩
  · rw [all, List.forall₂_map_right_iff, List.forall₂_same]
    exact fun relationship _ => Relationship.resolved_resolve _ relationship
  · -- A column's relationship begins at the table it stands in, whose key resolves to itself.
    rw [all, List.map_append, List.take_left' (by simp), List.forall₂_map_right_iff,
      List.forall₂_same]
    intro relationship listed
    obtain ⟨table, added, same⟩ := Source.exists_table_of_mem_columnRelationships listed
    show resolveName _ relationship.fromTable = relationship.fromTable
    rw [← same]
    exact resolveName_of_key added
  · intro relationship listed name named used
    rw [all] at listed
    obtain ⟨written, -, rfl⟩ := List.mem_map.1 listed
    have stands : ∃ before, StandsFor (s.assemble segments).value.tables before name := by
      rcases List.mem_pair.1 named with rfl | rfl
      · exact ⟨_, standsFor_resolveName _ written.fromTable⟩
      · exact ⟨_, standsFor_resolveName _ written.toTable⟩
    obtain ⟨before, stands⟩ := stands
    obtain ⟨table, added, aliased⟩ := used
    exact stands.keyed_or_noAlias.resolve_right fun none => none table added aliased
  · rw [all, List.map_map]
    exact List.map_congr_left fun relationship _ => Relationship.resolve_resolve _ relationship

/-- Two tables with one alias, an alias that is another table's key, and references by all three and
by a name that is neither key nor alias. -/
def aliasedText : String :=
  "Table a.b as U \x7b\nid int [ref: > U.id]\n\x7d\nTable c as U \x7b\nid int [ref: - V.id]\n" ++
  "\x7d\nTable d as V \x7b\nid int\n\x7d\nTable V \x7b\nid int\n\x7d\nRef: U.id < W.id\n"

theorem names_resolved_aliasedText :
    ∃ database, parse aliasedText = .ok database ∧
      database.relationships.map (fun r => (r.fromTable, r.toTable)) =
        [("a.b", "c"), ("c", "V"), ("c", "W")] ∧
      ∃ s segments, Source.ofString aliasedText = .ok s ∧ s.scan = .ok segments ∧
        List.Forall₂ (fun referrer relationship => s.Inlines referrer.1 referrer.2 relationship)
          (referrers database.tables) (s.columnRelationships segments) ∧
        List.Forall₂ (Relationship.Resolved database.tables)
          (s.columnRelationships segments ++ s.statedRelationshipsOf segments)
          database.relationships ∧
        List.Forall₂ (fun written final => final.fromTable = written.fromTable)
          (s.columnRelationships segments)
          (database.relationships.take (s.columnRelationships segments).length) ∧
        (∀ relationship ∈ database.relationships,
          ∀ name ∈ [relationship.fromTable, relationship.toTable],
            (∃ table ∈ database.tables, table.aliasName = some name) →
              ∃ table ∈ database.tables, table.key = name) ∧
        database.relationships.map (·.resolve database.tables) = database.relationships := by
  have evaluated : (parse aliasedText).toOption.map
      (·.relationships.map fun r => (r.fromTable, r.toTable)) =
      some [("a.b", "c"), ("c", "V"), ("c", "W")] := by decide +kernel
  obtain ⟨database, read, relationships⟩ := Option.map_eq_some_iff.1 evaluated
  have parsed := eq_ok_of_toOption read
  exact ⟨database, parsed, relationships, names_resolved parsed⟩

end Dbml
