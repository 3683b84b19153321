import Dbml.Proofs.Assembly.Kept
import Dbml.Proofs.Assembly.FirstDeclaration
import Dbml.Proofs.Document.Aliases
import Dbml.Proofs.Table.Body

/-!
# References by a table's own name

A reference that names a table as its heading does reaches the table, whatever schema and name are,
with one exception: a schema that is left out in references is part of the key all the same. Main
statement: `reaches_own_table`, for every place where a reference is written.
-/

namespace Dbml

open Segment

/-- A reference as it stands in the document. That of a column has a target only. -/
structure Written where
  source : Option TokenRange
  target : TokenRange

namespace Source

variable {s : Source} {segments : List Segment} {range : TokenRange}

/-! ## Where references are written -/

/-- The tokens before the first operator of the range, and those between the operator and the
settings; none when one of them is empty. -/
def sides? (s : Source) (range : TokenRange) : Option (TokenRange × TokenRange) :=
  let stop := (s.find? range (·.isMark .openBracket)).getD range.stop
  (s.find? ⟨range.start, stop⟩ (·.relation?.isSome)).bind fun i =>
    if i = range.start ∨ stop ≤ i + 1 then none else some (⟨range.start, i⟩, ⟨i + 1, stop⟩)

theorem withActions_tables (s : Source) (relationship : Relationship) (settings : List Setting) :
    (s.withActions relationship settings).fromTable = relationship.fromTable ∧
      (s.withActions relationship settings).toTable = relationship.toTable := by
  induction settings generalizing relationship with
  | nil => exact ⟨rfl, rfl⟩
  | cons setting rest ih =>
    unfold withActions
    split
    next none => cases none
    next same => cases same; exact ih _
    next same => cases same; exact ih _
    next same => cases same; exact ih _

/-- A reference is accepted when it has two sides, and its tables are those of the endpoints that
the sides name. -/
theorem reference_sides (s : Source) (range : TokenRange) (name : Option String) :
    (s.reference range name).toOption.map
        (fun r => (r.relationship.fromTable, r.relationship.toTable)) =
      (s.sides? range).map fun sides =>
        ((s.endpoint sides.1).table, (s.endpoint sides.2).table) := by
  unfold reference sides?
  dsimp only
  split
  next none =>
    rw [none]
    rfl
  next i found =>
    rw [found, Option.bind_some]
    split
    next none =>
      obtain ⟨-, -, operator⟩ := find?_bounds found
      rw [holds] at operator
      cases here : s.token? i with
      | none => simp [here] at operator
      | some token =>
        rw [here, Option.bind_some] at none
        simp [here, none] at operator
    next kind _ =>
      split
      · rfl
      · obtain ⟨fromTable, toTable⟩ := withActions_tables s _ _
        simp only [Except.toOption, Option.map_some]
        rw [fromTable, toTable]
        rfl

/-- Where a statement that is accepted is written. -/
def writtenIn? (s : Source) : Statement → Option Written
  | .reference _ range _ => (s.sides? range).map fun sides => ⟨some sides.1, sides.2⟩
  | _ => none

/-- Where the references of a document are written that make relationships: those of the columns in
the kept tables, then those that stand on their own. -/
def writtenReferences (s : Source) (segments : List Segment) : List Written :=
  ((s.keptTables segments).flatMap fun sited => sited.site.children.filterMap s.targetIn?).map
      (⟨none, ·⟩) ++
    (s.references segments).filterMap s.writtenIn?

/-- The relationship names the tables that are written. -/
structure EndsAt (s : Source) (written : Written) (relationship : Relationship) : Prop where
  toTable : relationship.toTable = (s.endpoint written.target).table
  fromTable : ∀ source ∈ written.source, relationship.fromTable = (s.endpoint source).table

theorem endsAt_columnRelationships (s : Source) (segments : List Segment) :
    List.Forall₂ s.EndsAt
      (((s.keptTables segments).flatMap fun sited => sited.site.children.filterMap s.targetIn?).map
        (⟨none, ·⟩))
      (s.columnRelationships segments) := by
  have same : (s.columnRelationships segments).map (·.toTable) =
      ((s.keptTables segments).flatMap fun sited => sited.site.children.filterMap s.targetIn?).map
        fun target => (s.endpoint target).table := by
    rw [columnRelationships, Assembly.relationships_ofSegments, List.map_flatMap, List.map_flatMap]
    refine List.flatMap_congr fun sited kept => ?_
    have targets := targets_of_declaredTable (declared?_of_mem_keptTables kept)
    simpa only [List.map_map, Function.comp_def] using congrArg (List.map Prod.fst) targets
  rw [List.forall₂_map_left_iff]
  rw [← List.forall₂_eq_eq_eq, List.forall₂_map_left_iff, List.forall₂_map_right_iff] at same
  exact same.flip.imp fun target relationship toTable => ⟨toTable, by simp⟩

theorem endsAt_statedRelationships (s : Source) (statements : List Statement) :
    List.Forall₂ s.EndsAt (statements.filterMap s.writtenIn?)
      (statements.filterMap s.accepted?) := by
  refine List.rel_filterMap (R := Eq) ?_ (List.forall₂_refl statements)
  rintro statement _ rfl
  cases statement with
  | reference position range name =>
    have sides := reference_sides s range name
    rw [writtenIn?, accepted?]
    cases written : s.sides? range with
    | none =>
      rw [written, Option.map_none, Option.map_eq_none_iff] at sides
      rw [sides]
      exact .none
    | some pair =>
      rw [written] at sides
      obtain ⟨reference, read, tables⟩ := Option.map_eq_some_iff.1 sides
      obtain ⟨fromTable, toTable⟩ := Prod.mk.inj tables
      rw [read]
      exact .some ⟨toTable, by simpa using fromTable⟩
  | unknown position => exact .none
  | nested position => exact .none

theorem endsAt_writtenReferences (s : Source) (segments : List Segment) :
    List.Forall₂ s.EndsAt (s.writtenReferences segments)
      (s.columnRelationships segments ++ s.statedRelationshipsOf segments) :=
  List.rel_append (endsAt_columnRelationships s segments)
    (endsAt_statedRelationships s (s.references segments))

/-! ## Own names -/

/-- The range names a column of the table, and the table as the heading of its block does. -/
def NamesColumnOf (s : Source) (sited : SitedTable) (range : TokenRange) : Prop :=
  ∃ column, nameParts (s.tokens range) = some (sited.site.block.header.nameParts ++ [column])

end Source

/-- Whether the schema of the table is left out in references. -/
def SitedTable.HidesSchema (sited : SitedTable) : Prop :=
  sited.table.schema = some "" ∨ sited.table.schema = some Endpoint.defaultSchema

/-- The name that a table is referred to by reaches the table. A table whose schema is left out in
references is looked for by its name alone. -/
structure Reaches (tables : List Table) (sited : SitedTable) (name : String) : Prop where
  own : ¬ sited.HidesSchema → name = sited.table.key
  hidden : sited.HidesSchema → StandsFor tables sited.table.name name

namespace Source

variable {s : Source} {segments : List Segment} {range : TokenRange} {sited : SitedTable}

/-- A schema stands in the endpoint unless it is left out in references. -/
theorem table_ofParts (schema name column raw : String) :
    (Endpoint.ofParts [schema, name, column] raw).table =
      if schema = "" ∨ schema = Endpoint.defaultSchema then name
      else tableKey (some schema) name := by
  rw [Endpoint.ofParts, apply_ite Endpoint.table]
  rfl

/-- The endpoint that the own name of a table makes, for a name of one or two segments. -/
theorem endpoint_of_namesColumnOf
    (declared : s.declared? sited.site.toTableBlock = some sited.table)
    (short : sited.site.block.header.nameParts.length ≤ 2) (named : s.NamesColumnOf sited range) :
    (¬ sited.HidesSchema → (s.endpoint range).table = sited.table.key) ∧
      (sited.HidesSchema → (s.endpoint range).table = sited.table.name) := by
  obtain ⟨column, read⟩ := named
  have heading := tableName?_of_declaredTable declared
  rw [endpoint, read, Option.getD_some, DeclaredTable.key, SitedTable.HidesSchema]
  unfold tableName? at heading
  generalize sited.site.block.header.nameParts = parts at heading short ⊢
  cases parts with
  | nil => cases heading
  | cons first parts =>
    cases parts with
    | nil =>
      have heading : (none, first) = (sited.table.schema, sited.table.name) := by
        simpa using heading
      obtain ⟨schema, name⟩ := Prod.mk.inj heading
      rw [← schema, ← name]
      exact ⟨fun _ => rfl, by simp⟩
    | cons second parts =>
      obtain rfl : parts = [] := by simpa using short
      have heading : (some first, second) = (sited.table.schema, sited.table.name) := by
        simpa using heading
      obtain ⟨schema, name⟩ := Prod.mk.inj heading
      rw [← schema, ← name, Option.some_inj, Option.some_inj, List.cons_append,
        List.singleton_append, table_ofParts]
      exact ⟨fun shown => if_neg shown, fun hides => if_pos hides⟩

/-- What is resolved after a reference by a table's own name is that table. -/
theorem reaches_of_endpoint (kept : sited ∈ s.keptTables segments)
    (short : sited.site.block.header.nameParts.length ≤ 2) (named : s.NamesColumnOf sited range)
    {name : String}
    (stands : StandsFor (s.assemble segments).value.tables (s.endpoint range).table name) :
    Reaches (s.assemble segments).value.tables sited name := by
  obtain ⟨own, hidden⟩ := endpoint_of_namesColumnOf (declared?_of_mem_keptTables kept) short named
  refine ⟨fun shown => ?_, fun hides => by rw [← hidden hides]; exact stands⟩
  rw [own shown] at stands
  have there : (Assembly.ofSegments s segments).value.settle sited.declaration ∈
      (s.assemble segments).value.tables := by
    show _ ∈ (Assembly.ofSegments s segments).value.tables
    rw [Assembly.tables_ofSegments]
    exact List.mem_map_of_mem kept
  rw [← stands.resolveName_eq]
  exact resolveName_of_key there

end Source

variable {text : String} {database : Database}

/-- Wherever a reference is written with the own name of a kept table, the relationship that it
makes has the key of the table at this end; a table whose schema is left out in references is
reached as far as its bare name stands for it. -/
theorem reaches_own_table (parsed : parse text = .ok database) :
    ∃ s segments, Source.ofString text = .ok s ∧ s.scan = .ok segments ∧
      List.Forall₂ (fun sited table => sited.table.Describes table) (s.keptTables segments)
        database.tables ∧
      List.Forall₂
        (fun written relationship => ∀ sited ∈ s.keptTables segments,
          sited.site.block.header.nameParts.length ≤ 2 →
          (s.NamesColumnOf sited written.target →
            Reaches database.tables sited relationship.toTable) ∧
          ∀ source ∈ written.source, s.NamesColumnOf sited source →
            Reaches database.tables sited relationship.fromTable)
        (s.writtenReferences segments) database.relationships := by
  obtain ⟨s, segments, read, scanned, rfl⟩ := parse_eq_ok.1 parsed
  refine ⟨s, segments, read, scanned, ?_, ?_⟩
  · show List.Forall₂ _ _ (Assembly.ofSegments s segments).value.tables
    rw [Assembly.tables_ofSegments, List.forall₂_map_right_iff, List.forall₂_same]
    exact fun sited _ => Assembly.describes_settle _ sited.declaration
  · rw [Source.assemble_relationships, List.forall₂_map_right_iff]
    refine (Source.endsAt_writtenReferences s segments).imp ?_
    intro written relationship ends sited kept short
    refine ⟨fun named => ?_, fun source here named => ?_⟩
    · refine Source.reaches_of_endpoint kept short named ?_
      rw [← ends.toTable]
      exact standsFor_resolveName _ _
    · refine Source.reaches_of_endpoint kept short named ?_
      rw [← ends.fromTable source here]
      exact standsFor_resolveName _ _

/-- A quoted name with a dot, a schema with a quoted name, a table in the default schema and one
that has its bare name as an alias, each with references by their own names. -/
def ownNamesText : String :=
  "Table \"a.b\" \x7b\nid int [ref: > s.\"x y\".id]\n\x7d\nTable s.\"x y\" \x7b\nid int\n\x7d\n" ++
  "Table public.t \x7b\nid int\n\x7d\nTable u as t \x7b\nid int\n\x7d\n" ++
  "Ref: \"a.b\".id < public.t.id\nRef: s.\"x y\".id - u.id\n"

theorem reaches_own_table_ownNamesText :
    ∃ database, parse ownNamesText = .ok database ∧
      database.relationships.map (fun r => (r.fromTable, r.toTable)) =
        [("a.b", "s.x y"), ("a.b", "u"), ("s.x y", "u")] ∧
      ∃ s segments, Source.ofString ownNamesText = .ok s ∧ s.scan = .ok segments ∧
        List.Forall₂ (fun sited table => sited.table.Describes table) (s.keptTables segments)
          database.tables ∧
        List.Forall₂
          (fun written relationship => ∀ sited ∈ s.keptTables segments,
            sited.site.block.header.nameParts.length ≤ 2 →
            (s.NamesColumnOf sited written.target →
              Reaches database.tables sited relationship.toTable) ∧
            ∀ source ∈ written.source, s.NamesColumnOf sited source →
              Reaches database.tables sited relationship.fromTable)
          (s.writtenReferences segments) database.relationships := by
  have evaluated : (parse ownNamesText).toOption.map
      (·.relationships.map fun r => (r.fromTable, r.toTable)) =
      some [("a.b", "s.x y"), ("a.b", "u"), ("s.x y", "u")] := by decide +kernel
  obtain ⟨database, read, relationships⟩ := Option.map_eq_some_iff.1 evaluated
  have parsed := eq_ok_of_toOption read
  exact ⟨database, parsed, relationships, reaches_own_table parsed⟩

/-- A table in the default schema, and a reference by the name it is declared with. -/
def publicTableText : String :=
  "Table public.t \x7b\n id int\n\x7d\nRef: x.a > public.t.id\n"

/-- This reference does not have the key of the table it names. -/
theorem not_reaches_own_table :
    ¬ ∀ text database s segments, parse text = .ok database → Source.ofString text = .ok s →
      s.scan = .ok segments →
      List.Forall₂
        (fun written relationship => ∀ sited ∈ s.keptTables segments,
          sited.site.block.header.nameParts.length ≤ 2 → s.NamesColumnOf sited written.target →
          relationship.toTable = sited.table.key)
        (s.writtenReferences segments) database.relationships := by
  intro always
  have evaluated : (Source.ofString publicTableText).toOption.bind (fun s =>
      s.scan.toOption.map fun segments =>
        ((s.keptTables segments).map fun sited =>
            (sited.site.block.header.nameParts, sited.table.key),
          (s.writtenReferences segments).map fun written => nameParts (s.tokens written.target),
          (s.assemble segments).value.relationships.map (·.toTable))) =
      some ([(["public", "t"], "public.t")], [some ["public", "t", "id"]], ["t"]) := by
    decide +kernel
  obtain ⟨s, read, evaluated⟩ := Option.bind_eq_some_iff.1 evaluated
  obtain ⟨segments, scanned, evaluated⟩ := Option.map_eq_some_iff.1 evaluated
  obtain ⟨tables, others⟩ := Prod.mk.inj evaluated
  obtain ⟨written, relationships⟩ := Prod.mk.inj others
  obtain ⟨sited, _, kept, heading, -⟩ := List.map_eq_cons_iff.1 tables
  obtain ⟨reference, _, references, named, -⟩ := List.map_eq_cons_iff.1 written
  obtain ⟨relationship, _, made, toTable, -⟩ := List.map_eq_cons_iff.1 relationships
  obtain ⟨parts, key⟩ := Prod.mk.inj heading
  have read := eq_ok_of_toOption read
  have scanned := eq_ok_of_toOption scanned
  have all := always publicTableText _ s segments (parse_eq_ok.2 ⟨s, segments, read, scanned, rfl⟩)
    read scanned
  rw [references, made] at all
  have reached := (List.forall₂_cons.1 all).1 sited (by rw [kept]; simp) (by rw [parts]; simp)
    ⟨"id", by rw [named, parts]; rfl⟩
  rw [toTable, key] at reached
  exact absurd reached (by decide)

end Dbml
