import Dbml.Proofs.Assembly.FirstDeclaration
import Dbml.Proofs.Document.Recovery
import Mathlib.Data.String.Basic

/-!
# The identity of tables

Tables are told apart by their keys, in which schema and name are joined by a dot. A name that holds
a dot itself can take in the end of another's schema, and that is the only way for different tables
to have one key (`tableKey_eq_iff`). Main statement: a table that is dropped as a repetition repeats
a table that is kept, or one of the two names takes in the end of the other's schema
(`drops_repeated_table`).
-/

namespace Dbml

open Segment

/-- The name is the other name with the end of the other schema in front of it, joined by a dot;
what is left of that schema is the schema of the name. -/
def Absorbs (schema : Option String) (name : String) (otherSchema : Option String)
    (otherName : String) : Prop :=
  ∃ part, name = part ++ "." ++ otherName ∧ otherSchema = some (tableKey schema part)

section Keys

variable {schema schema' : Option String} {name name' : String}

theorem tableKey_none (name : String) : tableKey none name = name := rfl

theorem tableKey_some (schema name : String) :
    tableKey (some schema) name = schema ++ "." ++ name := rfl

/-- A text with a dot behind it is cut at the same dot, or one of the two cuts comes earlier. -/
theorem dotted_eq_iff {schema schema' name name' : String} :
    schema ++ "." ++ name = schema' ++ "." ++ name' ↔
      (schema = schema' ∧ name = name') ∨
        (∃ part, name = part ++ "." ++ name' ∧ schema' = schema ++ "." ++ part) ∨
          ∃ part, name' = part ++ "." ++ name ∧ schema = schema' ++ "." ++ part := by
  constructor
  · intro same
    have spelled : schema.toList ++ '.' :: name.toList = schema'.toList ++ '.' :: name'.toList := by
      simpa using congrArg String.toList same
    rcases List.append_eq_append_iff.1 spelled with ⟨between, left, right⟩ | ⟨between, left, right⟩
    · cases between with
      | nil =>
        refine .inl ⟨String.toList_inj.1 (by simpa using left.symm), String.toList_inj.1 ?_⟩
        simpa using right
      | cons dot part =>
        rw [List.cons_append, List.cons.injEq] at right
        obtain ⟨rfl, right⟩ := right
        exact .inr (.inl ⟨String.ofList part, String.toList_inj.1 (by simpa using right),
          String.toList_inj.1 (by simpa using left)⟩)
    · cases between with
      | nil =>
        refine .inl ⟨String.toList_inj.1 (by simpa using left), String.toList_inj.1 ?_⟩
        simpa using right.symm
      | cons dot part =>
        rw [List.cons_append, List.cons.injEq] at right
        obtain ⟨rfl, right⟩ := right
        exact .inr (.inr ⟨String.ofList part, String.toList_inj.1 (by simpa using right),
          String.toList_inj.1 (by simpa using left)⟩)
  · rintro (⟨rfl, rfl⟩ | ⟨part, rfl, rfl⟩ | ⟨part, rfl, rfl⟩)
    · rfl
    · simp only [String.append_assoc]
    · simp only [String.append_assoc]

/-- Keys are the same for the same schema and name, and when a name absorbs the end of the other's
schema. -/
theorem tableKey_eq_iff : tableKey schema name = tableKey schema' name' ↔
    (schema = schema' ∧ name = name') ∨ Absorbs schema name schema' name' ∨
      Absorbs schema' name' schema name := by
  cases schema with
  | none =>
    cases schema' with
    | none => simp [tableKey_none, Absorbs]
    | some schema' =>
      simp only [tableKey_none, tableKey_some, Absorbs, reduceCtorEq, false_and, and_false,
        exists_const, or_false, false_or, Option.some.injEq]
      constructor
      · intro same
        exact ⟨schema', same, rfl⟩
      · rintro ⟨part, rfl, rfl⟩
        rfl
  | some schema =>
    cases schema' with
    | none =>
      simp only [tableKey_none, tableKey_some, Absorbs, reduceCtorEq, false_and, and_false,
        exists_const, false_or, Option.some.injEq]
      constructor
      · intro same
        exact ⟨schema, same.symm, rfl⟩
      · rintro ⟨part, rfl, rfl⟩
        rfl
    | some schema' =>
      simp only [tableKey_some, Absorbs, Option.some.injEq]
      exact dotted_eq_iff

/-- Only a name with a dot in it absorbs anything. -/
theorem Absorbs.dot_mem (absorbs : Absorbs schema name schema' name') : '.' ∈ name.toList := by
  obtain ⟨part, rfl, -⟩ := absorbs
  simp

/-- Names without dots are told apart as they are. -/
theorem eq_of_tableKey_eq (same : tableKey schema name = tableKey schema' name')
    (plain : '.' ∉ name.toList) (plain' : '.' ∉ name'.toList) :
    schema = schema' ∧ name = name' := by
  rcases tableKey_eq_iff.1 same with equal | absorbs | absorbs
  · exact equal
  · exact absurd absorbs.dot_mem plain
  · exact absurd absorbs.dot_mem plain'

end Keys

/-! ## The first table of a key -/

variable {s : Source} {segments : List Segment} {met rest : List TableBlock} {found : TableBlock}
  {table : DeclaredTable} {key : String}

/-- Of the blocks that declare a key there is a first one. -/
theorem Source.exists_first_of_declares (declares : s.Declares met key) :
    ∃ before first after table, met = before ++ first :: after ∧ s.declared? first = some table ∧
      table.key = key ∧ ¬ s.Declares before key := by
  induction met using List.reverseRecOn with
  | nil =>
    obtain ⟨earlier, listed, -⟩ := declares
    cases listed
  | append_singleton met last ih =>
    by_cases early : s.Declares met key
    · obtain ⟨before, first, after, table, rfl, declared, same, fresh⟩ := ih early
      exact ⟨before, first, after ++ [last], table, by simp, declared, same, fresh⟩
    · rcases Source.declares_concat.1 declares with earlier | ⟨table, declared, same⟩
      · exact absurd earlier early
      · exact ⟨met, last, [], table, rfl, declared, same, early⟩

namespace Assembly

theorem describes_finish (table : DeclaredTable) (groupId color : Option String) :
    table.Describes (table.finish groupId color) :=
  ⟨rfl, rfl, rfl, rfl, rfl, rfl⟩

/-- What an assembly that has met the blocks keeps of them: the first table of each key. -/
structure Keeping (s : Source) (a : Assembly) (met : List TableBlock) : Prop
    extends Discovering s a met where
  kept : ∀ before found after table, met = before ++ found :: after →
    s.declared? found = some table → ¬ s.Declares before table.key →
    ∃ kept ∈ a.tables, table.Describes kept

theorem keeping_invariant (s : Source) : TableInvariant s (Keeping s) where
  frame := by
    intro a b met holds tables relationships dropped
    refine ⟨(discovering_invariant s).frame holds.toDiscovering tables relationships dropped, ?_⟩
    rw [tables]
    exact holds.kept
  drop := by
    intro a met found holds taken
    refine ⟨(discovering_invariant s).drop found holds.toDiscovering taken, ?_⟩
    intro before old after table split declared fresh
    rcases concat_eq_append_cons.1 split with ⟨rfl, rfl, rfl⟩ | ⟨rest, rfl, rfl⟩
    · exact absurd ((holds.defined _).1 (taken table declared)) fresh
    · exact holds.kept before old rest table rfl declared fresh
  add := by
    intro a met found table owner holds declared fresh
    refine ⟨(discovering_invariant s).add found table owner holds.toDiscovering declared fresh, ?_⟩
    intro before old after other split there new
    rw [addTable]
    rcases concat_eq_append_cons.1 split with ⟨rfl, rfl, rfl⟩ | ⟨rest, rfl, rfl⟩
    · cases declared.symm.trans there
      exact ⟨_, List.mem_append_right _ List.mem_cons_self, describes_finish table _ _⟩
    · obtain ⟨kept, listed, describes⟩ := holds.kept before old rest other rfl there new
      exact ⟨kept, List.mem_append_left _ listed, describes⟩

theorem keeping_empty (s : Source) : Keeping s {} [] := by
  refine ⟨discovering_empty s, ?_⟩
  intro before found after table split
  cases before <;> cases split

end Assembly

namespace Source

/-- One of the blocks declares the table, is not dropped, and the database has the table. -/
def Keeps (s : Source) (segments : List Segment) (met : List TableBlock) (table : DeclaredTable) :
    Prop :=
  ∃ earlier ∈ met, s.declared? earlier = some table ∧
    earlier.block.start ∉ (Assembly.ofSegments s segments).value.dropped ∧
    ∃ kept ∈ (s.assemble segments).value.tables, table.Describes kept

theorem Keeps.mono {met' : List TableBlock} (keeps : s.Keeps segments met table)
    (subset : met ⊆ met') : s.Keeps segments met' table := by
  obtain ⟨earlier, listed, kept⟩ := keeps
  exact ⟨earlier, subset listed, kept⟩

/-- Whether a discovered block is dropped depends on those before it. -/
theorem mem_dropped_iff_discards (ordered : Place.InOrder (places none segments))
    (split : discovered segments = met ++ found :: rest) :
    found.block.start ∈ (Assembly.ofSegments s segments).value.dropped ↔
      s.Discards met found := by
  rw [Assembly.mem_dropped_iff]
  constructor
  · rintro ⟨block, drops, same⟩
    obtain ⟨before, children, after, split', -⟩ := id drops
    have listed : ⟨block, children⟩ ∈ discovered segments := by rw [split']; simp
    have listed' : found ∈ discovered segments := by rw [split]; simp
    obtain ⟨-, around, -, here⟩ := exists_place_of_mem_discovered listed
    obtain ⟨-, around', -, there⟩ := exists_place_of_mem_discovered listed'
    cases ordered.eq_of_start_eq here there same
    exact discards_of_drops ordered drops split
  · intro discards
    exact ⟨found.block, ⟨met, found.children, rest, split, discards⟩, rfl⟩

/-- A discovered block that declares a key that none before it declares is kept. -/
theorem keeps_of_first (ordered : Place.InOrder (places none segments))
    (split : discovered segments = met ++ found :: rest) (declared : s.declared? found = some table)
    (fresh : ¬ s.Declares met table.key) : s.Keeps segments (met ++ [found]) table := by
  have keeping := (Assembly.keeping_invariant s).ofSegments (Assembly.keeping_empty s) segments
  refine ⟨found, by simp, declared, ?_, keeping.kept met found rest table split declared fresh⟩
  intro dropped
  exact fresh (discards_iff.1 ((mem_dropped_iff_discards ordered split).1 dropped) table declared)

/-- A block that is dropped though it declares a table repeats the key of a kept one. -/
theorem keeps_of_dropped (ordered : Place.InOrder (places none segments))
    (split : discovered segments = met ++ found :: rest) (declared : s.declared? found = some table)
    (dropped : found.block.start ∈ (Assembly.ofSegments s segments).value.dropped) :
    ∃ kept, s.Keeps segments met kept ∧ kept.key = table.key := by
  have taken : s.Declares met table.key :=
    discards_iff.1 ((mem_dropped_iff_discards ordered split).1 dropped) table declared
  obtain ⟨before, first, after, kept, rfl, there, same, fresh⟩ := exists_first_of_declares taken
  rw [List.append_assoc, List.cons_append] at split
  refine ⟨kept, (keeps_of_first ordered split there (by rwa [same])).mono ?_, same⟩
  intro block listed
  simp only [List.mem_append, List.mem_cons, List.not_mem_nil, or_false] at listed ⊢
  exact listed.imp_right .inl

end Source

/-! ## Repeated tables -/

/-- A table block that declares a table and is dropped comes behind a block whose table is kept and
has the same key. This table has the same schema and the same name, or the name of one of the two
absorbs the end of the other's schema, so that names without dots are always told apart. -/
theorem drops_repeated_table {text : String} {database : Database}
    (parsed : parse text = .ok database) :
    ∃ s segments, Source.ofString text = .ok s ∧ s.scan = .ok segments ∧
      (s.assemble segments).value = database ∧
      ∀ met found rest table, discovered segments = met ++ found :: rest →
        s.declared? found = some table →
        found.block.start ∈ (Assembly.ofSegments s segments).value.dropped →
        ∃ kept, s.Keeps segments met kept ∧ kept.key = table.key ∧
          ((kept.schema = table.schema ∧ kept.name = table.name) ∨
            Absorbs kept.schema kept.name table.schema table.name ∨
            Absorbs table.schema table.name kept.schema kept.name) ∧
          ('.' ∉ kept.name.toList → '.' ∉ table.name.toList →
            kept.schema = table.schema ∧ kept.name = table.name) := by
  obtain ⟨s, segments, read, scanned, assembled⟩ := parse_eq_ok.1 parsed
  refine ⟨s, segments, read, scanned, assembled, ?_⟩
  intro met found rest table split declared dropped
  obtain ⟨kept, keeps, same⟩ :=
    Source.keeps_of_dropped (Source.inOrder_places scanned) split declared dropped
  exact ⟨kept, keeps, same, tableKey_eq_iff.1 same, eq_of_tableKey_eq same⟩

/-- A table with a schema, and one whose quoted name spells schema and name. -/
def dottedNameText : String :=
  "Table a.b \x7b\n x int\n\x7d\nTable \"a.b\" \x7b\n y int\n\x7d\n"

theorem drops_repeated_table_dottedName :
    ∃ database, parse dottedNameText = .ok database ∧
      database.tables.map (fun table => (table.schema, table.name)) = [(some "a", "b")] ∧
      ∃ s segments, Source.ofString dottedNameText = .ok s ∧ s.scan = .ok segments ∧
        (s.assemble segments).value = database ∧
        ∀ met found rest table, discovered segments = met ++ found :: rest →
          s.declared? found = some table →
          found.block.start ∈ (Assembly.ofSegments s segments).value.dropped →
          ∃ kept, s.Keeps segments met kept ∧ kept.key = table.key ∧
            ((kept.schema = table.schema ∧ kept.name = table.name) ∨
              Absorbs kept.schema kept.name table.schema table.name ∨
              Absorbs table.schema table.name kept.schema kept.name) ∧
            ('.' ∉ kept.name.toList → '.' ∉ table.name.toList →
              kept.schema = table.schema ∧ kept.name = table.name) := by
  have evaluated : (parse dottedNameText).toOption.map
      (·.tables.map fun table => (table.schema, table.name)) = some [(some "a", "b")] := by
    decide +kernel
  obtain ⟨database, read, tables⟩ := Option.map_eq_some_iff.1 evaluated
  have parsed := eq_ok_of_toOption read
  exact ⟨database, parsed, tables, drops_repeated_table parsed⟩

/-- The second of these tables is dropped, and no table before it has its schema and its name. -/
theorem not_drops_same_table :
    ¬ ∀ text database, parse text = .ok database → ∀ s segments, Source.ofString text = .ok s →
      s.scan = .ok segments → ∀ met found rest table, discovered segments = met ++ found :: rest →
        s.declared? found = some table →
        found.block.start ∈ (Assembly.ofSegments s segments).value.dropped →
        ∃ kept, s.Keeps segments met kept ∧ kept.schema = table.schema ∧
          kept.name = table.name := by
  intro always
  have evaluated : (Source.ofString dottedNameText).toOption.bind (fun s =>
      s.scan.toOption.map fun segments => (discovered segments).map fun found =>
        ((s.declared? found).map fun table => (table.schema, table.name),
          decide (found.block.start ∈ (Assembly.ofSegments s segments).value.dropped))) =
      some [(some (some "a", "b"), false), (some (none, "a.b"), true)] := by decide +kernel
  obtain ⟨s, read, evaluated⟩ := Option.bind_eq_some_iff.1 evaluated
  obtain ⟨segments, scanned, evaluated⟩ := Option.map_eq_some_iff.1 evaluated
  obtain ⟨first, others, split, declaredFirst, evaluated⟩ := List.map_eq_cons_iff.1 evaluated
  obtain ⟨second, none, rfl, declaredSecond, ended⟩ := List.map_eq_cons_iff.1 evaluated
  cases List.map_eq_nil_iff.1 ended
  rw [Prod.mk.injEq, decide_eq_true_eq] at declaredSecond
  obtain ⟨named, dropped⟩ := declaredSecond
  obtain ⟨table, declared, spelled⟩ := Option.map_eq_some_iff.1 named
  obtain ⟨kept, ⟨earlier, listed, there, -⟩, schema, name⟩ :=
    always dottedNameText _ (parse_eq_ok.2 ⟨s, segments, eq_ok_of_toOption read,
      eq_ok_of_toOption scanned, rfl⟩) s segments (eq_ok_of_toOption read)
      (eq_ok_of_toOption scanned) [first] second [] table split declared dropped
  rw [List.mem_singleton.1 listed] at there
  rw [there, Option.map_some, schema, name, spelled] at declaredFirst
  cases declaredFirst

end Dbml
