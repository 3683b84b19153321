import Dbml.Proofs.Assembly.Kept
import Dbml.Proofs.Document.Parse
import Dbml.Proofs.Source.Contents
import Dbml.Proofs.Table.Keys

/-!
# The primary keys of a database

An index that is a primary key makes the columns it names primary keys while the body of its table
is read, so it reaches the columns declared before it and no others. Main statement: `keys_settled`;
a column behind its key is `key_overlooked`.
-/

namespace Dbml

open BodyItem

/-- Every column that a primary key of the table names is a primary key. -/
def Table.HonorsKeys (table : Table) : Prop :=
  ∀ index ∈ table.indexes, index.pk = true →
    ∀ column ∈ table.columns, column.name ∈ index.columns → column.pk = true

instance (table : Table) : Decidable table.HonorsKeys :=
  inferInstanceAs (Decidable (∀ index ∈ table.indexes, index.pk = true →
    ∀ column ∈ table.columns, column.name ∈ index.columns → column.pk = true))

namespace Source

/-- The columns and the indexes of the table are those of its body: each column a primary key by its
own settings or by an index behind it. -/
structure KeysTable (s : Source) (sited : SitedTable) (table : Table) : Prop where
  describes : sited.table.Describes table
  columns : table.columns = keyedColumns (s.bodyItems sited.key sited.site.children)
  indexes : table.indexes = indexes (s.bodyItems sited.key sited.site.children)
  /-- A primary key reaches all columns it names in front of it. -/
  marked : ∀ before index after,
    s.bodyItems sited.key sited.site.children = before ++ .index index :: after →
    index.pk = true → ∀ column ∈ table.columns.take (before.filterMap BodyItem.column?).length,
      column.name ∈ index.columns → column.pk = true
  /-- The columns behind a primary key are all that it may miss. -/
  honors_iff : table.HonorsKeys ↔ ∀ before index after,
    s.bodyItems sited.key sited.site.children = before ++ .index index :: after →
    index.pk = true → ∀ column ∈ keyedColumns after,
      column.name ∈ index.columns → column.pk = true

theorem keysTable_of_describes {s : Source} {sited : SitedTable} {table : Table}
    (declared : s.declared? sited.site.toTableBlock = some sited.table)
    (describes : sited.table.Describes table) : s.KeysTable sited table := by
  have keys := keys_of_declaredTable declared
  have columns : table.columns = keyedColumns (s.bodyItems sited.key sited.site.children) :=
    describes.columns.trans keys.1
  have indexes : table.indexes = indexes (s.bodyItems sited.key sited.site.children) :=
    describes.indexes.trans keys.2
  refine ⟨describes, columns, indexes, ?_, ?_⟩
  · intro before index after split pk column declared named
    rw [columns, split] at declared
    exact pk_of_declared_before pk declared named
  · rw [Table.HonorsKeys, columns, indexes]
    exact pk_iff_declared_behind _

theorem keysTable_assemble (s : Source) (segments : List Segment) :
    List.Forall₂ s.KeysTable (s.keptTables segments) (s.assemble segments).value.tables :=
  Assembly.forall₂_keptTables s segments fun _ _ => keysTable_of_describes

end Source

variable {text : String} {database : Database}

/-- Every table has the columns and the indexes of its body. A column is a primary key by its own
settings or by an index behind it that is one and names it; so all columns that primary keys name
are primary keys exactly when this holds of those behind the keys. -/
theorem keys_settled (parsed : parse text = .ok database) :
    ∃ s segments, Source.ofString text = .ok s ∧ s.scan = .ok segments ∧
      List.Forall₂ s.KeysTable (s.keptTables segments) database.tables := by
  obtain ⟨s, segments, read, scanned, rfl⟩ := parse_eq_ok.1 parsed
  exact ⟨s, segments, read, scanned, s.keysTable_assemble segments⟩

/-- A primary key between the two columns that it names, one of which is declared twice, and one
behind both. -/
def keyedText : String :=
  "Table t \x7b\na int\na text\nindexes \x7b\n(a, b) [pk]\n\x7d\nb int\n\x7d\n" ++
  "Table u \x7b\na int\nb int\nindexes \x7b\nb [unique]\n\x7d\nindexes \x7b\n(a, b) [pk]\n\x7d\n\x7d\n"

theorem keys_settled_keyedText :
    ∃ database, parse keyedText = .ok database ∧
      database.tables.map (·.columns.map (·.pk)) = [[true, true, false], [true, true]] ∧
      ∃ s segments, Source.ofString keyedText = .ok s ∧ s.scan = .ok segments ∧
        List.Forall₂ s.KeysTable (s.keptTables segments) database.tables := by
  have evaluated : (parse keyedText).toOption.map (·.tables.map (·.columns.map (·.pk))) =
      some [[true, true, false], [true, true]] := by
    decide +kernel
  obtain ⟨database, read, marks⟩ := Option.map_eq_some_iff.1 evaluated
  have parsed := eq_ok_of_toOption read
  exact ⟨database, parsed, marks, keys_settled parsed⟩

/-- A primary key in front of the column that it names. -/
def lateColumnText : String :=
  "Table t \x7b\n indexes \x7b\n  id [pk]\n \x7d\n id int\n\x7d\n"

/-- The primary key has overlooked the column that it names. -/
theorem key_overlooked :
    ∃ database, parse lateColumnText = .ok database ∧
      ¬ ∀ table ∈ database.tables, table.HonorsKeys := by
  have evaluated : (parse lateColumnText).toOption.any
      (fun database => decide (¬ ∀ table ∈ database.tables, table.HonorsKeys)) = true := by
    decide +kernel
  obtain ⟨database, read, overlooked⟩ := (Option.any_eq_true _ _).1 evaluated
  exact ⟨database, eq_ok_of_toOption read, of_decide_eq_true overlooked⟩

end Dbml
