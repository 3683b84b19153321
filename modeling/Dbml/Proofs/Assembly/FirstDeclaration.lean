import Dbml.Proofs.Assembly.Ownership
import Dbml.Proofs.Document.Parse
import Dbml.Proofs.Source.Contents
import Mathlib.Data.List.Forall2
import Mathlib.Data.List.Induction

/-!
# The first declaration of a key

The tables of a database are the declarations of its document that no earlier one takes the key of,
in the order of discovery and as they are declared. Main statement: `tables_first_declared`.
-/

namespace Dbml

namespace Declaration

/-- The declarations whose key does not occur earlier. -/
def unprecedented (declarations : List Declaration) : List Declaration :=
  (declarations.zipIdx.filter fun numbered =>
    !(declarations.take numbered.2).any (·.key == numbered.1.key)).map (·.1)

theorem unprecedented_concat (earlier : List Declaration) (last : Declaration) :
    unprecedented (earlier ++ [last]) =
      unprecedented earlier ++ if earlier.any (·.key == last.key) then [] else [last] := by
  have kept : ∀ numbered ∈ earlier.zipIdx,
      (!((earlier ++ [last]).take numbered.2).any (·.key == numbered.1.key)) =
        !(earlier.take numbered.2).any (·.key == numbered.1.key) := by
    intro numbered listed
    have bound := (List.mem_zipIdx listed).2.1
    rw [Nat.zero_add] at bound
    rw [List.take_append_of_le_length (Nat.le_of_lt bound)]
  have own : ([(last, earlier.length)].filter fun numbered =>
      !((earlier ++ [last]).take numbered.2).any (·.key == numbered.1.key)).map (·.1) =
      if earlier.any (·.key == last.key) then [] else [last] := by
    rw [List.filter_singleton, List.take_left]
    cases earlier.any (·.key == last.key) <;> rfl
  rw [unprecedented, List.zipIdx_append, List.zipIdx_singleton, Nat.zero_add, List.filter_append,
    List.map_append, List.filter_congr kept, own]
  rfl

theorem any_firsts (declarations : List Declaration) (key : String) :
    (firsts declarations).any (·.key == key) = declarations.any (·.key == key) := by
  rw [← List.isSome_find?, ← List.isSome_find?, find?_firsts]

/-- Keeping the first of each key one after another keeps those whose key does not occur earlier. -/
theorem firsts_eq_unprecedented (declarations : List Declaration) :
    firsts declarations = unprecedented declarations := by
  induction declarations using List.reverseRecOn with
  | nil => rfl
  | append_singleton earlier last ih =>
    rw [firsts_concat, keep, any_firsts, ih, unprecedented_concat]
    cases earlier.any (·.key == last.key) <;> simp

end Declaration

/-- The table is the declared one, whatever its group and its colour. -/
structure DeclaredTable.Describes (declared : DeclaredTable) (table : Table) : Prop where
  name : table.name = declared.name
  schema : table.schema = declared.schema
  aliasName : table.aliasName = declared.aliasName
  columns : table.columns = declared.columns
  indexes : table.indexes = declared.indexes
  note : table.note = declared.note

theorem Assembly.describes_settle (a : Assembly) (declaration : Declaration) :
    declaration.table.Describes (a.settle declaration) :=
  ⟨rfl, rfl, rfl, rfl, rfl, rfl⟩

variable {text : String} {database : Database}

/-- The tables are the declarations whose key does not occur earlier in the order of discovery, so
that no two of them have the same key. -/
theorem tables_first_declared (parsed : parse text = .ok database) :
    ∃ s segments, Source.ofString text = .ok s ∧ s.scan = .ok segments ∧
      List.Forall₂ (fun declaration table => declaration.table.Describes table)
        (Declaration.unprecedented (s.declarations segments)) database.tables ∧
      database.tables.Pairwise fun a b => a.key ≠ b.key := by
  obtain ⟨s, segments, read, scanned, rfl⟩ := parse_eq_ok.1 parsed
  have consistent := Assembly.consistent_ofSegments s segments
  have settled : (s.assemble segments).value.tables =
      (Declaration.firsts (s.declarations segments)).map
        (Assembly.ofSegments s segments).value.settle := consistent.tables
  refine ⟨s, segments, read, scanned, ?_, ?_⟩
  · rw [settled, ← Declaration.firsts_eq_unprecedented, List.forall₂_map_right_iff,
      List.forall₂_same]
    exact fun declaration _ => Assembly.describes_settle _ declaration
  · rw [settled, List.pairwise_map]
    exact Declaration.pairwise_firsts (s.declarations segments)

/-- A group with two tables of one key, a table with this key outside of it, one without a name, and
one with a key of its own in front of them all. -/
def repeatedTablesText : String :=
  "Table b \x7b u int [pk] \x7d\nTableGroup g \x7b\nTable a \x7b v int \x7d\n" ++
  "Table a \x7b w int \x7d\n\x7d\nTable a \x7b x int \x7d\nTable \x7b y int \x7d\n"

theorem tables_first_declared_repeatedTables :
    ∃ database, parse repeatedTablesText = .ok database ∧
      database.tables.map (fun table => (table.key, table.columns.map (·.name))) =
        [("a", ["v"]), ("b", ["u"])] ∧
      ∃ s segments, Source.ofString repeatedTablesText = .ok s ∧ s.scan = .ok segments ∧
        List.Forall₂ (fun declaration table => declaration.table.Describes table)
          (Declaration.unprecedented (s.declarations segments)) database.tables ∧
        database.tables.Pairwise fun a b => a.key ≠ b.key := by
  have evaluated : (parse repeatedTablesText).toOption.map
      (·.tables.map fun table => (table.key, table.columns.map (·.name))) =
      some [("a", ["v"]), ("b", ["u"])] := by decide +kernel
  obtain ⟨database, read, tables⟩ := Option.map_eq_some_iff.1 evaluated
  have parsed := eq_ok_of_toOption read
  exact ⟨database, parsed, tables, tables_first_declared parsed⟩

end Dbml
