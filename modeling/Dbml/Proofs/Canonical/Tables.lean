import Dbml.Proofs.Canonical.Columns
import Dbml.Statement

/-!
# The tables of a canonical document

The lines of a table's body are read one after another; what the block declares is the table that
was written, and no line is a statement of its own. Main statement: `declaredTable_of_in`.
-/

namespace Dbml.Canonical

open Source
open Token (Written)

variable {s : Source} {i : Nat}

/-! ## Lines -/

/-- What a line does to the table it stands in. -/
def Line.apply (table : DeclaredTable) : Line → DeclaredTable
  | .note text => { table with note := some text }
  | .column c =>
    { table with
      columns := table.columns ++ [c.value]
      relationships := table.relationships ++ (c.relationship? table.key).toList }

theorem noteLine?_of_reads {text : String}
    (reads : s.Reads i [.ident "Note", .mark .colon, .str text]) :
    s.noteLine? ⟨i, i + 3⟩ = some (some text) := by
  have keyword : s.isKeyword i "Note" = true := by rw [isKeyword_of_token? reads.1]; decide
  have colon : s.isMark (i + 1) .colon = true := isMark_iff_token?.2 reads.2.1
  have quoted : s.quotedText ⟨i + 2, i + 3⟩ = some text := quotedText_of_reads reads.2.2
  rw [noteLine?, if_pos ⟨keyword, by simp [TokenRange.size], colon⟩]
  exact congrArg some quoted

/-- A line of a table is no reference. -/
theorem Line.shortForm?_eq_none (line : Line) (writes : s.Writes i line.written) {stop : Nat} :
    s.shortForm? ⟨i, stop⟩ = none := by
  have reads := reads_of_writes writes
  cases line with
  | note text => rw [shortForm?, isKeyword_of_token? reads.1, if_neg (by decide)]
  | column c => rw [shortForm?, isKeyword_of_token? reads.1, if_neg (by simp [lit, Token.isKeyword])]

theorem Line.apply_of_in {line : Line} {segment : Segment} (related : line.In s segment)
    (table : DeclaredTable) : s.applyTableSegment table segment = pure (line.apply table) := by
  obtain ⟨i, writes, rfl⟩ := related
  have reads := reads_of_writes writes
  cases line with
  | note text =>
    have note : s.noteLine? ⟨i, i + (Line.note text).written.length⟩ = some (some text) :=
      noteLine?_of_reads reads
    rw [applyTableSegment, applyTableLine, note]
    rfl
  | column c =>
    have other : s.noteLine? ⟨i, i + (Line.column c).written.length⟩ = none := by
      rw [noteLine?, isKeyword_of_token? reads.1, if_neg (by simp [lit, Token.isKeyword])]
    rw [applyTableSegment, applyTableLine, other]
    simp only [shortForm?_eq_none _ writes, column?_of_writes c table.key writes]
    rfl

/-! ## Tables -/

/-- What the block of a table declares. -/
def Table.declared (table : Table) : DeclaredTable :=
  { name := table.name
    schema := table.schema
    aliasName := none
    columns := table.columns.map Column.value
    note := table.note
    relationships := table.relationships }

theorem foldl_columns (columns : List Column) (table : DeclaredTable) :
    (columns.map Line.column).foldl Line.apply table =
      { table with
        columns := table.columns ++ columns.map Column.value
        relationships := table.relationships ++
          columns.flatMap fun column => (column.relationship? table.key).toList } := by
  induction columns generalizing table with
  | nil => simp
  | cons column columns ih =>
    have key : (Line.apply table (.column column)).key = table.key := rfl
    rw [List.map_cons, List.foldl_cons, ih, key]
    simp [Line.apply]

theorem foldl_lines (table : Table) :
    table.lines.foldl Line.apply
      { name := table.name, schema := table.schema, aliasName := none } = table.declared := by
  rw [Table.lines, List.foldl_append, foldl_columns]
  cases given : table.note with
  | none => simp [Table.declared, Table.relationships, DeclaredTable.key, Table.key, given]
  | some text =>
    simp [Line.apply, Table.declared, Table.relationships, DeclaredTable.key, Table.key, given]

theorem foldlM_lines {lines : List Line} {children : List Segment}
    (related : List.Forall₂ (Line.In s) lines children) (table : DeclaredTable) :
    children.foldlM s.applyTableSegment table = pure (lines.foldl Line.apply table) := by
  induction related generalizing table with
  | nil => rfl
  | cons here _ ih =>
    rw [List.foldlM_cons, Line.apply_of_in here, pure_bind, List.foldl_cons]
    exact ih _

theorem tableName?_names (table : Table) :
    tableName? ⟨table.names, none, none⟩ = some (table.schema, table.name) := by
  rcases table with ⟨schema, name, note, columns⟩
  cases schema <;> simp [tableName?, Table.names]

/-- The block of a table declares it, and nothing is found wrong. -/
theorem declaredTable_of_in {table : Table} {block : Block} {children : List Segment}
    (header : block.header = ⟨table.names, none, none⟩) (body : s.hasEmptyBody block = false)
    (lines : List.Forall₂ (Line.In s) table.lines children) :
    s.declaredTable block children = pure (some table.declared) := by
  rw [declaredTable, header, tableName?_names]
  simp only [body, Option.elim_none, List.foldlM_nil, pure_bind, Bool.false_eq_true, if_false]
  rw [foldlM_lines lines, foldl_lines, pure_bind]
  simp [Table.declared]

/-! ## Statements -/

theorem statements_lines {lines : List Line} {children : List Segment}
    (related : List.Forall₂ (Line.In s) lines children) :
    s.statements [] false children = [] := by
  induction related with
  | nil => rw [statements]
  | @cons line _ _ _ here _ ih =>
    obtain ⟨i, writes, rfl⟩ := here
    rw [statements, segmentStatements, lineStatement, line.shortForm?_eq_none writes, ih]
    rfl

theorem statements_table {table : Table} {segment : Segment} (related : table.In s segment)
    (topLevel : Bool) (rest : List Segment) :
    s.statements [] topLevel (segment :: rest) = s.statements [] topLevel rest := by
  obtain ⟨block, children, rfl, kind, -, -, lines⟩ := related
  rw [statements, segmentStatements, kind]
  simp [statements_lines lines]

theorem statements_tables {tables : List Table} {segments : List Segment}
    (related : List.Forall₂ (Table.In s) tables segments) :
    s.statements [] false segments = [] := by
  induction related with
  | nil => rw [statements]
  | cons here _ ih => rw [statements_table here, ih]

/-- No reference stands on its own in a canonical document. -/
theorem statements_items {items : List Item} {segments : List Segment}
    (related : List.Forall₂ (Item.In s) items segments) : s.statements [] true segments = [] := by
  induction related with
  | nil => rw [statements]
  | @cons item segment _ rest here _ ih =>
    cases item with
    | table t => rw [statements_table here, ih]
    | group name tables =>
      obtain ⟨block, children, rfl, kind, -, members⟩ := here
      rw [statements, segmentStatements, kind, ih]
      simp [statements_tables members]

end Dbml.Canonical
