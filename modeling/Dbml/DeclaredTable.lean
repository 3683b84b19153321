import Dbml.Color
import Dbml.DeclaredColumn
import Dbml.DeclaredIndex
import Dbml.Note

/-!
# Declared tables

What one `Table` block declares, before its group and its colour are settled: columns, indexes,
notes, and the relationships of columns that refer to others.
-/

namespace Dbml

structure DeclaredTable where
  name : String
  schema : Option String
  aliasName : Option String
  columns : List Column := []
  indexes : List Index := []
  note : Option String := none
  headerColor : Option String := none
  color : Option String := none
  /-- The relationships of the columns, in their order. -/
  relationships : List Relationship := []
  deriving DecidableEq, Repr

structure TableSettings where
  headerColor : Option String := none
  color : Option String := none
  note : Option String := none

namespace DeclaredTable

def key (table : DeclaredTable) : String :=
  tableKey table.schema table.name

/-- The table as a member of a group with the id and colour, or of none. Its own colours go before
the group's. -/
def finish (table : DeclaredTable) (groupId groupColor : Option String) : Table :=
  { name := table.name
    schema := table.schema
    aliasName := table.aliasName
    columns := table.columns
    indexes := table.indexes
    note := table.note
    groupId
    color := Color.resolve [table.headerColor, table.color] groupColor table.key }

/-- Makes the columns that the index names primary keys, when the index is one. -/
def markKeys (table : DeclaredTable) (index : Index) : DeclaredTable :=
  if index.pk then
    { table with
      columns := table.columns.map fun column =>
        if index.columns.contains column.name then { column with pk := true } else column }
  else table

/-- The table with one more index. Columns declared later are not made primary keys by it. -/
def addIndex (table : DeclaredTable) (index : Index) : DeclaredTable :=
  { table.markKeys index with indexes := table.indexes ++ [index] }

end DeclaredTable

namespace Source

/-! ## Bodies -/

/-- The table with the indexes of an `indexes` block; blocks inside it are passed over. -/
def addIndexes (s : Source) (table : DeclaredTable) : List Segment → Noted DeclaredTable
  | [] => pure table
  | .line line :: rest => do
    let index ← s.index? line
    s.addIndexes (index.elim table table.addIndex) rest
  | .block _ _ :: rest => s.addIndexes table rest

/-- The settings with one more; of two of one key the last one counts. -/
def applyTableSetting (s : Source) (settings : TableSettings) : Setting → Noted TableSettings
  | .pair key value position =>
    match key with
    | "headercolor" => pure { settings with headerColor := s.colorText value }
    | "color" => pure { settings with color := s.colorText value }
    | "note" => pure { settings with note := s.quotedText value }
    | _ => do
      Noted.note position (.unknownTableSetting key)
      return settings
  | .flag words position => do
    Noted.note position (.unknownTableSetting words)
    return settings
  | .invalid position => do
    Noted.note position .malformedTableSetting
    return settings

/-- The table with what one line of its body declares. References are left to the document. -/
def applyTableLine (s : Source) (table : DeclaredTable) (line : TokenRange) :
    Noted DeclaredTable :=
  match s.noteLine? line with
  | some (some note) => pure { table with note := some note }
  | some none => do
    Noted.note line.start .unquotedTableNote
    return table
  | none =>
    if (s.shortForm? line).isSome then pure table
    else do
      match ← s.column? table.key line with
      | some declared =>
        return { table with
          columns := table.columns ++ [declared.column]
          relationships := table.relationships ++ declared.relationship.toList }
      | none =>
        Noted.note line.start .unknownTableLine
        return table

/-- The table with what one segment of its body declares. -/
def applyTableSegment (s : Source) (table : DeclaredTable) : Segment → Noted DeclaredTable
  | .line line => s.applyTableLine table line
  | .block block children =>
    match block.kind with
    | .note => pure { table with note := (s.blockNote block).or table.note }
    | .indexes => s.addIndexes table children
    | kind => do
      Noted.note block.start (.unexpectedInTable kind table.key)
      return table

/-- The schema and the name of a table: the last segment is the name, the others the schema. -/
def tableName? (header : Header) : Option (Option String × String) :=
  header.nameParts.getLast?.map fun name =>
    let schema := header.nameParts.dropLast
    (if schema.isEmpty then none else some (".".intercalate schema), name)

/-- Whether nothing at all stands between the braces of a block. -/
def hasEmptyBody (s : Source) (block : Block) : Bool :=
  match s.span? block.opening, s.span? block.closing with
  | some opening, some closing => opening.stop == closing.start
  | _, _ => true

/-- The table that a block declares: none when it has no name or an empty body. -/
def declaredTable (s : Source) (block : Block) (children : List Segment) :
    Noted (Option DeclaredTable) :=
  match tableName? block.header with
  | none => do
    Noted.note block.start .unnamedTable
    return none
  | some (schema, name) =>
    if s.hasEmptyBody block then do
      Noted.note block.start (.emptyTable name)
      return none
    else do
      let given ← (block.header.settings.elim [] s.settings).foldlM s.applyTableSetting {}
      let table : DeclaredTable :=
        { name, schema, aliasName := block.header.aliasName,
          headerColor := given.headerColor, color := given.color }
      let table ← children.foldlM s.applyTableSegment table
      return some { table with note := table.note.or given.note }

end Source

end Dbml
