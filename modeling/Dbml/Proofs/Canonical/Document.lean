import Dbml.Color
import Dbml.Model
import Dbml.Proofs.Token.Spelling

/-!
# Canonical documents

Tables and groups of tables in one fixed layout: a statement a line, and every name, type and value
as a quoted literal. `render` gives the text of a canonical document and `database` what it is to be
read as.
-/

namespace Dbml.Canonical

/-! ## Contents -/

/-- The column that a reference points at. -/
structure Target where
  schema : Option String
  table : String
  column : String
  deriving DecidableEq, Repr

structure Column where
  name : String
  type : String
  pk : Bool := false
  unique : Bool := false
  notNull : Bool := false
  increment : Bool := false
  defaultValue : Option String := none
  note : Option String := none
  reference : Option (RelationKind × Target) := none
  deriving DecidableEq, Repr

structure Table where
  schema : Option String
  name : String
  note : Option String := none
  columns : List Column := []
  deriving DecidableEq, Repr

/-- What stands at the top level of a document. -/
inductive Item
  | table (table : Table)
  | group (name : String) (tables : List Table)
  deriving DecidableEq, Repr

/-! ## Layout -/

/-- A text between double quotes. -/
def literal (text : String) : String :=
  "\"" ++ String.ofList (Token.escape '"' text.toList) ++ "\""

def dotted (names : List String) : String :=
  ".".intercalate (names.map literal)

def Target.names (target : Target) : List String :=
  target.schema.toList ++ [target.table, target.column]

def Target.text (target : Target) : String :=
  dotted target.names

inductive Setting
  | pk
  | unique
  | notNull
  | increment
  | default (text : String)
  | note (text : String)
  | ref (kind : RelationKind) (target : Target)

def Setting.text : Setting → String
  | .pk => "pk"
  | .unique => "unique"
  | .notNull => "not null"
  | .increment => "increment"
  | .default text => "default: " ++ literal text
  | .note text => "note: " ++ literal text
  | .ref kind target => "ref: " ++ kind.operator ++ " " ++ target.text

def Column.settings (column : Column) : List Setting :=
  (if column.pk then [.pk] else []) ++ (if column.unique then [.unique] else []) ++
  (if column.notNull then [.notNull] else []) ++ (if column.increment then [.increment] else []) ++
  column.defaultValue.toList.map .default ++ column.note.toList.map .note ++
  column.reference.toList.map fun reference => .ref reference.1 reference.2

/-- A list of settings in its brackets; no brackets when there are none. -/
def bracketed : List Setting → String
  | [] => ""
  | setting :: rest => " [" ++ ", ".intercalate ((setting :: rest).map Setting.text) ++ "]"

inductive Line
  | note (text : String)
  | column (column : Column)

def Line.text : Line → String
  | .note text => "Note: " ++ literal text
  | .column c => literal c.name ++ " " ++ literal c.type ++ bracketed c.settings

namespace Table

def names (table : Table) : List String :=
  table.schema.toList ++ [table.name]

def lines (table : Table) : List Line :=
  table.note.toList.map .note ++ table.columns.map .column

def text (table : Table) : String :=
  "Table " ++ dotted table.names ++ " \x7b\n" ++
    String.join (table.lines.map fun line => line.text ++ "\n") ++ "\x7d\n"

end Table

def Item.text : Item → String
  | .table t => t.text
  | .group name tables =>
    "TableGroup " ++ literal name ++ " \x7b\n" ++ String.join (tables.map Table.text) ++ "\x7d\n"

def render (items : List Item) : String :=
  String.join (items.map Item.text)

/-! ## Meaning -/

/-- The key of the table that a target names; the default schema is left out of it. -/
def Target.key (target : Target) : String :=
  match target.schema with
  | some schema =>
    if schema = "" ∨ schema = "public" then target.table else tableKey (some schema) target.table
  | none => target.table

def Column.value (column : Column) : Dbml.Column :=
  { name := column.name
    type := column.type
    pk := column.pk
    unique := column.unique
    notNull := column.notNull
    increment := column.increment
    defaultValue := column.defaultValue
    note := column.note
    reference := column.reference.map (·.2.text) }

/-- The relationship that a column of the table with the key makes. -/
def Column.relationship? (column : Column) (table : String) : Option Relationship :=
  column.reference.map fun (kind, target) =>
    { fromTable := table, fromColumn := column.name, toTable := target.key,
      toColumn := target.column, kind }

namespace Table

def key (table : Table) : String :=
  tableKey table.schema table.name

/-- The table as a member of the group with the name, or of none. -/
def value (table : Table) (group : Option String) : Dbml.Table :=
  { name := table.name
    schema := table.schema
    aliasName := none
    columns := table.columns.map Column.value
    indexes := []
    note := table.note
    groupId := group.map groupId
    color := Color.ofName (group.getD table.key) }

def relationships (table : Table) : List Relationship :=
  table.columns.flatMap fun column => (column.relationship? table.key).toList

end Table

namespace Item

/-- The tables of a group, with its name. -/
def grouped : Item → List (Option String × Table)
  | .table _ => []
  | .group name tables => tables.map (some name, ·)

/-- The table that stands in no group. -/
def loose : Item → List (Option String × Table)
  | .table t => [(none, t)]
  | .group _ _ => []

def groups : Item → List TableGroup
  | .table _ => []
  | .group name tables =>
    [{ id := groupId name, name, note := none, color := Color.ofName name,
       tables := tables.map Table.key }]

end Item

/-- The tables in the order they are found in: those of groups come first. -/
def members (items : List Item) : List (Option String × Table) :=
  items.flatMap Item.grouped ++ items.flatMap Item.loose

def keys (found : List (Option String × Table)) : List String :=
  found.map fun (_, table) => table.key

/-- The database that a canonical document declares. -/
def database (items : List Item) : Database :=
  { tables := (members items).map fun (group, table) => table.value group
    relationships := (members items).flatMap fun (_, table) => table.relationships
    tableGroups := items.flatMap Item.groups
    project := none }

/-- No two tables have the same key, and no two groups the same id. -/
structure Distinct (items : List Item) : Prop where
  keys : (keys (members items)).Nodup
  ids : ((items.flatMap Item.groups).map (·.id)).Nodup

end Dbml.Canonical
