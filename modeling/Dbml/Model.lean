import Dbml.RelationKind
import Dbml.Text.Lowercase

/-!
# The database model

What a document declares: tables with their columns and indexes, relationships between columns,
groups of tables and a project.
-/

namespace Dbml

structure Column where
  name : String
  type : String
  pk : Bool := false
  unique : Bool := false
  notNull : Bool := false
  increment : Bool := false
  defaultValue : Option String := none
  note : Option String := none
  /-- The target of the column's own reference as it is written. -/
  reference : Option String := none
  deriving DecidableEq, Repr, Inhabited

structure Index where
  columns : List String
  unique : Bool := false
  pk : Bool := false
  name : Option String := none
  type : Option String := none
  note : Option String := none
  deriving DecidableEq, Repr, Inhabited

/-- The name by which a table is told from the others. -/
def tableKey (schema : Option String) (name : String) : String :=
  match schema with
  | some schema => s!"{schema}.{name}"
  | none => name

structure Table where
  name : String
  schema : Option String
  aliasName : Option String
  columns : List Column
  indexes : List Index
  note : Option String
  /-- The group the table belongs to. -/
  groupId : Option String
  color : String
  deriving DecidableEq, Repr, Inhabited

namespace Table

def key (table : Table) : String :=
  tableKey table.schema table.name

/-- The first column of the name. -/
def column? (table : Table) (name : String) : Option Column :=
  table.columns.find? (·.name == name)

end Table

structure Relationship where
  fromTable : String
  fromColumn : String
  toTable : String
  toColumn : String
  kind : RelationKind
  name : Option String := none
  onDelete : Option String := none
  onUpdate : Option String := none
  deriving DecidableEq, Repr, Inhabited

structure TableGroup where
  id : String
  name : String
  note : Option String
  color : String
  /-- The keys of the members, in the order they were claimed in. -/
  tables : List String
  deriving DecidableEq, Repr, Inhabited

def groupId (name : String) : String :=
  "group_" ++ Text.lower name

structure Project where
  name : String
  databaseType : Option String := none
  note : Option String := none
  deriving DecidableEq, Repr, Inhabited

structure Database where
  tables : List Table
  relationships : List Relationship
  tableGroups : List TableGroup
  project : Option Project
  deriving DecidableEq, Repr, Inhabited

namespace Database

/-- The first table with the key. -/
def table? (database : Database) (key : String) : Option Table :=
  database.tables.find? (·.key == key)

/-- The first group with the id. -/
def group? (database : Database) (id : String) : Option TableGroup :=
  database.tableGroups.find? (·.id == id)

end Database

end Dbml
