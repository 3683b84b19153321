import Dbml.Document
import Dbml.Json.Codec

/-!
# The model as JSON

How the parts of a database, diagnostics and reports are written as JSON and read back.
-/

namespace Dbml

open Json Json.Codec

def Column.codec : Codec Column :=
  record
    (.more (required "name" string) <| .more (required "type" string) <|
      .more (required "pk" bool) <| .more (required "unique" bool) <|
      .more (required "notNull" bool) <|
      .more { required "increment" bool with missing := some false } <|
      .more (optional "defaultValue" string) <| .more (optional "note" string) <|
      .more (optional "ref" string) .none)
    (fun c => (c.name, c.type, c.pk, c.unique, c.notNull, c.increment, c.defaultValue, c.note,
      c.reference, ()))
    fun (name, type, pk, unique, notNull, increment, defaultValue, note, reference, _) =>
      { name, type, pk, unique, notNull, increment, defaultValue, note, reference }

def Index.codec : Codec Index :=
  record
    (.more (required "columns" string.list) <| .more (required "unique" bool) <|
      .more (required "pk" bool) <| .more (optional "name" string) <|
      .more (optional "type" string) <| .more (optional "note" string) .none)
    (fun i => (i.columns, i.unique, i.pk, i.name, i.type, i.note, ()))
    fun (columns, unique, pk, name, type, note, _) => { columns, unique, pk, name, type, note }

def Table.codec : Codec Table :=
  record
    (.more (required "name" string) <| .more (optional "schema" string) <|
      .more (optional "alias" string) <| .more (required "columns" Column.codec.list) <|
      .more { required "indexes" Index.codec.list with
        missing := some [], isOmitted := List.isEmpty } <|
      .more (optional "note" string) <| .more (optional "groupId" string) <|
      .more (required "color" string) .none)
    (fun t => (t.name, t.schema, t.aliasName, t.columns, t.indexes, t.note, t.groupId, t.color, ()))
    fun (name, schema, aliasName, columns, indexes, note, groupId, color, _) =>
      { name, schema, aliasName, columns, indexes, note, groupId, color }

/-- How a kind of relationship is written: as its operator. -/
def RelationKind.codec : Codec RelationKind :=
  named RelationKind.operator RelationKind.ofOperator?

def Relationship.codec : Codec Relationship :=
  record
    (.more (required "fromTable" string) <| .more (required "fromColumn" string) <|
      .more (required "toTable" string) <| .more (required "toColumn" string) <|
      .more (required "type" RelationKind.codec) <| .more (optional "name" string) <|
      .more (optional "onDelete" string) <| .more (optional "onUpdate" string) .none)
    (fun r => (r.fromTable, r.fromColumn, r.toTable, r.toColumn, r.kind, r.name, r.onDelete,
      r.onUpdate, ()))
    fun (fromTable, fromColumn, toTable, toColumn, kind, name, onDelete, onUpdate, _) =>
      { fromTable, fromColumn, toTable, toColumn, kind, name, onDelete, onUpdate }

def TableGroup.codec : Codec TableGroup :=
  record
    (.more (required "id" string) <| .more (required "name" string) <|
      .more (optional "note" string) <| .more (required "color" string) <|
      .more (required "tables" string.list) .none)
    (fun g => (g.id, g.name, g.note, g.color, g.tables, ()))
    fun (id, name, note, color, tables, _) => { id, name, note, color, tables }

def Project.codec : Codec Project :=
  record
    (.more (required "name" string) <| .more (optional "databaseType" string) <|
      .more (optional "note" string) .none)
    (fun p => (p.name, p.databaseType, p.note, ()))
    fun (name, databaseType, note, _) => { name, databaseType, note }

def Database.members :
    Members (List Table × List Relationship × List TableGroup × Option Project × Unit) :=
  .more (required "tables" Table.codec.list) <|
    .more (required "relationships" Relationship.codec.list) <|
    .more (required "tableGroups" TableGroup.codec.list) <|
    .more (optional "project" Project.codec) .none

def Database.values (d : Database) :
    List Table × List Relationship × List TableGroup × Option Project × Unit :=
  (d.tables, d.relationships, d.tableGroups, d.project, ())

def Database.codec : Codec Database :=
  record Database.members Database.values
    fun (tables, relationships, tableGroups, project, _) =>
      { tables, relationships, tableGroups, project }

def Location.codec : Codec Location :=
  record (.more (required "line" count) <| .more (required "column" count) .none)
    (fun l => (l.line, l.column, ()))
    fun (line, column, _) => { line, column }

def Diagnostic.codec : Codec Diagnostic :=
  record (.more (required "location" Location.codec) <| .more (required "reason" string) .none)
    (fun d => (d.location, d.reason, ()))
    fun (location, reason, _) => { location, reason }

/-- A report as JSON: the members of its database, and then the diagnostics. -/
def Report.toJson (report : Report) : Json :=
  .obj (Database.members.encode report.database.values
    ++ [("diagnostics", Diagnostic.codec.list.encode report.diagnostics)])

def Database.toJson (database : Database) : Json :=
  Database.codec.encode database

/-- The compact JSON text of the database that a text declares. -/
def parseText (text : String) : Except ParseError String :=
  (parse text).map fun database => database.toJson.text .compact

/-- The compact JSON text of the report of a text. -/
def parseReportText (text : String) (strict : Bool) : Except ParseError String :=
  (parseReport text strict).map fun report => report.toJson.text .compact

end Dbml
