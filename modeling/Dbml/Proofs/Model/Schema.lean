import Dbml.Model.Codec
import Dbml.Proofs.Json.Codec
import Dbml.Proofs.Source.Contents

/-!
# The schemas of a model

What a reader of databases and diagnostics knows of them: the members of each record, and which of
them may be missing. Main statement: `Database.codec_follows`.
-/

namespace Dbml

open Json Json.Codec

/-! ## Schemas -/

/-- A column has `increment` set only if it says so. -/
def Column.jsonSchema : Schema :=
  .record
    [.required "name" .scalar, .required "type" .scalar, .required "pk" .scalar,
      .required "unique" .scalar, .required "notNull" .scalar,
      { key := "increment", missing := some (.bool false), schema := .scalar },
      .optional "defaultValue" .scalar, .optional "note" .scalar, .optional "ref" .scalar]

def Index.jsonSchema : Schema :=
  .record
    [.required "columns" (.list .scalar), .required "unique" .scalar, .required "pk" .scalar,
      .optional "name" .scalar, .optional "type" .scalar, .optional "note" .scalar]

/-- A table has indexes only if it says so. -/
def Table.jsonSchema : Schema :=
  .record
    [.required "name" .scalar, .optional "schema" .scalar, .optional "alias" .scalar,
      .required "columns" (.list Column.jsonSchema),
      { key := "indexes", missing := some (.arr []), schema := .list Index.jsonSchema },
      .optional "note" .scalar, .optional "groupId" .scalar, .required "color" .scalar]

def Relationship.jsonSchema : Schema :=
  .record
    [.required "fromTable" .scalar, .required "fromColumn" .scalar, .required "toTable" .scalar,
      .required "toColumn" .scalar, .required "type" .scalar, .optional "name" .scalar,
      .optional "onDelete" .scalar, .optional "onUpdate" .scalar]

def TableGroup.jsonSchema : Schema :=
  .record
    [.required "id" .scalar, .required "name" .scalar, .optional "note" .scalar,
      .required "color" .scalar, .required "tables" (.list .scalar)]

def Project.jsonSchema : Schema :=
  .record [.required "name" .scalar, .optional "databaseType" .scalar, .optional "note" .scalar]

def Database.fields : List (FieldSchema Schema) :=
  [.required "tables" (.list Table.jsonSchema),
    .required "relationships" (.list Relationship.jsonSchema),
    .required "tableGroups" (.list TableGroup.jsonSchema), .optional "project" Project.jsonSchema]

def Database.jsonSchema : Schema :=
  .record Database.fields

def Location.jsonSchema : Schema :=
  .record [.required "line" .scalar, .required "column" .scalar]

def Diagnostic.jsonSchema : Schema :=
  .record [.required "location" Location.jsonSchema, .required "reason" .scalar]

/-! ## Parts of a database -/

theorem strings_follows (texts : List String) : string.list.Follows (.list .scalar) texts :=
  list_follows fun text _ => string_follows text

theorem required_string_follows (key value : String) :
    (required key string).Follows (.required key .scalar) value :=
  required_follows (string_follows value)

theorem required_bool_follows (key : String) (value : Bool) :
    (required key bool).Follows (.required key .scalar) value :=
  required_follows (bool_follows value)

theorem optional_string_follows (key : String) (value : Option String) :
    (optional key string).Follows (.optional key .scalar) value :=
  optional_follows (fun _ => nofun) fun s _ => string_follows s

theorem increment_follows (increment : Bool) :
    Member.Follows { required "increment" bool with missing := some false }
      { key := "increment", missing := some (.bool false), schema := .scalar } increment where
  key := rfl
  codec := bool_follows increment
  missing no := by
    cases increment with
    | false => rfl
    | true => simp [required, Codec.bool] at no
  omitted := nofun

theorem Column.codec_follows (c : Column) : Column.codec.Follows Column.jsonSchema c :=
  record_follows (by decide)
    (.more (required_string_follows _ _) <| .more (required_string_follows _ _) <|
      .more (required_bool_follows _ _) <| .more (required_bool_follows _ _) <|
      .more (required_bool_follows _ _) <| .more (increment_follows _) <|
      .more (optional_string_follows _ _) <| .more (optional_string_follows _ _) <|
      .more (optional_string_follows _ _) .none)
    rfl

theorem Index.codec_follows (i : Index) : Index.codec.Follows Index.jsonSchema i :=
  record_follows (by decide)
    (.more (required_follows (strings_follows _)) <| .more (required_bool_follows _ _) <|
      .more (required_bool_follows _ _) <| .more (optional_string_follows _ _) <|
      .more (optional_string_follows _ _) <| .more (optional_string_follows _ _) .none)
    rfl

theorem indexes_follows (indexes : List Index) :
    Member.Follows
      { required "indexes" Index.codec.list with missing := some [], isOmitted := List.isEmpty }
      { key := "indexes", missing := some (.arr []), schema := .list Index.jsonSchema }
      indexes where
  key := rfl
  codec := list_follows fun i _ => i.codec_follows
  missing no := by
    cases indexes with
    | nil => rfl
    | cons index indexes => simp [required, list] at no
  omitted empty := by
    rw [List.isEmpty_iff.1 empty]
    rfl

theorem Table.codec_follows (t : Table) : Table.codec.Follows Table.jsonSchema t :=
  record_follows (by decide)
    (.more (required_string_follows _ _) <| .more (optional_string_follows _ _) <|
      .more (optional_string_follows _ _) <|
      .more (required_follows (list_follows fun c _ => c.codec_follows)) <|
      .more (indexes_follows _) <|
      .more (optional_string_follows _ _) <| .more (optional_string_follows _ _) <|
      .more (required_string_follows _ _) .none)
    rfl

theorem Relationship.codec_follows (r : Relationship) :
    Relationship.codec.Follows Relationship.jsonSchema r :=
  record_follows (by decide)
    (.more (required_string_follows _ _) <| .more (required_string_follows _ _) <|
      .more (required_string_follows _ _) <| .more (required_string_follows _ _) <|
      .more (required_follows (named_follows (RelationKind.ofOperator?_operator _))) <|
      .more (optional_string_follows _ _) <| .more (optional_string_follows _ _) <|
      .more (optional_string_follows _ _) .none)
    rfl

theorem TableGroup.codec_follows (g : TableGroup) :
    TableGroup.codec.Follows TableGroup.jsonSchema g :=
  record_follows (by decide)
    (.more (required_string_follows _ _) <| .more (required_string_follows _ _) <|
      .more (optional_string_follows _ _) <| .more (required_string_follows _ _) <|
      .more (required_follows (strings_follows _)) .none)
    rfl

theorem Project.codec_follows (p : Project) : Project.codec.Follows Project.jsonSchema p :=
  record_follows (by decide)
    (.more (required_string_follows _ _) <| .more (optional_string_follows _ _) <|
      .more (optional_string_follows _ _) .none)
    rfl

/-! ## Databases and diagnostics -/

theorem Database.members_follows (d : Database) :
    Database.members.Follows Database.fields d.values :=
  .more (required_follows (list_follows fun t _ => t.codec_follows)) <|
    .more (required_follows (list_follows fun r _ => r.codec_follows)) <|
    .more (required_follows (list_follows fun g _ => g.codec_follows)) <|
    .more (optional_follows (fun _ => nofun) fun p _ => p.codec_follows) .none

theorem Database.codec_follows (d : Database) : Database.codec.Follows Database.jsonSchema d :=
  record_follows (by decide) d.members_follows rfl

/-- The line and the column are counts of at most 64 bits. -/
def Location.IsCounted (l : Location) : Prop :=
  l.line ≤ Number.countLimit ∧ l.column ≤ Number.countLimit

theorem Location.codec_follows {l : Location} (counted : l.IsCounted) :
    Location.codec.Follows Location.jsonSchema l :=
  record_follows (by decide)
    (.more (required_follows (count_follows counted.1)) <|
      .more (required_follows (count_follows counted.2)) .none)
    rfl

theorem Diagnostic.codec_follows {d : Diagnostic} (counted : d.location.IsCounted) :
    Diagnostic.codec.Follows Diagnostic.jsonSchema d :=
  record_follows (by decide)
    (.more (required_follows (Location.codec_follows counted)) <|
      .more (required_string_follows _ _) .none)
    rfl

end Dbml
