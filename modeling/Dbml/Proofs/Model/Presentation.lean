import Dbml.Proofs.Model.Schema

/-!
# Databases in any presentation

The text that a database is written as is one of many that present it. Its members may stand in
another order, with white space between the words and strings spelled in other ways; members that
are missing may be given as null, `increment` may be left out where it is not set, and there may be
members that a database does not know, with any values. Main statement:
`Database.read_presented`, all of them are read as the database, as long as the names of the members
it does not know are strings.
-/

namespace Dbml

open Json

/-- The text presents the database: it is one of a form that presents its JSON. -/
def Database.Presented (admitted : List Stroke → Prop) (database : Database) (text : String) :
    Prop :=
  ∃ form, Presents admitted Database.jsonSchema database.toJson form ∧
    Spaced form.lexemes text.toList

/-- The text that a database is written as presents it, in either layout. -/
theorem Database.presented_text (admitted : List Stroke → Prop) (database : Database)
    (layout : Layout) : database.Presented admitted (database.toJson.text layout) :=
  ⟨_, database.codec_follows.written admitted, database.toJson.spaced_text layout⟩

/-- What is read does not depend on the presentation. -/
theorem Database.read_presented {database : Database} {text : String}
    (presented : database.Presented Legible text) : Database.codec.read text = .ok database := by
  obtain ⟨form, presents, spaced⟩ := presented
  rw [Database.codec.read_spaced spaced]
  exact database.codec_follows.read form presents

/-! ## An unusual text -/

def oddDatabase : Database :=
  { tables :=
      [{ name := "a", schema := none, aliasName := none
         columns := [{ name := "😀/", type := "int" }]
         indexes := [], note := none, groupId := none, color := "#87CEEB" }]
    relationships := [], tableGroups := [], project := none }

/-- A text of the database with all members in reverse order, one that is null, one that is left
out, one that nobody knows, and characters escaped that need not be. -/
def oddDatabaseText : String :=
  String.join
    ["\x7b \"x\\u0079\": [-1.50E+2, \x7b\"\\ud800\":\"\\udc00\\b\"\x7d],\n", "\"project\":null, ",
      "\"tableGroups\":[ ],\t", "\"relationships\":[],", "\"tables\":[\x7b\"color\":\"#87CEEB\",\r\n",
      "\"columns\":[\x7b\"notNull\":false,\"unique\":false,", "\"pk\":false,\"type\":\"\\u0069nt\",",
      "\"name\":\"\\uD83D\\ude00\\/\"\x7d],", "\"name\":\"a\"\x7d]\x7d\n"]

/-- What stands in the text for the members of the only column, but for their order. -/
def oddColumnMembers : List (List Stroke × Form) :=
  [("name".toList.map .ofChar, .string
      [.unit (.ofNat 0xD83D true), .unit (.ofNat 0xDE00 false), .short '/' '/' (by decide)]),
    ("type".toList.map .ofChar, .string
      (.unit (.ofNat 0x0069 false) :: "nt".toList.map .ofChar)),
    ("pk".toList.map .ofChar, .bool false), ("unique".toList.map .ofChar, .bool false),
    ("notNull".toList.map .ofChar, .bool false)]

def oddTableMembers : List (List Stroke × Form) :=
  [("name".toList.map .ofChar, .string ("a".toList.map .ofChar)),
    ("columns".toList.map .ofChar, .array [.object oddColumnMembers.reverse]),
    ("color".toList.map .ofChar, .string ("#87CEEB".toList.map .ofChar))]

def oddMembers : List (List Stroke × Form) :=
  [("tables".toList.map .ofChar, .array [.object oddTableMembers.reverse]),
    ("relationships".toList.map .ofChar, .array []), ("tableGroups".toList.map .ofChar, .array []),
    ("project".toList.map .ofChar, .null)]

/-- The member that nobody knows: its value holds surrogates that stand alone. -/
def oddUnknown : List Stroke × Form :=
  ([.plain 'x' (by decide), .unit (.ofNat 0x0079 false)],
    .array
      [.number
        { negative := true, whole := .ofCount 1, zero_alone := Digits.zero_alone 1
          fraction := some (.ofCount 50), exponent := some ⟨true, .plus, .ofCount 2⟩ },
        .object
          [([.unit (.ofNat 0xD800 false)],
            .string [.unit (.ofNat 0xDC00 false), .ofChar '\x08'])]])

theorem presents_oddColumn (admitted : List Stroke → Prop) :
    Presents admitted Column.jsonSchema
      (Column.codec.encode { name := "😀/", type := "int" }) (.object oddColumnMembers.reverse) := by
  refine .of_perm ?_ (List.reverse_perm oddColumnMembers)
  exact .kept (.map_ofChar _) (.str (.pair rfl (.short _ .nil))) <|
    .kept (.map_ofChar _) (.str (.one rfl (.map_ofChar _))) <|
    .kept (.map_ofChar _) .bool <| .kept (.map_ofChar _) .bool <| .kept (.map_ofChar _) .bool <|
    .leftOut rfl <| .absent rfl <| .absent rfl <| .absent rfl .nil

theorem presents_oddTable (admitted : List Stroke → Prop) :
    Presents admitted (.list Table.jsonSchema) (Table.codec.list.encode oddDatabase.tables)
      (.array [.object oddTableMembers.reverse]) := by
  refine presents_arr_iff.2 (.cons (.of_perm ?_ (List.reverse_perm oddTableMembers)) .nil)
  exact .kept (.map_ofChar _) (.str (.map_ofChar _)) <| .absent rfl <| .absent rfl <|
    .kept (.map_ofChar _) (presents_arr_iff.2 (.cons (presents_oddColumn admitted) .nil)) <|
    .absent rfl <| .absent rfl <| .absent rfl <|
    .kept (.map_ofChar _) (.str (.map_ofChar _)) .nil

theorem oddDatabase_presented : oddDatabase.Presented Legible oddDatabaseText := by
  have spaced : Spaced (Form.object (oddMembers ++ [oddUnknown]).reverse).lexemes
      oddDatabaseText.toList := by
    rw [oddDatabaseText, String.toList_join]
    decide +kernel
  refine ⟨_, ?_, spaced⟩
  have order : (oddMembers ++ [oddUnknown]).reverse.Perm (oddMembers ++ [oddUnknown]) :=
    List.reverse_perm _
  refine .obj ?_ ?_ order
  · exact .kept (.map_ofChar _) (presents_oddTable Legible) <|
      .kept (.map_ofChar _) (presents_arr_iff.2 .nil) <|
      .kept (.map_ofChar _) (presents_arr_iff.2 .nil) <|
      .filledIn rfl (.map_ofChar _) .null .nil
  · intro member listed
    obtain rfl := List.mem_singleton.1 listed
    have spells : Json.Spells "xy".toList oddUnknown.1 :=
      .plain _ (.one rfl .nil)
    exact ⟨⟨"xy", spells⟩, unknown_of_not_mem spells (by decide)⟩

theorem Database.read_presented_oddDatabase :
    oddDatabase.Presented Legible oddDatabaseText ∧
      Database.codec.read oddDatabaseText = .ok oddDatabase :=
  ⟨oddDatabase_presented, Database.read_presented oddDatabase_presented⟩

/-! ## Names that are no strings -/

def emptyDatabase : Database :=
  { tables := [], relationships := [], tableGroups := [], project := none }

/-- The empty database with one more member, whose name is a surrogate that stands alone. -/
def loneNameText : String :=
  "\x7b\"tables\":[],\"relationships\":[],\"tableGroups\":[],\"\\ud800\":0\x7d"

/-- A reader has to know whether the name is that of a member, and the name is no string. -/
theorem loneNameText_refused :
    emptyDatabase.Presented (fun _ => True) loneNameText ∧
      Database.codec.read loneNameText ≠ .ok emptyDatabase := by
  let name : List Stroke := [.unit (.ofNat 0xD800 false)]
  let given := memberForms (Database.members.encode emptyDatabase.values)
  refine ⟨⟨.object (given ++ [(name, .number (.ofCount 0))]), ?_, by decide +kernel⟩, ?_⟩
  · refine .obj (emptyDatabase.members_follows.written _) ?_ (.refl _)
    intro member listed
    obtain rfl := List.mem_singleton.1 listed
    refine ⟨trivial, fun field _ spells => ?_⟩
    have none : readStrokes name = none := by decide
    exact Option.some_ne_none _ (spells.readStrokes.symm.trans none)
  · have refused : (Database.codec.read loneNameText).toOption = none := by decide +kernel
    intro read
    rw [read] at refused
    cases refused

end Dbml
