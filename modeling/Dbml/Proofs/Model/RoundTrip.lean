import Dbml.Proofs.Model.Schema

/-!
# The JSON of a model is read back

Every database is restored by its codec, from either layout of its own text and of the text of any
report that it is in, and so is every diagnostic whose line and column are counts of 64 bits. Main
statement: `restored_from_json`.
-/

namespace Dbml

open Json Json.Codec

/-! ## Databases, reports and diagnostics -/

theorem Database.codec_restores (d : Database) : Database.codec.Restores d :=
  d.codec_follows.restores

/-- A report presents its database, as a reader of databases does not know of diagnostics. -/
theorem Report.presents_database (report : Report) (admitted : List Stroke → Prop)
    (all : ∀ key : String, admitted (key.toList.map Stroke.ofChar)) :
    Presents admitted Database.jsonSchema report.database.toJson report.toJson.form := by
  have order : memberForms (Database.members.encode report.database.values
      ++ [("diagnostics", Diagnostic.codec.list.encode report.diagnostics)]) = _ :=
    memberForms_append ..
  refine .obj (report.database.members_follows.written admitted) ?_ (.of_eq order)
  intro member listed
  obtain rfl := List.mem_singleton.1 listed
  exact ⟨all _, unknown_of_not_mem (.map_ofChar _) (by decide)⟩

/-- The diagnostics of a report are a member that a database does not know. -/
theorem Report.decode_toJson (report : Report) :
    Database.codec.decode report.toJson.outline = .ok report.database := by
  rw [← outline_form]
  exact report.database.codec_follows.read _
    (report.presents_database Legible fun key => ⟨key, .map_ofChar _⟩)

theorem Diagnostic.codec_restores {d : Diagnostic} (counted : d.location.IsCounted) :
    Diagnostic.codec.Restores d :=
  (Diagnostic.codec_follows counted).restores

/-! ## Texts -/

theorem parseText_eq_ok {text json : String} :
    parseText text = .ok json ↔
      ∃ database, parse text = .ok database ∧ database.toJson.text .compact = json := by
  unfold parseText
  cases parse text <;> simp [Except.map]

theorem restored_from_json :
    (∀ (database : Database) (diagnostics : List Diagnostic) (layout : Layout),
      Database.codec.read (database.toJson.text layout) = .ok database ∧
      Database.codec.read ((Report.mk database diagnostics).toJson.text layout) = .ok database) ∧
    (∀ (diagnostic : Diagnostic) (layout : Layout), diagnostic.location.IsCounted →
      Diagnostic.codec.read ((Diagnostic.codec.encode diagnostic).text layout) = .ok diagnostic) ∧
    ∀ text : String,
      ((∃ json, parseText text = .ok json) ↔ ∃ database, parse text = .ok database) ∧
      ∀ json, parseText text = .ok json →
        ∃ database, parse text = .ok database ∧ Database.codec.read json = .ok database := by
  refine ⟨fun database diagnostics layout => ⟨database.codec_restores.read layout, ?_⟩,
    fun diagnostic layout counted => (Diagnostic.codec_restores counted).read layout,
    fun text => ⟨?_, fun json written => ?_⟩⟩
  · rw [Codec.read_text]
    exact Report.decode_toJson ⟨database, diagnostics⟩
  · constructor
    · rintro ⟨json, written⟩
      obtain ⟨database, parsed, -⟩ := parseText_eq_ok.1 written
      exact ⟨database, parsed⟩
    · rintro ⟨database, parsed⟩
      exact ⟨_, parseText_eq_ok.2 ⟨database, parsed, rfl⟩⟩
  · obtain ⟨database, parsed, rfl⟩ := parseText_eq_ok.1 written
    exact ⟨database, parsed, database.codec_restores.read .compact⟩

/-- A text and its JSON, which leaves out whatever the only table does not have. -/
def oneTableText : String :=
  "Table a \x7b\n  id int\n\x7d\n"

def oneTableJson : String :=
  "\x7b\"tables\":[\x7b\"name\":\"a\",\"columns\":[\x7b\"name\":\"id\",\"type\":\"int\"," ++
    "\"pk\":false,\"unique\":false,\"notNull\":false,\"increment\":false\x7d]," ++
    "\"color\":\"#87CEEB\"\x7d],\"relationships\":[],\"tableGroups\":[]\x7d"

theorem restored_from_json_oneTable :
    (∃ database, parse oneTableText = .ok database ∧
      Database.codec.read oneTableJson = .ok database) ∧
    Diagnostic.codec.read
        "\x7b\"location\":\x7b\"line\":2,\"column\":1\x7d,\"reason\":\"\\u001f \\\"b\\\"\\n\"\x7d" =
      .ok ⟨⟨2, 1⟩, "\x1f \"b\"\n"⟩ := by
  have written : (parseText oneTableText).toOption = some oneTableJson := by decide +kernel
  have text : (Diagnostic.codec.encode ⟨⟨2, 1⟩, "\x1f \"b\"\n"⟩).text .compact =
      "\x7b\"location\":\x7b\"line\":2,\"column\":1\x7d,\"reason\":\"\\u001f \\\"b\\\"\\n\"\x7d" := by
    decide +kernel
  have counted : (Location.mk 2 1).IsCounted := by unfold Location.IsCounted; decide
  exact ⟨(restored_from_json.2.2 oneTableText).2 oneTableJson (eq_ok_of_toOption written),
    text ▸ restored_from_json.2.1 ⟨⟨2, 1⟩, "\x1f \"b\"\n"⟩ .compact counted⟩

end Dbml
