import Dbml.Proofs.Verbatim.Columns

/-!
# Tables with other raw texts

A table block declares tables that are alike in a source and in one that retells it, and the same is
noted on the way but for targets of references. Main statement: `Retold.declaredTable`.
-/

namespace Dbml

open Source Noted

section Parts

variable (R : String → String → Prop)

structure DeclaredTable.Alike (a b : DeclaredTable) : Prop where
  name : b.name = a.name
  schema : b.schema = a.schema
  aliasName : b.aliasName = a.aliasName
  columns : List.Forall₂ (Column.Alike R) a.columns b.columns
  indexes : List.Forall₂ (Index.Alike R) a.indexes b.indexes
  note : b.note = a.note
  headerColor : Option.Rel R a.headerColor b.headerColor
  color : Option.Rel R a.color b.color
  relationships : List.Forall₂ (Relationship.Alike R) a.relationships b.relationships

structure TableSettings.Alike (a b : TableSettings) : Prop where
  headerColor : Option.Rel R a.headerColor b.headerColor
  color : Option.Rel R a.color b.color
  note : b.note = a.note

end Parts

variable {R : String → String → Prop} {s t : Source} {line : TokenRange} {segment : Segment}
  {children : List Segment} {block : Block}

/-! ## Declared tables -/

namespace DeclaredTable

variable {a b : DeclaredTable}

theorem Alike.key (alike : DeclaredTable.Alike R a b) : b.key = a.key := by
  rw [DeclaredTable.key, alike.schema, alike.name, DeclaredTable.key]

/-- A column whose name is listed is a primary key in both tables. -/
theorem Alike.markKeys (alike : DeclaredTable.Alike R a b) {index index' : Index}
    (same : Index.Alike R index index') :
    DeclaredTable.Alike R (a.markKeys index) (b.markKeys index') := by
  rw [DeclaredTable.markKeys, DeclaredTable.markKeys, same.pk, same.columns]
  split
  · refine { alike with columns := ?_ }
    rw [List.forall₂_map_left_iff, List.forall₂_map_right_iff]
    refine alike.columns.imp fun c c' column => ?_
    rw [column.name]
    split
    · exact { column with name := rfl, pk := rfl }
    · exact column
  · exact alike

theorem Alike.addIndex (alike : DeclaredTable.Alike R a b) {index index' : Index}
    (same : Index.Alike R index index') :
    DeclaredTable.Alike R (a.addIndex index) (b.addIndex index') :=
  { alike.markKeys same with indexes := List.rel_append alike.indexes (.cons same .nil) }

/-- The colour that counts is found at the same place in both. -/
theorem alike_resolve (refl : ∀ x, R x x) {given given' : List (Option String)}
    (colors : List.Forall₂ (Option.Rel R) given given') {inherited inherited' : Option String}
    (group : Option.Rel R inherited inherited') (name : String) :
    R (Color.resolve given inherited name) (Color.resolve given' inherited' name) := by
  induction colors with
  | nil =>
    cases group with
    | none => exact refl _
    | some related => exact related
  | cons first _ ih =>
    cases first with
    | none => exact ih
    | some related => exact related

theorem Alike.finish (refl : ∀ x, R x x) (alike : DeclaredTable.Alike R a b)
    (groupId : Option String) {color color' : Option String} (group : Option.Rel R color color') :
    Table.Alike R (a.finish groupId color) (b.finish groupId color') where
  name := alike.name
  schema := alike.schema
  aliasName := alike.aliasName
  columns := alike.columns
  indexes := alike.indexes
  note := alike.note
  groupId := rfl
  color := by
    rw [DeclaredTable.finish, DeclaredTable.finish, alike.key]
    exact alike_resolve refl (.cons alike.headerColor (.cons alike.color .nil)) group a.key

end DeclaredTable

namespace Retold

variable (retold : Retold R s t)

include retold

/-! ## Bodies -/

theorem addIndexes (inline : ∀ x ∈ children, x.Inline s) {a b : DeclaredTable}
    (alike : DeclaredTable.Alike R a b) :
    Noted.Alike (Finding.Alike R s) (DeclaredTable.Alike R) (s.addIndexes a children)
      (t.addIndexes b children) := by
  induction children generalizing a b with
  | nil => exact alike_pure alike
  | cons x rest ih =>
    obtain ⟨first, later⟩ := List.forall_mem_cons.1 inline
    cases first with
    | line some_token whole =>
      refine (retold.index? whole some_token).bind fun index index' same => ?_
      cases same with
      | none => exact ih later alike
      | some same => exact ih later (alike.addIndex same)
    | block start opening closing settings inner => exact ih later alike

theorem applyTableLine (some_token : line.start < line.stop) (inline : s.Inline line)
    {a b : DeclaredTable} (alike : DeclaredTable.Alike R a b) :
    Noted.Alike (Finding.Alike R s) (DeclaredTable.Alike R) (s.applyTableLine a line)
      (t.applyTableLine b line) := by
  have solid := inline line.start (Nat.le_refl _) some_token
  rw [Source.applyTableLine, Source.applyTableLine, retold.tokens.noteLine?,
    retold.tokens.shortForm?, alike.key]
  split
  · exact alike_pure { alike with note := rfl }
  · exact alike_note (Finding.alike_same solid) (alike_pure alike)
  · split
    · exact alike_pure alike
    · refine (retold.column? inline a.key).bind fun declared declared' same => ?_
      cases same with
      | none => exact alike_note (Finding.alike_same solid) (alike_pure alike)
      | some same =>
        refine alike_pure { alike with columns := ?_, relationships := ?_ }
        · exact List.rel_append alike.columns (.cons same.column .nil)
        · exact List.rel_append alike.relationships (forall₂_toList same.relationship)

theorem applyTableSegment (inline : segment.Inline s) {a b : DeclaredTable}
    (alike : DeclaredTable.Alike R a b) :
    Noted.Alike (Finding.Alike R s) (DeclaredTable.Alike R) (s.applyTableSegment a segment)
      (t.applyTableSegment b segment) := by
  cases inline with
  | line some_token inline => exact retold.applyTableLine some_token inline alike
  | block start opening closing settings inner =>
    rw [Source.applyTableSegment, Source.applyTableSegment, retold.tokens.blockNote, alike.key,
      alike.note]
    split
    · exact alike_pure { alike with note := rfl }
    · exact retold.addIndexes inner alike
    · exact alike_note (Finding.alike_same start) (alike_pure alike)

/-! ## Whole tables -/

theorem applyTableSetting {setting : Setting} (inline : setting.Inline s) {a b : TableSettings}
    (alike : TableSettings.Alike R a b) :
    Noted.Alike (Finding.Alike R s) (TableSettings.Alike R) (s.applyTableSetting a setting)
      (t.applyTableSetting b setting) := by
  cases setting with
  | flag words position => exact alike_note (Finding.alike_same inline) (alike_pure alike)
  | invalid position => exact alike_note (Finding.alike_same inline) (alike_pure alike)
  | pair key value position =>
    obtain ⟨solid, value_inline⟩ := inline
    have color := retold.color value value_inline
    simp only [Source.applyTableSetting, retold.tokens.quotedText]
    split
    · exact alike_pure { alike with headerColor := color }
    · exact alike_pure { alike with color := color }
    · exact alike_pure { alike with note := rfl }
    · exact alike_note (Finding.alike_same solid) (alike_pure alike)

omit retold in
/-- The settings of a header that stand on one line. -/
theorem inline_header_settings {given : Option TokenRange}
    (inline : ∀ range, given = some range → s.Inline range) :
    ∀ x ∈ given.elim [] s.settings, x.Inline s := by
  cases given with
  | none => simp
  | some range => exact inline_settings (inline range rfl)

theorem header_settings (given : Option TokenRange) :
    given.elim [] t.settings = given.elim [] s.settings := by
  cases given with
  | none => rfl
  | some range => exact retold.tokens.settings range

theorem declaredTable (inline : (Segment.block block children).Inline s) :
    Noted.Alike (Finding.Alike R s) (Option.Rel (DeclaredTable.Alike R))
      (s.declaredTable block children) (t.declaredTable block children) := by
  cases inline with
  | block start opening closing settings inner =>
    rw [Source.declaredTable, Source.declaredTable, retold.hasEmptyBody opening closing,
      retold.header_settings]
    cases tableName? block.header with
    | none => exact alike_note (Finding.alike_same start) (alike_pure .none)
    | some found =>
      obtain ⟨schema, name⟩ := found
      dsimp only
      split
      · exact alike_note (Finding.alike_same start) (alike_pure .none)
      · have plain : TableSettings.Alike R {} {} := ⟨.none, .none, rfl⟩
        refine (alike_foldlM_same plain fun a b x listed alike => retold.applyTableSetting
          (inline_header_settings settings x listed) alike).bind fun given given' alike => ?_
        have empty : DeclaredTable.Alike R
            { name, schema, aliasName := block.header.aliasName,
              headerColor := given.headerColor, color := given.color }
            { name, schema, aliasName := block.header.aliasName,
              headerColor := given'.headerColor, color := given'.color } :=
          ⟨rfl, rfl, rfl, .nil, .nil, rfl, alike.headerColor, alike.color, .nil⟩
        refine (alike_foldlM_same empty fun a b x listed same =>
          retold.applyTableSegment (inner x listed) same).bind fun a b same => alike_pure (.some ?_)
        rw [same.note, alike.note]
        exact { same with note := rfl }

end Retold

end Dbml
