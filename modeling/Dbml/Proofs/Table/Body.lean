import Dbml.Proofs.Table.Heading
import Mathlib.Data.List.Basic

/-!
# The body of a table

What the segments of a body leave as it is, and what they add: the name, the schema, the alias and
the colours of a table are those of its heading, and its relationships are those of the columns in
its body, each pointing at the target that is written on the column's line. Main statements:
`sameHeading_of_declaredTable` and `targets_of_declaredTable`.
-/

namespace Dbml

/-- The two tables have the same heading. -/
structure DeclaredTable.SameHeading (a b : DeclaredTable) : Prop where
  name : b.name = a.name
  schema : b.schema = a.schema
  aliasName : b.aliasName = a.aliasName
  headerColor : b.headerColor = a.headerColor
  color : b.color = a.color

namespace DeclaredTable

variable {a b c : DeclaredTable}

theorem SameHeading.refl (a : DeclaredTable) : SameHeading a a :=
  ⟨rfl, rfl, rfl, rfl, rfl⟩

theorem SameHeading.trans (first : SameHeading a b) (second : SameHeading b c) :
    SameHeading a c :=
  ⟨second.name.trans first.name, second.schema.trans first.schema,
    second.aliasName.trans first.aliasName, second.headerColor.trans first.headerColor,
    second.color.trans first.color⟩

theorem sameHeading_addIndex (table : DeclaredTable) (index : Index) :
    SameHeading table (table.addIndex index) := by
  unfold addIndex markKeys
  split <;> exact ⟨rfl, rfl, rfl, rfl, rfl⟩

theorem relationships_addIndex (table : DeclaredTable) (index : Index) :
    (table.addIndex index).relationships = table.relationships := by
  unfold addIndex markKeys
  split <;> rfl

end DeclaredTable

namespace Source

variable {s : Source} {table : DeclaredTable} {block : Block} {children : List Segment}
  {line : TokenRange} {key : String}

/-! ## What one segment does -/

/-- The column that a segment declares in the body of the table with the key. -/
def columnIn? (s : Source) (key : String) : Segment → Option DeclaredColumn
  | .line line =>
    if (s.noteLine? line).isSome ∨ (s.shortForm? line).isSome then none
    else (s.column? key line).value
  | .block _ _ => none

/-- The heading stays as it is, and the relationship of a column is added when there is one. -/
structure ExtendsBy (before : DeclaredTable) (made : List Relationship) (after : DeclaredTable) :
    Prop where
  heading : before.SameHeading after
  relationships : after.relationships = before.relationships ++ made

theorem extendsBy_refl (table : DeclaredTable) : ExtendsBy table [] table :=
  ⟨.refl table, by simp⟩

theorem extendsBy_addIndexes (table : DeclaredTable) (children : List Segment) :
    ExtendsBy table [] (s.addIndexes table children).value := by
  induction children generalizing table with
  | nil => exact extendsBy_refl table
  | cons x rest ih =>
    cases x with
    | line line =>
      rw [addIndexes, Noted.bind_value]
      cases (s.index? line).value with
      | none => exact ih table
      | some index =>
        have after := ih (table.addIndex index)
        refine ⟨(table.sameHeading_addIndex index).trans after.heading, ?_⟩
        exact after.relationships.trans (by rw [table.relationships_addIndex])
    | block block children =>
      rw [addIndexes]
      exact ih table

theorem extendsBy_applyTableSegment (table : DeclaredTable) (x : Segment) :
    ExtendsBy table ((s.columnIn? table.key x).bind (·.relationship)).toList
      (s.applyTableSegment table x).value := by
  cases x with
  | line line =>
    rw [applyTableSegment, applyTableLine, columnIn?]
    cases s.noteLine? line with
    | some note =>
      rw [if_pos (.inl rfl)]
      cases note <;> exact ⟨⟨rfl, rfl, rfl, rfl, rfl⟩, (List.append_nil _).symm⟩
    | none =>
      by_cases short : (s.shortForm? line).isSome = true
      · simp only [short, if_true, or_true]
        exact extendsBy_refl table
      · simp only [Option.isSome_none, Bool.false_eq_true, short, or_self, if_false,
          Noted.bind_value]
        cases (s.column? table.key line).value with
        | none => exact extendsBy_refl table
        | some declared => exact ⟨⟨rfl, rfl, rfl, rfl, rfl⟩, rfl⟩
  | block block children =>
    rw [applyTableSegment, columnIn?]
    split
    · exact ⟨⟨rfl, rfl, rfl, rfl, rfl⟩, by simp⟩
    · exact extendsBy_addIndexes table children
    · exact extendsBy_refl table

theorem DeclaredTable.SameHeading.key_eq {a b : DeclaredTable} (same : a.SameHeading b) :
    b.key = a.key := by
  rw [DeclaredTable.key, DeclaredTable.key, same.name, same.schema]

/-- What a whole body does. -/
theorem extendsBy_foldlM (table : DeclaredTable) (children : List Segment) :
    ExtendsBy table
      (children.filterMap fun x => (s.columnIn? table.key x).bind (·.relationship))
      (children.foldlM s.applyTableSegment table).value := by
  induction children generalizing table with
  | nil => exact extendsBy_refl table
  | cons x rest ih =>
    have first := extendsBy_applyTableSegment (s := s) table x
    have others := ih (s.applyTableSegment table x).value
    rw [List.foldlM_cons, Noted.bind_value]
    refine ⟨first.heading.trans others.heading, ?_⟩
    rw [others.relationships, first.relationships, DeclaredTable.SameHeading.key_eq first.heading,
      List.append_assoc]
    congr 1
    cases read : (s.columnIn? table.key x).bind (·.relationship) <;> simp [read]

/-! ## The target of a column -/

/-- The value of a setting `ref: …`. -/
def referenceValue? : Setting → Option TokenRange
  | .pair "ref" value _ => some value
  | _ => none

/-- The operator and the target of a reference that a setting makes. -/
def settingTarget? (s : Source) (setting : Setting) : Option (RelationKind × TokenRange) :=
  (referenceValue? setting).bind s.columnReference?

/-- The operator and the target of the first reference in the settings on a column's line. -/
def columnTarget? (s : Source) (line : TokenRange) : Option (RelationKind × TokenRange) :=
  (s.columnHead? line).bind fun (name, _, next) =>
    (s.columnSettings name ⟨next, line.stop⟩).value.findSome? s.settingTarget?

/-- The column refers to a target exactly when one is found, and its relationship points at it. -/
structure Targets (s : Source) (found : Option (RelationKind × TokenRange))
    (declared : DeclaredColumn) : Prop where
  refers : declared.column.reference.isSome = found.isSome
  relationship : declared.relationship.map (fun r => (r.kind, r.toTable, r.toColumn)) =
    found.map fun target =>
      (target.1, (s.endpoint target.2).table, (s.endpoint target.2).column)

theorem targets_applyColumnSetting {found : Option (RelationKind × TokenRange)}
    {declared : DeclaredColumn} (targets : s.Targets found declared) (setting : Setting) :
    s.Targets (found.or (s.settingTarget? setting))
      (s.applyColumnSetting key declared setting).value := by
  have other (after : DeclaredColumn) (none : s.settingTarget? setting = none)
      (reference : after.column.reference = declared.column.reference)
      (relationship : after.relationship = declared.relationship) :
      s.Targets (found.or (s.settingTarget? setting)) after := by
    rw [none, Option.or_none]
    exact ⟨by rw [reference]; exact targets.refers,
      by rw [relationship]; exact targets.relationship⟩
  unfold applyColumnSetting
  split
  · dsimp only
    split <;> exact other _ rfl rfl rfl
  next name value position =>
    dsimp only
    split
    · exact other _ rfl rfl rfl
    · split <;> exact other _ rfl rfl rfl
    · split
      -- A second reference is passed over: the first target stays.
      next refers =>
        rw [targets.refers] at refers
        obtain ⟨target, rfl⟩ := Option.isSome_iff_exists.1 refers
        exact targets
      next fresh =>
        rw [targets.refers, Option.not_isSome_iff_eq_none] at fresh
        subst fresh
        split
        next kind range read =>
          have here : s.settingTarget? (.pair "ref" value position) = some (kind, range) := read
          rw [here]
          split <;> exact ⟨rfl, rfl⟩
        next read => exact other _ read rfl rfl
    next noDefault noNote noRef =>
      refine other _ ?_ rfl rfl
      rw [settingTarget?, referenceValue?, Option.bind_none]
      exact fun _ _ same => noRef (Setting.pair.inj same).1
  · exact other _ rfl rfl rfl

theorem targets_of_column? {declared : DeclaredColumn}
    (read : (s.column? key line).value = some declared) :
    s.Targets (s.columnTarget? line) declared := by
  have all (settings : List Setting) (found : Option (RelationKind × TokenRange))
      (declared : DeclaredColumn) (targets : s.Targets found declared) :
      s.Targets (found.or (settings.findSome? s.settingTarget?))
        (settings.foldlM (s.applyColumnSetting key) declared).value := by
    induction settings generalizing found declared with
    | nil => simpa using targets
    | cons setting rest ih =>
      have after := ih (found.or (s.settingTarget? setting))
        (s.applyColumnSetting key declared setting).value
        (targets_applyColumnSetting targets setting)
      rw [List.foldlM_cons, Noted.bind_value]
      cases here : s.settingTarget? setting <;>
        simpa [List.findSome?_cons, here, Option.or_assoc] using after
  unfold column? at read
  rw [columnTarget?]
  split at read
  · cases read
  next name type next head =>
    rw [Noted.bind_value, Noted.bind_value, Noted.pure_value] at read
    cases read
    rw [head]
    have start : s.Targets none { column := { name, type } } := ⟨rfl, rfl⟩
    simpa using all (s.columnSettings name ⟨next, line.stop⟩).value none _ start

/-! ## The targets in a body -/

/-- The target of the column that a segment of a body declares. -/
def targetIn? (s : Source) : Segment → Option TokenRange
  | .line line =>
    if (s.noteLine? line).isSome ∨ (s.shortForm? line).isSome then none
    else (s.columnTarget? line).map (·.2)
  | .block _ _ => none

/-- The column in a segment refers to the target in it. -/
theorem target_of_columnIn? (s : Source) (key : String) (x : Segment) :
    ((s.columnIn? key x).bind (·.relationship)).map (fun r => (r.toTable, r.toColumn)) =
      (s.targetIn? x).map fun range => ((s.endpoint range).table, (s.endpoint range).column) := by
  cases x with
  | block block children => rfl
  | line line =>
    rw [columnIn?, targetIn?]
    split
    · rfl
    · cases read : (s.column? key line).value with
      | some declared =>
        have points := congrArg (Option.map Prod.snd) (targets_of_column? read).relationship
        simpa only [Option.map_map, Function.comp_def, Option.bind_some] using points
      | none =>
        have noHead : s.columnHead? line = none := by
          unfold column? at read
          split at read
          next none => exact none
          · cases read
        simp [columnTarget?, noHead]

/-! ## Declared tables -/

/-- A declared table has the heading of its block. -/
theorem sameHeading_of_declaredTable
    (declared : (s.declaredTable block children).value = some table) :
    ∃ heading, s.heading? block = some heading ∧ heading.table.SameHeading table := by
  rw [declaredTable_value] at declared
  obtain ⟨heading, head, rfl⟩ := Option.map_eq_some_iff.1 declared
  refine ⟨heading, head, ?_⟩
  have body := (extendsBy_foldlM (s := s) heading.table children).heading
  exact ⟨body.name, body.schema, body.aliasName, body.headerColor, body.color⟩

/-- The schema and the name of a declared table are those of its block's heading. -/
theorem tableName?_of_declaredTable
    (declared : (s.declaredTable block children).value = some table) :
    tableName? block.header = some (table.schema, table.name) := by
  obtain ⟨heading, head, same⟩ := sameHeading_of_declaredTable declared
  rw [same.schema, same.name]
  obtain ⟨schema, name, named, rfl⟩ := heading?_eq_some head
  exact named

theorem relationships_of_heading? {heading : TableHeading}
    (head : s.heading? block = some heading) :
    heading.table.relationships = [] := by
  obtain ⟨schema, name, -, rfl⟩ := heading?_eq_some head
  rfl

/-- The relationships of a declared table point at the targets in its body, in their order. -/
theorem targets_of_declaredTable
    (declared : (s.declaredTable block children).value = some table) :
    table.relationships.map (fun r => (r.toTable, r.toColumn)) =
      (children.filterMap s.targetIn?).map fun range =>
        ((s.endpoint range).table, (s.endpoint range).column) := by
  rw [declaredTable_value] at declared
  obtain ⟨heading, head, rfl⟩ := Option.map_eq_some_iff.1 declared
  have body := (extendsBy_foldlM (s := s) heading.table children).relationships
  rw [relationships_of_heading? head, List.nil_append] at body
  rw [TableHeading.complete, body, List.map_filterMap, List.map_filterMap]
  exact List.filterMap_congr fun x _ => target_of_columnIn? s heading.table.key x

end Source

end Dbml
