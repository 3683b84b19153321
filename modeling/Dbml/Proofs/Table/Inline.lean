import Dbml.Proofs.Finding.Silent
import Dbml.Proofs.Table.Heading
import Mathlib.Data.List.Forall2

/-!
# The relationships of columns

A column with a reference of its own makes one relationship, and no other column makes any. This
holds of a column after each of its settings and of a table after each segment of its body. Main
statement: `inlines_of_declaredTable`.
-/

namespace Dbml

/-- The columns that have a reference of their own. -/
def referring (columns : List Column) : List Column :=
  columns.filter (·.reference.isSome)

@[simp] theorem referring_append (first second : List Column) :
    referring (first ++ second) = referring first ++ referring second :=
  List.filter_append ..

namespace Source

/-- The relationship of a column with a reference, in the table with the key. -/
structure Inlines (s : Source) (key : String) (column : Column) (relationship : Relationship) :
    Prop where
  fromTable : relationship.fromTable = key
  fromColumn : relationship.fromColumn = column.name
  target : ∃ value range, s.columnReference? value = some (relationship.kind, range) ∧
    column.reference = some (s.text range) ∧
    relationship.toTable = (s.endpoint range).table ∧
    relationship.toColumn = (s.endpoint range).column
  name : relationship.name = none
  onDelete : relationship.onDelete = none
  onUpdate : relationship.onUpdate = none

/-- The relationships are those of the columns, one for each that has a reference. -/
def InlinesAll (s : Source) (key : String) (columns : List Column)
    (relationships : List Relationship) : Prop :=
  List.Forall₂ (s.Inlines key) (referring columns) relationships

variable {s : Source} {key : String} {column other : Column} {relationship : Relationship}
  {columns : List Column} {relationships : List Relationship} {table : DeclaredTable}

theorem Inlines.congr (inlines : s.Inlines key column relationship)
    (name : other.name = column.name) (reference : other.reference = column.reference) :
    s.Inlines key other relationship :=
  ⟨inlines.fromTable, inlines.fromColumn.trans name.symm, by rw [reference]; exact inlines.target,
    inlines.name, inlines.onDelete, inlines.onUpdate⟩

/-- Columns may change in all but their names and references. -/
theorem InlinesAll.map (inlines : s.InlinesAll key columns relationships) {f : Column → Column}
    (name : ∀ column, (f column).name = column.name)
    (reference : ∀ column, (f column).reference = column.reference) :
    s.InlinesAll key (columns.map f) relationships := by
  have same : referring (columns.map f) = (referring columns).map f := by
    simp only [referring, List.filter_map]
    congr 1
    exact List.filter_congr fun column _ => by simp [reference]
  rw [InlinesAll, same, List.forall₂_map_left_iff]
  exact inlines.imp fun column _ own => own.congr (name column) (reference column)

/-! ## Columns -/

/-- A setting leaves the reference of the column as it is, or gives it the first one. -/
theorem applyColumnSetting_reference (s : Source) (key : String) (declared : DeclaredColumn)
    (setting : Setting) {after : DeclaredColumn}
    (result : (s.applyColumnSetting key declared setting).value = after) :
    (after.column.name = declared.column.name ∧
      after.column.reference = declared.column.reference ∧
      after.relationship = declared.relationship) ∨
    ∃ relationship, after.column.reference.isSome ∧ after.relationship = some relationship ∧
      s.Inlines key after.column relationship := by
  subst result
  unfold applyColumnSetting
  split
  · dsimp only
    split <;> exact .inl ⟨rfl, rfl, rfl⟩
  next name value position =>
    dsimp only
    split
    · exact .inl ⟨rfl, rfl, rfl⟩
    · split <;> exact .inl ⟨rfl, rfl, rfl⟩
    · split
      · exact .inl ⟨rfl, rfl, rfl⟩
      · split
        next kind range read =>
          refine .inr ⟨Relationship.inline key declared.column.name kind (s.endpoint range), ?_⟩
          split <;> exact ⟨rfl, rfl, rfl, rfl, ⟨value, range, read, rfl, rfl, rfl⟩, rfl, rfl, rfl⟩
        · exact .inl ⟨rfl, rfl, rfl⟩
    · exact .inl ⟨rfl, rfl, rfl⟩
  · exact .inl ⟨rfl, rfl, rfl⟩

/-- What is asked of a column while its settings are read. -/
def InlinesOwn (s : Source) (key : String) (declared : DeclaredColumn) : Prop :=
  s.InlinesAll key [declared.column] declared.relationship.toList

theorem inlinesOwn_applyColumnSetting {declared : DeclaredColumn}
    (inlines : s.InlinesOwn key declared) (setting : Setting) :
    s.InlinesOwn key (s.applyColumnSetting key declared setting).value := by
  rcases applyColumnSetting_reference s key declared setting rfl with
    ⟨name, reference, relationship⟩ | ⟨relationship, refers, made, own⟩
  · have changed := InlinesAll.map inlines
      (f := fun column =>
        { (s.applyColumnSetting key declared setting).value.column with
          name := column.name, reference := column.reference }) (fun _ => rfl) (fun _ => rfl)
    rw [List.map_singleton, ← name, ← reference, ← relationship] at changed
    exact changed
  · rw [InlinesOwn, InlinesAll, made, referring, List.filter_singleton, refers]
    exact .cons own .nil

theorem inlinesOwn_of_column? {line : TokenRange} {declared : DeclaredColumn}
    (read : (s.column? key line).value = some declared) : s.InlinesOwn key declared := by
  unfold column? at read
  split at read
  · cases read
  next name type next _ =>
    rw [Noted.bind_value, Noted.bind_value, Noted.pure_value] at read
    cases read
    have start : s.InlinesOwn key { column := { name, type } } := .nil
    exact Noted.foldlM_invariant start fun declared inlines setting _ =>
      inlinesOwn_applyColumnSetting inlines setting

/-! ## Tables -/

theorem inlinesAll_addIndex (index : Index)
    (inlines : s.InlinesAll key table.columns table.relationships) :
    s.InlinesAll key (table.addIndex index).columns (table.addIndex index).relationships := by
  unfold DeclaredTable.addIndex DeclaredTable.markKeys
  split
  · refine inlines.map (fun column => ?_) (fun column => ?_) <;> split <;> rfl
  · exact inlines

theorem key_addIndex (table : DeclaredTable) (index : Index) :
    (table.addIndex index).key = table.key := by
  unfold DeclaredTable.addIndex DeclaredTable.markKeys
  split <;> rfl

/-- What is asked of a table while its body is read. -/
def Inlined (s : Source) (key : String) (table : DeclaredTable) : Prop :=
  table.key = key ∧ s.InlinesAll key table.columns table.relationships

theorem inlined_addIndexes {children : List Segment} (inlined : s.Inlined key table) :
    s.Inlined key (s.addIndexes table children).value := by
  induction children generalizing table with
  | nil => exact inlined
  | cons x rest ih =>
    cases x with
    | line line =>
      rw [addIndexes, Noted.bind_value]
      refine ih ?_
      cases (s.index? line).value with
      | none => exact inlined
      | some index =>
        exact ⟨(key_addIndex table index).trans inlined.1, inlinesAll_addIndex index inlined.2⟩
    | block block children =>
      rw [addIndexes]
      exact ih inlined

theorem inlined_applyTableSegment (inlined : s.Inlined key table) (x : Segment) :
    s.Inlined key (s.applyTableSegment table x).value := by
  cases x with
  | line line =>
    rw [applyTableSegment, applyTableLine]
    split
    · exact inlined
    · exact inlined
    · split
      · exact inlined
      · rw [Noted.bind_value]
        split
        next declared read =>
          refine ⟨inlined.1, ?_⟩
          rw [inlined.1] at read
          show List.Forall₂ _ (referring (table.columns ++ [declared.column])) _
          rw [referring_append]
          exact List.rel_append inlined.2 (inlinesOwn_of_column? read)
        · exact inlined
  | block block children =>
    rw [applyTableSegment]
    split
    · exact inlined
    · exact inlined_addIndexes inlined
    · exact inlined

/-- A declared table has one relationship for each column with a reference, in the order of the
columns. -/
theorem inlines_of_declaredTable {block : Block} {children : List Segment}
    (declared : (s.declaredTable block children).value = some table) :
    s.InlinesAll table.key table.columns table.relationships := by
  rw [declaredTable_value] at declared
  obtain ⟨heading, head, rfl⟩ := Option.map_eq_some_iff.1 declared
  have empty : s.Inlined heading.table.key heading.table := by
    obtain ⟨schema, name, -, rfl⟩ := heading?_eq_some head
    exact ⟨rfl, .nil⟩
  have read : s.Inlined heading.table.key
      (children.foldlM s.applyTableSegment heading.table).value :=
    Noted.foldlM_invariant empty fun table inlined x _ => inlined_applyTableSegment inlined x
  show s.InlinesAll (children.foldlM s.applyTableSegment heading.table).value.key _ _
  rw [read.1]
  exact read.2

end Source

end Dbml
