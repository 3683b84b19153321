import Dbml.Proofs.Table.Body

/-!
# Primary keys in a body

A body declares columns and indexes, one after another. An index that is a primary key marks the
columns that it names, of those declared before it; a column is thus marked by the indexes behind
it. Main statement: `keys_of_declaredTable`.
-/

namespace Dbml

/-! ## What a body declares -/

inductive BodyItem
  | column (column : Column)
  | index (index : Index)
  deriving DecidableEq, Repr

/-- Whether the index is a primary key that names the column. -/
def Index.keys (index : Index) (column : Column) : Bool :=
  index.pk && index.columns.contains column.name

/-- The column, a primary key also when one of the indexes makes it one. -/
def Column.keyedBy (column : Column) (indexes : List Index) : Column :=
  { column with pk := column.pk || indexes.any (·.keys column) }

namespace Column

@[simp] theorem keyedBy_nil (column : Column) : column.keyedBy [] = column := by
  simp [keyedBy]

@[simp] theorem keyedBy_append (column : Column) (first second : List Index) :
    column.keyedBy (first ++ second) = (column.keyedBy first).keyedBy second := by
  simp [keyedBy, Index.keys, Bool.or_assoc]

theorem pk_keyedBy {column : Column} {indexes : List Index} {index : Index}
    (listed : index ∈ indexes) (keys : index.keys column = true) :
    (column.keyedBy indexes).pk = true := by
  rw [keyedBy, Bool.or_eq_true]
  exact .inr (List.any_eq_true.2 ⟨index, listed, keys⟩)

end Column

namespace BodyItem

def column? : BodyItem → Option Column
  | .column c => some c
  | .index _ => none

def index? : BodyItem → Option Index
  | .column _ => none
  | .index i => some i

/-- The indexes among the items. -/
def indexes (items : List BodyItem) : List Index :=
  items.filterMap index?

/-- The columns among the items, each marked by the indexes behind it. -/
def keyedColumns : List BodyItem → List Column
  | [] => []
  | .column c :: rest => c.keyedBy (indexes rest) :: keyedColumns rest
  | .index _ :: rest => keyedColumns rest

@[simp] theorem indexes_nil : indexes [] = [] := rfl

@[simp] theorem indexes_column (c : Column) : indexes [.column c] = [] := rfl

@[simp] theorem indexes_append (before after : List BodyItem) :
    indexes (before ++ after) = indexes before ++ indexes after :=
  List.filterMap_append

/-- Items behind mark the columns in front of them, and add their own. -/
@[simp] theorem keyedColumns_append (before after : List BodyItem) :
    keyedColumns (before ++ after) =
      (keyedColumns before).map (·.keyedBy (indexes after)) ++ keyedColumns after := by
  induction before with
  | nil => rfl
  | cons item rest ih =>
    cases item with
    | column c => simp [keyedColumns, ih]
    | index i => exact ih

theorem length_keyedColumns (items : List BodyItem) :
    (keyedColumns items).length = (items.filterMap column?).length := by
  induction items with
  | nil => rfl
  | cons item rest ih =>
    cases item with
    | column c => simp [keyedColumns, column?, ih]
    | index i =>
      rw [keyedColumns, ih, List.filterMap_cons_none rfl]

variable {before after : List BodyItem} {index : Index} {column : Column}

/-- An index that is a primary key marks every column it names that is declared before it. -/
theorem pk_of_declared_before (pk : index.pk = true)
    (declared : column ∈ (keyedColumns (before ++ .index index :: after)).take
      (before.filterMap column?).length)
    (named : column.name ∈ index.columns) : column.pk = true := by
  rw [keyedColumns_append, ← length_keyedColumns, List.take_left' (List.length_map _)] at declared
  obtain ⟨bare, -, rfl⟩ := List.mem_map.1 declared
  apply Column.pk_keyedBy List.mem_cons_self
  rw [Index.keys, pk, Bool.true_and, List.contains_iff_mem]
  exact named

/-- Every column that a primary key names is one, exactly when this holds of the columns that are
declared behind the key. -/
theorem pk_iff_declared_behind (items : List BodyItem) :
    (∀ index ∈ indexes items, index.pk = true →
      ∀ column ∈ keyedColumns items, column.name ∈ index.columns → column.pk = true) ↔
    ∀ before index after, items = before ++ .index index :: after → index.pk = true →
      ∀ column ∈ keyedColumns after, column.name ∈ index.columns → column.pk = true := by
  constructor
  · intro all before index after split pk column declared named
    subst split
    refine all index ?_ pk column ?_ named
    · simp [indexes, index?]
    · rw [keyedColumns_append]
      exact List.mem_append_right _ declared
  · intro behind index listed pk column declared named
    obtain ⟨item, there, same⟩ := List.mem_filterMap.1 listed
    obtain ⟨before, after, split⟩ := List.append_of_mem there
    have isIndex : item = .index index := by
      cases item with
      | column c => cases same
      | index i => exact congrArg BodyItem.index (Option.some.inj same)
    subst isIndex split
    rw [keyedColumns_append] at declared
    rcases List.mem_append.1 declared with early | late
    · refine @pk_of_declared_before before after index column pk ?_ named
      rw [keyedColumns_append, ← length_keyedColumns, List.take_left' (List.length_map _)]
      exact early
    · exact behind before index after rfl pk column late named

end BodyItem

open BodyItem

namespace Source

variable {s : Source}

/-- The index that a line of an `indexes` block declares. -/
def indexIn? (s : Source) : Segment → Option Index
  | .line line => (s.index? line).value
  | .block _ _ => none

/-- What a segment of a body declares, in the table with the key. -/
def itemsIn (s : Source) (key : String) : Segment → List BodyItem
  | .line line => ((s.columnIn? key (.line line)).map fun declared => .column declared.column).toList
  | .block block children =>
    if block.kind = .indexes then (children.filterMap s.indexIn?).map .index else []

/-- What a whole body declares, in its order. -/
def bodyItems (s : Source) (key : String) (body : List Segment) : List BodyItem :=
  body.flatMap (s.itemsIn key)

/-! ## What a body makes of a table -/

/-- The columns are marked by the indexes among the items, and the items are added. -/
structure KeysBy (before : DeclaredTable) (items : List BodyItem) (after : DeclaredTable) :
    Prop where
  columns : after.columns = before.columns.map (·.keyedBy (indexes items)) ++ keyedColumns items
  indexes : after.indexes = before.indexes ++ indexes items

theorem keysBy_nil {before after : DeclaredTable} (columns : after.columns = before.columns)
    (indexes : after.indexes = before.indexes) : KeysBy before [] after := by
  constructor
  · simp [columns, keyedColumns]
  · simp [indexes]

theorem KeysBy.trans {a b c : DeclaredTable} {first second : List BodyItem}
    (front : KeysBy a first b) (back : KeysBy b second c) : KeysBy a (first ++ second) c := by
  constructor
  · rw [back.columns, front.columns]
    simp [Function.comp_def]
  · rw [back.indexes, front.indexes]
    simp

theorem keysBy_addIndex (table : DeclaredTable) (index : Index) :
    KeysBy table [.index index] (table.addIndex index) := by
  constructor
  · show (table.markKeys index).columns = table.columns.map (·.keyedBy [index]) ++ []
    rw [List.append_nil, DeclaredTable.markKeys]
    by_cases pk : index.pk = true
    · rw [if_pos pk]
      refine List.map_congr_left fun column _ => ?_
      by_cases named : column.name ∈ index.columns
      · rw [if_pos (List.contains_iff_mem.2 named)]
        simp [Column.keyedBy, Index.keys, pk, named]
      · rw [if_neg (by simpa using named)]
        simp [Column.keyedBy, Index.keys, named]
    · rw [if_neg pk]
      simp [Column.keyedBy, Index.keys, pk]
  · rfl

theorem keysBy_addIndexes (table : DeclaredTable) (children : List Segment) :
    KeysBy table ((children.filterMap s.indexIn?).map .index)
      (s.addIndexes table children).value := by
  induction children generalizing table with
  | nil => exact keysBy_nil rfl rfl
  | cons x rest ih =>
    cases x with
    | line line =>
      rw [addIndexes, Noted.bind_value]
      cases read : (s.index? line).value with
      | none =>
        rw [List.filterMap_cons_none (show s.indexIn? (.line line) = none from read)]
        exact ih table
      | some index =>
        rw [List.filterMap_cons_some (show s.indexIn? (.line line) = some index from read)]
        exact (keysBy_addIndex table index).trans (ih (table.addIndex index))
    | block block children =>
      rw [addIndexes]
      exact ih table

theorem keysBy_applyTableSegment (table : DeclaredTable) (x : Segment) :
    KeysBy table (s.itemsIn table.key x) (s.applyTableSegment table x).value := by
  cases x with
  | line line =>
    rw [applyTableSegment, applyTableLine, itemsIn, columnIn?]
    cases s.noteLine? line with
    | some note =>
      rw [if_pos (.inl rfl)]
      cases note <;> exact keysBy_nil rfl rfl
    | none =>
      by_cases short : (s.shortForm? line).isSome = true
      · simp only [short, if_true, or_true]
        exact keysBy_nil rfl rfl
      · simp only [Option.isSome_none, Bool.false_eq_true, short, or_self, if_false,
          Noted.bind_value]
        cases (s.column? table.key line).value with
        | none => exact keysBy_nil rfl rfl
        | some declared =>
          constructor
          · simp [keyedColumns]
          · simp
  | block block children =>
    rw [itemsIn]
    by_cases kind : block.kind = .indexes
    · rw [if_pos kind, applyTableSegment, kind]
      exact keysBy_addIndexes table children
    · rw [if_neg kind, applyTableSegment]
      split
      · exact keysBy_nil rfl rfl
      · contradiction
      · exact keysBy_nil rfl rfl

/-- What a whole body does. -/
theorem keysBy_foldlM (table : DeclaredTable) (body : List Segment) :
    KeysBy table (s.bodyItems table.key body) (body.foldlM s.applyTableSegment table).value := by
  induction body generalizing table with
  | nil => exact keysBy_nil rfl rfl
  | cons x rest ih =>
    have first := keysBy_applyTableSegment (s := s) table x
    have others := ih (s.applyTableSegment table x).value
    rw [DeclaredTable.SameHeading.key_eq (extendsBy_applyTableSegment table x).heading] at others
    rw [List.foldlM_cons, Noted.bind_value, bodyItems, List.flatMap_cons]
    exact first.trans others

/-- The columns and the indexes of a declared table are those of its body. -/
theorem keys_of_declaredTable {block : Block} {children : List Segment} {table : DeclaredTable}
    (declared : (s.declaredTable block children).value = some table) :
    table.columns = keyedColumns (s.bodyItems table.key children) ∧
      table.indexes = indexes (s.bodyItems table.key children) := by
  rw [declaredTable_value] at declared
  obtain ⟨heading, head, rfl⟩ := Option.map_eq_some_iff.1 declared
  have body := keysBy_foldlM (s := s) heading.table children
  have key : (heading.complete (children.foldlM s.applyTableSegment heading.table).value).key =
      heading.table.key := by
    show (children.foldlM s.applyTableSegment heading.table).value.key = heading.table.key
    exact DeclaredTable.SameHeading.key_eq (extendsBy_foldlM heading.table children).heading
  have bare : heading.table.columns = [] ∧ heading.table.indexes = [] := by
    obtain ⟨schema, name, -, rfl⟩ := heading?_eq_some head
    exact ⟨rfl, rfl⟩
  rw [key]
  constructor
  · exact body.columns.trans (by rw [bare.1]; rfl)
  · exact body.indexes.trans (by rw [bare.2]; rfl)

end Source

end Dbml
