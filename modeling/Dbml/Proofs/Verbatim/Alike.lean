import Dbml.Document
import Mathlib.Data.List.Forall2
import Mathlib.Data.Option.Defs

/-!
# Data that is alike but for its raw texts

Some texts of a database are taken from the document as they are written: types, values and colours
that are not quoted, targets of references. A relation between such texts makes one between
columns, tables and whole databases, in which everything else is the same. Main statements: related
steps make related folds (`alike_foldlM`), and databases are equal when their raw texts are
(`Database.Alike.eq`).
-/

namespace Dbml

/-! ## The parts of a database -/

section Parts

variable (R : String → String → Prop)

structure Column.Alike (a b : Column) : Prop where
  name : b.name = a.name
  type : R a.type b.type
  pk : b.pk = a.pk
  unique : b.unique = a.unique
  notNull : b.notNull = a.notNull
  increment : b.increment = a.increment
  defaultValue : Option.Rel R a.defaultValue b.defaultValue
  note : b.note = a.note
  reference : Option.Rel R a.reference b.reference

structure Index.Alike (a b : Index) : Prop where
  columns : b.columns = a.columns
  unique : b.unique = a.unique
  pk : b.pk = a.pk
  name : Option.Rel R a.name b.name
  type : Option.Rel R a.type b.type
  note : b.note = a.note

/-- A column that is no name is raw. -/
structure Relationship.Alike (a b : Relationship) : Prop where
  fromTable : b.fromTable = a.fromTable
  fromColumn : R a.fromColumn b.fromColumn
  toTable : b.toTable = a.toTable
  toColumn : R a.toColumn b.toColumn
  kind : b.kind = a.kind
  name : b.name = a.name
  onDelete : Option.Rel R a.onDelete b.onDelete
  onUpdate : Option.Rel R a.onUpdate b.onUpdate

structure Table.Alike (a b : Table) : Prop where
  name : b.name = a.name
  schema : b.schema = a.schema
  aliasName : b.aliasName = a.aliasName
  columns : List.Forall₂ (Column.Alike R) a.columns b.columns
  indexes : List.Forall₂ (Index.Alike R) a.indexes b.indexes
  note : b.note = a.note
  groupId : b.groupId = a.groupId
  color : R a.color b.color

structure TableGroup.Alike (a b : TableGroup) : Prop where
  id : b.id = a.id
  name : b.name = a.name
  note : b.note = a.note
  color : R a.color b.color
  tables : b.tables = a.tables

structure Project.Alike (a b : Project) : Prop where
  name : b.name = a.name
  databaseType : Option.Rel R a.databaseType b.databaseType
  note : b.note = a.note

structure Database.Alike (a b : Database) : Prop where
  tables : List.Forall₂ (Table.Alike R) a.tables b.tables
  relationships : List.Forall₂ (Relationship.Alike R) a.relationships b.relationships
  tableGroups : List.Forall₂ (TableGroup.Alike R) a.tableGroups b.tableGroups
  project : Option.Rel (Project.Alike R) a.project b.project

/-- The target of a reference in a cause is raw. -/
inductive Cause.Alike : Cause → Cause → Prop
  | same (cause : Cause) : Cause.Alike cause cause
  | unplacedTarget {x y : String} (related : R x y) :
    Cause.Alike (.unplacedTarget x) (.unplacedTarget y)

/-- The same finding at a token that is no line end. -/
structure Finding.Alike (s : Source) (a b : Finding) : Prop where
  position : b.position = a.position
  solid : s.token? a.position ≠ some .newline
  cause : Cause.Alike R a.cause b.cause

/-- The same location, and the reasons of causes that are alike. -/
structure Diagnostic.Alike (a b : Diagnostic) : Prop where
  location : b.location = a.location
  reason : ∃ cause cause', Cause.Alike R cause cause' ∧ a.reason = cause.message ∧
    b.reason = cause'.message

end Parts

/-! ## Values that may be absent -/

theorem isSome_of_optionRel {α β : Type} {Q : α → β → Prop} {x : Option α} {y : Option β}
    (related : Option.Rel Q x y) : y.isSome = x.isSome := by
  cases related <;> rfl

theorem cases_of_optionRel {α β : Type} {Q : α → β → Prop} {x : Option α} {y : Option β}
    (related : Option.Rel Q x y) :
    x = none ∧ y = none ∨ ∃ a b, x = some a ∧ y = some b ∧ Q a b := by
  cases related with
  | none => exact .inl ⟨rfl, rfl⟩
  | some related => exact .inr ⟨_, _, rfl, rfl, related⟩

/-- A property that related values share is read off both with one result. -/
theorem elim_of_optionRel {α β γ : Type} {Q : α → β → Prop} {x : Option α} {y : Option β}
    (related : Option.Rel Q x y) {f : α → γ} {g : β → γ} (absent : γ)
    (same : ∀ a b, Q a b → g b = f a) : y.elim absent g = x.elim absent f := by
  cases related with
  | none => rfl
  | some related => exact same _ _ related

theorem map_of_optionRel {α β γ : Type} {Q : α → β → Prop} {x : Option α} {y : Option β}
    (related : Option.Rel Q x y) {f : α → γ} {g : β → γ} (same : ∀ a b, Q a b → g b = f a) :
    y.map g = x.map f := by
  cases related with
  | none => rfl
  | some related => exact congrArg some (same _ _ related)

theorem optionRel_map {α β γ δ : Type} {Q : α → β → Prop} {P : γ → δ → Prop} {x : Option α}
    {y : Option β} (related : Option.Rel Q x y) {f : α → γ} {g : β → δ}
    (step : ∀ a b, Q a b → P (f a) (g b)) : Option.Rel P (x.map f) (y.map g) := by
  cases related with
  | none => exact .none
  | some related => exact .some (step _ _ related)

theorem forall₂_toList {α β : Type} {Q : α → β → Prop} {x : Option α} {y : Option β}
    (related : Option.Rel Q x y) : List.Forall₂ Q x.toList y.toList := by
  cases related with
  | none => exact .nil
  | some related => exact .cons related .nil

/-! ## Equal raw texts -/

theorem eq_of_optionRel {α : Type} {Q : α → α → Prop} (eq : ∀ {a b}, Q a b → b = a)
    {x y : Option α} (related : Option.Rel Q x y) : y = x := by
  cases related with
  | none => rfl
  | some related => rw [eq related]

theorem eq_of_forall₂ {α : Type} {Q : α → α → Prop} (eq : ∀ {a b}, Q a b → b = a)
    {xs ys : List α} (related : List.Forall₂ Q xs ys) : ys = xs := by
  induction related with
  | nil => rfl
  | cons first _ ih => rw [eq first, ih]

theorem Column.Alike.eq {a b : Column} (alike : Column.Alike Eq a b) : b = a := by
  obtain ⟨name, type, pk, unique, notNull, increment, default, note, reference⟩ := alike
  have default := eq_of_optionRel Eq.symm default
  have reference := eq_of_optionRel Eq.symm reference
  cases a
  cases b
  simp_all

theorem Index.Alike.eq {a b : Index} (alike : Index.Alike Eq a b) : b = a := by
  obtain ⟨columns, unique, pk, name, type, note⟩ := alike
  have name := eq_of_optionRel Eq.symm name
  have type := eq_of_optionRel Eq.symm type
  cases a
  cases b
  simp_all

theorem Relationship.Alike.eq {a b : Relationship} (alike : Relationship.Alike Eq a b) : b = a := by
  obtain ⟨fromTable, fromColumn, toTable, toColumn, kind, name, delete, update⟩ := alike
  have delete := eq_of_optionRel Eq.symm delete
  have update := eq_of_optionRel Eq.symm update
  cases a
  cases b
  simp_all

theorem Table.Alike.eq {a b : Table} (alike : Table.Alike Eq a b) : b = a := by
  obtain ⟨name, schema, aliasName, columns, indexes, note, groupId, color⟩ := alike
  have columns := eq_of_forall₂ Column.Alike.eq columns
  have indexes := eq_of_forall₂ Index.Alike.eq indexes
  cases a
  cases b
  simp_all

theorem TableGroup.Alike.eq {a b : TableGroup} (alike : TableGroup.Alike Eq a b) : b = a := by
  obtain ⟨id, name, note, color, tables⟩ := alike
  cases a
  cases b
  simp_all

theorem Project.Alike.eq {a b : Project} (alike : Project.Alike Eq a b) : b = a := by
  obtain ⟨name, type, note⟩ := alike
  have type := eq_of_optionRel Eq.symm type
  cases a
  cases b
  simp_all

theorem Database.Alike.eq {a b : Database} (alike : Database.Alike Eq a b) : b = a := by
  obtain ⟨tables, relationships, groups, project⟩ := alike
  have tables := eq_of_forall₂ Table.Alike.eq tables
  have relationships := eq_of_forall₂ Relationship.Alike.eq relationships
  have groups := eq_of_forall₂ TableGroup.Alike.eq groups
  have project := eq_of_optionRel Project.Alike.eq project
  cases a
  cases b
  simp_all

theorem Cause.Alike.eq {a b : Cause} (alike : Cause.Alike Eq a b) : b = a := by
  cases alike with
  | same => rfl
  | unplacedTarget related => rw [related]

theorem Diagnostic.Alike.eq {a b : Diagnostic} (alike : Diagnostic.Alike Eq a b) : b = a := by
  obtain ⟨location, cause, cause', same, first, second⟩ := alike
  rw [same.eq] at second
  cases a
  cases b
  simp_all

/-! ## Values with findings -/

namespace Noted

variable {α β γ δ : Type} {F : Finding → Finding → Prop} {Q : α → β → Prop} {P : γ → δ → Prop}

/-- The values are related, and so are the findings one by one. -/
structure Alike (F : Finding → Finding → Prop) (Q : α → β → Prop) (x : Noted α) (y : Noted β) :
    Prop where
  value : Q x.value y.value
  findings : List.Forall₂ F x.findings y.findings

theorem alike_pure {a : α} {b : β} (related : Q a b) : Alike F Q (pure a) (pure b) :=
  ⟨related, .nil⟩

theorem Alike.bind {x : Noted α} {y : Noted β} {f : α → Noted γ} {g : β → Noted δ}
    (first : Alike F Q x y) (second : ∀ a b, Q a b → Alike F P (f a) (g b)) :
    Alike F P (x >>= f) (y >>= g) := by
  obtain ⟨value, findings⟩ := second x.value y.value first.value
  exact ⟨value, List.rel_append first.findings findings⟩

/-- What follows the same value. -/
theorem Alike.bind_same {x y : Noted α} {f : α → Noted γ} {g : α → Noted δ}
    (first : Alike F Eq x y) (second : ∀ a, Alike F P (f a) (g a)) :
    Alike F P (x >>= f) (y >>= g) :=
  first.bind fun a b same => by
    rw [← same]
    exact second a

/-- Two findings that are related, and what follows them. -/
theorem alike_note {position position' : Nat} {cause cause' : Cause} {f : Unit → Noted γ}
    {g : Unit → Noted δ} (related : F ⟨position, cause⟩ ⟨position', cause'⟩)
    (next : Alike F P (f ()) (g ())) :
    Alike F P (note position cause >>= f) (note position' cause' >>= g) := by
  have noted : Alike F Eq (note position cause) (note position' cause') :=
    ⟨rfl, .cons related .nil⟩
  exact noted.bind_same fun _ => next

/-- Related steps over related lists make related folds. -/
theorem alike_foldlM {f : α → γ → Noted α} {g : β → δ → Noted β} {xs : List γ} {ys : List δ}
    {a : α} {b : β} (lists : List.Forall₂ P xs ys) (start : Q a b)
    (step : ∀ a b x y, Q a b → P x y → Alike F Q (f a x) (g b y)) :
    Alike F Q (xs.foldlM f a) (ys.foldlM g b) := by
  induction lists generalizing a b with
  | nil => exact alike_pure start
  | cons related _ ih =>
    rw [List.foldlM_cons, List.foldlM_cons]
    exact (step _ _ _ _ start related).bind fun _ _ => ih

/-- Related steps over one list make related folds. -/
theorem alike_foldlM_same {f : α → γ → Noted α} {g : β → γ → Noted β} {xs : List γ} {a : α} {b : β}
    (start : Q a b) (step : ∀ a b x, x ∈ xs → Q a b → Alike F Q (f a x) (g b x)) :
    Alike F Q (xs.foldlM f a) (xs.foldlM g b) := by
  have lists : List.Forall₂ (fun x y => x = y ∧ x ∈ xs) xs xs :=
    List.forall₂_same.2 fun x listed => ⟨rfl, listed⟩
  refine alike_foldlM lists start ?_
  rintro a b x y related ⟨rfl, listed⟩
  exact step a b x listed related

end Noted

/-! ## Results -/

/-- Both fail with related errors, or both succeed with related values. -/
inductive Except.Alike {ε ε' α β : Type} (E : ε → ε' → Prop) (Q : α → β → Prop) :
    Except ε α → Except ε' β → Prop
  | error {e : ε} {e' : ε'} (related : E e e') : Except.Alike E Q (.error e) (.error e')
  | ok {a : α} {b : β} (related : Q a b) : Except.Alike E Q (.ok a) (.ok b)

namespace Except.Alike

variable {ε ε' α β γ δ : Type} {E : ε → ε' → Prop} {Q P : α → β → Prop} {x : Except ε α}
  {y : Except ε' β}

theorem imp (alike : Except.Alike E Q x y) (step : ∀ a b, Q a b → P a b) : Except.Alike E P x y := by
  cases alike with
  | error related => exact .error related
  | ok related => exact .ok (step _ _ related)

theorem map {P : γ → δ → Prop} (alike : Except.Alike E Q x y) {f : α → γ} {g : β → δ}
    (step : ∀ a b, Q a b → P (f a) (g b)) : Except.Alike E P (x.map f) (y.map g) := by
  cases alike with
  | error related => exact .error related
  | ok related => exact .ok (step _ _ related)

end Except.Alike

end Dbml
