import Dbml.Proofs.Json.Outline
import Mathlib.Data.List.Forall2

/-!
# Presentations of values

What a reader of records knows of a value is its schema: the members of each record, and what they
are when they are missing. For such a reader many forms present the same value. The members of an
object may be in any order, with others among them that the reader does not know; a member that is
missing may be given, and one that need not be given may be left out; and strings may be spelled in
any way.
-/

namespace Dbml.Json

/-! ## Schemas -/

/-- A member that the reader of a record knows. -/
structure FieldSchema (σ : Type) where
  key : String
  /-- What the member is when it is missing, if it may be. -/
  missing : Option Json
  schema : σ

inductive Schema
  | scalar
  | list (item : Schema)
  | record (fields : List (FieldSchema Schema))

namespace FieldSchema

variable {σ : Type}

def required (key : String) (schema : σ) : FieldSchema σ :=
  { key, missing := none, schema }

/-- A member that is null when it is missing. -/
def optional (key : String) (schema : σ) : FieldSchema σ :=
  { key, missing := some .null, schema }

end FieldSchema

/-! ## Presentations -/

/-- The given members present the written ones, one by one. -/
inductive PresentsMembers (presents : Schema → Json → Form → Prop) :
    List (FieldSchema Schema) → List (String × Json) → List (List Stroke × Form) → Prop
  | nil : PresentsMembers presents [] [] []
  /-- The member is written and given. -/
  | kept {field : FieldSchema Schema} {fields : List (FieldSchema Schema)} {value : Json}
    {written : List (String × Json)} {name : List Stroke} {form : Form}
    {given : List (List Stroke × Form)} (spells : Spells field.key.toList name)
    (first : presents field.schema value form)
    (rest : PresentsMembers presents fields written given) :
    PresentsMembers presents (field :: fields) ((field.key, value) :: written)
      ((name, form) :: given)
  /-- The member is written, but need not be given. -/
  | leftOut {field : FieldSchema Schema} {fields : List (FieldSchema Schema)} {value : Json}
    {written : List (String × Json)} {given : List (List Stroke × Form)}
    (missing : field.missing = some value)
    (rest : PresentsMembers presents fields written given) :
    PresentsMembers presents (field :: fields) ((field.key, value) :: written) given
  /-- The member is not written, but given as what it is when it is missing. -/
  | filledIn {field : FieldSchema Schema} {fields : List (FieldSchema Schema)} {value : Json}
    {written : List (String × Json)} {name : List Stroke} {form : Form}
    {given : List (List Stroke × Form)} (missing : field.missing = some value)
    (spells : Spells field.key.toList name) (first : presents field.schema value form)
    (rest : PresentsMembers presents fields written given) :
    PresentsMembers presents (field :: fields) written ((name, form) :: given)
  /-- The member is neither written nor given. -/
  | absent {field : FieldSchema Schema} {fields : List (FieldSchema Schema)} {value : Json}
    {written : List (String × Json)} {given : List (List Stroke × Form)}
    (missing : field.missing = some value)
    (rest : PresentsMembers presents fields written given) :
    PresentsMembers presents (field :: fields) written given

/-- The name is that of none of the fields. -/
def Unknown (fields : List (FieldSchema Schema)) (name : List Stroke) : Prop :=
  ∀ field ∈ fields, ¬ Spells field.key.toList name

/-- The form presents the value to a reader who knows the schema. Members that the reader does not
know may have any values, and any names that are admitted. -/
inductive Presents (admitted : List Stroke → Prop) : Schema → Json → Form → Prop
  | null {schema : Schema} : Presents admitted schema .null .null
  | bool {schema : Schema} {b : Bool} : Presents admitted schema (.bool b) (.bool b)
  | num {schema : Schema} {n : Nat} : Presents admitted schema (.num n) (.number (.ofCount n))
  | str {schema : Schema} {s : String} {strokes : List Stroke} (spells : Spells s.toList strokes) :
    Presents admitted schema (.str s) (.string strokes)
  | arr {item : Schema} {values : List Json} {forms : List Form}
    (length : values.length = forms.length)
    (items : ∀ {value : Json} {form : Form}, (value, form) ∈ values.zip forms →
      Presents admitted item value form) :
    Presents admitted (.list item) (.arr values) (.array forms)
  | obj {fields : List (FieldSchema Schema)} {written : List (String × Json)}
    {given others shown : List (List Stroke × Form)}
    (known : PresentsMembers (Presents admitted) fields written given)
    (unknown : ∀ member ∈ others, admitted member.1 ∧ Unknown fields member.1)
    (order : shown.Perm (given ++ others)) :
    Presents admitted (.record fields) (.obj written) (.object shown)

/-- The strokes are the name of a member as a string: no surrogate stands alone in them. -/
def Legible (name : List Stroke) : Prop :=
  ∃ key : String, Spells key.toList name

variable {admitted : List Stroke → Prop}

theorem presents_arr_iff {item : Schema} {values : List Json} {forms : List Form} :
    Presents admitted (.list item) (.arr values) (.array forms) ↔
      List.Forall₂ (Presents admitted item) values forms := by
  rw [List.forall₂_iff_zip]
  constructor
  · rintro ⟨⟩
    exact ⟨‹_›, ‹_›⟩
  · exact fun ⟨length, items⟩ => .arr length items

/-- An object in which only known members stand, in any order. -/
theorem Presents.of_perm {fields : List (FieldSchema Schema)} {written : List (String × Json)}
    {given shown : List (List Stroke × Form)}
    (known : PresentsMembers (Presents admitted) fields written given) (order : shown.Perm given) :
    Presents admitted (.record fields) (.obj written) (.object shown) := by
  refine .obj known ?_ (order.trans (.of_eq (List.append_nil given).symm))
  exact nofun

/-- Only members that the reader knows are written. -/
theorem PresentsMembers.exists_field {presents : Schema → Json → Form → Prop}
    {fields : List (FieldSchema Schema)} {written : List (String × Json)}
    {given : List (List Stroke × Form)} (members : PresentsMembers presents fields written given) :
    ∀ member ∈ written, ∃ field ∈ fields, field.key = member.1 := by
  induction members with
  | nil => exact nofun
  | kept _ _ _ ih | leftOut _ _ ih =>
    intro member listed
    rcases List.mem_cons.1 listed with rfl | listed
    · exact ⟨_, List.mem_cons_self, rfl⟩
    · obtain ⟨field, known, same⟩ := ih member listed
      exact ⟨field, List.mem_cons_of_mem _ known, same⟩
  | filledIn _ _ _ _ ih | absent _ _ ih =>
    intro member listed
    obtain ⟨field, known, same⟩ := ih member listed
    exact ⟨field, List.mem_cons_of_mem _ known, same⟩

/-- Every given member spells the key of a field. -/
theorem PresentsMembers.exists_spells {presents : Schema → Json → Form → Prop}
    {fields : List (FieldSchema Schema)} {written : List (String × Json)}
    {given : List (List Stroke × Form)} (members : PresentsMembers presents fields written given) :
    ∀ member ∈ given, ∃ field ∈ fields, Spells field.key.toList member.1 := by
  induction members with
  | nil => exact nofun
  | kept spells _ _ ih | filledIn _ spells _ _ ih =>
    intro member listed
    rcases List.mem_cons.1 listed with rfl | listed
    · exact ⟨_, List.mem_cons_self, spells⟩
    · obtain ⟨field, known, same⟩ := ih member listed
      exact ⟨field, List.mem_cons_of_mem _ known, same⟩
  | leftOut _ _ ih | absent _ _ ih =>
    intro member listed
    obtain ⟨field, known, same⟩ := ih member listed
    exact ⟨field, List.mem_cons_of_mem _ known, same⟩

theorem unknown_of_not_mem {fields : List (FieldSchema Schema)} {key : String} {name : List Stroke}
    (spells : Spells key.toList name) (unlisted : key ∉ fields.map (·.key)) :
    Unknown fields name := by
  intro field known other
  obtain rfl := Option.some.inj (other.readStrokes.symm.trans spells.readStrokes)
  exact unlisted (List.mem_map_of_mem known)

/-- Nothing but null presents null. -/
theorem Presents.outline_ne_null {schema : Schema} {value : Json} {form : Form}
    (presents : Presents admitted schema value form) (some_value : value ≠ .null) :
    form.outline ≠ .null := by
  cases presents with
  | null => exact absurd rfl some_value
  | bool | num | str | arr | obj => simp [Form.outline]

end Dbml.Json
