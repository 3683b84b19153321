import Dbml.Proofs.Respacing.Settings
import Mathlib.Data.Multiset.AddSub

/-!
# What settings do to a column

A setting changes one part of a column, or a cause is noted for it. Changes of different parts may
change places, and so a column has the same parts after any order of changes among which no part is
given a value twice. Main statement: `ColumnChange.run_perm`.
-/

namespace Dbml

/-- What a setting does to a column. -/
inductive ColumnChange
  /-- Marks the column; no mark is taken away. -/
  | flag (pk unique notNull increment : Bool)
  | default (value : Option String)
  | note (text : String)
  /-- The kind of a reference, the text of its target and where it points; nothing if the value of
  the setting is no reference. -/
  | reference (target : Option (RelationKind × String × Endpoint))
  | remark (cause : Cause)
  deriving DecidableEq, Repr

namespace ColumnChange

/-- The column after the change, in the table with the key, and what is noted about it. -/
def apply (table : String) (declared : DeclaredColumn) :
    ColumnChange → DeclaredColumn × List Cause
  | .flag pk unique notNull increment =>
    let column := declared.column
    ({ declared with column :=
      { column with
        pk := column.pk || pk
        unique := column.unique || unique
        notNull := column.notNull || notNull
        increment := column.increment || increment } }, [])
  | .default value =>
    ({ declared with column := { declared.column with defaultValue := value } }, [])
  | .note text => ({ declared with column := { declared.column with note := some text } }, [])
  | .reference target =>
    let column := declared.column
    if column.reference.isSome then (declared, [.repeatedColumnReference column.name])
    else match target with
      | some (kind, text, endpoint) =>
        ({ column := { column with reference := some text }
           relationship := some (Relationship.inline table column.name kind endpoint) },
          if endpoint.malformed then [.unplacedTarget text] else [])
      | none => (declared, [.malformedColumnReference])
  | .remark cause => (declared, [cause])

/-- The key of the part that is given a value. -/
def key? : ColumnChange → Option String
  | .default _ => some "default"
  | .note _ => some "note"
  | .reference _ => some "ref"
  | .flag .. | .remark _ => none

theorem key?_mem {change : ColumnChange} {key : String} (given : change.key? = some key) :
    key ∈ ["default", "note", "ref"] := by
  cases change with
  | flag => cases given
  | remark => cases given
  | default =>
    cases given
    decide
  | note =>
    cases given
    decide
  | reference =>
    cases given
    decide

/-- One change after others: the column and all that is noted about it, in no order. -/
def step (table : String) (state : DeclaredColumn × Multiset Cause) (change : ColumnChange) :
    DeclaredColumn × Multiset Cause :=
  let result := change.apply table state.1
  (result.1, state.2 + result.2)

/-- All changes, one after the other. -/
def run (table : String) (declared : DeclaredColumn) (changes : List ColumnChange) :
    DeclaredColumn × Multiset Cause :=
  changes.foldl (step table) (declared, 0)

end ColumnChange

/-- The key of a setting that has one. -/
def Setting.key? : Setting → Option String
  | .pair key _ _ => some key
  | .flag .. | .invalid _ => none

/-- The value, and the causes that were noted, in no order. -/
def Noted.told {α : Type} (x : Noted α) : α × Multiset Cause :=
  (x.value, x.findings.map (·.cause))

theorem Noted.told_bind {α β : Type} (x : Noted α) (f : α → Noted β) :
    (x >>= f).told = ((f x.value).told.1, x.told.2 + (f x.value).told.2) := by
  rw [told, bind_value, bind_findings, List.map_append, ← Multiset.coe_add]
  rfl

namespace Source

/-- What the setting does to a column. -/
def columnChange (s : Source) : Setting → ColumnChange
  | .flag words _ =>
    match words with
    | "primary key" | "pk" => .flag true false false false
    | "unique" => .flag false true false false
    | "not null" => .flag false false true false
    | "null" => .flag false false false false
    | "increment" => .flag false false false true
    | _ => .remark (.unknownColumnSetting words)
  | .pair key value _ =>
    match key with
    | "default" => .default (s.valueText value)
    | "note" => (s.quotedText value).elim (.remark .unquotedColumnNote) .note
    | "ref" => .reference ((s.columnReference? value).map fun (kind, range) =>
        (kind, s.text range, s.endpoint range))
    | _ => .remark (.unknownColumnSetting key)
  | .invalid _ => .remark .malformedColumnSetting

variable {s s' : Source} {setting setting' : Setting} {table : String}

/-- A setting does to a column what its change does. -/
theorem applyColumnSetting_eq (s : Source) (table : String) (declared : DeclaredColumn)
    (setting : Setting) :
    ((s.applyColumnSetting table declared setting).value,
      (s.applyColumnSetting table declared setting).findings.map (·.cause)) =
    (s.columnChange setting).apply table declared := by
  cases setting with
  | flag words position =>
    unfold columnChange
    dsimp only
    split
    · simp [applyColumnSetting, ColumnChange.apply]
    · simp [applyColumnSetting, ColumnChange.apply]
    · simp [applyColumnSetting, ColumnChange.apply]
    · simp [applyColumnSetting, ColumnChange.apply]
    · simp [applyColumnSetting, ColumnChange.apply]
    · simp [applyColumnSetting, ColumnChange.apply]
    next primary pk unique notNull null increment =>
      have other :
          words ∉ ["primary key", "pk", "unique", "not null", "null", "increment"] := by
        simp only [List.mem_cons, List.not_mem_nil, or_false, not_or]
        exact ⟨primary, pk, unique, notNull, null, increment⟩
      rw [applyColumnSetting_word other]
      rfl
  | pair key value position =>
    unfold columnChange
    dsimp only
    split
    · rfl
    · rw [applyColumnSetting]
      cases s.quotedText value with
      | none => rfl
      | some note => rfl
    · simp only [applyColumnSetting, ColumnChange.apply]
      by_cases repeated : declared.column.reference.isSome = true
      · rw [if_pos repeated, if_pos repeated]
        rfl
      · rw [if_neg repeated, if_neg repeated]
        cases s.columnReference? value with
        | none => rfl
        | some found =>
          obtain ⟨kind, target⟩ := found
          simp only [Option.map_some]
          by_cases malformed : (s.endpoint target).malformed = true
          · rw [if_pos malformed, if_pos malformed]
            rfl
          · rw [if_neg malformed, if_neg malformed]
            rfl
    next noDefault noNote noReference =>
      rw [applyColumnSetting_other noDefault noNote noReference]
      rfl
  | invalid position => rfl

/-- Only a setting with the key of a part gives it a value. -/
theorem key?_of_columnChange {key : String} (given : (s.columnChange setting).key? = some key) :
    setting.key? = some key := by
  cases setting with
  | flag words position =>
    unfold columnChange at given
    dsimp only at given
    split at given
    all_goals cases given
  | pair name value position =>
    unfold columnChange at given
    dsimp only at given
    split at given
    · exact given
    · cases text : s.quotedText value with
      | none =>
        rw [text] at given
        cases given
      | some note =>
        rw [text] at given
        exact given
    · exact given
    · cases given
  | invalid position => cases given

end Source

/-- A copied setting makes the same change. -/
theorem Setting.Copied.columnChange {s s' : Source} {place : Nat → Nat} {setting setting' : Setting}
    (copied : Setting.Copied s s' place setting setting') :
    s'.columnChange setting' = s.columnChange setting := by
  cases copied with
  | flag words position => rfl
  | invalid position => rfl
  | @pair key position value d copied =>
    have reference : (s'.columnReference? (value.shift d)).map (fun (kind, range) =>
          (kind, s'.text range, s'.endpoint range)) =
        (s.columnReference? value).map fun (kind, range) =>
          (kind, s.text range, s.endpoint range) := by
      rw [copied.columnReference?]
      cases refers : s.columnReference? value with
      | none => rfl
      | some found =>
        have part := copied.of_columnReference? refers
        simp only [Option.map_some, part.whole_text, part.endpoint]
    simp only [Source.columnChange, copied.valueText, copied.quotedText, reference]

namespace ColumnChange

variable {table : String} {declared : DeclaredColumn} {x y : ColumnChange}
  {changes changes' : List ColumnChange}

/-! ## Two changes in either order -/

/-- A reference and a change of another part may change places. -/
theorem apply_reference_comm {target : Option (RelationKind × String × Endpoint)}
    (other : x.key? ≠ some "ref") :
    (apply table (apply table declared x).1 (.reference target)).1 =
      (apply table (apply table declared (.reference target)).1 x).1 := by
  by_cases repeated : declared.column.reference.isSome = true
  · cases x with
    | reference => exact absurd rfl other
    | _ => simp [apply, repeated]
  · cases x with
    | reference => exact absurd rfl other
    | _ =>
      cases target with
      | none => simp [apply, repeated]
      | some found => simp [apply, repeated]

/-- The column is the same after both changes, if they do not give the same part a value. -/
theorem apply_comm (apart : ∀ key, x.key? = some key → y.key? ≠ some key) :
    (apply table (apply table declared x).1 y).1 =
      (apply table (apply table declared y).1 x).1 := by
  cases x with
  | remark cause => rfl
  | reference target =>
    exact (apply_reference_comm (apart "ref" rfl)).symm
  | flag pk unique notNull increment =>
    cases y with
    | flag => simp [apply, Bool.or_right_comm]
    | reference target => exact apply_reference_comm (by simp [key?])
    | _ => rfl
  | default value =>
    cases y with
    | default => exact absurd rfl (apart "default" rfl)
    | reference target => exact apply_reference_comm (by simp [key?])
    | _ => rfl
  | note text =>
    cases y with
    | note => exact absurd rfl (apart "note" rfl)
    | reference target => exact apply_reference_comm (by simp [key?])
    | _ => rfl

/-- What is noted about a change is the same after a change of another part. -/
theorem causes_apply (apart : ∀ key, x.key? = some key → y.key? ≠ some key) :
    (apply table (apply table declared x).1 y).2 = (apply table declared y).2 := by
  cases y with
  | reference target =>
    -- It matters only whether there is a reference already, and the name of the column.
    by_cases repeated : declared.column.reference.isSome = true
    · cases x with
      | reference => exact absurd rfl (apart "ref" rfl)
      | _ => simp [apply, repeated]
    · cases x with
      | reference => exact absurd rfl (apart "ref" rfl)
      | _ =>
        cases target with
        | none => simp [apply, repeated]
        | some found => simp [apply, repeated]
  | _ => rfl

theorem step_comm (apart : ∀ key, x.key? = some key → y.key? ≠ some key)
    (state : DeclaredColumn × Multiset Cause) :
    step table (step table state x) y = step table (step table state y) x := by
  have apart' : ∀ key, y.key? = some key → x.key? ≠ some key :=
    fun key given same => apart key same given
  refine Prod.ext (apply_comm apart) ?_
  have left : (step table (step table state x) y).2 =
      state.2 + (apply table state.1 x).2 + (apply table state.1 y).2 :=
    congrArg (fun causes : List Cause => state.2 + _ + (causes : Multiset Cause))
      (causes_apply apart)
  have right : (step table (step table state y) x).2 =
      state.2 + (apply table state.1 y).2 + (apply table state.1 x).2 :=
    congrArg (fun causes : List Cause => state.2 + _ + (causes : Multiset Cause))
      (causes_apply apart')
  rw [left, right, Multiset.add_assoc, Multiset.add_assoc]
  exact congrArg (state.2 + ·) (Multiset.add_comm _ _)

/-! ## All changes -/

/-- Two of some things are one if no two have the property. -/
theorem eq_of_countP_le_one {α : Type} {p : α → Bool} {xs : List α} (single : xs.countP p ≤ 1)
    {a b : α} (first : a ∈ xs) (second : b ∈ xs) (left : p a = true) (right : p b = true) :
    a = b := by
  rw [List.countP_eq_length_filter] at single
  have first' := List.mem_filter.2 ⟨first, left⟩
  have second' := List.mem_filter.2 ⟨second, right⟩
  generalize xs.filter p = found at single first' second'
  rcases found with _ | ⟨c, _ | ⟨d, rest⟩⟩
  · cases first'
  · rw [List.mem_singleton.1 first', List.mem_singleton.1 second']
  · simp at single

/-- The column and what is noted about it do not depend on the order of the changes, if no part is
given a value twice. -/
theorem run_perm (perm : changes.Perm changes')
    (single : ∀ key, changes.countP (·.key? = some key) ≤ 1) :
    run table declared changes = run table declared changes' := by
  refine perm.foldl_eq' (fun x first y second state => ?_) _
  by_cases same : x = y
  · rw [same]
  · refine step_comm (fun key given given' => same ?_) state
    exact eq_of_countP_le_one (single key) first second (by simpa using given)
      (by simpa using given')

end ColumnChange

namespace Source

/-- The settings of a column change it one after the other. -/
theorem foldlM_applyColumnSetting (s : Source) (table : String) (declared : DeclaredColumn)
    (settings : List Setting) :
    (settings.foldlM (s.applyColumnSetting table) declared).told =
      ColumnChange.run table declared (settings.map s.columnChange) := by
  -- What was noted before is kept.
  suffices kept : ∀ causes : Multiset Cause,
      ((settings.foldlM (s.applyColumnSetting table) declared).told.1,
        causes + (settings.foldlM (s.applyColumnSetting table) declared).told.2) =
      (settings.map s.columnChange).foldl (ColumnChange.step table) (declared, causes) by
    have all := kept 0
    rwa [Multiset.zero_add] at all
  induction settings generalizing declared with
  | nil =>
    intro causes
    exact Prod.ext rfl (Multiset.add_zero causes)
  | cons setting rest ih =>
    intro causes
    obtain ⟨value, noted⟩ := Prod.mk.inj (applyColumnSetting_eq s table declared setting)
    rw [List.foldlM_cons, List.map_cons, List.foldl_cons, Noted.told_bind, ← Multiset.add_assoc]
    rw [ih, value, Noted.told, noted]
    rfl

end Source

end Dbml
