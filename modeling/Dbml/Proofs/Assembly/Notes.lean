import Dbml.Assembly
import Dbml.Proofs.Table.Heading
import Mathlib.Data.List.Basic
import Mathlib.Data.List.Induction
import Mathlib.Data.List.ReduceOption

/-!
# Notes of headings and bodies

Lines and blocks of a body state notes, quoted or not, and a heading may give one among its
settings. In a table and in a group the last quoted note of the body goes before the heading's; in a
project the last note stated counts, even when it is not quoted. Main statements:
`note_of_declaredTable`, `note_groupBody` and `note_projectBody`.
-/

namespace Dbml

/-! ## Settings of which the last one counts -/

namespace Setting

/-- The value of a setting with the key. -/
def value? (key : String) : Setting → Option TokenRange
  | .pair own value _ => if own = key then some value else none
  | _ => none

theorem value?_of_other {key : String} {setting : Setting}
    (other : ∀ value position, setting ≠ .pair key value position) : setting.value? key = none := by
  cases setting with
  | pair own value position =>
    refine if_neg fun same => ?_
    subst same
    exact other value position rfl
  | _ => rfl

end Setting

namespace Source

variable {s : Source}

/-- The value of the last setting with the key in a heading. -/
def lastValue? (s : Source) (header : Header) (key : String) : Option TokenRange :=
  ((header.settings.elim [] s.settings).filterMap (·.value? key)).getLast?

section Fields

variable {σ α : Type} {step : σ → Setting → Noted σ} {field : σ → Option α}
  {read : TokenRange → Option α} {key : String}

/-- When each setting with the key replaces a field, the last one settles it. -/
theorem field_foldlM
    (replaces : ∀ given setting, field (step given setting).value =
      (setting.value? key).elim (field given) read)
    (settings : List Setting) (given : σ) :
    field (settings.foldlM step given).value =
      (settings.filterMap (·.value? key)).getLast?.elim (field given) read := by
  induction settings generalizing given with
  | nil => rfl
  | cons setting rest ih =>
    rw [List.foldlM_cons, Noted.bind_value, ih, replaces]
    cases here : setting.value? key with
    | none => rw [List.filterMap_cons_none here, Option.elim_none]
    | some value =>
      rw [List.filterMap_cons_some here, List.getLast?_cons]
      cases (rest.filterMap (·.value? key)).getLast? <;> rfl

/-- What the settings of a heading make of a field that is empty at first. -/
theorem field_foldlM_heading
    (replaces : ∀ given setting, field (step given setting).value =
      (setting.value? key).elim (field given) read)
    (header : Header) {given : σ} (bare : field given = none) :
    field ((header.settings.elim [] s.settings).foldlM step given).value =
      (s.lastValue? header key).bind read := by
  rw [field_foldlM replaces, bare, lastValue?]
  cases (List.filterMap _ _).getLast? <;> rfl

end Fields

/-- The note of a heading: that of its last setting `note`, and none when this one is not quoted. -/
def headingNote? (s : Source) (header : Header) : Option String :=
  (s.lastValue? header "note").bind s.quotedText

theorem note_applyTableSetting (given : TableSettings) (setting : Setting) :
    (s.applyTableSetting given setting).value.note =
      (setting.value? "note").elim given.note s.quotedText := by
  cases setting with
  | pair key value position =>
    unfold applyTableSetting
    dsimp only
    split
    · rfl
    · rfl
    · rfl
    next noNote =>
      rw [Setting.value?, if_neg noNote]
      rfl
  | flag words position => rfl
  | invalid position => rfl

theorem note_applyGroupSetting (given : Assembly.GroupSettings) (setting : Setting) :
    (Assembly.applyGroupSetting s given setting).value.note =
      (setting.value? "note").elim given.note s.quotedText := by
  unfold Assembly.applyGroupSetting
  split
  · rfl
  · rfl
  next _ noNote =>
    rw [Setting.value?_of_other noNote]
    rfl

/-! ## The notes of a body -/

/-- The note that a segment of a body states, with nothing in it when it is not quoted; no note at
all when the segment states none. -/
def noteIn? (s : Source) : Segment → Option (Option String)
  | .line line => s.noteLine? line
  | .block block _ => if block.kind = .note then some (s.blockNote block) else none

/-- The notes that a body states, in its order. -/
def statedNotes (s : Source) (body : List Segment) : List (Option String) :=
  body.filterMap s.noteIn?

/-- The last quoted note of a body. -/
def bodyNote? (s : Source) (body : List Segment) : Option String :=
  (s.statedNotes body).reduceOption.getLast?

theorem noteIn?_block {block : Block} (kind : block.kind ≠ .note) (children : List Segment) :
    s.noteIn? (.block block children) = none :=
  if_neg kind

theorem bodyNote?_cons (x : Segment) (rest : List Segment) :
    s.bodyNote? (x :: rest) = (s.bodyNote? rest).or (s.noteIn? x).join := by
  rw [bodyNote?, bodyNote?, statedNotes, statedNotes]
  cases stated : s.noteIn? x with
  | none =>
    rw [List.filterMap_cons_none stated]
    exact (Option.or_none).symm
  | some note =>
    rw [List.filterMap_cons_some stated]
    cases note with
    | none =>
      rw [List.reduceOption_cons_of_none]
      exact (Option.or_none).symm
    | some text =>
      rw [List.reduceOption_cons_of_some, List.getLast?_cons]
      cases (List.reduceOption _).getLast? <;> rfl

/-- When each quoted note replaces the one before it, the last quoted one settles it. -/
theorem note_foldlM {σ : Type} {step : σ → Segment → Noted σ} {note : σ → Option String}
    (replaces : ∀ state x, note (step state x).value = (s.noteIn? x).join.or (note state))
    (body : List Segment) (state : σ) :
    note (body.foldlM step state).value = (s.bodyNote? body).or (note state) := by
  induction body generalizing state with
  | nil => rfl
  | cons x rest ih =>
    rw [List.foldlM_cons, Noted.bind_value, ih, replaces, bodyNote?_cons, Option.or_assoc]

/-! ### In a table -/

theorem note_addIndexes (table : DeclaredTable) (children : List Segment) :
    (s.addIndexes table children).value.note = table.note := by
  induction children generalizing table with
  | nil => rfl
  | cons x rest ih =>
    cases x with
    | line line =>
      rw [addIndexes, Noted.bind_value, ih]
      cases (s.index? line).value with
      | none => rfl
      | some index =>
        show (table.addIndex index).note = table.note
        unfold DeclaredTable.addIndex DeclaredTable.markKeys
        split <;> rfl
    | block block children =>
      rw [addIndexes]
      exact ih table

theorem note_applyTableSegment (table : DeclaredTable) (x : Segment) :
    (s.applyTableSegment table x).value.note = (s.noteIn? x).join.or table.note := by
  cases x with
  | line line =>
    rw [applyTableSegment, applyTableLine, noteIn?]
    cases s.noteLine? line with
    | some note => cases note <;> rfl
    | none =>
      by_cases short : (s.shortForm? line).isSome = true
      · simp [short]
      · simp only [short, Bool.false_eq_true, if_false, Noted.bind_value]
        cases (s.column? table.key line).value <;> rfl
  | block block children =>
    rw [applyTableSegment]
    split
    next kind =>
      rw [noteIn?, if_pos kind]
      rfl
    next kind =>
      rw [noteIn?_block (by rw [kind]; decide)]
      exact note_addIndexes table children
    next isNote _ =>
      rw [noteIn?_block isNote]
      rfl

/-- The note of a declared table. -/
theorem note_of_declaredTable {block : Block} {children : List Segment} {table : DeclaredTable}
    (declared : (s.declaredTable block children).value = some table) :
    table.note = (s.bodyNote? children).or (s.headingNote? block.header) := by
  rw [declaredTable_value] at declared
  obtain ⟨heading, head, rfl⟩ := Option.map_eq_some_iff.1 declared
  have body : (children.foldlM s.applyTableSegment heading.table).value.note =
      (s.bodyNote? children).or heading.table.note :=
    note_foldlM note_applyTableSegment children heading.table
  have bare : heading.table.note = none ∧ heading.note = s.headingNote? block.header := by
    obtain ⟨schema, name, -, rfl⟩ := heading?_eq_some head
    exact ⟨rfl, field_foldlM_heading note_applyTableSetting block.header rfl⟩
  rw [TableHeading.complete, body, bare.1, bare.2, Option.or_none]

end Source

open Source

namespace Assembly

variable {s : Source}

/-! ### In a group -/

theorem note_applyGroupSegment (group : Option Nat) (o : OpenGroup) (x : Segment) :
    (applyGroupSegment s group o x).value.note = (s.noteIn? x).join.or o.note := by
  cases x with
  | line line =>
    unfold applyGroupSegment noteIn?
    dsimp only
    cases s.noteLine? line with
    | some note => rfl
    | none =>
      by_cases short : (s.shortForm? line).isSome = true
      · simp [short]
      · simp only [short, Bool.false_eq_true, if_false]
        cases nameParts (s.tokens line) <;> cases group <;> rfl
  | block block children =>
    rw [applyGroupSegment]
    split
    next kind =>
      rw [noteIn?_block (by rw [kind]; decide)]
      rfl
    next kind =>
      rw [noteIn?, if_pos kind]
      rfl
    next _ isNote =>
      rw [noteIn?_block isNote]
      rfl

/-- The note that the body of a group comes to. -/
theorem note_groupBody (group : Option Nat) (children : List Segment) (a : Assembly) :
    (children.foldlM (applyGroupSegment s group) { assembly := a }).value.note =
      s.bodyNote? children := by
  rw [note_foldlM (note_applyGroupSegment group), Option.or_none]

/-! ### In a project -/

theorem note_applyProjectSegment (project : Project) (x : Segment) :
    (applyProjectSegment s project x).note = (s.noteIn? x).getD project.note := by
  cases x with
  | line line =>
    rw [applyProjectSegment, noteIn?]
    cases s.noteLine? line with
    | some note => rfl
    | none =>
      dsimp only
      split <;> rfl
  | block block children =>
    rw [applyProjectSegment, noteIn?]
    split <;> rfl

theorem name_applyProjectSegment (project : Project) (x : Segment) :
    (applyProjectSegment s project x).name = project.name := by
  cases x with
  | line line =>
    rw [applyProjectSegment]
    split
    · rfl
    · split <;> rfl
  | block block children =>
    rw [applyProjectSegment]
    split <;> rfl

/-- Each note stated in a project replaces the one before it, quoted or not. -/
theorem note_projectBody (children : List Segment) (project : Project) :
    (children.foldl (applyProjectSegment s) project).note =
      (s.statedNotes children).getLast?.getD project.note := by
  induction children generalizing project with
  | nil => rfl
  | cons x rest ih =>
    rw [List.foldl_cons, ih, note_applyProjectSegment, statedNotes, statedNotes]
    cases stated : s.noteIn? x with
    | none => rw [List.filterMap_cons_none stated, Option.getD_none]
    | some note =>
      rw [List.filterMap_cons_some stated, List.getLast?_cons]
      rfl

theorem name_projectBody (children : List Segment) (project : Project) :
    (children.foldl (applyProjectSegment s) project).name = project.name := by
  induction children generalizing project with
  | nil => rfl
  | cons x rest ih => rw [List.foldl_cons, ih, name_applyProjectSegment]

end Assembly

/-- The last note stated is the last quoted one, unless it is not quoted and an earlier one is. -/
theorem getLast?_join_eq_iff (notes : List (Option String)) :
    notes.getLast?.join = notes.reduceOption.getLast? ↔
      (notes.getLast? = some none → ∀ note ∈ notes, note = none) := by
  induction notes using List.reverseRecOn with
  | nil => simp
  | append_singleton earlier last _ =>
    cases last with
    | some text => simp [List.reduceOption_append]
    | none =>
      have unquoted : earlier.reduceOption = [] ↔ ∀ note ∈ earlier, note = none := by
        simp [List.reduceOption, List.filterMap_eq_nil_iff]
      have last : (earlier ++ [none]).reduceOption = earlier.reduceOption := by
        simp [List.reduceOption]
      rw [List.getLast?_concat, last, Option.join_some, eq_comm, List.getLast?_eq_none_iff,
        unquoted]
      simp [or_imp]

end Dbml
