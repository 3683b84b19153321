import Dbml.Proofs.Checked.Lines
import Dbml.Proofs.Respacing.Lines

/-!
# Columns read inside bounds

A column is read off a line: its type goes on over tokens without a gap, and its settings stand
between brackets, of which the second may be missing. Main statement: `column?_eq`, a line that ends
inside the source is read without leaving it.
-/

namespace Dbml

open Token (Run)
open Trial

variable {s : Source} {i j stop : Nat} {range line value : TokenRange}

namespace Source

theorem columnReference?_bounds {kind : RelationKind}
    (given : s.columnReference? value = some (kind, range)) :
    range.start ≤ range.stop ∧ range.stop = value.stop := by
  rw [columnReference?] at given
  split at given
  · cases given
  next long =>
    obtain ⟨kind, -, same⟩ := Option.map_eq_some_iff.1 given
    cases same
    rw [TokenRange.size] at long
    exact ⟨show value.start + 1 ≤ value.stop by omega, rfl⟩

end Source

namespace Checked

/-! ## Columns -/

/-- The end of a type, as `Source.typeEnd` gives it; none as well when it does not move on. -/
def typeEnd (s : Source) (j stop : Nat) : Option Nat :=
  if j < stop then do
    let adjacent ← isAdjacent s j
    if adjacent then
      if s.isMark j .openParen then
        match ← matching s j stop .openParen .closeParen with
        | some close => if j ≤ close then typeEnd s (close + 1) stop else none
        | none => return stop
      else if s.isMark j .openBracket then
        if s.isMark (j + 1) .closeBracket ∧ j + 1 < stop then typeEnd s (j + 2) stop else return j
      else typeEnd s (j + 1) stop
    else return j
  else some j
termination_by stop - j

def columnType? (s : Source) (start stop : Nat) : Option (Option (String × Nat)) :=
  if start < stop then
    match s.token? start with
    | some (.str text) => some (some (text, start + 1))
    | some (.ident _) | some (.num _) => do
      let j ← typeEnd s (start + 1) stop
      let type ← text s ⟨start, j⟩
      return some (type, j)
    | _ => some none
  else some none

def columnHead? (s : Source) (line : TokenRange) : Option (Option (String × String × Nat)) :=
  match (s.token? line.start).bind Token.name? with
  | none => some none
  | some name => do
    let type ← columnType? s (line.start + 1) line.stop
    return type.map fun (type, next) => (name, type, next)

/-- The column with one more setting, as `Source.applyColumnSetting` gives it. -/
def applyColumnSetting (s : Source) (table : String) (declared : DeclaredColumn) :
    Setting → Trial DeclaredColumn
  | .flag words position => liftM (s.applyColumnSetting table declared (.flag words position))
  | .pair key value position =>
    let column := declared.column
    match key with
    | "default" => do
      let defaultValue ← access (valueText s value)
      return { declared with column := { column with defaultValue } }
    | "note" =>
      match s.quotedText value with
      | some note => return { declared with column := { column with note := some note } }
      | none => do
        Noted.note position .unquotedColumnNote
        return declared
    | "ref" =>
      if column.reference.isSome then do
        Noted.note position (.repeatedColumnReference column.name)
        return declared
      else
        match s.columnReference? value with
        | some (kind, range) => do
          let raw ← access (text s range)
          let target ← access (endpoint s range)
          if target.malformed then Noted.note position (.unplacedTarget raw)
          return {
            column := { column with reference := some raw }
            relationship := some (Relationship.inline table column.name kind target) }
        | none => do
          Noted.note position .malformedColumnReference
          return declared
    | _ => do
      Noted.note position (.unknownColumnSetting key)
      return declared
  | .invalid position => do
    Noted.note position .malformedColumnSetting
    return declared

def columnSettings (s : Source) (column : String) (range : TokenRange) : Trial (List Setting) :=
  match s.find? range (·.isMark .openBracket) with
  | none => return []
  | some opening => do
    match ← access (matching s opening range.stop .openBracket .closeBracket) with
    | some closing => access (settings s ⟨opening + 1, closing⟩)
    | none => do
      Noted.note opening (.unclosedColumnSettings column)
      access (settings s ⟨opening + 1, range.stop⟩)

/-- The column of a line, as `Source.column?` gives it. -/
def column? (s : Source) (table : String) (line : TokenRange) : Trial (Option DeclaredColumn) := do
  match ← access (columnHead? s line) with
  | none => return none
  | some (name, type, next) =>
    let settings ← columnSettings s name ⟨next, line.stop⟩
    let declared ← settings.foldlM (applyColumnSetting s table) { column := { name, type } }
    return some declared

theorem typeEnd_eq (bound : stop ≤ s.size) : typeEnd s j stop = some (s.typeEnd j stop) := by
  fun_induction Source.typeEnd s j stop with
  | case1 j inside opens close closes ih =>
    have order : j ≤ close := (Source.matching_bounds closes).1
    rw [typeEnd, if_pos inside.1, isAdjacent_eq, inside.2, matching_eq bound, closes]
    simp only [Option.bind_eq_bind, Option.bind_some, if_true, opens, order, ih]
  | case2 j inside opens none =>
    rw [typeEnd, if_pos inside.1, isAdjacent_eq, inside.2, matching_eq bound, none]
    simp only [Option.bind_eq_bind, Option.bind_some, if_true, opens]
    rfl
  | case3 j inside noParen bracket closed ih =>
    rw [typeEnd, if_pos inside.1, isAdjacent_eq, inside.2]
    simp only [Option.bind_eq_bind, Option.bind_some, if_true, if_neg noParen, bracket,
      if_pos closed, ih]
  | case4 j inside noParen bracket open_ =>
    rw [typeEnd, if_pos inside.1, isAdjacent_eq, inside.2]
    simp only [Option.bind_eq_bind, Option.bind_some, if_true, if_neg noParen, bracket,
      if_neg open_]
    rfl
  | case5 j inside noParen noBracket ih =>
    rw [typeEnd, if_pos inside.1, isAdjacent_eq, inside.2]
    simp only [Option.bind_eq_bind, Option.bind_some, if_true, if_neg noParen,
      if_neg noBracket, ih]
  | case6 j apart =>
    rw [typeEnd]
    split
    next inside =>
      have gap : s.isAdjacent j = false := by simpa [inside] using apart
      rw [isAdjacent_eq, gap]
      rfl
    · rfl

theorem columnSettings_eq (column : String) (range : TokenRange) (bound : range.stop ≤ s.size) :
    columnSettings s column range = liftM (s.columnSettings column range) ∧
      ∀ setting ∈ (s.columnSettings column range).value, setting.Fits s := by
  rw [columnSettings, Source.columnSettings]
  cases s.find? range (·.isMark .openBracket) with
  | none => exact ⟨rfl, fun setting listed => absurd listed List.not_mem_nil⟩
  | some opening =>
    dsimp only
    rw [matching_eq bound]
    cases closes : s.matching opening range.stop .openBracket .closeBracket with
    | none =>
      have rest : settings s ⟨opening + 1, range.stop⟩ = _ := settings_eq bound
      have fits : ∀ setting ∈ s.settings ⟨opening + 1, range.stop⟩, setting.Fits s :=
        Source.fits_settings bound
      refine ⟨?_, fits⟩
      simp only [access_bind, rest]
      rfl
    | some closing =>
      have inside : closing ≤ s.size :=
        Nat.le_trans (Nat.le_of_lt (Source.matching_bounds closes).2.1) bound
      have between : settings s ⟨opening + 1, closing⟩ = _ := settings_eq inside
      have fits : ∀ setting ∈ s.settings ⟨opening + 1, closing⟩, setting.Fits s :=
        Source.fits_settings inside
      refine ⟨?_, fits⟩
      simp only [access_bind, between]
      rfl

section

variable (run : Run 0 s.chars s.lexemes.toList)
include run

theorem columnType?_eq (bound : stop ≤ s.size) :
    columnType? s i stop = some (s.columnType? i stop) := by
  rw [columnType?, Source.columnType?]
  split
  next inside =>
    have type : (do
        let j ← typeEnd s (i + 1) stop
        let type ← text s ⟨i, j⟩
        return some (type, j) : Option (Option (String × Nat))) =
        some (some (s.text ⟨i, s.typeEnd (i + 1) stop⟩, s.typeEnd (i + 1) stop)) := by
      have part : text s ⟨i, s.typeEnd (i + 1) stop⟩ = some (s.text ⟨i, s.typeEnd (i + 1) stop⟩) :=
        text_eq run (Nat.le_trans (Source.typeEnd_le inside) bound)
      rw [typeEnd_eq bound]
      simp only [Option.bind_eq_bind, Option.bind_some, part]
      rfl
    cases s.token? i with
    | none => rfl
    | some t =>
      cases t with
      | ident => exact type
      | num => exact type
      | _ => rfl
  · rfl

theorem columnHead?_eq (bound : line.stop ≤ s.size) :
    columnHead? s line = some (s.columnHead? line) := by
  rw [columnHead?, Source.columnHead?]
  cases (s.token? line.start).bind Token.name? with
  | none => rfl
  | some name =>
    simp only [columnType?_eq run bound, Option.bind_eq_bind, Option.bind_some]
    cases s.columnType? (line.start + 1) line.stop <;> rfl

theorem applyColumnSetting_eq (table : String) (declared : DeclaredColumn) {setting : Setting}
    (fits : setting.Fits s) : applyColumnSetting s table declared setting =
      liftM (s.applyColumnSetting table declared setting) := by
  cases setting with
  | flag words position => rfl
  | invalid position => rfl
  | pair key value position =>
    have bound : value.stop ≤ s.size := fits
    unfold applyColumnSetting
    dsimp only
    split
    · rw [valueText_eq run bound]
      rfl
    · rw [Source.applyColumnSetting]
      cases s.quotedText value <;> rfl
    · rw [Source.applyColumnSetting]
      by_cases repeated : declared.column.reference.isSome = true
      · simp only [if_pos repeated]
        rfl
      · simp only [if_neg repeated]
        cases found : s.columnReference? value with
        | none => rfl
        | some reference =>
          obtain ⟨kind, range⟩ := reference
          obtain ⟨order, ends⟩ := Source.columnReference?_bounds found
          have inside : range.stop ≤ s.size := ends ▸ bound
          simp only [text_eq run inside, endpoint_eq run order inside, access_bind]
          cases (s.endpoint range).malformed <;> rfl
    next noDefault noNote noReference =>
      rw [Source.applyColumnSetting_other noDefault noNote noReference]
      rfl

theorem column?_eq (table : String) (bound : line.stop ≤ s.size) :
    column? s table line = liftM (s.column? table line) := by
  rw [column?, Source.column?, columnHead?_eq run bound]
  cases s.columnHead? line with
  | none => rfl
  | some head =>
    obtain ⟨name, type, next⟩ := head
    obtain ⟨given, fits⟩ := columnSettings_eq name ⟨next, line.stop⟩ bound
    show columnSettings s name ⟨next, line.stop⟩ >>= _ = _
    rw [given]
    refine lift_bind ?_
    have applied := lift_foldlM_of_forall (b := { column := { name, type } })
      fun declared setting listed => applyColumnSetting_eq run table declared (fits setting listed)
    rw [applied]
    exact lift_bind rfl

end

end Checked

end Dbml
