import Dbml.Proofs.Respacing.Settings

/-!
# Copied lines

A line that is copied reads as it did: it declares the same column or index, makes the same
reference, and what is noted about it is noted at the copied tokens. Main statements:
`Copied.column?`, `Copied.index?` and `Copied.reference`.
-/

namespace Dbml

open Source Noted

variable {s s' : Source} {place : Nat → Nat} {d : Nat} {line : TokenRange}

namespace Source

theorem typeEnd_le {j stop : Nat} (inside : j ≤ stop) : s.typeEnd j stop ≤ stop := by
  induction size : stop - j using Nat.strongRecOn generalizing j with
  | ind n ih =>
  rw [typeEnd]
  split
  · split
    · split
      next close closes =>
        have := matching_bounds closes
        exact ih _ (by omega) (by omega) rfl
      · exact Nat.le_refl _
    · split
      · split
        next close => exact ih _ (by omega) (by omega) rfl
        · exact inside
      · exact ih _ (by omega) (by omega) rfl
  · exact inside

theorem typeEnd_ge {j stop : Nat} : j ≤ s.typeEnd j stop := by
  induction size : stop - j using Nat.strongRecOn generalizing j with
  | ind n ih =>
  rw [typeEnd]
  split
  next inside =>
    split
    · split
      next close closes =>
        have := matching_bounds closes
        have := ih _ (by omega) (j := close + 1) rfl
        omega
      · omega
    · split
      · split
        · have := ih _ (by omega) (j := j + 2) rfl
          omega
        · exact Nat.le_refl _
      · have := ih _ (by omega) (j := j + 1) rfl
        omega
  · exact Nat.le_refl _

theorem columnType?_gt {i stop next : Nat} {type : String}
    (found : s.columnType? i stop = some (type, next)) : i < next := by
  unfold columnType? at found
  split at found
  · split at found
    · cases found
      exact Nat.lt_succ_self i
    · cases found
      exact typeEnd_ge
    · cases found
      exact typeEnd_ge
    · cases found
  · cases found

theorem columnHead?_ge {name type : String} {next : Nat}
    (found : s.columnHead? line = some (name, type, next)) : line.start ≤ next := by
  unfold columnHead? at found
  obtain ⟨word, -, found⟩ := Option.bind_eq_some_iff.1 found
  obtain ⟨⟨kind, behind⟩, here, same⟩ := Option.bind_eq_some_iff.1 found
  cases same
  have := columnType?_gt here
  omega

theorem shortForm?_bounds {name : Option String} {range : TokenRange}
    (found : s.shortForm? line = some (name, range)) :
    line.start < range.start ∧ range.stop ≤ line.stop := by
  unfold shortForm? at found
  obtain ⟨-, found⟩ := Option.ite_none_right_eq_some.1 found
  obtain ⟨-, found⟩ := Option.ite_none_right_eq_some.1 found
  cases found
  have first (named : Bool) :
      line.start < (if named = true then line.start + 2 else line.start + 1) + 1 := by
    split <;> omega
  exact ⟨first _, Nat.le_refl _⟩

theorem indexHead_ge {columns : List String} {next : Nat}
    (found : s.indexHead line = .ok (columns, next)) : line.start ≤ next := by
  unfold indexHead at found
  split at found
  · cases found
  · split at found
    · cases found
    next closing closes =>
      have := (matching_bounds closes).1
      cases listed : indexColumns (s.tokens ⟨line.start + 1, closing⟩) with
      | error fault => rw [listed] at found; cases found
      | ok names =>
        replace found : (if names.isEmpty = true then Except.error IndexFault.noColumns
            else .ok (names, closing + 1)) = .ok (columns, next) := by
          rw [listed] at found
          exact found
        split at found
        · cases found
        · cases found
          omega
  · cases found
  · split at found
    · cases found
      exact Nat.le_succ _
    · cases found

end Source

namespace Copied

/-! ## Types -/

theorem typeEnd (copied : Copied s s' place d line) {j : Nat} (low : line.start < j) :
    s'.typeEnd (j + d) (line.stop + d) = s.typeEnd j line.stop + d := by
  induction size : line.stop - j using Nat.strongRecOn generalizing j with
  | ind n ih =>
  have later (k : Nat) (ahead : j < k) (inside : j < line.stop) :
      s'.typeEnd (k + d) (line.stop + d) = s.typeEnd k line.stop + d :=
    ih _ (by omega) (by omega) rfl
  rw [Source.typeEnd, Source.typeEnd.eq_def s]
  by_cases inside : j < line.stop
  · have mark (mark : Mark) := copied.isMark mark (Nat.le_of_lt low) inside
    simp only [Nat.add_lt_add_iff_right, copied.adjacent j low inside, mark]
    split
    · split
      · have partner := copied.matching .openParen .closeParen (Nat.le_of_lt low)
        split
        next close' closes' =>
          rw [closes'] at partner
          split
          next close closes =>
            have bounds := matching_bounds closes
            rw [closes, Option.map_some, Option.some.injEq] at partner
            rw [partner, Nat.add_right_comm, later _ (by omega) inside]
          next none => rw [none] at partner; cases partner
        next none =>
          rw [none] at partner
          split
          next close closes => rw [closes] at partner; cases partner
          · rfl
      · split
        · simp only [Nat.add_right_comm j d, Nat.add_lt_add_iff_right]
          by_cases another : j + 1 < line.stop
          · rw [copied.isMark .closeBracket (by omega) another, later _ (by omega) inside]
            split <;> rfl
          · simp only [another, and_false, if_false]
        · rw [Nat.add_right_comm, later _ (Nat.lt_succ_self j) inside]
    · rfl
  · simp only [Nat.add_lt_add_iff_right, inside, false_and, if_false]

/-- The same type, and the token behind it. -/
theorem columnType? (copied : Copied s s' place d line) {i : Nat} (low : line.start ≤ i) :
    s'.columnType? (i + d) (line.stop + d) =
      (s.columnType? i line.stop).map fun (type, next) => (type, next + d) := by
  rw [Source.columnType?, Source.columnType?.eq_def s]
  by_cases inside : i < line.stop
  · simp only [Nat.add_lt_add_iff_right, inside, if_true, copied.token i low inside]
    have ends : s'.typeEnd (i + d + 1) (line.stop + d) = s.typeEnd (i + 1) line.stop + d := by
      rw [Nat.add_right_comm]
      exact copied.typeEnd (by omega)
    have text : s'.text ⟨i + d, s.typeEnd (i + 1) line.stop + d⟩ =
        s.text ⟨i, s.typeEnd (i + 1) line.stop⟩ :=
      copied.text ⟨i, s.typeEnd (i + 1) line.stop⟩ low (typeEnd_le inside)
    split
    · simp [Nat.add_right_comm]
    · simp only [ends, text, Option.map_some]
    · simp only [ends, text, Option.map_some]
    · rfl
  · simp only [Nat.add_lt_add_iff_right, inside, if_false, Option.map_none]

/-! ## Columns -/

variable (nonempty : line.start < line.stop)

include nonempty

theorem columnHead? (copied : Copied s s' place d line) :
    s'.columnHead? (line.shift d) =
      (s.columnHead? line).map fun (name, type, next) => (name, type, next + d) := by
  have type : s'.columnType? (line.start + d + 1) (line.stop + d) =
      (s.columnType? (line.start + 1) line.stop).map fun (type, next) => (type, next + d) := by
    rw [Nat.add_right_comm]
    exact copied.columnType? (Nat.le_succ _)
  rw [Source.columnHead?, Source.columnHead?, TokenRange.shift_start, TokenRange.shift_stop,
    copied.token _ (Nat.le_refl _) nonempty, type]
  cases (s.token? line.start).bind Token.name? with
  | none => rfl
  | some name => cases s.columnType? (line.start + 1) line.stop <;> rfl

omit nonempty

theorem columnSettings (copied : Copied s s' place d line) (column : String) :
    Moves place (SettingsCopied s s' place) (s.columnSettings column line)
      (s'.columnSettings column (line.shift d)) := by
  rw [Source.columnSettings, Source.columnSettings, copied.find?]
  cases found : s.find? line (·.isMark .openBracket) with
  | none => exact moves_pure .nil
  | some opening =>
    have bounds := find?_bounds found
    simp only [Option.map_some, TokenRange.shift_stop, copied.matching _ _ bounds.1]
    cases closes : s.matching opening line.stop .openBracket .closeBracket with
    | none =>
      refine (moves_note (copied.place _ bounds.1 bounds.2.1).symm _).bind fun _ _ _ => ?_
      exact moves_pure (copied.settings_behind bounds.1 (Nat.le_refl _))
    | some closing =>
      have high := (matching_bounds closes).2.1
      exact moves_pure (copied.settings_behind bounds.1 (Nat.le_of_lt high))

theorem column? (copied : Copied s s' place d line) (nonempty : line.start < line.stop)
    (table : String) :
    Moves place (· = ·) (s.column? table line) (s'.column? table (line.shift d)) := by
  rw [Source.column?, Source.column?, copied.columnHead? nonempty]
  cases head : s.columnHead? line with
  | none => exact moves_pure rfl
  | some found =>
    obtain ⟨name, type, next⟩ := found
    have behind := copied.between (i := next) (columnHead?_ge head) (Nat.le_refl _)
    refine (behind.columnSettings name).bind fun given given' same => ?_
    refine Moves.bind_same ?_ fun declared => moves_pure rfl
    exact moves_foldlM_same same (fun declared x y setting =>
      setting.applyColumnSetting table declared) _

/-! ## Indexes -/

theorem indexHead (copied : Copied s s' place d line) (nonempty : line.start < line.stop) :
    s'.indexHead (line.shift d) =
      (s.indexHead line).map fun (columns, next) => (columns, next + d) := by
  rw [Source.indexHead, Source.indexHead, TokenRange.shift_start, TokenRange.shift_stop,
    copied.token _ (Nat.le_refl _) nonempty, copied.matching _ _ (Nat.le_refl _)]
  split
  · rfl
  · cases closes : s.matching line.start line.stop .openParen .closeParen with
    | none => rfl
    | some closing =>
      have bounds := matching_bounds closes
      have between := copied.between (i := line.start + 1) (j := closing) (Nat.le_succ _)
        (Nat.le_of_lt bounds.2.1)
      have same : s'.tokens ⟨line.start + d + 1, closing + d⟩ =
          s.tokens ⟨line.start + 1, closing⟩ := by
        rw [Nat.add_right_comm]
        exact between.tokens
      simp only [Option.map_some, same]
      cases indexColumns (s.tokens ⟨line.start + 1, closing⟩) with
      | error fault => rfl
      | ok columns =>
        show (if columns.isEmpty = true then Except.error IndexFault.noColumns
            else .ok (columns, closing + d + 1)) =
          (if columns.isEmpty = true then Except.error IndexFault.noColumns
            else .ok (columns, closing + 1)).map fun (columns, next) => (columns, next + d)
        rw [Nat.add_right_comm]
        split <;> rfl
  · rfl
  · split
    · simp [Except.map, Nat.add_right_comm]
    · rfl

theorem indexSettings (copied : Copied s s' place d line) {next : Nat}
    (low : line.start ≤ next) :
    SettingsCopied s s' place (s.indexSettings next line.stop)
      (s'.indexSettings (next + d) (line.stop + d)) := by
  rw [Source.indexSettings, Source.indexSettings]
  simp only [Nat.add_lt_add_iff_right, copied.matching _ _ low]
  by_cases inside : next < line.stop
  · rw [copied.isMark _ low inside]
    split
    · cases closes : s.matching next line.stop .openBracket .closeBracket with
      | none => exact copied.settings_behind low (Nat.le_refl _)
      | some closing =>
        exact copied.settings_behind low (Nat.le_of_lt (matching_bounds closes).2.1)
    · exact .nil
  · simp only [inside, false_and, if_false]
    exact .nil

theorem index? (copied : Copied s s' place d line) (nonempty : line.start < line.stop) :
    Moves place (· = ·) (s.index? line) (s'.index? (line.shift d)) := by
  rw [Source.index?, Source.index?, copied.indexHead nonempty]
  cases head : s.indexHead line with
  | error fault => exact moves_note_pure (copied.place _ (Nat.le_refl _) nonempty).symm _ rfl
  | ok found =>
    obtain ⟨columns, next⟩ := found
    refine Moves.bind_same ?_ fun index => moves_pure rfl
    exact moves_foldlM_same (copied.indexSettings (indexHead_ge head))
      (fun index x y setting => setting.applyIndexSetting index) _

/-! ## Notes -/

theorem noteLine? (copied : Copied s s' place d line) (nonempty : line.start < line.stop) :
    s'.noteLine? (line.shift d) = s.noteLine? line := by
  have value := (copied.drop 2).quotedText
  rw [Source.noteLine?, Source.noteLine?, TokenRange.shift_start, TokenRange.shift_size,
    TokenRange.shift_drop, copied.isKeyword _ (Nat.le_refl _) nonempty, value, Nat.add_right_comm]
  by_cases long : 1 < line.size
  · rw [copied.isMark .colon (Nat.le_succ _) (by simp only [TokenRange.size] at long; omega)]
  · simp only [long, false_and, and_false, if_false]

/-! ## References -/

/-- The same name, and the copied tokens behind the colon. -/
theorem shortForm? (copied : Copied s s' place d line) (nonempty : line.start < line.stop) :
    s'.shortForm? (line.shift d) =
      (s.shortForm? line).map fun (name, range) => (name, range.shift d) := by
  have name : (if line.start + 1 + d < line.stop + d
        then (s'.token? (line.start + 1 + d)).bind Token.name? else none) =
      if line.start + 1 < line.stop then (s.token? (line.start + 1)).bind Token.name?
      else none := by
    simp only [Nat.add_lt_add_iff_right]
    split
    next inside => rw [copied.token _ (Nat.le_succ _) inside]
    · rfl
  have colon {i : Nat} (low : line.start ≤ i) :
      (i + d < line.stop + d ∧ s'.isMark (i + d) .colon = true) ↔
        (i < line.stop ∧ s.isMark i .colon = true) := by
    rw [Nat.add_lt_add_iff_right]
    exact and_congr_right fun inside => by rw [copied.isMark .colon low inside]
  rw [Source.shortForm?, Source.shortForm?, TokenRange.shift_start, TokenRange.shift_stop,
    copied.isKeyword _ (Nat.le_refl _) nonempty]
  simp only [Nat.add_right_comm _ d, name]
  generalize (if line.start + 1 < line.stop then (s.token? (line.start + 1)).bind Token.name?
    else none) = found
  have first : line.start ≤ if found.isSome = true then line.start + 2 else line.start + 1 := by
    split <;> omega
  have place : (if found.isSome = true then line.start + 2 + d else line.start + 1 + d) =
      (if found.isSome = true then line.start + 2 else line.start + 1) + d := by
    split <;> rfl
  rw [place]
  generalize (if found.isSome = true then line.start + 2 else line.start + 1) = i at first
  simp only [colon first, Nat.add_right_comm _ d]
  split
  · split <;> rfl
  · rfl

end Copied

/-! ## Actions -/

theorem Source.withActions_other {relationship : Relationship} {key : String}
    {value : TokenRange} {position : Nat} {rest : List Setting} (delete : ¬ key = "delete")
    (update : ¬ key = "update") :
    s.withActions relationship (.pair key value position :: rest) =
      s.withActions relationship rest := by
  conv_lhs => unfold withActions
  split
  next same => cases same
  next same => cases same; exact absurd rfl delete
  next same => cases same; exact absurd rfl update
  next same => cases same; rfl

/-- The same settings give a relationship the same actions. -/
theorem SettingsCopied.withActions {settings settings' : List Setting}
    (copied : SettingsCopied s s' place settings settings') (relationship : Relationship) :
    s'.withActions relationship settings' = s.withActions relationship settings := by
  induction copied generalizing relationship with
  | nil => rfl
  | @cons setting setting' rest rest' same _ ih =>
    cases same with
    | flag words position => exact ih relationship
    | invalid position => exact ih relationship
    | pair key position copied =>
      by_cases delete : key = "delete"
      · subst delete
        rw [Source.withActions, Source.withActions, copied.valueText, ih]
      by_cases update : key = "update"
      · subst update
        rw [Source.withActions, Source.withActions, copied.valueText, ih]
      · rw [withActions_other delete update, withActions_other delete update, ih]

/-! ## Whole references -/

namespace Source

/-- The reference whose endpoints and operator stand in the range, with the settings behind it. -/
def referenceWith (s : Source) (range : TokenRange) (settings : List Setting)
    (name : Option String) : Except ReferenceFault Reference :=
  match s.find? range (·.relation?.isSome) with
  | none => .error .missingOperator
  | some i =>
    match (s.token? i).bind Token.relation? with
    | none => .error .missingOperator
    | some kind =>
      if i = range.start ∨ range.stop ≤ i + 1 then .error .missingEndpoint
      else
        let source := s.endpoint ⟨range.start, i⟩
        let target := s.endpoint ⟨i + 1, range.stop⟩
        let relationship := { Relationship.inline source.table source.column kind target with name }
        .ok ⟨s.withActions relationship settings, source.malformed || target.malformed⟩

theorem reference_of_none {range : TokenRange} {name : Option String}
    (plain : s.find? range (·.isMark .openBracket) = none) :
    s.reference range name = s.referenceWith range [] name := by
  simp only [reference, plain]
  rfl

theorem reference_of_some {range : TokenRange} {name : Option String} {opening : Nat}
    (bracket : s.find? range (·.isMark .openBracket) = some opening) :
    s.reference range name =
      s.referenceWith ⟨range.start, opening⟩
        (s.settings ⟨opening + 1,
          (s.matching opening range.stop .openBracket .closeBracket).getD range.stop⟩) name := by
  simp only [reference, bracket]
  rfl

end Source

namespace Copied

theorem referenceWith (copied : Copied s s' place d line) {settings settings' : List Setting}
    (same : SettingsCopied s s' place settings settings') (name : Option String) :
    s'.referenceWith (line.shift d) settings' name = s.referenceWith line settings name := by
  rw [Source.referenceWith, Source.referenceWith, copied.find?]
  cases found : s.find? line (·.relation?.isSome) with
  | none => rfl
  | some i =>
    have bounds := find?_bounds found
    have source := copied.between (j := i) (Nat.le_refl _) (Nat.le_of_lt bounds.2.1)
    have target := copied.between (i := i + 1) (Nat.le_succ_of_le bounds.1)
      (Nat.le_refl _)
    have left : s'.endpoint ⟨line.start + d, i + d⟩ = s.endpoint ⟨line.start, i⟩ := source.endpoint
    have right : s'.endpoint ⟨i + 1 + d, line.stop + d⟩ = s.endpoint ⟨i + 1, line.stop⟩ :=
      target.endpoint
    simp only [Option.map_some, TokenRange.shift_start, TokenRange.shift_stop,
      Nat.add_right_comm _ d,
      copied.token i bounds.1 bounds.2.1, left, right, same.withActions, Nat.add_right_cancel_iff,
      Nat.add_le_add_iff_right]

theorem reference (copied : Copied s s' place d line) (name : Option String) :
    s'.reference (line.shift d) name = s.reference line name := by
  have bracket := copied.find? (·.isMark .openBracket)
  cases found : s.find? line (·.isMark .openBracket) with
  | none =>
    rw [found] at bracket
    rw [reference_of_none found, reference_of_none bracket, copied.referenceWith .nil]
  | some opening =>
    rw [found] at bracket
    have bounds := find?_bounds found
    have front := copied.between (j := opening) (Nat.le_refl _)
      (Nat.le_of_lt bounds.2.1)
    rw [reference_of_some found, reference_of_some bracket]
    refine front.referenceWith ?_ name
    rw [TokenRange.shift_stop, copied.matching _ _ bounds.1]
    cases closes : s.matching opening line.stop .openBracket .closeBracket with
    | none => exact copied.settings_behind bounds.1 (Nat.le_refl _)
    | some closing =>
      exact copied.settings_behind bounds.1 (Nat.le_of_lt (matching_bounds closes).2.1)

end Copied

end Dbml
