import Dbml.Assembly
import Dbml.Proofs.Finding.Moves
import Dbml.Proofs.Respacing.Copied
import Dbml.Proofs.Source.Commas

/-!
# Settings in copied ranges

A copied value has the same text, and the settings in a copied range are the same ones with copied
values. Main statements: `Copied.settings`, and for each kind of part that has settings that one of
them does the same to it.
-/

namespace Dbml

open Source Noted

variable {s s' : Source} {place : Nat → Nat} {d : Nat} {range : TokenRange}

/-! ## Values -/

namespace Copied

theorem quotedText (copied : Copied s s' place d range) :
    s'.quotedText (range.shift d) = s.quotedText range := by
  rw [Source.quotedText, Source.quotedText, TokenRange.shift_size]
  by_cases single : range.size = 1
  · rw [if_pos single, if_pos single, TokenRange.shift_start,
      copied.token _ (Nat.le_refl _) (by simp only [TokenRange.size] at single; omega)]
  · rw [if_neg single, if_neg single]

theorem whole_text (copied : Copied s s' place d range) :
    s'.text (range.shift d) = s.text range :=
  copied.text range (Nat.le_refl _) (Nat.le_refl _)

theorem valueText (copied : Copied s s' place d range) :
    s'.valueText (range.shift d) = s.valueText range := by
  rw [Source.valueText, Source.valueText, copied.quotedText, copied.whole_text]

theorem colorText (copied : Copied s s' place d range) :
    s'.colorText (range.shift d) = s.colorText range := by
  rw [Source.colorText, Source.colorText, copied.valueText]

theorem endpoint (copied : Copied s s' place d range) :
    s'.endpoint (range.shift d) = s.endpoint range := by
  rw [Source.endpoint, Source.endpoint, copied.tokens, copied.whole_text]

/-- The same operator, and the copied target. -/
theorem columnReference? (copied : Copied s s' place d range) :
    s'.columnReference? (range.shift d) =
      (s.columnReference? range).map fun (kind, target) => (kind, target.shift d) := by
  rw [Source.columnReference?, Source.columnReference?, TokenRange.shift_size]
  by_cases short : range.size < 2
  · rw [if_pos short, if_pos short]
    rfl
  · rw [if_neg short, if_neg short, TokenRange.shift_start, TokenRange.shift_drop,
      copied.token _ (Nat.le_refl _) (by simp only [TokenRange.size] at short; omega),
      Option.map_map]
    rfl

theorem of_columnReference? (copied : Copied s s' place d range) {kind : RelationKind}
    {target : TokenRange} (refers : s.columnReference? range = some (kind, target)) :
    Copied s s' place d target := by
  unfold Source.columnReference? at refers
  split at refers
  · cases refers
  · obtain ⟨_, -, same⟩ := Option.map_eq_some_iff.1 refers
    cases same
    exact copied.drop 1

end Copied

/-! ## Lists of settings -/

/-- The same setting at the place of the first, with a copied value. -/
inductive Setting.Copied (s s' : Source) (place : Nat → Nat) : Setting → Setting → Prop
  | flag (words : String) (position : Nat) :
    Copied s s' place (.flag words position) (.flag words (place position))
  | pair (key : String) (position : Nat) {value : TokenRange} {d : Nat}
    (copied : Dbml.Copied s s' place d value) :
    Copied s s' place (.pair key value position) (.pair key (value.shift d) (place position))
  | invalid (position : Nat) : Copied s s' place (.invalid position) (.invalid (place position))

/-- Two lists of the same settings, with copied values. -/
abbrev SettingsCopied (s s' : Source) (place : Nat → Nat) : List Setting → List Setting → Prop :=
  List.Forall₂ (Setting.Copied s s' place)

namespace Copied

/-- The parts between commas, each of them copied. -/
theorem splitCommas (copied : Copied s s' place d range) :
    s'.splitCommas (range.shift d) = (s.splitCommas range).map (·.shift d) ∧
      ∀ item ∈ s.splitCommas range, Copied s s' place d item := by
  induction size : range.stop - range.start using Nat.strongRecOn generalizing range with
  | ind n ih =>
  have comma' := copied.findOutside? .openParen .closeParen (·.isMark .comma)
  cases comma : s.findOutside? .openParen .closeParen range (·.isMark .comma) with
  | none =>
    rw [comma] at comma'
    rw [splitCommas_of_none comma, splitCommas_of_none comma']
    exact ⟨rfl, by simpa using copied⟩
  | some i =>
    rw [comma] at comma'
    have bounds := findOutside?_bounds comma
    have first : Copied s s' place d ⟨range.start, i⟩ :=
      copied.restrict (Nat.le_refl _) (by simp only; omega)
    have later : Copied s s' place d ⟨i + 1, range.stop⟩ :=
      copied.restrict (by simp only; omega) (Nat.le_refl _)
    obtain ⟨rest, all⟩ := ih _ (by simp only; omega) later rfl
    rw [splitCommas_of_some comma, splitCommas_of_some comma', List.map_cons, ← rest]
    refine ⟨?_, List.forall_mem_cons.2 ⟨first, all⟩⟩
    simp only [TokenRange.shift, Nat.add_right_comm]

theorem settingOf (copied : Copied s s' place d range) (some_token : range.isEmpty = false) :
    Setting.Copied s s' place (s.settingOf range) (s'.settingOf (range.shift d)) := by
  have inside : range.start < range.stop := by
    simpa [TokenRange.isEmpty] using some_token
  have placed : range.start + d = place range.start :=
    (copied.place _ (Nat.le_refl _) inside).symm
  have words : Setting.Copied s s' place
      (((s.tokens range).mapM word?).elim (.invalid range.start)
        fun ws => .flag (" ".intercalate ws) range.start)
      (((s.tokens range).mapM word?).elim (.invalid (range.start + d))
        fun ws => .flag (" ".intercalate ws) (range.start + d)) := by
    rw [placed]
    cases (s.tokens range).mapM word? with
    | none => exact .invalid _
    | some ws => exact .flag _ _
  simp only [Source.settingOf, TokenRange.shift_start, TokenRange.shift_size,
    TokenRange.shift_drop, copied.tokens, copied.token _ (Nat.le_refl _) inside]
  split
  · by_cases short : 1 < range.size
    · have next : s'.isMark (range.start + d + 1) .colon = s.isMark (range.start + 1) .colon := by
        rw [Nat.add_right_comm]
        exact copied.isMark _ (Nat.le_succ _) (by simp only [TokenRange.size] at short; omega)
      rw [next]
      split
      · rw [placed]
        exact .pair _ _ (copied.drop 2)
      · exact words
    · simp only [short, false_and, if_false]
      exact words
  · exact words

theorem settings (copied : Copied s s' place d range) :
    SettingsCopied s s' place (s.settings range) (s'.settings (range.shift d)) := by
  obtain ⟨parts, all⟩ := copied.splitCommas
  rw [Source.settings, Source.settings, parts]
  generalize s.splitCommas range = items at all
  induction items with
  | nil => exact .nil
  | cons item items ih =>
    obtain ⟨first, others⟩ := List.forall_mem_cons.1 all
    cases empty : item.isEmpty with
    | true =>
      rw [List.map_cons, List.filter_cons_of_neg (by simp [empty]),
        List.filter_cons_of_neg (by simp [empty])]
      exact ih others
    | false =>
      rw [List.map_cons, List.filter_cons_of_pos (by simp [empty]),
        List.filter_cons_of_pos (by simp [empty]), List.map_cons, List.map_cons]
      exact .cons (first.settingOf empty) (ih others)

/-- The settings behind a bracket. -/
theorem settings_behind (copied : Copied s s' place d range) {i j : Nat} (low : range.start ≤ i)
    (high : j ≤ range.stop) :
    SettingsCopied s s' place (s.settings ⟨i + 1, j⟩) (s'.settings ⟨i + d + 1, j + d⟩) := by
  rw [Nat.add_right_comm]
  exact (copied.between (i := i + 1) (Nat.le_succ_of_le low) high).settings

end Copied

/-! ## What a setting does -/

variable {setting setting' : Setting}

namespace Source

/-- A word that is no flag of a column is noted and left out. -/
theorem applyColumnSetting_word {table words : String} {declared : DeclaredColumn} {position : Nat}
    (other : words ∉ ["primary key", "pk", "unique", "not null", "null", "increment"]) :
    s.applyColumnSetting table declared (.flag words position) = do
      Noted.note position (.unknownColumnSetting words)
      return declared := by
  unfold applyColumnSetting
  dsimp only
  split
  · simp at other
  · simp at other
  · simp at other
  · simp at other
  · simp at other
  · simp at other
  · rfl

/-- A setting of a column with another key is noted and left out. -/
theorem applyColumnSetting_other {table key : String} {declared : DeclaredColumn} {position : Nat}
    {value : TokenRange}
    (noDefault : key ≠ "default") (noNote : key ≠ "note") (noReference : key ≠ "ref") :
    s.applyColumnSetting table declared (.pair key value position) = do
      Noted.note position (.unknownColumnSetting key)
      return declared := by
  unfold applyColumnSetting
  dsimp only
  split
  · contradiction
  · contradiction
  · contradiction
  · rfl

end Source

namespace Setting.Copied

theorem applyTableSetting (copied : Setting.Copied s s' place setting setting')
    (settings : TableSettings) :
    Moves place (· = ·) (s.applyTableSetting settings setting)
      (s'.applyTableSetting settings setting') := by
  cases copied with
  | flag words position => exact moves_note_pure rfl _ rfl
  | invalid position => exact moves_note_pure rfl _ rfl
  | pair key position copied =>
    simp only [Source.applyTableSetting, copied.colorText, copied.quotedText]
    split
    · exact moves_pure rfl
    · exact moves_pure rfl
    · exact moves_pure rfl
    · exact moves_note_pure rfl _ rfl

theorem applyIndexSetting (copied : Setting.Copied s s' place setting setting') (index : Index) :
    Moves place (· = ·) (s.applyIndexSetting index setting)
      (s'.applyIndexSetting index setting') := by
  cases copied with
  | invalid position => exact moves_note_pure rfl _ rfl
  | flag words position =>
    simp only [Source.applyIndexSetting]
    split
    · exact moves_pure rfl
    · exact moves_pure rfl
    · exact moves_pure rfl
    · exact moves_note_pure rfl _ rfl
  | pair key position copied =>
    simp only [Source.applyIndexSetting, copied.valueText, copied.quotedText]
    split
    · exact moves_pure rfl
    · exact moves_pure rfl
    · exact moves_pure rfl
    · exact moves_note_pure rfl _ rfl

/-- A setting of a group with another key is noted and left out. -/
theorem applyGroupSetting_other {settings : Assembly.GroupSettings} {key : String}
    {value : TokenRange} {position : Nat} (color : ¬ key = "color") (note : ¬ key = "note") :
    Assembly.applyGroupSetting s settings (.pair key value position) = do
      Noted.note position .unknownGroupSetting
      return settings := by
  unfold Assembly.applyGroupSetting
  split
  next same => cases same; exact absurd rfl color
  next same => cases same; exact absurd rfl note
  · rfl

theorem applyGroupSetting (copied : Setting.Copied s s' place setting setting')
    (settings : Assembly.GroupSettings) :
    Moves place (· = ·) (Assembly.applyGroupSetting s settings setting)
      (Assembly.applyGroupSetting s' settings setting') := by
  cases copied with
  | flag words position => exact moves_note_pure rfl _ rfl
  | invalid position => exact moves_note_pure rfl _ rfl
  | pair key position copied =>
    by_cases color : key = "color"
    · subst color
      simp only [Assembly.applyGroupSetting, copied.colorText]
      exact moves_pure rfl
    by_cases note : key = "note"
    · subst note
      simp only [Assembly.applyGroupSetting, copied.quotedText]
      exact moves_pure rfl
    · rw [applyGroupSetting_other color note, applyGroupSetting_other color note]
      exact moves_note_pure rfl _ rfl

theorem applyColumnSetting (copied : Setting.Copied s s' place setting setting')
    (table : String) (declared : DeclaredColumn) :
    Moves place (· = ·) (s.applyColumnSetting table declared setting)
      (s'.applyColumnSetting table declared setting') := by
  cases copied with
  | invalid position => exact moves_note_pure rfl _ rfl
  | flag words position =>
    simp only [Source.applyColumnSetting]
    split
    · exact moves_pure rfl
    · exact moves_pure rfl
    · exact moves_pure rfl
    · exact moves_pure rfl
    · exact moves_pure rfl
    · exact moves_pure rfl
    · exact moves_note_pure rfl _ rfl
  | @pair key position value d copied =>
    simp only [Source.applyColumnSetting, copied.valueText, copied.quotedText,
      copied.columnReference?]
    split
    · exact moves_pure rfl
    · split
      · exact moves_pure rfl
      · exact moves_note_pure rfl _ rfl
    · split
      · exact moves_note_pure rfl _ rfl
      · cases refers : s.columnReference? value with
        | none => exact moves_note_pure rfl _ rfl
        | some found =>
          obtain ⟨kind, target⟩ := found
          have part := copied.of_columnReference? refers
          simp only [Option.map_some, part.endpoint, part.whole_text]
          split
          · exact moves_note_pure rfl _ rfl
          · exact moves_pure rfl
    · exact moves_note_pure rfl _ rfl

end Setting.Copied

end Dbml
