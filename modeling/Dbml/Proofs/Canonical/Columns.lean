import Dbml.DeclaredColumn
import Dbml.Proofs.Canonical.Scanning
import Dbml.Proofs.Reference.Identifiers
import Dbml.Proofs.Source.Commas

/-!
# The columns of a canonical document

The settings of a column are taken apart at their commas and applied one after another; the column
that results is the one that was written. Main statement: `column?_of_writes`.
-/

namespace Dbml

open Token (Written)

namespace Source

variable {s : Source} {i stop : Nat} {ts : List Token}

/-! ## Commas between settings -/

theorem isEmpty_eq_false (solid : ts ≠ []) : (TokenRange.mk i (i + ts.length)).isEmpty = false := by
  have nonempty := List.length_pos_iff.2 solid
  rw [TokenRange.isEmpty, decide_eq_false_iff_not]
  show ¬ i + ts.length ≤ i
  omega

theorem settings_last (reads : s.Reads i ts) (solid : ts ≠ []) (plain : .mark .comma ∉ ts) :
    s.settings ⟨i, i + ts.length⟩ = [s.settingOf ⟨i, i + ts.length⟩] :=
  settings_of_none (findOutside?_eq_none .openParen .closeParen reads
    fun _ listed => isMark_eq_false listed plain) (isEmpty_eq_false solid)

theorem settings_cons (reads : s.Reads i (ts ++ [.mark .comma])) (solid : ts ≠ [])
    (plain : ∀ t ∈ ts, t ≠ .mark .openParen ∧ t ≠ .mark .closeParen ∧ t ≠ .mark .comma)
    (inside : i + ts.length < stop) :
    s.settings ⟨i, stop⟩ =
      s.settingOf ⟨i, i + ts.length⟩ :: s.settings ⟨i + ts.length + 1, stop⟩ := by
  have first := findOutside?_eq_some .openParen .closeParen reads
    (p := (·.isMark .comma)) (fun t listed => by
      obtain ⟨noLeft, noRight, noComma⟩ := plain t listed
      exact ⟨noLeft, noRight, by simpa [Token.isMark] using noComma⟩)
    (by decide) (by decide) (by decide) inside
  exact settings_of_some first (Nat.lt_add_of_pos_right (List.length_pos_iff.2 solid))

end Source

theorem nameParts_dottedTokens {names : List String} (nonempty : names ≠ []) :
    nameParts (Source.dottedTokens names) = some names := by
  rw [Source.dottedTokens_eq]
  exact nameParts_intersperse (by simpa using nonempty) (by rw [List.map_map]; rfl)

namespace Canonical

open Source

variable {s : Source} {i stop : Nat}

/-! ## One setting -/

def Setting.In (s : Source) : Setting → Dbml.Setting → Prop
  | .pk, item => ∃ position, item = .flag "pk" position
  | .unique, item => ∃ position, item = .flag "unique" position
  | .notNull, item => ∃ position, item = .flag "not null" position
  | .increment, item => ∃ position, item = .flag "increment" position
  | .default text, item =>
    ∃ value position, item = .pair "default" value position ∧ s.quotedText value = some text
  | .note text, item =>
    ∃ value position, item = .pair "note" value position ∧ s.quotedText value = some text
  | .ref kind target, item =>
    ∃ value range position, item = .pair "ref" value position ∧
      s.columnReference? value = some (kind, range) ∧
      s.endpoint range = { table := target.key, column := target.column } ∧
      s.text range = target.text

theorem settingOf_word {word : String} (reads : s.Reads i [.ident word]) :
    s.settingOf ⟨i, i + 1⟩ = .flag word i := by
  have tokens := tokens_of_reads reads
  simp only [List.length_singleton] at tokens
  simp [settingOf, tokens, reads.1, TokenRange.size, word?]

theorem settingOf_pair {key : String} (reads : s.Reads i [.ident key, .mark .colon])
    (inside : i + 1 < stop) : s.settingOf ⟨i, stop⟩ = .pair key ⟨i + 2, stop⟩ i := by
  have long : 1 < stop - i := by omega
  simp [settingOf, reads.1, TokenRange.size, TokenRange.drop, isMark_of_token? reads.2.1, long]

theorem ofParts_names (target : Target) (raw : String) :
    Endpoint.ofParts target.names raw = { table := target.key, column := target.column } := by
  rcases target with ⟨schema, table, column⟩
  cases schema with
  | none => rfl
  | some schema =>
    show Endpoint.ofParts [schema, table, column] raw = _
    by_cases left : schema = "" ∨ schema = "public"
    · simp [Endpoint.ofParts, Endpoint.defaultSchema, Target.key, left]
    · simp [Endpoint.ofParts, Endpoint.defaultSchema, Target.key, tableKey, left]

theorem endpoint_of_writes {target : Target} (writes : s.Writes i (writtenNames target.names)) :
    s.endpoint ⟨i, i + (writtenNames target.names).length⟩ =
      { table := target.key, column := target.column } := by
  have reads := reads_of_writes writes
  have tokens := tokens_of_reads reads
  rw [List.length_map, token_writtenNames] at tokens
  rw [endpoint, tokens, nameParts_dottedTokens (by simp [Target.names])]
  exact ofParts_names target _

theorem text_of_writtenNames {names : List String} (writes : s.Writes i (writtenNames names))
    (nonempty : names ≠ []) : s.text ⟨i, i + (writtenNames names).length⟩ = dotted names := by
  obtain ⟨last, ends, bare⟩ : ∃ last, (writtenNames names).getLast? = some last ∧ last.after = [] := by
    cases names with
    | nil => exact absurd rfl nonempty
    | cons name rest =>
      rcases List.eq_nil_or_concat rest with rfl | ⟨front, last, rfl⟩
      · exact ⟨lit name, rfl, rfl⟩
      · exact ⟨lit last, by simp [writtenNames, List.getLast?_cons], rfl⟩
  cases names with
  | nil => exact absurd rfl nonempty
  | cons name rest =>
    rw [text_of_writes writes rfl ends rfl bare, ← toList_dotted, String.ofList_toList]

theorem quotedText_of_reads {text : String} (reads : s.Reads i [.str text]) :
    s.quotedText ⟨i, i + 1⟩ = some text := by
  simp [quotedText, TokenRange.size, reads.1, Token.quoted?]

theorem relation?_operatorMark (kind : RelationKind) :
    (Token.mark (operatorMark kind)).relation? = some kind := by
  cases kind <;> rfl

/-- The item that a written setting is taken for. -/
theorem Setting.in_of_writes (setting : Setting) (writes : s.Writes i setting.written) :
    setting.In s (s.settingOf ⟨i, i + setting.written.length⟩) := by
  have reads := reads_of_writes writes
  cases setting with
  | pk => exact ⟨i, settingOf_word reads⟩
  | unique => exact ⟨i, settingOf_word reads⟩
  | increment => exact ⟨i, settingOf_word reads⟩
  | notNull =>
    have tokens : s.tokens ⟨i, i + 2⟩ = [.ident "not", .ident "null"] := tokens_of_reads reads
    have second : s.isMark (i + 1) .colon = false := by
      rw [isMark_of_token? reads.2.1]
      simp [word]
    refine ⟨i, ?_⟩
    show s.settingOf ⟨i, i + 2⟩ = _
    simp only [settingOf, tokens, second, reads.1, word]
    rw [if_neg (by simp)]
    rfl
  | default text =>
    have pair : s.settingOf ⟨i, i + 3⟩ = _ :=
      settingOf_pair ⟨reads.1, reads.2.1, trivial⟩ (by omega)
    exact ⟨_, _, pair, quotedText_of_reads reads.2.2⟩
  | note text =>
    have pair : s.settingOf ⟨i, i + 3⟩ = _ :=
      settingOf_pair ⟨reads.1, reads.2.1, trivial⟩ (by omega)
    exact ⟨_, _, pair, quotedText_of_reads reads.2.2⟩
  | ref kind target =>
    have names := (writes_cons (writes_cons (writes_cons writes).2).2).2
    have length : i + (Setting.ref kind target).written.length =
        i + 3 + (writtenNames target.names).length := by
      simp [written]
      omega
    have pair : s.settingOf ⟨i, i + 3 + (writtenNames target.names).length⟩ = _ :=
      settingOf_pair ⟨reads.1, reads.2.1, trivial⟩ (by omega)
    rw [length]
    refine ⟨_, ⟨i + 3, i + 3 + (writtenNames target.names).length⟩, _, pair, ?_,
      endpoint_of_writes names, text_of_writtenNames names (by simp [Target.names])⟩
    have long : ¬ i + 3 + (writtenNames target.names).length - (i + 2) < 2 := by
      have named : 0 < (writtenNames target.names).length := by
        cases names : target.names with
        | nil => simp [Target.names] at names
        | cons name rest => simp [writtenNames]
      omega
    have operator : s.token? (i + 2) = some (.mark (operatorMark kind)) := reads.2.2.1
    simp [columnReference?, TokenRange.size, TokenRange.drop, long, operator,
      relation?_operatorMark]

/-- The items that written settings are taken apart into. -/
theorem settings_of_writes (setting : Setting) (rest : List Setting)
    (writes : s.Writes i (writtenSettings (setting :: rest))) :
    List.Forall₂ (Setting.In s) (setting :: rest)
      (s.settings ⟨i, i + (writtenSettings (setting :: rest)).length⟩) := by
  have solid : ∀ (setting : Setting), setting.written.map (·.token) ≠ [] := by
    intro setting
    cases setting <;> simp [Setting.written]
  have plain : ∀ (setting : Setting), ∀ t ∈ setting.written.map (·.token),
      t ≠ .mark .openParen ∧ t ≠ .mark .closeParen ∧ t ≠ .mark .comma := by
    intro setting t listed
    obtain ⟨w, written, rfl⟩ := List.mem_map.1 listed
    have apart := setting.plain w written
    refine ⟨?_, ?_, ?_⟩
    · exact ne_of_structural (by simp [structural]) apart
    · exact ne_of_structural (by simp [structural]) apart
    · exact ne_of_structural (by simp [structural]) apart
  induction rest generalizing i setting with
  | nil =>
    simp only [writtenSettings, List.flatMap_nil, List.append_nil] at writes ⊢
    have items := settings_last (reads_of_writes writes) (solid setting)
      fun comma => (plain setting _ comma).2.2 rfl
    rw [List.length_map] at items
    rw [items]
    exact .cons (setting.in_of_writes writes) .nil
  | cons next rest ih =>
    have split : writtenSettings (setting :: next :: rest) =
        setting.written ++ (sign .comma [] [' '] :: writtenSettings (next :: rest)) := by
      simp [writtenSettings]
    rw [split] at writes ⊢
    obtain ⟨here, others⟩ := writes_append writes
    obtain ⟨comma, later⟩ := writes_cons others
    have reads : s.Reads i (setting.written.map (·.token) ++ [.mark .comma]) := by
      refine reads_append.2 ⟨reads_of_writes here, ?_⟩
      rw [List.length_map]
      exact reads_of_writes comma
    have items : s.settings ⟨i, i + setting.written.length + 1 +
        (writtenSettings (next :: rest)).length⟩ = _ :=
      settings_cons reads (solid setting) (plain setting) (by rw [List.length_map]; omega)
    rw [List.length_map] at items
    rw [List.length_append, List.length_cons, show i + (setting.written.length +
      ((writtenSettings (next :: rest)).length + 1)) = i + setting.written.length + 1 +
      (writtenSettings (next :: rest)).length by omega, items]
    exact .cons (setting.in_of_writes here) (ih next later)

/-! ## The column -/

/-- What a setting does to a column of the table with the key. -/
def Setting.apply (table : String) (declared : DeclaredColumn) : Setting → DeclaredColumn
  | .pk => { declared with column := { declared.column with pk := true } }
  | .unique => { declared with column := { declared.column with unique := true } }
  | .notNull => { declared with column := { declared.column with notNull := true } }
  | .increment => { declared with column := { declared.column with increment := true } }
  | .default text => { declared with column := { declared.column with defaultValue := some text } }
  | .note text => { declared with column := { declared.column with note := some text } }
  | .ref kind target =>
    { column := { declared.column with reference := some target.text }
      relationship := some
        { fromTable := table, fromColumn := declared.column.name, toTable := target.key,
          toColumn := target.column, kind } }

def Setting.isRef : Setting → Bool
  | .ref _ _ => true
  | _ => false

theorem Setting.apply_of_in {setting : Setting} {item : Dbml.Setting} (related : setting.In s item)
    {table : String} {declared : DeclaredColumn}
    (free : setting.isRef = true → declared.column.reference = none) :
    s.applyColumnSetting table declared item = pure (setting.apply table declared) := by
  cases setting with
  | pk => obtain ⟨position, rfl⟩ := related; rfl
  | unique => obtain ⟨position, rfl⟩ := related; rfl
  | notNull => obtain ⟨position, rfl⟩ := related; rfl
  | increment => obtain ⟨position, rfl⟩ := related; rfl
  | default text =>
    obtain ⟨value, position, rfl, quoted⟩ := related
    simp [applyColumnSetting, valueText, quoted, apply]
  | note text =>
    obtain ⟨value, position, rfl, quoted⟩ := related
    simp [applyColumnSetting, quoted, apply]
  | ref kind target =>
    obtain ⟨value, range, position, rfl, reference, endpoint, text⟩ := related
    simp [applyColumnSetting, free rfl, reference, endpoint, text, apply, Relationship.inline]

/-- Settings of which at most one is a reference are applied without a finding. -/
theorem foldlM_settings {settings : List Setting} {items : List Dbml.Setting}
    (related : List.Forall₂ (Setting.In s) settings items) {table : String}
    {declared : DeclaredColumn}
    (once : settings.countP Setting.isRef + declared.column.reference.toList.length ≤ 1) :
    items.foldlM (s.applyColumnSetting table) declared =
      pure (settings.foldl (Setting.apply table) declared) := by
  induction related generalizing declared with
  | nil => rfl
  | @cons setting item settings items here _ ih =>
    rw [List.countP_cons] at once
    have free : setting.isRef = true → declared.column.reference = none := by
      intro isRef
      rw [if_pos isRef] at once
      cases given : declared.column.reference with
      | none => rfl
      | some text => simp [given] at once
    have after : settings.countP Setting.isRef +
        (setting.apply table declared).column.reference.toList.length ≤ 1 := by
      cases setting with
      | ref kind target =>
        have first : (Setting.ref kind target).isRef = true := rfl
        rw [if_pos first] at once
        simp only [Setting.apply, Option.toList_some, List.length_singleton]
        omega
      | _ => simpa [Setting.apply, Setting.isRef] using once
    rw [List.foldlM_cons, setting.apply_of_in here free, pure_bind, List.foldl_cons]
    exact ih after

theorem countP_settings (column : Column) : column.settings.countP Setting.isRef ≤ 1 := by
  have flag : ∀ (given : Bool) (setting : Setting), setting.isRef = false →
      (if given = true then [setting] else []).countP Setting.isRef = 0 := by
    intro given setting other
    cases given <;> simp [other]
  have text : ∀ (given : Option String) (setting : String → Setting),
      (∀ text, (setting text).isRef = false) →
      (given.toList.map setting).countP Setting.isRef = 0 := by
    intro given setting other
    cases given <;> simp [other]
  simp only [Column.settings, List.countP_append, flag _ .pk rfl, flag _ .unique rfl,
    flag _ .notNull rfl, flag _ .increment rfl, text _ .default fun _ => rfl,
    text _ .note fun _ => rfl]
  cases column.reference <;> simp [Setting.isRef]

/-- All settings together make of the bare column the one they were written for. -/
theorem foldl_settings (column : Column) (table : String) :
    column.settings.foldl (Setting.apply table)
        { column := { name := column.name, type := column.type } } =
      { column := column.value, relationship := column.relationship? table } := by
  rcases column with ⟨name, type, pk, unique, notNull, increment, defaultValue, note, reference⟩
  have flags : ((if pk then [Setting.pk] else []) ++ (if unique then [Setting.unique] else []) ++
      (if notNull then [Setting.notNull] else []) ++
      (if increment then [Setting.increment] else [])).foldl
        (Setting.apply table) { column := { name, type } } =
      { column := { name, type, pk, unique, notNull, increment } } := by
    cases pk <;> cases unique <;> cases notNull <;> cases increment <;> rfl
  simp only [Column.settings, List.foldl_append] at flags ⊢
  rw [flags]
  cases defaultValue <;> cases note <;> cases reference <;> rfl

theorem columnHead?_of_reads {name type : String} {stop : Nat}
    (reads : s.Reads i [.str name, .str type]) (inside : i + 1 < stop) :
    s.columnHead? ⟨i, stop⟩ = some (name, type, i + 2) := by
  simp [columnHead?, columnType?, reads.1, reads.2.1, inside, Token.name?]

theorem columnSettings_of_writes (name : String) (settings : List Setting)
    (writes : s.Writes i (writtenBracketed settings)) :
    ∃ items, s.columnSettings name ⟨i, i + (writtenBracketed settings).length⟩ = pure items ∧
      List.Forall₂ (Setting.In s) settings items := by
  cases settings with
  | nil =>
    have absent : s.find? ⟨i, i + 0⟩ (·.isMark .openBracket) = none :=
      find?_eq_none reads_nil (by simp)
    refine ⟨[], ?_, .nil⟩
    show s.columnSettings name ⟨i, i + 0⟩ = pure []
    rw [columnSettings, absent]
  | cons setting rest =>
    obtain ⟨size, sizeAt⟩ : ∃ size, size = (writtenSettings (setting :: rest)).length := ⟨_, rfl⟩
    have length : i + (writtenBracketed (setting :: rest)).length = i + size + 2 := by
      simp [writtenBracketed, sizeAt]
      omega
    have reads := reads_of_writes writes
    have inner : s.Writes (i + 1) (writtenSettings (setting :: rest)) :=
      (writes_append (writes_cons writes).2).1
    have items := settings_of_writes setting rest inner
    have first : s.Reads i ([] ++ [.mark .openBracket]) := ⟨reads.1, trivial⟩
    have found : s.find? ⟨i, i + size + 2⟩ (·.isMark .openBracket) = some i :=
      find?_eq_some first (by simp) rfl (by simp; omega)
    have balanced : Balanced .openBracket .closeBracket
        ((writtenSettings (setting :: rest)).map (·.token)) := by
      refine balanced_of_others fun t listed => ?_
      obtain ⟨w, written, rfl⟩ := List.mem_map.1 listed
      rcases writtenSettings_plain _ w written with comma | plain
      · simp [comma]
      · constructor
        · exact ne_of_structural (by simp [structural]) plain
        · exact ne_of_structural (by simp [structural]) plain
    have partner : s.matching i (i + size + 2) .openBracket .closeBracket = some (i + size + 1) := by
      rw [sizeAt, ← List.length_map (·.token)]
      refine matching_eq_some (by decide) ?_ balanced (by omega)
      simpa [writtenBracketed, sign] using reads
    refine ⟨_, ?_, items⟩
    rw [length, columnSettings, found]
    simp only [partner]
    rw [← sizeAt, show i + 1 + size = i + size + 1 by omega]

/-- A line that is written for a column declares it, and nothing is found wrong. -/
theorem column?_of_writes (column : Column) (table : String)
    (writes : s.Writes i (Line.column column).written) :
    s.column? table ⟨i, i + (Line.column column).written.length⟩ =
      pure (some { column := column.value, relationship := column.relationship? table }) := by
  obtain ⟨items, taken, related⟩ :=
    columnSettings_of_writes column.name column.settings (writes_cons (writes_cons writes).2).2
  have length : i + (Line.column column).written.length =
      i + 1 + 1 + (writtenBracketed column.settings).length := by
    simp [Line.written]
    omega
  have reads := reads_of_writes writes
  have head : s.columnHead? ⟨i, i + (Line.column column).written.length⟩ = _ :=
    columnHead?_of_reads ⟨reads.1, reads.2.1, trivial⟩ (by omega)
  have once := countP_settings column
  have applied : items.foldlM (s.applyColumnSetting table)
      { column := { name := column.name, type := column.type } } = _ :=
    foldlM_settings related (by simpa using once)
  rw [foldl_settings] at applied
  rw [column?, head]
  simp only
  rw [length, taken, pure_bind, applied, pure_bind]

end Canonical

end Dbml
