import Dbml.Proofs.Verbatim.Alike
import Dbml.Proofs.Verbatim.Inline
import Dbml.Proofs.Verbatim.Tokens

/-!
# Columns and indexes with other raw texts

A source retells another when it has the same tokens, the same of them joined without a gap, and
related texts on its lines. A line declares columns, indexes and references that are alike in both.
Main statements: `Retold.column?`, `Retold.index?` and `Retold.reference`.
-/

namespace Dbml

open Source Noted

/-- The same tokens, joined where they were joined, and related texts and values on every line. -/
structure Retold (R : String → String → Prop) (s t : Source) : Prop where
  tokens : SameTokens s t
  refl : ∀ x, R x x
  joined : ∀ {i j : Nat} {a b a' b' : Span}, s.token? i ≠ some .newline →
    s.token? j ≠ some .newline → s.span? i = some a → s.span? j = some b → t.span? i = some a' →
    t.span? j = some b' → (a'.stop = b'.start ↔ a.stop = b.start)
  text : ∀ range, s.Inline range → R (s.text range) (t.text range)
  raw : ∀ range, s.Inline range → R (Text.trimmed (s.text range)) (Text.trimmed (t.text range))
  value : ∀ range, s.Inline range → Option.Rel R (s.valueText range) (t.valueText range)
  color : ∀ range, s.Inline range → Option.Rel R (s.colorText range) (t.colorText range)

section Parts

variable (R : String → String → Prop)

structure Endpoint.Alike (a b : Endpoint) : Prop where
  table : b.table = a.table
  column : R a.column b.column
  malformed : b.malformed = a.malformed

structure DeclaredColumn.Alike (a b : DeclaredColumn) : Prop where
  column : Column.Alike R a.column b.column
  relationship : Option.Rel (Relationship.Alike R) a.relationship b.relationship

structure Reference.Alike (a b : Reference) : Prop where
  relationship : Relationship.Alike R a.relationship b.relationship
  malformed : b.malformed = a.malformed

end Parts

variable {R : String → String → Prop} {s t : Source} {line range : TokenRange}

/-- A finding at a token that is no line end. -/
theorem Finding.alike_same {position : Nat} (solid : s.token? position ≠ some .newline)
    {cause : Cause} : Finding.Alike R s ⟨position, cause⟩ ⟨position, cause⟩ :=
  ⟨rfl, solid, .same cause⟩

theorem Relationship.alike_inline (table : String) {column column' : String} (kind : RelationKind)
    {target target' : Endpoint} (from_ : R column column')
    (to_ : Endpoint.Alike R target target') :
    Relationship.Alike R (Relationship.inline table column kind target)
      (Relationship.inline table column' kind target') :=
  ⟨rfl, from_, to_.table, to_.column, rfl, rfl, .none, .none⟩

theorem Source.inline_indexSettings (inline : s.Inline line) {next : Nat}
    (low : line.start ≤ next) : ∀ x ∈ s.indexSettings next line.stop, x.Inline s := by
  rw [Source.indexSettings]
  split
  · refine inline_settings (inline.between (Nat.le_succ_of_le low) ?_)
    cases closes : s.matching next line.stop .openBracket .closeBracket with
    | none => exact Nat.le_refl _
    | some closing => exact Nat.le_of_lt (matching_bounds closes).2.1
  · simp

namespace Retold

variable (retold : Retold R s t)

include retold

/-- A token has a span in both sources or in none. -/
theorem span? (i : Nat) : Option.Rel (fun _ _ => True) (s.span? i) (t.span? i) := by
  have token := retold.tokens.token? i
  rw [Source.token?, Source.token?] at token
  rw [Source.span?, Source.span?]
  cases here : s.lexemes[i]? with
  | none =>
    rw [here, Option.map_none, Option.map_eq_none_iff] at token
    rw [token]
    exact .none
  | some lexeme =>
    rw [here, Option.map_some, Option.map_eq_some_iff] at token
    obtain ⟨lexeme', there, -⟩ := token
    rw [there]
    exact .some trivial

/-- Two tokens that are no line ends are joined in both sources or in none. -/
theorem meets {i j : Nat} (first : s.token? i ≠ some .newline) (second : s.token? j ≠ some .newline)
    (absent : Bool) :
    (match t.span? i, t.span? j with
      | some a, some b => a.stop == b.start
      | _, _ => absent) =
    match s.span? i, s.span? j with
      | some a, some b => a.stop == b.start
      | _, _ => absent := by
  rcases cases_of_optionRel (retold.span? i) with ⟨none, none'⟩ | ⟨a, a', here, here', -⟩
  · rw [none, none']
  rcases cases_of_optionRel (retold.span? j) with ⟨none, none'⟩ | ⟨b, b', there, there', -⟩
  · rw [here, here', none, none']
  · rw [here, here', there, there', Bool.eq_iff_iff, beq_iff_eq, beq_iff_eq]
    exact retold.joined first second here there here' there'

theorem hasEmptyBody {block : Block} (opening : s.token? block.opening ≠ some .newline)
    (closing : s.token? block.closing ≠ some .newline) :
    t.hasEmptyBody block = s.hasEmptyBody block :=
  retold.meets opening closing true

/-! ## Types -/

theorem isAdjacent (inline : s.Inline range) {i : Nat} (low : range.start < i)
    (high : i < range.stop) : t.isAdjacent i = s.isAdjacent i := by
  obtain ⟨j, rfl⟩ : ∃ j, i = j + 1 := ⟨i - 1, by omega⟩
  exact retold.meets (inline j (by omega) (by omega)) (inline (j + 1) (by omega) high) false

theorem typeEnd (inline : s.Inline line) {j : Nat} (low : line.start < j) :
    t.typeEnd j line.stop = s.typeEnd j line.stop := by
  induction size : line.stop - j using Nat.strongRecOn generalizing j with
  | ind n ih =>
  have later (k : Nat) (ahead : j < k) (inside : j < line.stop) :
      t.typeEnd k line.stop = s.typeEnd k line.stop := ih _ (by omega) (by omega) rfl
  have partner := retold.tokens.matching j line.stop .openParen .closeParen
  rw [Source.typeEnd, Source.typeEnd.eq_def s]
  by_cases inside : j < line.stop
  · simp only [retold.isAdjacent inline low inside, retold.tokens.isMark]
    split
    · split
      · split
        next close' closes' =>
          rw [closes'] at partner
          split
          next close closes =>
            have bounds := matching_bounds closes
            rw [closes, Option.some.injEq] at partner
            rw [partner, later _ (by omega) inside]
          next none => rw [none] at partner; cases partner
        next none =>
          rw [none] at partner
          split
          next close closes => rw [closes] at partner; cases partner
          · rfl
      · split
        · rw [later _ (by omega) inside]
        · rw [later _ (Nat.lt_succ_self j) inside]
    · rfl
  · simp only [inside, false_and, if_false]

/-- The same end of a related type, or no type in either source. -/
theorem columnType? (inline : s.Inline line) {i : Nat} (low : line.start ≤ i) :
    Option.Rel (fun a b => R a.1 b.1 ∧ b.2 = a.2) (s.columnType? i line.stop)
      (t.columnType? i line.stop) := by
  rw [Source.columnType?, Source.columnType?, retold.tokens.token?]
  by_cases inside : i < line.stop
  · have ends := retold.typeEnd inline (j := i + 1) (by omega)
    have bound : s.typeEnd (i + 1) line.stop ≤ line.stop := typeEnd_le inside
    have text := retold.text ⟨i, s.typeEnd (i + 1) line.stop⟩ (inline.between low bound)
    rw [if_pos inside, if_pos inside]
    dsimp only
    rw [ends]
    split
    · exact .some ⟨retold.refl _, rfl⟩
    · exact .some ⟨text, rfl⟩
    · exact .some ⟨text, rfl⟩
    · exact .none
  · rw [if_neg inside, if_neg inside]
    exact .none

theorem columnHead? (inline : s.Inline line) :
    Option.Rel (fun a b => b.1 = a.1 ∧ R a.2.1 b.2.1 ∧ b.2.2 = a.2.2) (s.columnHead? line)
      (t.columnHead? line) := by
  have type := retold.columnType? inline (Nat.le_succ line.start)
  rw [Source.columnHead?, Source.columnHead?, retold.tokens.token?]
  cases (s.token? line.start).bind Token.name? with
  | none => exact .none
  | some name =>
    generalize s.columnType? (line.start + 1) line.stop = x at type
    generalize t.columnType? (line.start + 1) line.stop = y at type
    cases type with
    | none => exact .none
    | some related => exact .some ⟨rfl, related⟩

/-! ## References of columns -/

theorem endpoint (inline : s.Inline range) :
    Endpoint.Alike R (s.endpoint range) (t.endpoint range) := by
  have raw := retold.raw range inline
  rw [Source.endpoint, Source.endpoint, retold.tokens.tokens]
  unfold Endpoint.ofParts
  split
  · split
    · exact ⟨rfl, retold.refl _, rfl⟩
    · exact ⟨rfl, retold.refl _, rfl⟩
  · exact ⟨rfl, retold.refl _, rfl⟩
  · exact ⟨rfl, raw, rfl⟩

theorem applyColumnSetting {setting : Setting} (inline : setting.Inline s) (table : String)
    {a b : DeclaredColumn} (alike : DeclaredColumn.Alike R a b) :
    Noted.Alike (Finding.Alike R s) (DeclaredColumn.Alike R) (s.applyColumnSetting table a setting)
      (t.applyColumnSetting table b setting) := by
  obtain ⟨column, relationship⟩ := alike
  cases setting with
  | invalid position =>
    exact alike_note (Finding.alike_same inline) (alike_pure ⟨column, relationship⟩)
  | flag words position =>
    simp only [Source.applyColumnSetting]
    split
    · exact alike_pure ⟨{ column with pk := rfl }, relationship⟩
    · exact alike_pure ⟨{ column with pk := rfl }, relationship⟩
    · exact alike_pure ⟨{ column with unique := rfl }, relationship⟩
    · exact alike_pure ⟨{ column with notNull := rfl }, relationship⟩
    · exact alike_pure ⟨column, relationship⟩
    · exact alike_pure ⟨{ column with increment := rfl }, relationship⟩
    · exact alike_note (Finding.alike_same inline) (alike_pure ⟨column, relationship⟩)
  | pair key value position =>
    obtain ⟨solid, value_inline⟩ := inline
    simp only [Source.applyColumnSetting, retold.tokens.quotedText, retold.tokens.columnReference?]
    split
    · exact alike_pure
        ⟨{ column with defaultValue := retold.value value value_inline }, relationship⟩
    · split
      · exact alike_pure ⟨{ column with note := rfl }, relationship⟩
      · exact alike_note (Finding.alike_same solid) (alike_pure ⟨column, relationship⟩)
    · rw [isSome_of_optionRel column.reference, column.name]
      split
      · exact alike_note (Finding.alike_same solid) (alike_pure ⟨column, relationship⟩)
      · cases refers : s.columnReference? value with
        | none => exact alike_note (Finding.alike_same solid) (alike_pure ⟨column, relationship⟩)
        | some found =>
          obtain ⟨kind, target⟩ := found
          have target_inline : s.Inline target := by
            unfold Source.columnReference? at refers
            split at refers
            · cases refers
            · obtain ⟨_, -, same⟩ := Option.map_eq_some_iff.1 refers
              cases same
              exact value_inline.drop 1
          have text := retold.text target target_inline
          have points := retold.endpoint target_inline
          have refer : Relationship.Alike R
              (Relationship.inline table a.column.name kind (s.endpoint target))
              (Relationship.inline table a.column.name kind (t.endpoint target)) :=
            Relationship.alike_inline table kind (retold.refl _) points
          dsimp only
          rw [points.malformed]
          split
          · exact alike_note ⟨rfl, solid, .unplacedTarget text⟩
              (alike_pure ⟨{ column with name := rfl, reference := .some text }, .some refer⟩)
          · exact alike_pure ⟨{ column with name := rfl, reference := .some text }, .some refer⟩
    · exact alike_note (Finding.alike_same solid) (alike_pure ⟨column, relationship⟩)

/-! ## Columns -/

/-- The settings of a column, all of them on its line. -/
theorem columnSettings (inline : s.Inline range) (column : String) :
    Noted.Alike (Finding.Alike R s) (fun a b => b = a ∧ ∀ x ∈ a, x.Inline s)
      (s.columnSettings column range) (t.columnSettings column range) := by
  rw [retold.tokens.columnSettings, Source.columnSettings]
  cases found : s.find? range (·.isMark .openBracket) with
  | none => exact alike_pure ⟨rfl, by simp⟩
  | some opening =>
    have bounds := find?_bounds found
    have solid := inline opening bounds.1 bounds.2.1
    dsimp only
    cases closes : s.matching opening range.stop .openBracket .closeBracket with
    | none =>
      exact alike_note (Finding.alike_same solid) (alike_pure ⟨rfl,
        inline_settings (inline.between (Nat.le_succ_of_le bounds.1) (Nat.le_refl _))⟩)
    | some closing =>
      have high := Nat.le_of_lt (matching_bounds closes).2.1
      exact alike_pure ⟨rfl,
        inline_settings (inline.between (Nat.le_succ_of_le bounds.1) high)⟩

theorem column? (inline : s.Inline line) (table : String) :
    Noted.Alike (Finding.Alike R s) (Option.Rel (DeclaredColumn.Alike R)) (s.column? table line)
      (t.column? table line) := by
  rw [Source.column?, Source.column?]
  rcases cases_of_optionRel (retold.columnHead? inline) with
    ⟨none, none'⟩ | ⟨⟨_, type, _⟩, ⟨name, type', next⟩, head, head', same⟩
  · rw [none, none']
    exact alike_pure .none
  · dsimp only at same
    obtain ⟨rfl, related, rfl⟩ := same
    rw [head, head']
    have behind : s.Inline ⟨next, line.stop⟩ :=
      inline.between (columnHead?_ge head) (Nat.le_refl _)
    refine (retold.columnSettings behind name).bind fun given given' same => ?_
    obtain ⟨rfl, inline⟩ := same
    have start : DeclaredColumn.Alike R { column := { name, type } }
        { column := { name, type := type' } } :=
      ⟨⟨rfl, related, rfl, rfl, rfl, rfl, .none, rfl, .none⟩, .none⟩
    refine (alike_foldlM_same start fun a b x listed alike =>
      retold.applyColumnSetting (inline x listed) table alike).bind fun a b alike => ?_
    exact alike_pure (.some alike)

/-! ## Indexes -/

theorem applyIndexSetting {setting : Setting} (inline : setting.Inline s) {a b : Index}
    (alike : Index.Alike R a b) :
    Noted.Alike (Finding.Alike R s) (Index.Alike R) (s.applyIndexSetting a setting)
      (t.applyIndexSetting b setting) := by
  cases setting with
  | invalid position => exact alike_note (Finding.alike_same inline) (alike_pure alike)
  | flag words position =>
    simp only [Source.applyIndexSetting]
    split
    · exact alike_pure { alike with pk := rfl }
    · exact alike_pure { alike with pk := rfl }
    · exact alike_pure { alike with unique := rfl }
    · exact alike_note (Finding.alike_same inline) (alike_pure alike)
  | pair key value position =>
    obtain ⟨solid, value_inline⟩ := inline
    have text := retold.value value value_inline
    simp only [Source.applyIndexSetting, retold.tokens.quotedText]
    split
    · exact alike_pure { alike with name := text }
    · exact alike_pure { alike with type := text }
    · exact alike_pure { alike with note := rfl }
    · exact alike_note (Finding.alike_same solid) (alike_pure alike)

theorem index? (inline : s.Inline line) (some_token : line.start < line.stop) :
    Noted.Alike (Finding.Alike R s) (Option.Rel (Index.Alike R)) (s.index? line)
      (t.index? line) := by
  rw [Source.index?, Source.index?, retold.tokens.indexHead]
  cases head : s.indexHead line with
  | error fault =>
    exact alike_note (Finding.alike_same (inline _ (Nat.le_refl _) some_token)) (alike_pure .none)
  | ok found =>
    obtain ⟨columns, next⟩ := found
    have start : Index.Alike R { columns } { columns } := ⟨rfl, rfl, rfl, .none, .none, rfl⟩
    dsimp only
    rw [retold.tokens.indexSettings]
    refine (alike_foldlM_same start fun a b x listed alike => retold.applyIndexSetting
      (inline_indexSettings inline (indexHead_ge head) x listed) alike).bind fun a b alike => ?_
    exact alike_pure (.some alike)

/-! ## References -/

theorem withActions {settings : List Setting} (inline : ∀ x ∈ settings, x.Inline s)
    {a b : Relationship} (alike : Relationship.Alike R a b) :
    Relationship.Alike R (s.withActions a settings) (t.withActions b settings) := by
  induction settings generalizing a b with
  | nil => exact alike
  | cons setting rest ih =>
    obtain ⟨here, later⟩ := List.forall_mem_cons.1 inline
    cases setting with
    | flag words position => exact ih later alike
    | invalid position => exact ih later alike
    | pair key value position =>
      have text := retold.value value here.2
      by_cases delete : key = "delete"
      · subst delete
        rw [Source.withActions, Source.withActions]
        exact ih later { alike with onDelete := text }
      by_cases update : key = "update"
      · subst update
        rw [Source.withActions, Source.withActions]
        exact ih later { alike with onUpdate := text }
      · rw [withActions_other delete update, withActions_other delete update]
        exact ih later alike

theorem referenceWith (inline : s.Inline line) {settings : List Setting}
    (given : ∀ x ∈ settings, x.Inline s) (name : Option String) :
    Except.Alike Eq (Reference.Alike R) (s.referenceWith line settings name)
      (t.referenceWith line settings name) := by
  rw [Source.referenceWith, Source.referenceWith, retold.tokens.find?]
  cases found : s.find? line (·.relation?.isSome) with
  | none => exact .error rfl
  | some i =>
    have bounds := find?_bounds found
    have source := retold.endpoint (inline.between (Nat.le_refl _) (Nat.le_of_lt bounds.2.1))
    have target := retold.endpoint (inline.between (Nat.le_succ_of_le bounds.1) (Nat.le_refl _))
    dsimp only
    rw [retold.tokens.token?]
    cases (s.token? i).bind Token.relation? with
    | none => exact .error rfl
    | some kind =>
      dsimp only
      split
      · exact .error rfl
      · rw [source.malformed, target.malformed, source.table]
        refine .ok ⟨retold.withActions given ?_, rfl⟩
        exact { Relationship.alike_inline _ kind source.column target with name := rfl }

/-- The same fault, or references that are alike. -/
theorem reference (inline : s.Inline line) (name : Option String) :
    Except.Alike Eq (Reference.Alike R) (s.reference line name) (t.reference line name) := by
  have bracket := retold.tokens.find? line (·.isMark .openBracket)
  cases found : s.find? line (·.isMark .openBracket) with
  | none =>
    rw [found] at bracket
    rw [reference_of_none found, reference_of_none bracket]
    exact retold.referenceWith inline (by simp) name
  | some opening =>
    rw [found] at bracket
    have bounds := find?_bounds found
    rw [reference_of_some found, reference_of_some bracket, retold.tokens.settings,
      retold.tokens.matching]
    refine retold.referenceWith (inline.between (Nat.le_refl _) (Nat.le_of_lt bounds.2.1))
      (inline_settings (inline.between (Nat.le_succ_of_le bounds.1) ?_)) name
    cases closes : s.matching opening line.stop .openBracket .closeBracket with
    | none => exact Nat.le_refl _
    | some closing => exact Nat.le_of_lt (matching_bounds closes).2.1

end Retold

end Dbml
