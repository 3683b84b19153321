import Dbml.Proofs.Joining.Headings
import Dbml.Reference

/-!
# Targets of identifiers

A target is split into its parts twice: as a text at its dots, and as tokens at the dots among them.
A text that is put together from bare words with dots between them is split into these words either
way. Main statement: `endpoint_intercalate`.
-/

namespace Dbml

open Text

namespace Token

variable {offset : Nat} {c : Char} {cs tail rest gap follow word : List Char}
  {words : List (List Char)} {lexeme : Lexeme} {lexemes : List Lexeme}

/-! ## Identifiers -/

/-- The text is read as one word, which is the text itself. -/
def IsIdentifier (text : String) : Prop :=
  tokenize text.toList = .ok #[⟨.ident text, 0, byteSize text.toList⟩]

theorem continuesWord_of_beginsWord (begins : beginsWord c = true) : continuesWord c = true := by
  simp only [beginsWord, continuesWord, isAlphanumeric, Bool.or_eq_true] at begins ⊢
  exact begins.imp_left .inl

theorem IsWord.continues (word : IsWord cs) : ∀ c ∈ cs, continuesWord c = true := by
  intro d listed
  cases cs with
  | nil => cases listed
  | cons c letters =>
    rcases List.mem_cons.1 listed with rfl | later
    · exact continuesWord_of_beginsWord word.1
    · exact word.2 d later

theorem IsWord.dot_notMem (word : IsWord cs) : '.' ∉ cs := by
  intro dot
  exact absurd (word.continues '.' dot) (by decide)

/-- An identifier begins with a letter or an underscore, and goes on with letters, numerals and
underscores. -/
theorem isIdentifier_iff {text : String} : IsIdentifier text ↔ IsWord text.toList := by
  constructor
  · intro read
    obtain ⟨c, tail, parts, reads⟩ := (tokenize_eq_ok.1 read).single
    rw [parts]
    cases reads with
    | ident begins run stops => exact ⟨begins, run⟩
  · intro word
    have run : Run 0 (text.toList ++ []) _ := .word word (by simp) (.last (.nil []))
    rw [List.append_nil, String.ofList_toList, Nat.zero_add] at run
    exact tokenize_eq_ok.2 run

instance : DecidablePred IsIdentifier :=
  fun _ => decidable_of_iff _ isIdentifier_iff.symm

/-! ## Texts without gaps -/

/-- No gap begins in the text: it has neither white space nor slashes. -/
def IsSolid (cs : List Char) : Prop :=
  ∀ c ∈ cs, isBlank c = false ∧ c ≠ '/'

theorem IsSolid.left (solid : IsSolid (cs ++ rest)) : IsSolid cs :=
  fun c listed => solid c (List.mem_append_left rest listed)

theorem IsSolid.right (solid : IsSolid (cs ++ rest)) : IsSolid rest :=
  fun c listed => solid c (List.mem_append_right cs listed)

theorem Gap.eq_nil (between : Gap gap follow) (solid : IsSolid gap) : gap = [] := by
  cases between with
  | nil => rfl
  | blank blank =>
    have inked := (solid _ List.mem_cons_self).1
    rw [blank] at inked
    cases inked
  | comment | line | unclosed => exact absurd rfl (solid _ List.mem_cons_self).2

/-- The first token of a solid text begins where the text does. -/
theorem Run.start_of_solid (run : Run offset cs (lexeme :: lexemes)) (solid : IsSolid cs) :
    lexeme.span.start = offset := by
  cases run with
  | token between =>
    obtain rfl := between.eq_nil solid.left
    rfl

/-- The last token of a solid text ends where the text does. -/
theorem Run.lastStop_of_solid (run : Run offset cs lexemes) (solid : IsSolid cs) :
    lastStop offset lexemes = offset + byteSize cs := by
  induction run with
  | last last =>
    obtain rfl := last.eq_nil solid
    rfl
  | @token offset gap c tail rest token lexemes between ends reads others ih =>
    obtain rfl := between.eq_nil solid.left
    rw [List.nil_append, ← List.cons_append] at solid ⊢
    rw [lastStop_cons, ih solid.right, byteSize_append, byteSize_nil]
    omega

/-! ## Words with dots between them -/

/-- The text has nothing but dots and what bare words go on with. -/
def IsDotted (cs : List Char) : Prop :=
  ∀ c ∈ cs, continuesWord c = true ∨ c = '.'

instance : DecidablePred IsDotted :=
  fun cs => decidable_of_iff (cs.all (fun c => continuesWord c || c == '.') = true)
    (by simp [IsDotted])

theorem IsDotted.left (dotted : IsDotted (cs ++ rest)) : IsDotted cs :=
  fun c listed => dotted c (List.mem_append_left rest listed)

theorem IsDotted.right (dotted : IsDotted (cs ++ rest)) : IsDotted rest :=
  fun c listed => dotted c (List.mem_append_right cs listed)

theorem IsDotted.solid (dotted : IsDotted cs) : IsSolid cs := by
  intro c listed
  rcases dotted c listed with continues | rfl
  · refine ⟨isBlank_continuesWord continues, ?_⟩
    rintro rfl
    exact absurd continues (by decide)
  · exact ⟨by decide, by decide⟩

theorem isDotted_intercalate (all : ∀ word ∈ words, IsWord word) :
    IsDotted (['.'].intercalate words) := by
  induction words with
  | nil =>
    intro c listed
    cases listed
  | cons word rest ih =>
    have here : IsDotted word := fun c listed =>
      .inl ((all word List.mem_cons_self).continues c listed)
    cases rest with
    | nil =>
      rw [List.intercalate_singleton]
      exact here
    | cons next rest =>
      have later := ih fun word listed => all word (List.mem_cons_of_mem _ listed)
      intro c listed
      rw [List.intercalate_cons_cons, List.append_assoc, List.mem_append, List.mem_append,
        List.mem_singleton] at listed
      rcases listed with inWord | rfl | behind
      · exact here c inWord
      · exact .inr rfl
      · exact later c behind

theorem exists_run_dotted (nonempty : words ≠ []) (all : ∀ word ∈ words, IsWord word)
    (offset : Nat) :
    ∃ lexemes, Run offset (['.'].intercalate words) lexemes ∧ lexemes.map (·.token) =
      (words.map fun word => .ident (String.ofList word)).intersperse (.mark .dot) := by
  induction words generalizing offset with
  | nil => exact absurd rfl nonempty
  | cons word rest ih =>
    have here := all word List.mem_cons_self
    cases rest with
    | nil =>
      have run : Run offset (word ++ []) _ := .word here (by simp) (.last (.nil []))
      rw [List.append_nil] at run
      rw [List.intercalate_singleton]
      exact ⟨_, run, rfl⟩
    | cons next rest =>
      obtain ⟨lexemes, run, tokens⟩ := ih (by simp)
        (fun word listed => all word (List.mem_cons_of_mem _ listed)) (offset + byteSize word + 1)
      have spelled : Mark.ofChar? '.' = some .dot := rfl
      have dotted : Run (offset + byteSize word) ('.' :: ['.'].intercalate (next :: rest)) _ :=
        .mark spelled (by decide) run
      have stops : ∀ d ∈ ('.' :: ['.'].intercalate (next :: rest)).head?,
          continuesWord d = false := by
        rintro d dot
        cases dot
        decide
      have whole := Run.word here stops dotted
      rw [List.intercalate_cons_cons, List.append_assoc]
      refine ⟨_, whole, ?_⟩
      rw [List.map_cons, List.map_cons, tokens]
      rfl

end Token

open Token (IsIdentifier IsSolid IsWord Run lastStop lastStop_nil)

/-- Names with dots between them are split into their texts. -/
theorem nameParts_intersperse {names : List Token} {texts : List String} (nonempty : names ≠ [])
    (named : names.map Token.name? = texts.map some) :
    nameParts (names.intersperse (.mark .dot)) = some texts := by
  induction names generalizing texts with
  | nil => exact absurd rfl nonempty
  | cons t rest ih =>
    obtain ⟨text, others, rfl⟩ : ∃ text others, texts = text :: others := by
      cases texts with
      | nil => cases named
      | cons text others => exact ⟨text, others, rfl⟩
    rw [List.map_cons, List.map_cons, List.cons_eq_cons] at named
    cases rest with
    | nil =>
      obtain rfl : others = [] := List.map_eq_nil_iff.1 named.2.symm
      rw [List.intersperse_singleton, nameParts, named.1]
      rfl
    | cons next rest =>
      rw [List.intersperse_cons_cons, nameParts, if_pos rfl, named.1, ih (by simp) named.2]
      rfl

theorem splitDots_eq_splitOn (cs : List Char) : Endpoint.splitDots cs = cs.splitOn '.' := by
  induction cs with
  | nil => rfl
  | cons c cs ih =>
    rw [Endpoint.splitDots, List.splitOn_cons_eq_if_modifyHead, ← ih]
    by_cases dot : c = '.'
    · rw [if_pos dot, if_pos (by simpa using dot)]
    · rw [if_neg dot, if_neg (by simpa using dot)]
      have some_part : Endpoint.splitDots cs ≠ [] := by
        rw [ih]
        exact List.splitOn_ne_nil _ _
      cases parts : Endpoint.splitDots cs with
      | nil => exact absurd parts some_part
      | cons part parts => rfl

/-- Words with dots between them are split at the dots. -/
theorem splitDots_intercalate {words : List (List Char)} (nonempty : words ≠ [])
    (all : ∀ word ∈ words, IsWord word) :
    Endpoint.splitDots (['.'].intercalate words) = words := by
  rw [splitDots_eq_splitOn]
  exact List.splitOn_intercalate '.' (fun word listed => (all word listed).dot_notMem) nonempty

theorem trimmed_of_solid {text : String} (solid : IsSolid text.toList) :
    trimmed text = text := by
  have front : text.toList.dropWhile isBlank = text.toList := by
    cases chars : text.toList with
    | nil => rfl
    | cons c rest =>
      rw [chars] at solid
      exact List.dropWhile_cons_of_neg (by simp [(solid c List.mem_cons_self).1])
  have back : text.toList.rdropWhile isBlank = text.toList := by
    refine List.rdropWhile_eq_self_iff.2 fun some_char blank => ?_
    rw [(solid _ (List.getLast_mem some_char)).1] at blank
    cases blank
  rw [trimmed, Token.trim_eq, front, back, String.ofList_toList]

/-- Only two and three parts name a column in a table. -/
theorem ofParts_of_length {parts : List String} (two : parts.length ≠ 2) (three : parts.length ≠ 3)
    (raw : String) : Endpoint.ofParts parts raw = ⟨Endpoint.unknownTable, raw, true⟩ := by
  match parts with
  | [] | [_] | _ :: _ :: _ :: _ :: _ => rfl
  | [_, _] => exact absurd rfl two
  | [_, _, _] => exact absurd rfl three

namespace Source

variable {t : Source} {text : String}

/-- A text without white space is that of all its tokens. -/
theorem text_all (run : Run 0 t.chars t.lexemes.toList) (solid : IsSolid t.chars) :
    t.text t.all = String.ofList t.chars := by
  have ends := run.lastStop_of_solid solid
  rw [Nat.zero_add] at ends
  by_cases empty : t.size = 0
  · have none : t.lexemes.toList = [] := by
      rw [← List.length_eq_zero_iff, Array.length_toList]
      exact empty
    rw [none, lastStop_nil] at ends
    rw [text, if_pos (by simp [TokenRange.isEmpty, all, empty]), byteSize_eq_zero.1 ends.symm]
  obtain ⟨a, first⟩ := exists_span? (Nat.pos_of_ne_zero empty)
  obtain ⟨b, last⟩ := exists_span? (Nat.sub_one_lt empty)
  have start : a.start = 0 := by
    obtain ⟨lexeme, here, rfl⟩ := span?_eq_some first
    obtain ⟨rest, parts⟩ := List.head?_eq_some_iff.1 (List.head?_eq_getElem?.trans here)
    rw [parts] at run
    exact run.start_of_solid solid
  have stop : b.stop = byteSize t.chars := by
    obtain ⟨lexeme, here, rfl⟩ := span?_eq_some last
    have behind : t.lexemes.toList.getLast? = some lexeme := by
      rw [List.getLast?_eq_getElem?, Array.length_toList]
      exact here
    rw [← ends, lastStop, behind]
    rfl
  have cut := slice_append [] t.chars []
  rw [byteSize_nil, Nat.zero_add, List.nil_append, List.append_nil] at cut
  rw [text_of_span? (Nat.pos_of_ne_zero empty) first last, start, stop, cut]

theorem exists_read_of_identifiers {names : List String} (nonempty : names ≠ [])
    (identifiers : ∀ name ∈ names, IsIdentifier name) :
    ∃ t, ofString (".".intercalate names) = .ok t ∧
      t.tokens t.all = (names.map Token.ident).intersperse (.mark .dot) ∧
      t.endpoint t.all = Endpoint.ofParts names (".".intercalate names) ∧
      Endpoint.ofText (".".intercalate names) =
        Endpoint.ofParts names (".".intercalate names) := by
  have chars : (".".intercalate names).toList = ['.'].intercalate (names.map String.toList) :=
    String.toList_intercalate
  have words : ∀ word ∈ names.map String.toList, IsWord word := by
    intro word listed
    obtain ⟨name, among, rfl⟩ := List.mem_map.1 listed
    exact Token.isIdentifier_iff.1 (identifiers name among)
  have some_word : names.map String.toList ≠ [] := by simpa using nonempty
  obtain ⟨lexemes, run, tokens⟩ := Token.exists_run_dotted some_word words 0
  rw [← chars] at run
  generalize dotted : ".".intercalate names = text at *
  have solid : IsSolid text.toList := by
    rw [chars]
    exact (Token.isDotted_intercalate words).solid
  let t : Source := ⟨text.toList, lexemes.toArray⟩
  have tokens : t.tokens t.all = (names.map Token.ident).intersperse (.mark .dot) := by
    rw [tokens_all, List.toList_toArray, tokens, List.map_map]
    simp [Function.comp_def]
  have parts : nameParts ((names.map Token.ident).intersperse (.mark .dot)) = some names :=
    nameParts_intersperse (by simpa using nonempty) (by rw [List.map_map]; rfl)
  refine ⟨t, ofString_eq_ok.2 ⟨rfl, run⟩, tokens, ?_, ?_⟩
  · rw [endpoint, tokens, parts, text_all run solid]
    show Endpoint.ofParts names (trimmed (String.ofList text.toList)) = _
    rw [String.ofList_toList, trimmed_of_solid solid]
  · rw [Endpoint.ofText, chars, splitDots_intercalate some_word words, List.map_map]
    simp

/-- The text of identifiers with dots between them is read as these identifiers and dots, and names
what the text itself names: nothing but one or four and more of them name no column in a table. -/
theorem endpoint_intercalate (names : List String) (nonempty : names ≠ [])
    (identifiers : ∀ name ∈ names, IsIdentifier name) :
    ∃ t, ofString (".".intercalate names) = .ok t ∧
      t.tokens t.all = (names.map Token.ident).intersperse (.mark .dot) ∧
      t.endpoint t.all = Endpoint.ofText (".".intercalate names) ∧
      Endpoint.ofText (".".intercalate names) =
        Endpoint.ofParts names (".".intercalate names) ∧
      (names.length = 1 ∨ 4 ≤ names.length →
        t.endpoint t.all = ⟨Endpoint.unknownTable, ".".intercalate names, true⟩) := by
  obtain ⟨t, read, tokens, named, split⟩ := exists_read_of_identifiers nonempty identifiers
  refine ⟨t, read, tokens, named.trans split.symm, split, fun count => ?_⟩
  rw [named]
  exact ofParts_of_length (by omega) (by omega) _

theorem endpoint_intercalate_public : ∃ t, ofString "public.größe.id" = .ok t ∧
    t.tokens t.all =
      [.ident "public", .mark .dot, .ident "größe", .mark .dot, .ident "id"] ∧
    t.endpoint t.all = ⟨"größe", "id", false⟩ := by
  obtain ⟨t, read, tokens, named, split, -⟩ :=
    endpoint_intercalate ["public", "größe", "id"] (by decide) (by decide +kernel)
  exact ⟨t, read, tokens, named.trans split⟩

end Source

end Dbml
