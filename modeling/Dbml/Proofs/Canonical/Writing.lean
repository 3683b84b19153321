import Dbml.Proofs.Canonical.Document
import Dbml.Proofs.Token.Written

/-!
# Canonical documents token by token

Each part of a canonical document as the tokens it is written with. Main statements: these tokens
spell the text (`toList_render`), and they are read back from it (`allReadBack_written`).
-/

namespace Dbml.Canonical

open Token (Written)
open Token.Written

/-! ## Single tokens -/

def lit (text : String) (after : List Char := []) : Written :=
  { token := .str text, spelling := (literal text).toList, after }

def word (text : String) (after : List Char := []) : Written :=
  { token := .ident text, spelling := text.toList, after }

def sign (mark : Mark) (before after : List Char := []) : Written :=
  { token := .mark mark, spelling := mark.spelling.toList, before, after }

def lineEnd : Written :=
  { token := .newline, spelling := ['\n'] }

def operatorMark : RelationKind → Mark
  | .manyToOne => .greater
  | .oneToMany => .less
  | .oneToOne => .dash
  | .manyToMany => .lessGreater

/-! ## Parts of a document -/

def writtenNames : List String → List Written
  | [] => []
  | name :: rest => lit name :: rest.flatMap fun next => [sign .dot, lit next]

def Setting.written : Setting → List Written
  | .pk => [word "pk"]
  | .unique => [word "unique"]
  | .notNull => [word "not" [' '], word "null"]
  | .increment => [word "increment"]
  | .default text => [word "default", sign .colon [] [' '], lit text]
  | .note text => [word "note", sign .colon [] [' '], lit text]
  | .ref kind target =>
    [word "ref", sign .colon [] [' '], sign (operatorMark kind) [] [' ']] ++
      writtenNames target.names

/-- Settings with commas between them. -/
def writtenSettings : List Setting → List Written
  | [] => []
  | setting :: rest =>
    setting.written ++ rest.flatMap fun next => sign .comma [] [' '] :: next.written

def writtenBracketed : List Setting → List Written
  | [] => []
  | setting :: rest =>
    sign .openBracket [' '] :: writtenSettings (setting :: rest) ++ [sign .closeBracket]

def Line.written : Line → List Written
  | .note text => [word "Note", sign .colon [] [' '], lit text]
  | .column c => lit c.name [' '] :: lit c.type :: writtenBracketed c.settings

/-- A block on lines of its own, with a body of whole lines. -/
def writtenBlock (keyword : String) (names : List String) (body : List Written) : List Written :=
  word keyword [' '] :: writtenNames names ++
    sign .openBrace [' '] :: lineEnd :: body ++ [sign .closeBrace, lineEnd]

def Table.written (table : Table) : List Written :=
  writtenBlock "Table" table.names (table.lines.flatMap fun line => line.written ++ [lineEnd])

def Item.written : Item → List Written
  | .table t => t.written
  | .group name tables => writtenBlock "TableGroup" [name] (tables.flatMap Table.written)

/-- The tokens of a canonical document. -/
def written (items : List Item) : List Written :=
  items.flatMap Item.written

/-! ## The tokens spell the text -/

@[simp] theorem chars_flatMap {α : Type} (f : α → List Written) (xs : List α) :
    chars (xs.flatMap f) = xs.flatMap fun x => chars (f x) := by
  simp [chars, List.flatMap_assoc]

theorem toList_intercalate_cons (separator first : String) (rest : List String) :
    (separator.intercalate (first :: rest)).toList =
      first.toList ++ rest.flatMap fun next => separator.toList ++ next.toList := by
  induction rest generalizing first with
  | nil => simp
  | cons next rest ih => simp [String.intercalate_cons_cons, ih]

theorem toList_dotted (names : List String) :
    (dotted names).toList = chars (writtenNames names) := by
  cases names with
  | nil => rfl
  | cons name rest =>
    rw [dotted, List.map_cons, toList_intercalate_cons, List.flatMap_map]
    simp [writtenNames, lit, sign, Mark.spelling]

theorem spelling_operatorMark (kind : RelationKind) :
    (operatorMark kind).spelling = kind.operator := by
  cases kind <;> rfl

theorem Setting.toList_text (setting : Setting) : setting.text.toList = chars setting.written := by
  cases setting with
  | ref kind target =>
    simp [Setting.text, Setting.written, word, sign, Target.text, toList_dotted,
      ← spelling_operatorMark, Mark.spelling]
  | _ => simp [Setting.text, Setting.written, word, sign, lit, Mark.spelling]

theorem toList_bracketed (settings : List Setting) :
    (bracketed settings).toList = chars (writtenBracketed settings) := by
  cases settings with
  | nil => rfl
  | cons setting rest =>
    simp only [bracketed, String.toList_append, List.map_cons, toList_intercalate_cons,
      List.flatMap_map, Setting.toList_text]
    simp [writtenBracketed, writtenSettings, sign, Mark.spelling]

theorem Line.toList_text (line : Line) : line.text.toList = chars line.written := by
  cases line with
  | note text => simp [Line.text, Line.written, word, sign, lit, Mark.spelling]
  | column c => simp [Line.text, Line.written, lit, toList_bracketed]

theorem Table.toList_text (table : Table) : table.text.toList = chars table.written := by
  simp [Table.text, Table.written, writtenBlock, word, sign, lineEnd, toList_dotted,
    Line.toList_text, Mark.spelling, List.flatMap_map]

theorem Item.toList_text (item : Item) : item.text.toList = chars item.written := by
  cases item with
  | table t => exact t.toList_text
  | group name tables =>
    simp [Item.text, Item.written, writtenBlock, writtenNames, word, sign, lit, lineEnd,
      Table.toList_text, Mark.spelling, List.flatMap_map]

theorem toList_render (items : List Item) : (render items).toList = chars (written items) := by
  simp [render, written, Item.toList_text, List.flatMap_map]

/-! ## The tokens are read back -/

theorem readsBack_lit (text : String) {after : List Char} (gap : IsGap after) (rest : List Char) :
    (lit text after).ReadsBack rest := by
  refine ⟨isGap_nil, gap, '"', Token.escape '"' text.toList ++ ['"'], ?_, .inr (by decide), ?_⟩
  · simp [lit, literal]
  · simpa [lit] using Token.readToken_literal text (after ++ rest)

theorem readsBack_lineEnd (rest : List Char) : lineEnd.ReadsBack rest :=
  ⟨isGap_nil, isGap_nil, '\n', [], rfl, .inl rfl, Token.readToken_newline rest⟩

/-- A mark of one character that begins no longer one. -/
theorem readsBack_sign {c : Char} {mark : Mark} (spelled : Mark.ofChar? c = some mark)
    {before after rest : List Char} (front : IsGap before) (back : IsGap after)
    (apart : mark = .less → (after ++ rest).head? ≠ some '>') :
    (sign mark before after).ReadsBack rest := by
  exact ⟨front, back, c, [], Mark.spelling_of_ofChar? spelled,
    .inr (Token.solid_of_ofChar? spelled), Token.readToken_mark spelled apart⟩

theorem isGap_space : IsGap [' '] := by
  intro c listed
  rw [List.mem_singleton] at listed
  subst listed
  decide

theorem readsBack_operator (kind : RelationKind) (rest : List Char) :
    (sign (operatorMark kind) [] [' ']).ReadsBack rest := by
  cases kind with
  | manyToOne => exact readsBack_sign (c := '>') rfl isGap_nil isGap_space (by simp)
  | oneToMany => exact readsBack_sign (c := '<') rfl isGap_nil isGap_space (by simp)
  | oneToOne => exact readsBack_sign (c := '-') rfl isGap_nil isGap_space (by simp)
  | manyToMany =>
    exact ⟨isGap_nil, isGap_space, '<', ['>'], rfl, .inr (by decide),
      Token.readToken_lessGreater _⟩

/-- Whether a word is read as one, when no letter of another follows. -/
def isWord (text : String) : Bool :=
  match text.toList with
  | [] => false
  | c :: cs => Token.beginsWord c && cs.all Token.continuesWord

/-- What may follow a word: nothing that would go on with it. -/
def EndsWord (rest : List Char) : Prop :=
  ∀ d ∈ rest.head?, Token.continuesWord d = false

theorem readsBack_word {text : String} (spelled : isWord text = true) {after rest : List Char}
    (gap : IsGap after) (ends : EndsWord (after ++ rest)) : (word text after).ReadsBack rest := by
  unfold isWord at spelled
  cases letters : text.toList with
  | nil => rw [letters] at spelled; cases spelled
  | cons c cs =>
    rw [letters] at spelled
    simp only [Bool.and_eq_true, List.all_eq_true] at spelled
    obtain ⟨begins, continues⟩ := spelled
    refine ⟨isGap_nil, gap, c, cs, letters, .inr (Token.solid_of_beginsWord begins), ?_⟩
    have read := Token.readToken_word begins continues ends
    rw [← letters, String.ofList_toList] at read
    exact read

theorem endsWord_cons {c : Char} (stop : Token.continuesWord c = false) (cs : List Char) :
    EndsWord (c :: cs) := by
  intro d listed
  cases listed
  exact stop

theorem endsWord_space (cs : List Char) : EndsWord ([' '] ++ cs) :=
  endsWord_cons (by decide) cs

theorem endsWord_colon (cs : List Char) : EndsWord (':' :: cs) :=
  endsWord_cons (by decide) cs

theorem readsBack_colon (rest : List Char) : (sign .colon [] [' ']).ReadsBack rest :=
  readsBack_sign (c := ':') rfl isGap_nil isGap_space (by simp)

theorem allReadBack_flatMap {α : Type} {f : α → List Written} {xs : List α}
    (each : ∀ x ∈ xs, ∀ rest, AllReadBack (f x) rest) (rest : List Char) :
    AllReadBack (xs.flatMap f) rest := by
  induction xs with
  | nil => exact allReadBack_nil rest
  | cons x xs ih =>
    rw [List.flatMap_cons, allReadBack_append]
    exact ⟨each x (by simp) _, ih fun y listed => each y (by simp [listed])⟩

theorem allReadBack_names (names : List String) (rest : List Char) :
    AllReadBack (writtenNames names) rest := by
  cases names with
  | nil => exact allReadBack_nil rest
  | cons name names =>
    refine ⟨readsBack_lit name isGap_nil _, allReadBack_flatMap (fun next _ rest => ?_) rest⟩
    exact ⟨readsBack_sign (c := '.') rfl isGap_nil isGap_nil (by simp),
      readsBack_lit next isGap_nil _, trivial⟩

theorem Setting.allReadBack (setting : Setting) {rest : List Char} (ends : EndsWord rest) :
    AllReadBack setting.written rest := by
  cases setting with
  | pk => exact ⟨readsBack_word (by decide) isGap_nil ends, trivial⟩
  | unique => exact ⟨readsBack_word (by decide) isGap_nil ends, trivial⟩
  | notNull =>
    exact ⟨readsBack_word (by decide) isGap_space (endsWord_space _),
      readsBack_word (by decide) isGap_nil ends, trivial⟩
  | increment => exact ⟨readsBack_word (by decide) isGap_nil ends, trivial⟩
  | default text =>
    exact ⟨readsBack_word (by decide) isGap_nil (endsWord_colon _), readsBack_colon _,
      readsBack_lit text isGap_nil _, trivial⟩
  | note text =>
    exact ⟨readsBack_word (by decide) isGap_nil (endsWord_colon _), readsBack_colon _,
      readsBack_lit text isGap_nil _, trivial⟩
  | ref kind target =>
    exact ⟨readsBack_word (by decide) isGap_nil (endsWord_colon _), readsBack_colon _,
      readsBack_operator kind _, allReadBack_names target.names rest⟩

theorem allReadBack_settings (settings : List Setting) {rest : List Char} (ends : EndsWord rest) :
    AllReadBack (writtenSettings settings) rest := by
  have others : ∀ more : List Setting,
      AllReadBack (more.flatMap fun next => sign .comma [] [' '] :: next.written) rest ∧
        EndsWord (chars (more.flatMap fun next => sign .comma [] [' '] :: next.written) ++ rest) := by
    intro more
    induction more with
    | nil => exact ⟨trivial, ends⟩
    | cons next more ih =>
      refine ⟨?_, endsWord_cons (c := ',') (by decide) _⟩
      rw [List.flatMap_cons, allReadBack_append]
      exact ⟨⟨readsBack_sign (c := ',') rfl isGap_nil isGap_space (by simp),
        next.allReadBack ih.2⟩, ih.1⟩
  cases settings with
  | nil => exact allReadBack_nil rest
  | cons setting more =>
    rw [writtenSettings, allReadBack_append]
    exact ⟨setting.allReadBack (others more).2, (others more).1⟩

theorem allReadBack_bracketed (settings : List Setting) (rest : List Char) :
    AllReadBack (writtenBracketed settings) rest := by
  cases settings with
  | nil => exact allReadBack_nil rest
  | cons setting more =>
    rw [writtenBracketed, List.cons_append, allReadBack_cons, allReadBack_append]
    refine ⟨readsBack_sign (c := '[') rfl isGap_space isGap_nil (by simp), ?_, ?_, trivial⟩
    · exact allReadBack_settings _ (endsWord_cons (c := ']') (by decide) _)
    · exact readsBack_sign (c := ']') rfl isGap_nil isGap_nil (by simp)

theorem Line.allReadBack (line : Line) (rest : List Char) : AllReadBack line.written rest := by
  cases line with
  | note text =>
    exact ⟨readsBack_word (by decide) isGap_nil (endsWord_colon _), readsBack_colon _,
      readsBack_lit text isGap_nil _, trivial⟩
  | column c =>
    exact ⟨readsBack_lit c.name isGap_space _, readsBack_lit c.type isGap_nil _,
      allReadBack_bracketed c.settings rest⟩

theorem allReadBack_block {keyword : String} (spelled : isWord keyword = true) (names : List String)
    {body : List Written} (back : ∀ rest, AllReadBack body rest) (rest : List Char) :
    AllReadBack (writtenBlock keyword names body) rest := by
  simp only [writtenBlock, List.cons_append, allReadBack_cons, allReadBack_append]
  refine ⟨readsBack_word spelled isGap_space (endsWord_space _), ⟨allReadBack_names names _,
    readsBack_sign (c := '\x7b') rfl isGap_space isGap_nil (by simp), readsBack_lineEnd _, back _⟩,
    readsBack_sign (c := '\x7d') rfl isGap_nil isGap_nil (by simp), readsBack_lineEnd _, trivial⟩

theorem Table.allReadBack (table : Table) (rest : List Char) : AllReadBack table.written rest := by
  refine allReadBack_block (by decide) table.names (allReadBack_flatMap ?_) rest
  intro line _ rest
  rw [allReadBack_append]
  exact ⟨line.allReadBack _, readsBack_lineEnd _, trivial⟩

theorem Item.allReadBack (item : Item) (rest : List Char) : AllReadBack item.written rest := by
  cases item with
  | table t => exact t.allReadBack rest
  | group name tables =>
    exact allReadBack_block (by decide) [name]
      (allReadBack_flatMap fun t _ rest => t.allReadBack rest) rest

theorem allReadBack_written (items : List Item) : AllReadBack (written items) [] :=
  allReadBack_flatMap (fun item _ rest => item.allReadBack rest) []

end Dbml.Canonical
