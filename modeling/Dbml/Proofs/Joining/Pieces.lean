import Dbml.Proofs.Joining.Headings

/-!
# Texts with brackets and commas between them

A text that leaves neither a quote nor a comment open is read in front of a bracket or a comma as it
is by itself. Main statements: `Run.before_mark`, and `exists_listed`, a list of such texts with
commas between them and a bracket behind holds the tokens of each.
-/

namespace Dbml

open Text

namespace Token

variable {offset : Nat} {c d : Char} {cs tail rest more gap : List Char} {token : Token}
  {lexemes others : List Lexeme}

/-! ## Characters that end a token -/

theorem separates_of_mem (listed : d ∈ [',', '[', ']']) : Separates d := by
  simp only [List.mem_cons, List.not_mem_nil, or_false] at listed
  rcases listed with rfl | rfl | rfl
  · exact ⟨by decide, by decide, by decide, by decide⟩
  · exact ⟨by decide, by decide, by decide, by decide⟩
  · exact ⟨by decide, by decide, by decide, by decide⟩

/-- No token goes further before a text with such a character behind it. -/
theorem NoFurther.before (separates : Separates d) (cs more : List Char) :
    NoFurther cs (cs ++ d :: more) := by
  simpa using (NoFurther.separated separates [] more).append cs

/-! ## Runs in front of a mark -/

/-- White space at the end of a text is a gap before any other text as well. -/
theorem Gap.of_blank {follow : List Char} (between : Gap gap [])
    (blank : ∀ c ∈ gap, isBlank c = true) : Gap gap follow := by
  have noSlash : '/' ∉ gap := by
    intro slash
    have here := blank '/' slash
    rw [not_isBlank_slash] at here
    cases here
  generalize behind : ([] : List Char) = ended at between
  induction between with
  | nil => exact .nil follow
  | blank here inline _ ih =>
    refine .blank here inline (ih (fun c listed => blank c ?_) (fun slash => noSlash ?_) behind)
    · exact List.mem_cons_of_mem _ listed
    · exact List.mem_cons_of_mem _ slash
  | comment | line | unclosed => exact absurd List.mem_cons_self noSlash

/-- A text that leaves no quote open, with nothing but white space behind its last token, is read
in front of a bracket or a comma as it is by itself. -/
theorem Run.before_mark {mark : Mark} (run : Run offset cs lexemes)
    (blank : ∀ c ∈ behindLast offset lexemes cs, isBlank c = true)
    (closed : ∀ lexeme ∈ lexemes, ¬ lexeme.token.IsOpenQuote) (separates : Separates d)
    (spelled : Mark.ofChar? d = some mark) (behind : Run (offset + byteSize cs + 1) more others) :
    Run offset (cs ++ d :: more)
      (lexemes ++ ⟨.mark mark, offset + byteSize cs, offset + byteSize cs + 1⟩ :: others) := by
  induction run with
  | @last offset gap last =>
    rw [behindLast, lastStop_nil, Nat.sub_self, dropBytes_zero] at blank
    obtain ⟨solid, noSlash⟩ := solid_of_ofChar? spelled
    have size : byteSize [d] = 1 := by
      rw [byteSize_cons, utf8Size_of_ofChar? spelled, byteSize_nil]
    have reads : ReadsAs d [] more (.mark mark) := by
      refine .mark spelled fun less => ?_
      have sign : d = '<' := by
        rw [less] at spelled
        simpa [Mark.spelling] using (Mark.spelling_of_ofChar? spelled).symm
      exact absurd (by simp [sign]) separates.other
    rw [← size] at behind ⊢
    exact .token (last.of_blank blank) (endsGap_cons solid noSlash _) reads behind
  | @token offset gap c tail rest token lexemes between ends reads later ih =>
    obtain ⟨here, after⟩ := List.forall_mem_cons.1 closed
    have size : offset + byteSize (gap ++ c :: (tail ++ rest)) =
        offset + byteSize gap + byteSize (c :: tail) + byteSize rest := by
      simp only [byteSize_append, byteSize_cons]
      omega
    have wide : Gap gap (c :: (tail ++ (rest ++ d :: more))) :=
      between.replace (by simp) fun head => .inr head
    have further := NoFurther.before separates rest more
    rw [later.behindLast_token] at blank
    rw [size] at behind ⊢
    rw [List.append_assoc, List.cons_append, List.append_assoc]
    exact .token wide (ends.noFurther (further.append tail)) (reads.noFurther_of_closed here further)
      (ih blank after behind)

theorem lastStop_shift (offset n : Nat) (lexemes : List Lexeme) :
    lastStop (offset + n) (lexemes.map (·.shift n)) = lastStop offset lexemes + n := by
  induction lexemes generalizing offset with
  | nil => rfl
  | cons lexeme lexemes ih =>
    rw [List.map_cons, lastStop_cons, lastStop_cons]
    exact ih lexeme.span.stop

/-- What stands behind the last token is the same when a run is moved. -/
theorem behindLast_shift (offset n : Nat) (lexemes : List Lexeme) (cs : List Char) :
    behindLast (offset + n) (lexemes.map (·.shift n)) cs = behindLast offset lexemes cs := by
  rw [behindLast, behindLast, lastStop_shift, Nat.add_sub_add_right]

end Token

open Token (Run behindLast separates_of_mem)

/-! ## Texts that stand between others -/

/-- The text of a source stands in another one, its tokens from number `i` on. -/
def Source.StandsAt (t s : Source) (i : Nat) : Prop :=
  ∃ before, Embedded t s before i

/-- A text that is read in front of a bracket or a comma as it is by itself: it leaves no quote
open, and behind its last token stands nothing but white space. -/
structure Piece where
  text : String
  source : Source
  read : Source.ofString text = .ok source
  blank : ∀ c ∈ behindLast 0 source.lexemes.toList source.chars, isBlank c = true
  closed : ∀ lexeme ∈ source.lexemes.toList, ¬ lexeme.token.IsOpenQuote

instance (token : Token) : Decidable token.IsOpenQuote :=
  inferInstanceAs (Decidable (_ ∨ _ ∨ _))

/-- The text as a piece, if it is one. -/
def Piece.ofText? (text : String) : Option Piece :=
  match read : Source.ofString text with
  | .ok source =>
    if blank : (behindLast 0 source.lexemes.toList source.chars).all isBlank = true then
      if closed : ∀ lexeme ∈ source.lexemes.toList, ¬ lexeme.token.IsOpenQuote then
        some ⟨text, source, read, List.all_eq_true.1 blank, closed⟩
      else none
    else none
  | .error _ => none

/-- From number `i` on stand the pieces with commas between them, and token `stop` is the bracket
behind them. -/
inductive Listed (s : Source) : Nat → List Piece → Nat → Prop
  | last {i : Nat} {piece : Piece} (stands : piece.source.StandsAt s i)
    (closes : s.token? (i + piece.source.size) = some (.mark .closeBracket)) :
    Listed s i [piece] (i + piece.source.size)
  | cons {i stop : Nat} {piece : Piece} {pieces : List Piece}
    (stands : piece.source.StandsAt s i)
    (comma : s.token? (i + piece.source.size) = some (.mark .comma))
    (rest : Listed s (i + piece.source.size + 1) pieces stop) :
    Listed s i (piece :: pieces) stop

namespace Piece

/-- The pieces with commas between them and a closing bracket behind. -/
def listChars (pieces : List Piece) : List Char :=
  [','].intercalate (pieces.map (·.source.chars)) ++ [']']

/-- A line of a front, an opening bracket, and pieces with commas between them up to the closing
one. -/
def line (front : Piece) (pieces : List Piece) : String :=
  front.text ++ "[" ++ ",".intercalate (pieces.map (·.text)) ++ "]"

variable {piece front : Piece} {pieces : List Piece} {opened s : Source}

theorem chars (piece : Piece) : piece.source.chars = piece.text.toList :=
  (Source.ofString_eq_ok.1 piece.read).1

theorem run (piece : Piece) : Run 0 piece.source.chars piece.source.lexemes.toList := by
  rw [piece.chars]
  exact (Source.ofString_eq_ok.1 piece.read).2

theorem line_toList : (front.line pieces).toList =
    front.source.chars ++ '[' :: listChars pieces := by
  have texts : pieces.map (·.source.chars) = pieces.map (String.toList ∘ text) :=
    List.map_congr_left fun piece _ => piece.chars
  have between : ",".toList = [','] := rfl
  rw [line, listChars, front.chars, texts]
  simp [String.toList_intercalate]

/-- A piece is read in front of a bracket or a comma wherever it stands. -/
theorem run_before {offset : Nat} {d : Char} {mark : Mark} {more : List Char}
    {others : List Lexeme} (piece : Piece) (separator : d ∈ [',', '[', ']'])
    (spelled : Mark.ofChar? d = some mark)
    (behind : Run (offset + byteSize piece.source.chars + 1) more others) :
    Run offset (piece.source.chars ++ d :: more)
      (piece.source.lexemes.toList.map (·.shift offset) ++
        ⟨.mark mark, offset + byteSize piece.source.chars,
          offset + byteSize piece.source.chars + 1⟩ :: others) := by
  have moved := piece.run.shift offset
  have last := Token.behindLast_shift 0 offset piece.source.lexemes.toList piece.source.chars
  rw [Nat.zero_add] at moved last
  refine moved.before_mark ?_ ?_ (Token.separates_of_mem separator) spelled behind
  · rw [last]
    exact piece.blank
  · intro lexeme listed
    obtain ⟨original, among, rfl⟩ := List.mem_map.1 listed
    exact piece.closed original among

/-- What stands between the tokens in front and those at the back. -/
theorem token?_of_lexemes {front back : List Lexeme} {lexeme : Lexeme}
    (parts : s.lexemes.toList = front ++ lexeme :: back) :
    s.token? front.length = some lexeme.token :=
  (@Source.reads_of_lexemes s front [lexeme] back parts).1

/-- Pieces in a list are read one after the other. -/
theorem exists_listed (nonempty : pieces ≠ []) (offset : Nat) :
    ∃ lexemes, Run offset (listChars pieces) lexemes ∧
      ∀ (s : Source) before after front back, byteSize before = offset →
        s.chars = before ++ (listChars pieces ++ after) →
        s.lexemes.toList = front ++ (lexemes ++ back) →
        ∃ stop, Listed s front.length pieces stop ∧ front.length + lexemes.length = stop + 1 := by
  induction pieces generalizing offset with
  | nil => exact absurd rfl nonempty
  | cons piece rest ih =>
    have own (offset : Nat) :
        (piece.source.lexemes.toList.map (·.shift offset)).length = piece.source.size := by
      rw [List.length_map, Array.length_toList, Source.size]
    cases rest with
    | nil =>
      have bracket : Mark.ofChar? ']' = some .closeBracket := rfl
      have last : Run (offset + byteSize piece.source.chars + 1) [] [] := .last (.nil [])
      have run := piece.run_before (by decide) bracket last
      have written : listChars [piece] = piece.source.chars ++ [']'] := by
        simp [listChars]
      rw [written]
      refine ⟨_, run, fun s before after front back place chars lexemes => ?_⟩
      subst place
      rw [List.append_assoc] at chars lexemes
      have stands : piece.source.StandsAt s front.length :=
        ⟨before, .of_lexemes piece.run chars lexemes⟩
      rw [← List.append_assoc] at lexemes
      have closes := token?_of_lexemes lexemes
      rw [List.length_append, own] at closes
      refine ⟨_, .last stands closes, ?_⟩
      rw [List.length_append, own]
      rfl
    | cons next rest =>
      obtain ⟨lexemes, run, listed⟩ := ih (by simp) (offset + byteSize piece.source.chars + 1)
      have comma : Mark.ofChar? ',' = some .comma := rfl
      have whole := piece.run_before (by decide) comma run
      have written : listChars (piece :: next :: rest) =
          piece.source.chars ++ ',' :: listChars (next :: rest) := by
        simp [listChars, List.intercalate_cons_cons]
      rw [written]
      refine ⟨_, whole, fun s before after front back place chars parts => ?_⟩
      subst place
      rw [List.append_assoc] at chars parts
      have stands : piece.source.StandsAt s front.length :=
        ⟨before, .of_lexemes piece.run chars parts⟩
      rw [← List.append_assoc, List.cons_append] at parts
      have between := token?_of_lexemes parts
      rw [List.length_append, own] at between
      -- The other pieces stand behind the comma.
      have place : byteSize (before ++ (piece.source.chars ++ [','])) =
          byteSize before + byteSize piece.source.chars + 1 := by
        rw [byteSize_append, byteSize_append, Nat.add_assoc]
        rfl
      rw [List.append_cons] at parts
      obtain ⟨stop, later, size⟩ := listed s _ after _ back place (by simpa using chars) parts
      rw [List.length_append, List.length_append, own, List.length_singleton] at later size
      refine ⟨stop, .cons stands between later, ?_⟩
      rw [List.length_append, own, List.length_cons, ← size]
      omega

/-- The tokens of a front and a bracket are those of the front, and the bracket. -/
theorem opened_spec (readOpened : Source.ofString (front.text ++ "[") = .ok opened) :
    opened.chars = front.source.chars ++ ['['] ∧
      opened.lexemes.toList = front.source.lexemes.toList ++
        [⟨.mark .openBracket, byteSize front.source.chars, byteSize front.source.chars + 1⟩] := by
  obtain ⟨chars, run⟩ := Source.ofString_eq_ok.1 readOpened
  have written : (front.text ++ "[").toList = front.source.chars ++ ['['] := by
    rw [String.toList_append, front.chars]
    rfl
  have bracket : Mark.ofChar? '[' = some .openBracket := rfl
  have last : Run (0 + byteSize front.source.chars + 1) [] [] := .last (.nil [])
  have found := front.run_before (by decide) bracket last
  have same := run.tokens_eq #[]
  rw [written, found.tokens_eq] at same
  rw [chars, written]
  refine ⟨rfl, ?_⟩
  have unmoved : front.source.lexemes.toList.map (·.shift 0) = front.source.lexemes.toList :=
    List.map_id _
  rw [unmoved, Nat.zero_add] at same
  simpa using (congrArg Array.toList (Except.ok.inj same)).symm

/-- Behind a front and a bracket another text is read as it is by itself. -/
theorem exists_behind {more : List Char} {lexemes : List Lexeme} {text : String}
    (readOpened : Source.ofString (front.text ++ "[") = .ok opened)
    (written : text.toList = front.source.chars ++ '[' :: more)
    (run : Run (byteSize front.source.chars + 1) more lexemes) :
    ∃ l, Source.ofString text = .ok l ∧ Source.Embedded opened l [] 0 ∧
      l.chars = opened.chars ++ more ∧
      l.lexemes.toList = opened.lexemes.toList ++ lexemes := by
  obtain ⟨chars, tokens⟩ := opened_spec readOpened
  obtain ⟨written', opening⟩ := Source.ofString_eq_ok.1 readOpened
  rw [← written'] at opening
  have bracket : Mark.ofChar? '[' = some .openBracket := rfl
  have unmoved (lexemes : List Lexeme) : lexemes.map (·.shift 0) = lexemes := List.map_id _
  rw [← Nat.zero_add (byteSize front.source.chars)] at run
  have whole := front.run_before (by decide) bracket run
  rw [unmoved, Nat.zero_add, ← written,
    List.append_cons front.source.lexemes.toList, ← tokens] at whole
  have chars' : text.toList = [] ++ (opened.chars ++ more) := by
    rw [written, chars, List.append_assoc]
    rfl
  let l : Source := ⟨text.toList, (opened.lexemes.toList ++ lexemes).toArray⟩
  have parts : l.lexemes.toList =
      [] ++ (opened.lexemes.toList.map (·.shift (byteSize [])) ++ lexemes) := by
    rw [byteSize_nil, unmoved]
    rfl
  exact ⟨l, Source.ofString_eq_ok.2 ⟨rfl, whole⟩, .of_lexemes opening chars' parts, chars', rfl⟩

/-- A line is read as its front, the bracket, and the pieces behind it. -/
theorem exists_line (readOpened : Source.ofString (front.text ++ "[") = .ok opened)
    (nonempty : pieces ≠ []) :
    ∃ l stop, Source.ofString (front.line pieces) = .ok l ∧ Source.Embedded opened l [] 0 ∧
      Listed l (front.source.size + 1) pieces stop ∧ l.size = stop + 1 := by
  obtain ⟨lexemes, run, listed⟩ := exists_listed nonempty (byteSize front.source.chars + 1)
  obtain ⟨l, read, embedded, chars, parts⟩ := exists_behind readOpened line_toList run
  obtain ⟨front', tokens⟩ := opened_spec readOpened
  have before : byteSize opened.chars = byteSize front.source.chars + 1 := by
    rw [front', byteSize_append]
    rfl
  obtain ⟨stop, found, size⟩ := listed l opened.chars [] opened.lexemes.toList [] before
    (by rw [chars, List.append_nil]) (by rw [parts, List.append_nil])
  have count : opened.lexemes.toList.length = front.source.size + 1 := by
    rw [tokens, List.length_append, Array.length_toList]
    rfl
  rw [count] at found size
  refine ⟨l, stop, read, embedded, found, ?_⟩
  rw [← size, ← count, Source.size, ← Array.length_toList, parts, List.length_append]

/-- A line without pieces. -/
theorem exists_line_nil (readOpened : Source.ofString (front.text ++ "[") = .ok opened) :
    ∃ l, Source.ofString (front.line []) = .ok l ∧ Source.Embedded opened l [] 0 := by
  have bracket : Mark.ofChar? ']' = some .closeBracket := rfl
  have run : Run (byteSize front.source.chars + 1) (listChars []) _ :=
    .mark bracket (by decide) (.last (.nil []))
  obtain ⟨l, read, embedded, -⟩ := exists_behind readOpened line_toList run
  exact ⟨l, read, embedded⟩

end Piece

end Dbml
