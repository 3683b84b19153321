import Dbml.Proofs.Joining.Sources
import Dbml.Proofs.Token.Printing

/-!
# Texts with a heading in front

A reference is written behind a heading on one line, or in a block behind it. Either way its text
is read as it is by itself, only moved. Main statements: `short_ofString` and `long_ofString`.
-/

namespace Dbml

open Text

namespace Token

variable {offset : Nat} {c : Char} {cs tail rest : List Char} {token : Token}
  {lexemes : List Lexeme} {name : String}

/-! ## Runs with something in front -/

/-- White space in front of a text belongs to its first gap. -/
theorem Run.blank (blank : isBlank c = true) (inline : c ≠ '\n')
    (run : Run (offset + c.utf8Size) cs lexemes) : Run offset (c :: cs) lexemes := by
  generalize start : offset + c.utf8Size = place at run
  cases run with
  | last last => exact .last (.blank blank inline last)
  | @token _ gap d tail rest token lexemes between ends reads others =>
    subst start
    have size : offset + c.utf8Size + byteSize gap = offset + byteSize (c :: gap) := by
      rw [byteSize_cons, Nat.add_assoc]
    rw [size] at others ⊢
    exact .token (.blank blank inline between) ends reads others

/-- A token right at the beginning. -/
theorem Run.cons (ends : EndsGap (c :: (tail ++ rest))) (reads : ReadsAs c tail rest token)
    (others : Run (offset + byteSize (c :: tail)) rest lexemes) :
    Run offset (c :: tail ++ rest) (⟨token, offset, offset + byteSize (c :: tail)⟩ :: lexemes) :=
  @Run.token offset [] c tail rest token lexemes (.nil _) ends reads others

theorem Run.newline (others : Run (offset + 1) cs lexemes) :
    Run offset ('\n' :: cs) (.newlineAt offset :: lexemes) :=
  .cons (.inl rfl) (.newline cs) others

/-- A mark of one character, one that could not go on excepted. -/
theorem Run.mark {mark : Mark} (spelled : Mark.ofChar? c = some mark) (alone : mark ≠ .less)
    (others : Run (offset + 1) cs lexemes) :
    Run offset (c :: cs) (⟨.mark mark, offset, offset + 1⟩ :: lexemes) := by
  obtain ⟨solid, noSlash⟩ := solid_of_ofChar? spelled
  have size : byteSize [c] = 1 := by rw [byteSize_cons, utf8Size_of_ofChar? spelled, byteSize_nil]
  have reads : ReadsAs c [] cs (.mark mark) := .mark spelled fun less => absurd less alone
  have ends : EndsGap (c :: ([] ++ cs)) := endsGap_cons solid noSlash cs
  rw [← size] at others ⊢
  exact .cons ends reads others

/-- The characters are those of a bare word. -/
def IsWord : List Char → Prop
  | [] => False
  | c :: letters => beginsWord c = true ∧ ∀ d ∈ letters, continuesWord d = true

instance : DecidablePred IsWord
  | [] => isFalse id
  | c :: letters =>
    decidable_of_iff (beginsWord c = true ∧ letters.all continuesWord = true)
      (by rw [List.all_eq_true]; rfl)

/-- A bare word, in front of what does not go on with it. -/
theorem Run.word (word : IsWord cs) (stops : ∀ d ∈ rest.head?, continuesWord d = false)
    (others : Run (offset + byteSize cs) rest lexemes) :
    Run offset (cs ++ rest)
      (⟨.ident (String.ofList cs), offset, offset + byteSize cs⟩ :: lexemes) := by
  cases cs with
  | nil => cases word
  | cons c letters =>
    obtain ⟨begins, run⟩ := word
    obtain ⟨solid, noSlash⟩ := solid_of_beginsWord begins
    exact .cons (endsGap_cons solid noSlash _) (.ident begins run stops) others

/-- The keyword of a reference, in front of what does not go on with it. -/
theorem Run.keyword {d : Char} (follow : continuesWord d = false)
    (others : Run (offset + 3) (d :: rest) lexemes) :
    Run offset ("Ref".toList ++ d :: rest) (⟨.ident "Ref", offset, offset + 3⟩ :: lexemes) := by
  have word : IsWord "Ref".toList := by decide
  have stops : ∀ c ∈ (d :: rest).head?, continuesWord c = false := by
    intro c here
    obtain rfl : d = c := by simpa using here
    exact follow
  exact .word word stops others

/-! ## Names -/

/-- A name that is read at the end of a text is read as well in front of a blank or a colon. -/
theorem ReadsAs.name_before (reads : ReadsAs c tail [] token) (named : token.name? = some name)
    {d : Char} (follow : continuesWord d = false) (noQuote : d ≠ '\'') :
    ReadsAs c tail (d :: rest) token ∧ EndsGap (c :: (tail ++ d :: rest)) := by
  cases reads with
  | @str _ raw _ quotes closed inline single =>
    refine ⟨.str quotes closed inline fun same front => ?_, ?_⟩
    · subst same
      cases raw with
      | nil => exact noQuote (by simpa using front)
      | cons a raw =>
        refine single rfl ?_
        cases raw with
        | nil => simpa using front
        | cons b raw => simpa using front
    · rcases quotes with rfl | rfl
      · exact endsGap_cons (by decide) (by decide) _
      · exact endsGap_cons (by decide) (by decide) _
  | ident begins run stops =>
    refine ⟨.ident begins run fun e here => ?_, ?_⟩
    · obtain rfl : d = e := by simpa using here
      exact follow
    · obtain ⟨solid, noSlash⟩ := solid_of_beginsWord begins
      exact endsGap_cons solid noSlash _
  | _ => cases named

/-- A text that is one token and nothing else is the spelling of that token. -/
theorem Run.single (run : Run 0 cs [⟨token, 0, byteSize cs⟩]) :
    ∃ c tail, cs = c :: tail ∧ ReadsAs c tail [] token := by
  have listed : Run 0 cs ([] ++ ⟨token, 0, byteSize cs⟩ :: []) := run
  obtain ⟨front, gap, c, tail, rest, parts, before, -, reads, start, stop⟩ := listed.exists_token
  simp only [lastStop_nil, parts, byteSize_append, Nat.zero_add] at before start stop
  obtain rfl : front = [] := byteSize_eq_zero.1 before.symm
  obtain rfl : gap = [] := byteSize_eq_zero.1 (by omega)
  obtain rfl : rest = [] := byteSize_eq_zero.1 (by omega)
  exact ⟨c, tail, by simpa using parts, reads⟩

/-- The literal is a bare word or a quoted text and nothing else, and stands for the name. -/
def SpellsName (literal name : String) : Prop :=
  ∃ token, tokenize literal.toList = .ok #[⟨token, 0, byteSize literal.toList⟩] ∧
    token.name? = some name

/-- There is a token if there is a name, and it stands for that name. -/
def Names : Option Token → Option String → Prop :=
  Option.Rel fun token name => token.name? = some name

end Token

open Token (Names ReadsAs Run SpellsName)

/-! ## The two forms of a reference -/

namespace Reference

/-- The keyword of a reference and the literal of its name, if it has one. -/
def heading (literal : Option String) : String :=
  "Ref" ++ literal.elim "" (" " ++ ·)

/-- The reference that the text makes, on one line. -/
def shortForm (literal : Option String) (text : String) : String :=
  heading literal ++ ": " ++ text

/-- The reference that the text makes, on a line of a block. -/
def longForm (literal : Option String) (text : String) : String :=
  heading literal ++ " \x7b\n" ++ text ++ "\n\x7d"

/-- The tokens of a heading with a name or without one. -/
def headingTokens (named : Option Token) : List Token :=
  .ident "Ref" :: named.toList

/-- A heading is read as its keyword and its name in front of a blank or a colon. -/
theorem exists_heading {literal name : Option String}
    (spelled : Option.Rel SpellsName literal name) :
    ∃ named front, Names named name ∧
      front.map Lexeme.token = headingTokens named ∧
      ∀ d rest lexemes, Token.continuesWord d = false → d ≠ '\'' →
        Run (byteSize (heading literal).toList) (d :: rest) lexemes →
        Run 0 ((heading literal).toList ++ d :: rest) (front ++ lexemes) := by
  cases spelled with
  | none =>
    refine ⟨none, [⟨.ident "Ref", 0, 3⟩], .none, rfl, fun d rest lexemes follow _ others => ?_⟩
    exact .keyword follow others
  | @some literal name spelled =>
    obtain ⟨token, read, named⟩ := spelled
    obtain ⟨c, tail, parts, reads⟩ := (Token.tokenize_eq_ok.1 read).single
    refine ⟨some token, [⟨.ident "Ref", 0, 3⟩, ⟨token, 4, 4 + byteSize (c :: tail)⟩], .some named,
      rfl, fun d rest lexemes follow noQuote others => ?_⟩
    have written : (heading (some literal)).toList = "Ref".toList ++ ' ' :: (c :: tail) := by
      rw [← parts]
      simp [heading]
    have size : byteSize (heading (some literal)).toList = 4 + byteSize (c :: tail) := by
      rw [written, byteSize_append, byteSize_cons, ← Nat.add_assoc]
      rfl
    rw [size] at others
    obtain ⟨behind, ends⟩ := reads.name_before named follow noQuote
    have literal : Run 4 (c :: tail ++ d :: rest) _ := .cons ends behind others
    have blank : Run 3 (' ' :: (c :: tail ++ d :: rest)) _ := .blank (by decide) (by decide) literal
    have whole : Run 0 ("Ref".toList ++ ' ' :: _) _ := .keyword (by decide) blank
    rw [written]
    simpa using whole

end Reference

namespace Source

variable {s t : Source} {text whole : String} {before after : List Char} {front back : List Lexeme}

/-- The tokens of the first source stand in the second between these tokens. -/
structure Enclosed (t s : Source) (front back : List Token) : Prop where
  embedded : ∃ before, Embedded t s before front.length
  reads : s.Reads 0 (front ++ (t.tokens t.all ++ back))
  size : s.size = (front ++ (t.tokens t.all ++ back)).length

/-- A text with the tokens of another one, moved to where it stands, between others. -/
theorem enclosed_ofString {n : Nat} (read : ofString text = .ok t)
    (parts : whole.toList = before ++ (t.chars ++ after)) (size : byteSize before = n)
    (run : Run 0 (before ++ (t.chars ++ after))
      (front ++ (t.lexemes.toList.map (·.shift n) ++ back))) :
    ∃ s, ofString whole = .ok s ∧
      Enclosed t s (front.map Lexeme.token) (back.map Lexeme.token) := by
  obtain ⟨chars, inner⟩ := ofString_eq_ok.1 read
  rw [← chars] at inner
  rw [← parts] at run
  generalize listed : front ++ (t.lexemes.toList.map (·.shift n) ++ back) = lexemes at run
  have tokens : lexemes.map (·.token) =
      front.map Lexeme.token ++ (t.tokens t.all ++ back.map Lexeme.token) := by
    rw [← listed, tokens_all]
    simp [Function.comp_def, Lexeme.shift]
  refine ⟨⟨whole.toList, lexemes.toArray⟩, ofString_eq_ok.2 ⟨rfl, run⟩, ⟨before, ?_⟩, ?_, ?_⟩
  · rw [List.length_map]
    exact .of_lexemes inner parts (by rw [size, listed])
  · rw [← tokens]
    exact @reads_of_lexemes _ [] lexemes [] (by simp)
  · rw [← tokens, List.length_map]
    rfl

variable {literal name : Option String}

/-- On one line, the tokens of the text stand behind the heading and a colon. -/
theorem short_ofString (read : ofString text = .ok t)
    (spelled : Option.Rel SpellsName literal name) :
    ∃ s named, ofString (Reference.shortForm literal text) = .ok s ∧
      Names named name ∧ Enclosed t s (Reference.headingTokens named ++ [.mark .colon]) [] := by
  obtain ⟨named, front, names, tokens, heads⟩ := Reference.exists_heading spelled
  obtain ⟨chars, run⟩ := ofString_eq_ok.1 read
  rw [← chars] at run
  generalize place : byteSize (Reference.heading literal).toList = n at heads
  have moved : Run (n + 1 + 1) t.chars (t.lexemes.toList.map (·.shift (n + 2))) := by
    simpa using run.shift (n + 2)
  have blank : Run (n + 1) (' ' :: t.chars) _ := .blank (by decide) (by decide) moved
  have colon : Run n (':' :: ' ' :: t.chars) (⟨.mark .colon, n, n + 1⟩ :: _) :=
    .mark rfl (by decide) blank
  have whole := heads ':' _ _ (by decide) (by decide) colon
  have parts : (Reference.shortForm literal text).toList =
      ((Reference.heading literal).toList ++ [':', ' ']) ++ (t.chars ++ []) := by
    simp [Reference.shortForm, chars]
  have size : byteSize ((Reference.heading literal).toList ++ [':', ' ']) = n + 2 := by
    rw [byteSize_append, place]
    rfl
  obtain ⟨s, read', enclosed⟩ :=
    @enclosed_ofString t text _ _ [] (front ++ [⟨.mark .colon, n, n + 1⟩]) [] _ read parts size
      (by simpa using whole)
  rw [List.map_append, tokens] at enclosed
  exact ⟨s, named, read', names, enclosed⟩

/-- In a block, they stand between the braces and the line ends beside them. -/
theorem long_ofString (read : ofString text = .ok t) (closed : ¬ t.EndsInComment)
    (spelled : Option.Rel SpellsName literal name) :
    ∃ s named, ofString (Reference.longForm literal text) = .ok s ∧
      Names named name ∧ Enclosed t s (Reference.headingTokens named ++ [.mark .openBrace, .newline])
        [.newline, .mark .closeBrace] := by
  obtain ⟨named, front, names, tokens, heads⟩ := Reference.exists_heading spelled
  obtain ⟨chars, run⟩ := ofString_eq_ok.1 read
  rw [← chars] at run
  generalize place : byteSize (Reference.heading literal).toList = n at heads
  -- The text is joined with the closing brace on the next line and moved behind the opening one.
  have closer (offset : Nat) : Run offset ['\x7d'] [⟨.mark .closeBrace, offset, offset + 1⟩] :=
    .mark rfl (by decide) (.last (.nil []))
  have moved := (run.join closed (closer _)).shift (n + 3)
  rw [Nat.zero_add] at moved
  have newline : Run (n + 1 + 1) ('\n' :: (t.chars ++ ['\n', '\x7d'])) _ := .newline moved
  have brace : Run (n + 1) ('\x7b' :: '\n' :: _) (⟨.mark .openBrace, n + 1, n + 2⟩ :: _) :=
    .mark rfl (by decide) newline
  have blank : Run n (' ' :: _) _ := .blank (by decide) (by decide) brace
  have whole := heads ' ' _ _ (by decide) (by decide) blank
  have parts : (Reference.longForm literal text).toList =
      ((Reference.heading literal).toList ++ [' ', '\x7b', '\n']) ++
        (t.chars ++ ['\n', '\x7d']) := by
    simp [Reference.longForm, chars]
  have size : byteSize ((Reference.heading literal).toList ++ [' ', '\x7b', '\n']) = n + 3 := by
    rw [byteSize_append, place]
    rfl
  obtain ⟨s, read', enclosed⟩ :=
    @enclosed_ofString t text _ _ _
      (front ++ [⟨.mark .openBrace, n + 1, n + 2⟩, .newlineAt (n + 2)]) _ _ read parts size
      (by simpa using whole)
  rw [List.map_append, tokens] at enclosed
  exact ⟨s, named, read', names, enclosed⟩

end Source

end Dbml
