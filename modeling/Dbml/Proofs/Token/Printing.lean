import Dbml.Proofs.Token.Run
import Mathlib.Data.List.DropRight

/-!
# Printing tokens

Every token that can be read, strays that are quotes apart, can be printed so that it is read back,
and tokens with a space between each two are read back as they are. Main statement:
`tokenize_printAll`.
-/

namespace Dbml.Token

open Text

/-! ## Well-formed tokens -/

/-- A token is well formed when its text is of its kind. -/
inductive WellFormed : Token → Prop
  | mark (mark : Mark) : WellFormed (.mark mark)
  | newline : WellFormed .newline
  | ident {c : Char} {letters : List Char} (begins : beginsWord c = true)
    (run : ∀ d ∈ letters, continuesWord d = true) : WellFormed (.ident (String.ofList (c :: letters)))
  | num {c : Char} {tail : List Char} (digit : c.isDigit = true) (number : NumberTail tail) :
    WellFormed (.num (String.ofList (c :: tail)))
  | color {digits : List Char} (some_digit : digits ≠ []) (run : ∀ d ∈ digits, d.isAlphanum = true) :
    WellFormed (.color (String.ofList ('#' :: digits)))
  | str (text : String) : WellFormed (.str text)
  | multiStr {text : String} (trimmed : trim text.toList = text.toList)
    (apart : ¬ tripleQuote <:+: text.toList) : WellFormed (.multiStr text)
  | expr {text : String} (back : '\x60' ∉ text.toList) (inline : '\n' ∉ text.toList) :
    WellFormed (.expr text)
  | stray {c : Char} (other : IsStray c) (solid : isBlank c = false) : WellFormed (.stray c)

/-- A quote that is not closed on its line. -/
def IsOpenQuote (token : Token) : Prop :=
  token = .stray '\'' ∨ token = .stray '"' ∨ token = .stray '\x60'

/-- A token that is no open quote is read as the same one when no token goes further before what
follows it. -/
theorem ReadsAs.noFurther_of_closed {c : Char} {tail rest rest' : List Char} {token : Token}
    (reads : ReadsAs c tail rest token) (closed : ¬ token.IsOpenQuote)
    (further : NoFurther rest rest') : ReadsAs c tail rest' token := by
  refine reads.noFurther further fun same quotes _ => absurd ?_ closed
  subst same
  rcases quotes with rfl | rfl | rfl
  · exact .inl rfl
  · exact .inr (.inl rfl)
  · exact .inr (.inr rfl)

/-! ## Printed tokens -/

/-- The quotes that a quoted text may be printed with. -/
inductive QuoteStyle
  | single
  | double
  deriving DecidableEq, Repr

def QuoteStyle.char : QuoteStyle → Char
  | .single => '\''
  | .double => '"'

/-- A token as it is printed; the style is that of a quoted text. -/
def print (style : QuoteStyle) : Token → List Char
  | .ident text | .num text | .color text => text.toList
  | .str text => style.char :: (escape style.char text.toList ++ [style.char])
  | .multiStr text => tripleQuote ++ ' ' :: (text.toList ++ ' ' :: tripleQuote)
  | .expr text => '\x60' :: (text.toList ++ ['\x60'])
  | .mark m => m.spelling.toList
  | .newline => ['\n']
  | .stray c => [c]

/-- Tokens with a single space between each two. -/
def printAll (items : List (Token × QuoteStyle)) : List Char :=
  [' '].intercalate (items.map fun item => item.1.print item.2)

theorem printAll_cons_cons (item next : Token × QuoteStyle) (items : List (Token × QuoteStyle)) :
    printAll (item :: next :: items) = item.1.print item.2 ++ ' ' :: printAll (next :: items) := by
  simp [printAll, List.intercalate]

/-! ## Trimmed texts -/

theorem trim_eq (cs : List Char) : trim cs = (cs.dropWhile isBlank).rdropWhile isBlank := rfl

theorem trim_isPart (cs : List Char) : trim cs <:+: cs :=
  (List.rdropWhile_prefix isBlank _).isInfix.trans (List.dropWhile_suffix isBlank).isInfix

/-- What is left of a text begins with no white space. -/
theorem dropWhile_trim (cs : List Char) : (trim cs).dropWhile isBlank = trim cs := by
  obtain ⟨more, front⟩ : trim cs <+: cs.dropWhile isBlank := List.rdropWhile_prefix isBlank _
  have solid := List.head?_dropWhile_not isBlank cs
  rw [← front] at solid
  cases same : trim cs with
  | nil => rfl
  | cons c rest =>
    rw [same] at solid
    exact List.dropWhile_cons_of_neg (by simpa using solid)

theorem trim_trim (cs : List Char) : trim (trim cs) = trim cs := by
  rw [trim_eq (trim cs), dropWhile_trim, trim_eq, List.rdropWhile_idempotent]

/-- A space on either side of a text is taken off by trimming. -/
theorem trim_spaced {cs : List Char} (trimmed : trim cs = cs) :
    trim (' ' :: (cs ++ [' '])) = cs := by
  have space : isBlank ' ' = true := by decide
  have front := dropWhile_trim cs
  have back : cs.rdropWhile isBlank = cs := by
    rw [trimmed] at front
    rw [trim_eq, front] at trimmed
    exact trimmed
  rw [trimmed] at front
  rw [trim_eq, List.dropWhile_cons_of_pos space, List.dropWhile_append, front]
  cases cs with
  | nil => simp [space]
  | cons c cs =>
    rw [if_neg (by simp), List.rdropWhile_concat_pos _ _ _ space, back]

/-- A word without the character stands on one side of it. -/
theorem infix_of_infix_append_cons {word before after : List Char} {c : Char} (apart : c ∉ word)
    (found : word <:+: before ++ c :: after) : word <:+: before ∨ word <:+: after := by
  obtain ⟨front, back, whole⟩ := found
  rw [List.append_assoc] at whole
  rcases List.append_eq_append_iff.1 whole with ⟨more, rfl, rest⟩ | ⟨more, rfl, rest⟩
  · -- The word begins before the character, and so it ends before it.
    rcases List.append_eq_append_iff.1 rest with ⟨tail, rfl, _⟩ | ⟨tail, rfl, others⟩
    · exact .inl ⟨front, tail, by simp⟩
    · cases tail with
      | nil => exact .inl ⟨front, [], by simp⟩
      | cons d tail =>
        have same : c = d := (List.cons.inj others).1
        exact absurd (by simp [same]) apart
  · cases more with
    | nil =>
      rw [List.nil_append] at rest
      cases word with
      | nil => exact .inr List.nil_infix
      | cons d word =>
        have same : c = d := (List.cons.inj rest).1
        exact absurd (by simp [same]) apart
    | cons d more => exact .inr ⟨more, back, by simpa using (List.cons.inj rest).2.symm⟩

/-! ## What is printed is read back -/

theorem endsGap_cons {c : Char} (solid : isBlank c = false) (noSlash : c ≠ '/') (cs : List Char) :
    EndsGap (c :: cs) :=
  .inr ⟨solid, fun slash => absurd slash noSlash⟩

theorem quotes_back {raw : List Char} (back : '\x60' ∉ raw) (inline : '\n' ∉ raw) :
    Quotes '\x60' raw := by
  intro rest
  induction raw with
  | nil => rw [List.nil_append, splitQuoted.eq_def]; simp
  | cons c raw ih =>
    rw [List.mem_cons, not_or] at back inline
    rw [List.cons_append, splitQuoted.eq_def]
    simp [Ne.symm back.1, Ne.symm inline.1, ih back.2 inline.2]

theorem back_notMem {raw : List Char} (closed : Quotes '\x60' raw) : '\x60' ∉ raw := by
  induction raw with
  | nil => simp
  | cons c raw ih =>
    have here := closed []
    rw [List.cons_append, splitQuoted.eq_def] at here
    by_cases back : c = '\x60'
    · simp [back] at here
    by_cases newline : c = '\n'
    · simp [newline] at here
    simp only [back, newline, if_false, bne_self_eq_false, Bool.and_false, Bool.false_eq_true,
      Option.map_eq_some_iff] at here
    obtain ⟨⟨found, rest⟩, split, same⟩ := here
    simp only [Prod.mk.injEq, List.cons.injEq, true_and] at same
    obtain ⟨rfl, rfl⟩ := same
    have inner := (quotes_of_splitQuoted split).1
    rw [List.mem_cons, not_or]
    exact ⟨Ne.symm back, ih inner⟩

theorem newline_notMem_escape {quote : Char} (quotes : quote = '\'' ∨ quote = '"')
    (cs : List Char) : '\n' ∉ escape quote cs := by
  have quotes : quote = '"' ∨ quote = '\'' := quotes.symm
  induction cs with
  | nil => simp
  | cons c cs ih =>
    rw [escape_cons, List.mem_append, not_or]
    refine ⟨?_, ih⟩
    rcases escapeChar_cases quotes c with ⟨plain, -, -, inline⟩ | ⟨e, escaped, inline, -⟩
    · simp [plain, Ne.symm inline]
    · simp [escaped, Ne.symm inline]

/-- An escaped text does not begin with its quote. -/
theorem head?_escape {quote : Char} (quotes : quote = '\'' ∨ quote = '"') (cs : List Char) :
    (escape quote cs).head? ≠ some quote := by
  have order : quote = '"' ∨ quote = '\'' := quotes.symm
  cases cs with
  | nil => simp
  | cons c cs =>
    rw [escape_cons]
    rcases escapeChar_cases order c with ⟨plain, -, other, -⟩ | ⟨e, escaped, -, -⟩
    · simp [plain, other]
    · rw [escaped]
      rcases quotes with rfl | rfl <;> simp

theorem QuoteStyle.char_cases (style : QuoteStyle) : style.char = '\'' ∨ style.char = '"' := by
  cases style
  · exact .inl rfl
  · exact .inr rfl

/-- A text in quotes of a style is read as the string it is written for. -/
theorem readsAs_quoted (style : QuoteStyle) (text : String) {rest : List Char}
    (ends : rest = [] ∨ rest.head? = some ' ') :
    ReadsAs style.char (escape style.char text.toList ++ [style.char]) rest (.str text) := by
  have quotes := style.char_cases
  have reads : ReadsAs style.char (escape style.char text.toList ++ [style.char]) rest
      (.str (String.ofList (unescape (escape style.char text.toList)))) := by
    refine .str quotes (splitQuoted_escape quotes.symm text.toList)
      (newline_notMem_escape quotes text.toList) fun same front => ?_
    -- Two more quotes in front would close the text at its first character, which is no quote.
    have other := head?_escape quotes text.toList
    cases written : escape style.char text.toList with
    | nil =>
      rw [written, same] at front
      rcases ends with rfl | head
      · simp at front
      · obtain ⟨more, rfl⟩ := List.head?_eq_some_iff.1 head
        simp at front
    | cons d more =>
      rw [written, same] at other
      rw [written] at front
      simp only [List.cons_append, List.take_succ_cons, List.cons.injEq] at front
      simp [front.1] at other
  rwa [unescape_escape quotes.symm, String.ofList_toList] at reads

/-- A trimmed text without three quotes is read back from between threes of quotes, with a space at
either side. -/
theorem readsAs_tripled {text : String} (trimmed : trim text.toList = text.toList)
    (apart : ¬ tripleQuote <:+: text.toList) (rest : List Char) :
    ReadsAs '\'' ('\'' :: '\'' :: (' ' :: (text.toList ++ [' '])) ++ tripleQuote) rest
      (.multiStr text) := by
  have first : ¬ tripleQuote <:+: ' ' :: (text.toList ++ [' ']) ++ ['\'', '\''] := by
    intro found
    have space : ' ' ∉ tripleQuote := by decide
    rw [show ' ' :: (text.toList ++ [' ']) ++ ['\'', '\''] =
      [] ++ ' ' :: (text.toList ++ ' ' :: ['\'', '\'']) by simp] at found
    rcases infix_of_infix_append_cons space found with empty | found
    · simp [tripleQuote] at empty
    · rcases infix_of_infix_append_cons space found with inner | short
      · exact apart inner
      · exact absurd short.length_le (by decide)
  have reads : ReadsAs '\'' ('\'' :: '\'' :: (' ' :: (text.toList ++ [' '])) ++ tripleQuote) rest
      (.multiStr (String.ofList (trim (' ' :: (text.toList ++ [' ']))))) := .multiStr rest first
  rwa [trim_spaced trimmed, String.ofList_toList] at reads

/-- Printed, a well-formed token is read back in front of a space and at the end of a text. -/
theorem WellFormed.reads {token : Token} (wellFormed : token.WellFormed) (style : QuoteStyle) :
    ∃ c tail, print style token = c :: tail ∧ ∀ rest, rest = [] ∨ rest.head? = some ' ' →
      ReadsAs c tail rest token ∧ EndsGap (c :: (tail ++ rest)) := by
  -- A space continues no token.
  have stops : ∀ {p : Char → Bool} {rest : List Char}, p ' ' = false →
      rest = [] ∨ rest.head? = some ' ' → ∀ c ∈ rest.head?, p c = false := by
    intro p rest space ends c here
    rcases ends with rfl | head
    · cases here
    · rw [head] at here
      cases here
      exact space
  cases wellFormed with
  | mark m =>
    have apart : ∀ rest : List Char, rest = [] ∨ rest.head? = some ' ' → rest.head? ≠ some '>' := by
      rintro rest (rfl | head)
      · simp
      · rw [head]
        decide
    cases m with
    | lessGreater =>
      exact ⟨'<', ['>'], rfl, fun rest _ => ⟨.lessGreater rest, endsGap_cons (by decide) (by decide) _⟩⟩
    | _ =>
      exact ⟨_, [], rfl, fun rest ends =>
        ⟨.mark rfl fun _ => apart rest ends, endsGap_cons (by decide) (by decide) _⟩⟩
  | newline => exact ⟨'\n', [], rfl, fun rest _ => ⟨.newline rest, .inl rfl⟩⟩
  | @ident c letters begins run =>
    refine ⟨c, letters, String.toList_ofList, fun rest ends => ⟨.ident begins run (stops (by decide) ends), ?_⟩⟩
    obtain ⟨solid, noSlash⟩ := solid_of_beginsWord begins
    exact endsGap_cons solid noSlash _
  | @num c tail digit number =>
    refine ⟨c, tail, String.toList_ofList, fun rest ends => ⟨.num digit number ⟨stops (by decide) ends, ?_⟩, ?_⟩⟩
    · rintro - d more rfl
      simp at ends
    · refine endsGap_cons (isBlank_digit digit) ?_ _
      rintro rfl
      cases digit
  | @color digits some_digit run =>
    refine ⟨'#', digits, String.toList_ofList, fun rest ends =>
      ⟨.color some_digit run (stops (by decide) ends), endsGap_cons (by decide) (by decide) _⟩⟩
  | str text =>
    have solid : isBlank style.char = false ∧ style.char ≠ '/' := by
      rcases style.char_cases with same | same <;> rw [same] <;> decide
    exact ⟨style.char, escape style.char text.toList ++ [style.char], rfl, fun rest ends =>
      ⟨readsAs_quoted style text ends, endsGap_cons solid.1 solid.2 _⟩⟩
  | @multiStr text trimmed apart =>
    exact ⟨'\'', _, by simp [print, tripleQuote], fun rest _ =>
      ⟨readsAs_tripled trimmed apart rest, endsGap_cons (by decide) (by decide) _⟩⟩
  | @expr text back inline =>
    have reads : ∀ rest, ReadsAs '\x60' (text.toList ++ ['\x60']) rest
        (.expr (String.ofList text.toList)) := fun rest =>
      .expr rest (quotes_back back inline) inline
    rw [String.ofList_toList] at reads
    exact ⟨'\x60', _, rfl, fun rest _ => ⟨reads rest, endsGap_cons (by decide) (by decide) _⟩⟩
  | @stray c other solid =>
    refine ⟨c, [], rfl, fun rest ends => ⟨.stray other fun _ => stops (by decide) ends, ?_⟩⟩
    refine .inr ⟨solid, fun _ => ?_⟩
    rcases ends with rfl | head
    · simp
    · rw [List.nil_append, head]
      decide

/-- Printed tokens are read back, at the beginning of a text and behind a space. -/
theorem exists_run_printAll {items : List (Token × QuoteStyle)}
    (wellFormed : ∀ item ∈ items, item.1.WellFormed) (gap : List Char)
    (short : gap = [] ∨ gap = [' ']) (offset : Nat) : ∃ lexemes, Run offset (gap ++ printAll items) lexemes ∧
      lexemes.map (·.token) = items.map (·.1) := by
  have between : ∀ follow, Gap gap follow := by
    intro follow
    rcases short with rfl | rfl
    · exact .nil follow
    · exact .blank (by decide) (by decide) (.nil follow)
  induction items generalizing gap offset with
  | nil => exact ⟨[], .last (by simpa [printAll] using between []), rfl⟩
  | cons item items ih =>
    obtain ⟨c, tail, printed, reads⟩ := (wellFormed item (by simp)).reads item.2
    cases items with
    | nil =>
      obtain ⟨read, ends⟩ := reads [] (.inl rfl)
      have run : Run offset _ _ := .token (between _) ends read (.last (.nil []))
      rw [List.append_nil, ← printed] at run
      exact ⟨_, by simpa [printAll] using run, rfl⟩
    | cons next items =>
      obtain ⟨read, ends⟩ := reads (' ' :: printAll (next :: items)) (.inr rfl)
      obtain ⟨lexemes, others, same⟩ := ih (fun item listed => wellFormed item (by simp [listed]))
        [' '] (.inr rfl) (offset + byteSize gap + byteSize (c :: tail))
        fun follow => .blank (by decide) (by decide) (.nil follow)
      have run : Run offset _ _ := .token (between _) ends read others
      rw [← List.cons_append, ← printed, ← printAll_cons_cons] at run
      exact ⟨_, run, by simp [same]⟩

/-! ## What is read is well formed -/

theorem ReadsAs.wellFormed {c : Char} {tail rest : List Char} {token : Token}
    (reads : ReadsAs c tail rest token) (ends : EndsGap (c :: (tail ++ rest))) :
    token.WellFormed ∨ token.IsOpenQuote := by
  cases reads with
  | newline => exact .inl .newline
  | @multiStr body _ first =>
    refine .inl (.multiStr ?_ ?_)
    · rw [String.toList_ofList, trim_trim]
    · rw [String.toList_ofList]
      exact fun found => first ((found.trans (trim_isPart body)).trans (List.prefix_append body _).isInfix)
  | str => exact .inl (.str _)
  | @expr raw _ closed inline =>
    exact .inl (.expr (by simpa using back_notMem closed) (by simpa using inline))
  | openQuote quotes =>
    rcases quotes with rfl | rfl | rfl
    · exact .inr (.inl rfl)
    · exact .inr (.inr (.inl rfl))
    · exact .inr (.inr (.inr rfl))
  | color some_digit run => exact .inl (.color some_digit run)
  | lessGreater => exact .inl (.mark _)
  | mark => exact .inl (.mark _)
  | num digit number => exact .inl (.num digit number)
  | ident begins run => exact .inl (.ident begins run)
  | stray other =>
    rcases ends with newline | ⟨solid, -⟩
    · exact absurd newline other.inline
    · exact .inl (.stray other solid)

theorem Run.wellFormed {offset : Nat} {cs : List Char} {lexemes : List Lexeme}
    (run : Run offset cs lexemes) :
    ∀ lexeme ∈ lexemes, lexeme.token.WellFormed ∨ lexeme.token.IsOpenQuote := by
  induction run with
  | last => simp
  | token _ ends reads _ ih =>
    intro lexeme listed
    rcases List.mem_cons.1 listed with rfl | later
    · exact reads.wellFormed ends
    · exact ih lexeme later

/-- Well-formed tokens are read back from their printed text, and every token that is read is well
formed or a quote that is not closed. -/
theorem tokenize_printAll :
    (∀ items : List (Token × QuoteStyle), (∀ item ∈ items, item.1.WellFormed) →
      ∃ lexemes, tokenize (printAll items) = .ok lexemes ∧
        lexemes.toList.map (·.token) = items.map (·.1)) ∧
    ∀ cs lexemes, tokenize cs = .ok lexemes →
      ∀ lexeme ∈ lexemes, lexeme.token.WellFormed ∨ lexeme.token.IsOpenQuote := by
  constructor
  · intro items wellFormed
    obtain ⟨lexemes, run, same⟩ := exists_run_printAll wellFormed [] (.inl rfl) 0
    exact ⟨lexemes.toArray, tokenize_eq_ok.2 run, same⟩
  · intro cs lexemes read lexeme listed
    exact (tokenize_eq_ok.1 read).wellFormed lexeme (by simpa using listed)

/-- Tokens whose printed text has comment signs apart, both quotes, escapes and quotes in a row. -/
def mixedTokens : List (Token × QuoteStyle) :=
  [(.stray '/', .single), (.stray '/', .single), (.ident "é_1", .single), (.num "1.5", .single),
    (.mark .dot, .single), (.str "'\"\\\n", .single), (.str "'\"\\\n", .double), (.str "", .single),
    (.multiStr "'a''", .single), (.expr "\\", .single), (.color "#f0", .single),
    (.stray '#', .single), (.mark .less, .single), (.mark .greater, .single), (.newline, .single)]

theorem wellFormed_mixedTokens : ∀ item ∈ mixedTokens, item.1.WellFormed := by
  simp only [mixedTokens, List.forall_mem_cons]
  have sign : IsStray '#' :=
    ⟨by decide, by decide, by decide, by decide, by decide, by decide, by decide⟩
  have slash : IsStray '/' :=
    ⟨by decide, by decide, by decide, by decide, by decide, by decide, by decide⟩
  have number : NumberTail ['.', '5'] :=
    @NumberTail.fraction [] ['5'] nofun (by simp) (List.forall_mem_singleton.2 rfl)
  have letters : continuesWord '_' = true ∧ continuesWord '1' = true := by decide +kernel
  exact ⟨.stray slash (by decide), .stray slash (by decide),
    @WellFormed.ident 'é' ['_', '1'] (by decide +kernel) (by simpa using letters),
    .num (c := '1') (by decide) number, .mark _, .str _, .str _, .str _,
    .multiStr (by decide) (by decide), .expr (by decide) (by decide),
    @WellFormed.color ['f', '0'] (by simp) (by simp), .stray sign (by decide), .mark _, .mark _,
    .newline, by simp⟩

theorem tokenize_printAll_mixed :
    (∃ lexemes, tokenize (printAll mixedTokens) = .ok lexemes ∧
      lexemes.toList.map (·.token) = mixedTokens.map (·.1)) ∧
    ∃ lexemes, tokenize ['\'', 'a', '\n', '"', '\x60'] = .ok lexemes ∧ lexemes.size = 5 ∧
      ∀ lexeme ∈ lexemes, lexeme.token.WellFormed ∨ lexeme.token.IsOpenQuote := by
  refine ⟨tokenize_printAll.1 mixedTokens wellFormed_mixedTokens, ?_⟩
  have evaluated : (tokenize ['\'', 'a', '\n', '"', '\x60']).toOption.map Array.size = some 5 := by
    decide +kernel
  cases read : tokenize ['\'', 'a', '\n', '"', '\x60'] with
  | error offset => rw [read] at evaluated; cases evaluated
  | ok lexemes =>
    rw [read] at evaluated
    exact ⟨lexemes, rfl, Option.some.inj evaluated, tokenize_printAll.2 _ lexemes read⟩

end Dbml.Token
