import Dbml.Proofs.Token.Lookahead

/-!
# The ways a token is read

A token is told by its first character, by those it is written with after it, and by a look at what
follows. Main statements: `readToken_iff`, the ways listed are those of the reader, and
`ReadsAs.curtailed`, what follows may end or break off earlier.
-/

namespace Dbml.Token

open Text

/-- Three single quotes. -/
def tripleQuote : List Char := ['\'', '\'', '\'']

/-! ## Quoted texts -/

/-- Between two quotes these characters are read up to the second one. -/
def Quotes (quote : Char) (raw : List Char) : Prop :=
  ∀ rest, splitQuoted quote (raw ++ quote :: rest) = some (raw, rest)

theorem quotes_of_splitQuoted {quote : Char} {cs raw rest : List Char}
    (split : splitQuoted quote cs = some (raw, rest)) : Quotes quote raw ∧ '\n' ∉ raw := by
  fun_induction splitQuoted quote cs generalizing raw rest with
  | case1 => cases split
  | case2 =>
    cases split
    exact ⟨fun rest => by rw [List.nil_append, splitQuoted.eq_def]; simp, by simp⟩
  | case3 => cases split
  | case4 => cases split
  | case5 => cases split
  | case6 c open_ inline escapes e cs break_ ih =>
    obtain ⟨⟨raw, rest⟩, later, same⟩ := Option.map_eq_some_iff.1 split
    cases same
    obtain ⟨closed, apart⟩ := ih later
    refine ⟨fun rest => ?_, by simp [Ne.symm inline, Ne.symm break_, apart]⟩
    rw [List.cons_append, List.cons_append, splitQuoted.eq_def]
    simp [open_, inline, escapes, break_, closed rest]
  | case7 c cs open_ inline plain ih =>
    obtain ⟨⟨raw, rest⟩, later, same⟩ := Option.map_eq_some_iff.1 split
    cases same
    obtain ⟨closed, apart⟩ := ih later
    refine ⟨fun rest => ?_, by simp [Ne.symm inline, apart]⟩
    rw [List.cons_append, splitQuoted.eq_def]
    simp [open_, inline, plain, closed rest]

/-! ## Texts between three quotes -/

theorem splitTriple_cons {c : Char} {cs : List Char} (here : ¬ tripleQuote <+: c :: cs)
    (before : List Char) : splitTriple before (c :: cs) = splitTriple (c :: before) cs := by
  rw [splitTriple]
  rintro rest rfl rfl
  exact here ⟨rest, rfl⟩

theorem tripleQuote_infix_cons {c : Char} {cs : List Char} :
    tripleQuote <:+: c :: cs ↔ tripleQuote <+: c :: cs ∨ tripleQuote <:+: cs :=
  List.infix_cons_iff

/-- Three quotes end a text in which they, and two of them behind it, make no earlier three. -/
theorem splitTriple_append_quotes {body : List Char}
    (first : ¬ tripleQuote <:+: body ++ ['\'', '\'']) (rest before : List Char) :
    splitTriple before (body ++ (tripleQuote ++ rest)) = some (before.reverse ++ body, rest) := by
  induction body generalizing before with
  | nil => simp [tripleQuote, splitTriple]
  | cons c body ih =>
    rw [List.cons_append, tripleQuote_infix_cons, not_or] at first
    have here : ¬ tripleQuote <+: c :: (body ++ (tripleQuote ++ rest)) := by
      -- Three quotes in front would stand in front of the text and the two quotes behind it.
      intro front
      apply first.1
      have short : c :: (body ++ ['\'', '\'']) <+: c :: (body ++ (tripleQuote ++ rest)) := by
        rw [List.cons_prefix_cons]
        exact ⟨rfl, (List.prefix_append_right_inj body).2 ⟨'\'' :: rest, rfl⟩⟩
      exact List.prefix_of_prefix_length_le front short (by simp [tripleQuote])
    rw [List.cons_append, splitTriple_cons here, ih first.2]
    simp

theorem splitTriple_spec (before cs : List Char) :
    (splitTriple before cs = none ∧ ¬ tripleQuote <:+: cs) ∨
      ∃ body rest, cs = body ++ (tripleQuote ++ rest) ∧
        ¬ tripleQuote <:+: body ++ ['\'', '\''] := by
  induction cs generalizing before with
  | nil => exact .inl ⟨rfl, by simp [tripleQuote]⟩
  | cons c cs ih =>
    by_cases here : tripleQuote <+: c :: cs
    · obtain ⟨rest, same⟩ := here
      exact .inr ⟨[], rest, same.symm, by decide⟩
    · rcases ih (c :: before) with ⟨none, absent⟩ | ⟨body, rest, rfl, first⟩
      · refine .inl ⟨by rw [splitTriple_cons here, none], ?_⟩
        rw [tripleQuote_infix_cons, not_or]
        exact ⟨here, absent⟩
      · refine .inr ⟨c :: body, rest, rfl, ?_⟩
        rw [List.cons_append, tripleQuote_infix_cons, not_or]
        refine ⟨fun front => here (front.trans ?_), first⟩
        rw [List.cons_prefix_cons]
        exact ⟨rfl, (List.prefix_append_right_inj body).2 ⟨'\'' :: rest, rfl⟩⟩

/-- Before the first three quotes there are no three quotes. -/
theorem not_infix_of_splitTriple {cs body rest : List Char}
    (split : splitTriple [] cs = some (body, rest)) :
    ¬ tripleQuote <:+: body ++ ['\'', '\''] := by
  rcases splitTriple_spec [] cs with ⟨none, -⟩ | ⟨body', rest', parts, first⟩
  · rw [none] at split
    cases split
  · rw [parts, splitTriple_append_quotes first] at split
    cases split
    exact first

/-! ## All ways -/

/-- No token of another kind begins with the character. -/
structure IsStray (c : Char) : Prop where
  inline : c ≠ '\n'
  single : c ≠ '\''
  double : c ≠ '"'
  back : c ≠ '\x60'
  mark : Mark.ofChar? c = none
  digit : c.isDigit = false
  word : beginsWord c = false

/-- The token is read that begins with the first character and goes on with the first characters,
when the second ones follow it. -/
inductive ReadsAs : Char → List Char → List Char → Token → Prop
  | newline (rest : List Char) : ReadsAs '\n' [] rest .newline
  | multiStr {body : List Char} (rest : List Char)
    (first : ¬ tripleQuote <:+: body ++ ['\'', '\'']) :
    ReadsAs '\'' ('\'' :: '\'' :: body ++ tripleQuote) rest (.multiStr (String.ofList (trim body)))
  | str {quote : Char} {raw rest : List Char} (quotes : quote = '\'' ∨ quote = '"')
    (closed : Quotes quote raw) (inline : '\n' ∉ raw)
    (single : quote = '\'' → (raw ++ quote :: rest).take 2 ≠ ['\'', '\'']) :
    ReadsAs quote (raw ++ [quote]) rest (.str (String.ofList (unescape raw)))
  | expr {raw : List Char} (rest : List Char) (closed : Quotes '\x60' raw) (inline : '\n' ∉ raw) :
    ReadsAs '\x60' (raw ++ ['\x60']) rest (.expr (String.ofList raw))
  | openQuote {quote : Char} {rest : List Char}
    (quotes : quote = '\'' ∨ quote = '"' ∨ quote = '\x60') (unclosed : splitQuoted quote rest = none)
    (single : quote = '\'' → rest.take 2 ≠ ['\'', '\'']) : ReadsAs quote [] rest (.stray quote)
  | color {digits rest : List Char} (some_digit : digits ≠ [])
    (run : ∀ d ∈ digits, d.isAlphanum = true) (stops : ∀ d ∈ rest.head?, d.isAlphanum = false) :
    ReadsAs '#' digits rest (.color (String.ofList ('#' :: digits)))
  | lessGreater (rest : List Char) : ReadsAs '<' ['>'] rest (.mark .lessGreater)
  | mark {c : Char} {mark : Mark} {rest : List Char} (spelled : Mark.ofChar? c = some mark)
    (apart : mark = .less → rest.head? ≠ some '>') : ReadsAs c [] rest (.mark mark)
  | num {c : Char} {tail rest : List Char} (digit : c.isDigit = true) (number : NumberTail tail)
    (stops : NumberStops tail rest) : ReadsAs c tail rest (.num (String.ofList (c :: tail)))
  | ident {c : Char} {letters rest : List Char} (begins : beginsWord c = true)
    (run : ∀ d ∈ letters, continuesWord d = true)
    (stops : ∀ d ∈ rest.head?, continuesWord d = false) :
    ReadsAs c letters rest (.ident (String.ofList (c :: letters)))
  | stray {c : Char} {rest : List Char} (other : IsStray c)
    (noColor : c = '#' → ∀ d ∈ rest.head?, d.isAlphanum = false) : ReadsAs c [] rest (.stray c)

/-- A quote that is closed on its line, or not. -/
theorem readQuoted_cases (quote : Char) (token : List Char → Token) (cs : List Char) :
    (splitQuoted quote cs = none ∧ readQuoted quote token cs = ⟨.stray quote, [], cs⟩) ∨
      ∃ raw rest, cs = raw ++ quote :: rest ∧ Quotes quote raw ∧ '\n' ∉ raw ∧
        readQuoted quote token cs = ⟨token raw, raw ++ [quote], rest⟩ := by
  unfold readQuoted
  cases split : splitQuoted quote cs with
  | none => exact .inl ⟨rfl, rfl⟩
  | some found =>
    obtain ⟨raw, rest⟩ := found
    obtain ⟨closed, inline⟩ := quotes_of_splitQuoted split
    exact .inr ⟨raw, rest, (splitQuoted_append split).symm, closed, inline, rfl⟩

/-- A text between single or double quotes, or a quote that is not closed. -/
theorem readsAs_readQuoted_str {quote : Char} {cs : List Char} (quotes : quote = '\'' ∨ quote = '"')
    (single : quote = '\'' → cs.take 2 ≠ ['\'', '\'']) {r : Reading}
    (read : readQuoted quote (fun raw => .str (String.ofList (unescape raw))) cs = r) :
    ReadsAs quote r.tail r.rest r.token := by
  subst read
  rcases readQuoted_cases quote (fun raw => .str (String.ofList (unescape raw))) cs with
    ⟨unclosed, same⟩ | ⟨raw, rest, rfl, closed, inline, same⟩
  · rw [same]
    exact .openQuote (quotes.imp_right .inl) unclosed single
  · rw [same]
    exact .str quotes closed inline single

/-- An expression between back quotes, or a back quote that is not closed. -/
theorem readsAs_readQuoted_expr {cs : List Char} {r : Reading}
    (read : readQuoted '\x60' (fun raw => .expr (String.ofList raw)) cs = r) :
    ReadsAs '\x60' r.tail r.rest r.token := by
  subst read
  rcases readQuoted_cases '\x60' (fun raw => .expr (String.ofList raw)) cs with
    ⟨unclosed, same⟩ | ⟨raw, rest, rfl, closed, inline, same⟩
  · rw [same]
    exact .openQuote (.inr (.inr rfl)) unclosed fun back => absurd back (by decide)
  · rw [same]
    exact .expr rest closed inline

/-- Every token is read in one of the ways. -/
theorem readsAs_of_readToken {c : Char} {cs : List Char} {r : Reading}
    (read : readToken c cs = some r) : ReadsAs c r.tail r.rest r.token := by
  unfold readToken at read
  by_cases newline : c = '\n'
  · rw [if_pos newline] at read
    cases read
    rw [newline]
    exact .newline cs
  rw [if_neg newline] at read
  by_cases triple : c = '\'' ∧ cs.take 2 = ['\'', '\'']
  · rw [if_pos triple] at read
    obtain ⟨⟨body, rest⟩, split, same⟩ := Option.map_eq_some_iff.1 read
    cases same
    rw [triple.1]
    exact .multiStr rest (not_infix_of_splitTriple split)
  rw [if_neg triple] at read
  have single : c = '\'' → cs.take 2 ≠ ['\'', '\''] := fun same front => triple ⟨same, front⟩
  by_cases quotes : c = '\'' ∨ c = '"'
  · rw [if_pos quotes] at read
    exact readsAs_readQuoted_str quotes single (Option.some.inj read)
  rw [if_neg quotes] at read
  rw [not_or] at quotes
  by_cases back : c = '\x60'
  · rw [if_pos back] at read
    subst back
    exact readsAs_readQuoted_expr (Option.some.inj read)
  rw [if_neg back] at read
  by_cases sign : c = '#'
  · subst sign
    rw [if_pos rfl] at read
    obtain ⟨digits, rest, rfl, run, stops⟩ := exists_run Char.isAlphanum cs
    obtain ⟨taken, left⟩ := takeWhile_append_stop run stops
    simp only [taken, left] at read
    by_cases empty : digits = []
    · subst empty
      rw [if_pos (by rfl)] at read
      cases read
      exact .stray ⟨by decide, by decide, by decide, by decide, by decide, by decide, by decide⟩
        fun _ => stops
    · rw [if_neg (by simpa using empty)] at read
      cases read
      exact .color empty run stops
  rw [if_neg sign] at read
  by_cases lessGreater : c = '<' ∧ cs.head? = some '>'
  · rw [if_pos lessGreater] at read
    obtain ⟨rfl, head⟩ := lessGreater
    obtain ⟨rest, rfl⟩ := List.head?_eq_some_iff.1 head
    cases read
    exact .lessGreater rest
  rw [if_neg lessGreater] at read
  cases spelled : Mark.ofChar? c with
  | some mark =>
    rw [spelled] at read
    cases read
    refine .mark spelled ?_
    rintro rfl head
    have less : c = '<' := by simpa [Mark.spelling] using (Mark.spelling_of_ofChar? spelled).symm
    exact lessGreater ⟨less, head⟩
  | none =>
    rw [spelled] at read
    dsimp only at read
    by_cases digit : c.isDigit = true
    · rw [if_pos digit] at read
      cases read
      exact .num digit (splitNumber_spec cs).1 (splitNumber_spec cs).2
    rw [if_neg digit] at read
    by_cases begins : beginsWord c = true
    · rw [if_pos begins] at read
      obtain ⟨letters, rest, rfl, run, stops⟩ := exists_run continuesWord cs
      obtain ⟨taken, left⟩ := takeWhile_append_stop run stops
      simp only [taken, left] at read
      cases read
      exact .ident begins run stops
    · rw [if_neg begins] at read
      cases read
      exact .stray ⟨newline, quotes.1, quotes.2, back, spelled, by simpa using digit,
        by simpa using begins⟩ fun same => absurd same sign

/-- A text that is closed on its line is read as a quoted token. -/
theorem readQuoted_eq {quote : Char} {raw : List Char} (closed : Quotes quote raw)
    (token : List Char → Token) (rest : List Char) :
    readQuoted quote token (raw ++ [quote] ++ rest) = ⟨token raw, raw ++ [quote], rest⟩ := by
  rw [List.append_assoc, List.singleton_append, readQuoted, closed rest]

/-- Each of the ways is one of the reader's. -/
theorem ReadsAs.readToken_eq {c : Char} {tail rest : List Char} {token : Token}
    (reads : ReadsAs c tail rest token) : readToken c (tail ++ rest) = some ⟨token, tail, rest⟩ := by
  cases reads with
  | newline => exact readToken_newline rest
  | @multiStr body _ first =>
    have split := splitTriple_append_quotes first rest []
    have text : '\'' :: '\'' :: body ++ tripleQuote ++ rest =
        '\'' :: '\'' :: (body ++ (tripleQuote ++ rest)) := by simp
    rw [text, readToken, if_neg (by decide), if_pos ⟨rfl, rfl⟩, List.drop_succ_cons,
      List.drop_succ_cons, List.drop_zero, split]
    rfl
  | @str quote raw _ quotes closed inline single =>
    have front : ¬ (c = '\'' ∧ (raw ++ [c] ++ rest).take 2 = ['\'', '\'']) := by
      rintro ⟨same, front⟩
      exact single same (by simpa using front)
    have solid : c ≠ '\n' := by rcases quotes with rfl | rfl <;> decide
    rw [readToken, if_neg solid, if_neg front, if_pos quotes, readQuoted_eq closed]
  | expr _ closed inline =>
    rw [readToken, if_neg (by decide), if_neg (by simp), if_neg (by decide), if_pos rfl,
      readQuoted_eq closed]
  | openQuote quotes unclosed single =>
    have solid : c ≠ '\n' := by rcases quotes with rfl | rfl | rfl <;> decide
    have front : ¬ (c = '\'' ∧ rest.take 2 = ['\'', '\'']) := fun both => single both.1 both.2
    rw [List.nil_append, readToken, if_neg solid, if_neg front]
    by_cases back : c = '\x60'
    · subst back
      rw [if_neg (by decide), if_pos rfl, readQuoted, unclosed]
    · rw [if_pos (quotes.imp_right (Or.resolve_right · back)), readQuoted, unclosed]
  | color some_digit run stops =>
    obtain ⟨taken, left⟩ := takeWhile_append_stop run stops
    rw [readToken, if_neg (by decide), if_neg (by simp), if_neg (by decide), if_neg (by decide),
      if_pos rfl]
    simp [taken, left, some_digit]
  | lessGreater => exact readToken_lessGreater rest
  | mark spelled apart => exact readToken_mark spelled apart
  | num digit number stops =>
    have other : c ∉ leaders := fun leads => by
      have all : leaders.all (fun d => !d.isDigit) = true := by decide
      have here := List.all_eq_true.1 all c leads
      rw [digit] at here
      cases here
    have noMark := ofChar?_eq_none other
    have split := splitNumber_append_stop number stops
    simp only [leaders, List.mem_cons, List.not_mem_nil, or_false, not_or] at other
    simp [readToken, other, noMark, digit, split]
  | ident begins run stops => exact readToken_word begins run stops
  | stray other noColor =>
    obtain ⟨inline, single, double, back, noMark, noDigit, noWord⟩ := other
    have noLess : c ≠ '<' := by
      rintro rfl
      cases noMark
    rw [List.nil_append, readToken, if_neg inline, if_neg (by simp [single]),
      if_neg (by simp [single, double]), if_neg back]
    by_cases sign : c = '#'
    · have none : rest.takeWhile Char.isAlphanum = [] := by
        cases rest with
        | nil => rfl
        | cons d rest => rw [List.takeWhile_cons_of_neg (by simp [noColor sign d rfl])]
      rw [if_pos sign]
      simp [none]
    · rw [if_neg sign, if_neg (by simp [noLess]), noMark]
      simp [noDigit, noWord]

theorem readToken_iff {c : Char} {tail rest : List Char} {token : Token} :
    readToken c (tail ++ rest) = some ⟨token, tail, rest⟩ ↔ ReadsAs c tail rest token :=
  ⟨readsAs_of_readToken, ReadsAs.readToken_eq⟩

namespace ReadsAs

variable {c : Char} {tail rest rest' : List Char} {token : Token}

/-- A token is read as the same one when no token goes further before what follows it, if a quote
that is not closed on its line stays so. -/
theorem noFurther (reads : ReadsAs c tail rest token) (further : NoFurther rest rest')
    (unclosed : token = .stray c → c = '\'' ∨ c = '"' ∨ c = '\x60' → splitQuoted c rest = none →
      splitQuoted c rest' = none) : ReadsAs c tail rest' token := by
  cases reads with
  | newline => exact .newline rest'
  | multiStr _ first => exact .multiStr rest' first
  | @str quote raw _ quotes ended inline single =>
    refine .str quotes ended inline fun same front => single same ?_
    exact (NoFurther.append raw (.cons (.refl c) further)).take_two_eq front
  | expr _ ended inline => exact .expr rest' ended inline
  | openQuote quotes open_ single =>
    exact .openQuote quotes (unclosed rfl quotes open_) fun same front =>
      single same (further.take_two_eq front)
  | color some_digit run stops =>
    exact .color some_digit run (further.not_head (·.alphanum) (·.isAlphanum_eq) stops)
  | lessGreater => exact .lessGreater rest'
  | mark spelled apart =>
    exact .mark spelled fun less head => apart less (further.head?_eq (by decide) head)
  | num digit number stops => exact .num digit number (stops.noFurther further)
  | ident begins run stops =>
    exact .ident begins run (further.not_head (·.word) (·.continuesWord_eq) stops)
  | stray other noColor =>
    exact .stray other fun sign => further.not_head (·.alphanum) (·.isAlphanum_eq) (noColor sign)

/-- A token is read as the same one when what follows it ends or breaks off earlier. -/
theorem curtailed (reads : ReadsAs c tail rest token) (curtailed : Curtailed rest rest') :
    ReadsAs c tail rest' token := by
  refine reads.noFurther curtailed.noFurther fun _ quotes unclosed => ?_
  have solid : c ≠ '\n' := by rcases quotes with rfl | rfl | rfl <;> decide
  exact splitQuoted_none_curtailed solid unclosed curtailed

end ReadsAs

end Dbml.Token
