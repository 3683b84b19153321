import Dbml.Token.Lexer

/-!
# How single tokens are written

The spelling of words, marks, literals and line ends, and the conditions under which it is read as
that one token again. A literal is a text between two quotes, with what would end or break it
escaped. Main statements: `readToken_literal`, `readToken_mark`, `readToken_word`.
-/

namespace Dbml.Token

open Text

/-! ## Literals -/

/-- A character as it is written between two quotes. -/
def escapeChar (quote c : Char) : List Char :=
  if c = '\\' ∨ c = quote then ['\\', c]
  else if c = '\n' then ['\\', 'n']
  else if c = '\t' then ['\\', 't']
  else if c = '\r' then ['\\', 'r']
  else [c]

/-- A text as it is written between two quotes. -/
def escape (quote : Char) (cs : List Char) : List Char :=
  cs.flatMap (escapeChar quote)

@[simp] theorem escape_nil (quote : Char) : escape quote [] = [] := rfl

theorem escape_cons (quote c : Char) (cs : List Char) :
    escape quote (c :: cs) = escapeChar quote c ++ escape quote cs := by
  simp [escape]

/-- A character is written as itself, or as a backslash and a character that stands for it. -/
theorem escapeChar_cases {quote : Char} (quotes : quote = '"' ∨ quote = '\'') (c : Char) :
    (escapeChar quote c = [c] ∧ c ≠ '\\' ∧ c ≠ quote ∧ c ≠ '\n') ∨
      ∃ e, escapeChar quote c = ['\\', e] ∧ e ≠ '\n' ∧ unescapeChar e = c := by
  unfold escapeChar
  by_cases special : c = '\\' ∨ c = quote
  · right
    rw [if_pos special]
    rcases special with rfl | rfl
    · exact ⟨'\\', rfl, by decide, rfl⟩
    · rcases quotes with rfl | rfl
      · exact ⟨'"', rfl, by decide, rfl⟩
      · exact ⟨'\'', rfl, by decide, rfl⟩
  rw [if_neg special]
  by_cases newline : c = '\n'
  · subst newline; exact .inr ⟨'n', rfl, by decide, rfl⟩
  by_cases tab : c = '\t'
  · subst tab; exact .inr ⟨'t', rfl, by decide, rfl⟩
  by_cases carriage : c = '\r'
  · subst carriage; exact .inr ⟨'r', rfl, by decide, rfl⟩
  rw [not_or] at special
  exact .inl ⟨by rw [if_neg newline, if_neg tab, if_neg carriage], special.1, special.2, newline⟩

theorem unescape_cons {c : Char} (plain : c ≠ '\\') (cs : List Char) :
    unescape (c :: cs) = c :: unescape cs := by
  rw [unescape]
  intro d ds same
  exact absurd same plain

/-- Undoing the escapes of a text that is written between quotes gives the text. -/
theorem unescape_escape {quote : Char} (quotes : quote = '"' ∨ quote = '\'') (cs : List Char) :
    unescape (escape quote cs) = cs := by
  induction cs with
  | nil => rfl
  | cons c cs ih =>
    rw [escape_cons]
    rcases escapeChar_cases quotes c with ⟨plain, backslash, _, _⟩ | ⟨e, escaped, _, stands⟩
    · rw [plain, List.singleton_append, unescape_cons backslash, ih]
    · rw [escaped, List.cons_append, List.singleton_append, unescape, stands, ih]

/-- Between two quotes the first quote that is not escaped is the closing one. -/
theorem splitQuoted_escape {quote : Char} (quotes : quote = '"' ∨ quote = '\'')
    (cs rest : List Char) :
    splitQuoted quote (escape quote cs ++ quote :: rest) = some (escape quote cs, rest) := by
  have notBackslash : '\\' ≠ quote := by rcases quotes with rfl | rfl <;> decide
  have notBackquote : (quote != '\x60') = true := by rcases quotes with rfl | rfl <;> decide
  induction cs with
  | nil => rw [escape_nil, List.nil_append, splitQuoted.eq_def]; simp
  | cons c cs ih =>
    rw [escape_cons]
    rcases escapeChar_cases quotes c with ⟨plain, backslash, noQuote, noBreak⟩ | ⟨e, escaped, noBreak, _⟩
    · rw [plain, List.singleton_append, List.cons_append, splitQuoted.eq_def]
      simp [noQuote, noBreak, backslash, ih]
    · rw [escaped, List.cons_append, List.singleton_append, List.cons_append, List.cons_append,
        splitQuoted.eq_def]
      simp [notBackslash, notBackquote, noBreak, ih]

/-- A text between two double quotes is read as that text. -/
theorem readToken_literal (text : String) (rest : List Char) :
    readToken '"' (escape '"' text.toList ++ '"' :: rest) =
      some ⟨.str text, escape '"' text.toList ++ ['"'], rest⟩ := by
  have split := splitQuoted_escape (.inl rfl) text.toList rest
  have undone := unescape_escape (.inl rfl : '"' = '"' ∨ _) text.toList
  simp [readToken, readQuoted, split, undone]

/-! ## Marks and line ends -/

theorem readToken_newline (rest : List Char) :
    readToken '\n' rest = some ⟨.newline, [], rest⟩ := by
  simp [readToken]

/-- A mark of one character is read as that mark, but a `<` is not when a `>` follows. -/
theorem readToken_mark {c : Char} {mark : Mark} (spelled : Mark.ofChar? c = some mark)
    {rest : List Char} (apart : mark = .less → rest.head? ≠ some '>') :
    readToken c rest = some ⟨.mark mark, [], rest⟩ := by
  have spelling := Mark.spelling_of_ofChar? spelled
  have less : c = '<' → rest.head? ≠ some '>' := by
    rintro rfl
    exact apart (Option.some.inj spelled).symm
  have others : c ≠ '\n' ∧ c ≠ '\'' ∧ c ≠ '"' ∧ c ≠ '\x60' ∧ c ≠ '#' := by
    refine ⟨?_, ?_, ?_, ?_, ?_⟩ <;> (rintro rfl; cases spelled)
  obtain ⟨h1, h2, h3, h4, h5⟩ := others
  unfold readToken
  rw [if_neg h1, if_neg (fun both => h2 both.1), if_neg (by simp [h2, h3]), if_neg h4, if_neg h5,
    if_neg (fun both => less both.1 both.2), spelled]

theorem readToken_lessGreater (rest : List Char) :
    readToken '<' ('>' :: rest) = some ⟨.mark .lessGreater, ['>'], rest⟩ := by
  simp [readToken]

/-! ## Words -/

/-- The characters that begin a token of another kind than a word, digits apart. -/
def leaders : List Char :=
  ['\n', '\'', '"', '\x60', '#', '<', '\x7b', '\x7d', '(', ')', '[', ']', ',', ':', '.', '>', '-', '/']

theorem beginsWord_leader {c : Char} (leads : c ∈ leaders) : beginsWord c = false := by
  have all : leaders.all (fun d => !beginsWord d) = true := by decide
  simpa using List.all_eq_true.1 all c leads

theorem ofChar?_eq_none {c : Char} (other : c ∉ leaders) : Mark.ofChar? c = none := by
  cases spelled : Mark.ofChar? c with
  | none => rfl
  | some mark =>
    refine absurd ?_ other
    unfold Mark.ofChar? at spelled
    split at spelled <;> first | decide | cases spelled

theorem beginsWord_digit {c : Char} (digit : c.isDigit = true) : beginsWord c = false := by
  simp only [Char.isDigit, Bool.and_eq_true, decide_eq_true_eq, ge_iff_le] at digit
  have low : 48 ≤ c.toNat := digit.1
  have high : c.toNat ≤ 57 := digit.2
  have all : ∀ n < 10, beginsWord (Char.ofNat (48 + n)) = false := by decide
  have here := all (c.toNat - 48) (by omega)
  rwa [show 48 + (c.toNat - 48) = c.toNat by omega, Char.ofNat_toNat] at here

/-- What has a property that no code point of white space has is no white space. -/
theorem isBlank_eq_false {p : Char → Bool} (none : ∀ range ∈ blankRanges, ∀ n < 16,
    range.1 + n ≤ range.2 → p (Char.ofNat (range.1 + n)) = false) {c : Char} (holds : p c = true) :
    isBlank c = false := by
  cases blank : isBlank c with
  | false => rfl
  | true =>
    obtain ⟨range, listed, low, high⟩ := inRanges_iff.1 blank
    have short : ∀ range ∈ blankRanges, range.2 < range.1 + 16 := by decide
    have here := none range listed (c.toNat - range.1) (by have := short range listed; omega)
      (by omega)
    rw [show range.1 + (c.toNat - range.1) = c.toNat by omega, Char.ofNat_toNat, holds] at here
    cases here

theorem isBlank_digit {c : Char} (digit : c.isDigit = true) : isBlank c = false :=
  isBlank_eq_false (by decide +kernel) digit

theorem isBlank_alphanum {c : Char} (alphanum : c.isAlphanum = true) : isBlank c = false :=
  isBlank_eq_false (by decide +kernel) alphanum

theorem isBlank_continuesWord {c : Char} (continues : continuesWord c = true) : isBlank c = false :=
  isBlank_eq_false (by decide +kernel) continues

/-- What begins a word is no white space and begins no comment. -/
theorem solid_of_beginsWord {c : Char} (begins : beginsWord c = true) :
    isBlank c = false ∧ c ≠ '/' := by
  refine ⟨isBlank_eq_false (by decide +kernel) begins, ?_⟩
  rintro rfl
  exact absurd begins (by decide)

/-- No mark is white space or begins a comment. -/
theorem solid_of_ofChar? {c : Char} {mark : Mark} (spelled : Mark.ofChar? c = some mark) :
    isBlank c = false ∧ c ≠ '/' := by
  have all : leaders.all (fun d => (Mark.ofChar? d).isNone || !isBlank d && d != '/') = true := by
    decide
  by_cases leads : c ∈ leaders
  · simpa [spelled] using List.all_eq_true.1 all c leads
  · rw [ofChar?_eq_none leads] at spelled
    cases spelled

theorem utf8Size_of_ofChar? {c : Char} {mark : Mark} (spelled : Mark.ofChar? c = some mark) :
    c.utf8Size = 1 := by
  have all : leaders.all (fun d => d.utf8Size == 1) = true := by decide
  by_cases leads : c ∈ leaders
  · simpa using List.all_eq_true.1 all c leads
  · rw [ofChar?_eq_none leads] at spelled
    cases spelled

/-- A word is read as that word when nothing that would continue it follows. -/
theorem readToken_word {c : Char} {letters rest : List Char} (begins : beginsWord c = true)
    (continues : ∀ d ∈ letters, continuesWord d = true)
    (apart : ∀ d ∈ rest.head?, continuesWord d = false) :
    readToken c (letters ++ rest) =
      some ⟨.ident (String.ofList (c :: letters)), letters, rest⟩ := by
  have other : c ∉ leaders := fun leads => by simp [beginsWord_leader leads] at begins
  have noDigit : c.isDigit = false := by
    cases digit : c.isDigit with
    | false => rfl
    | true => simp [beginsWord_digit digit] at begins
  have noMark := ofChar?_eq_none other
  have stop : rest.takeWhile continuesWord = [] ∧ rest.dropWhile continuesWord = rest := by
    cases rest with
    | nil => exact ⟨rfl, rfl⟩
    | cons d ds => simp [apart d (by simp)]
  have taken : (letters ++ rest).takeWhile continuesWord = letters := by
    rw [List.takeWhile_append_of_pos continues, stop.1, List.append_nil]
  have left : (letters ++ rest).dropWhile continuesWord = rest := by
    rw [List.dropWhile_append_of_pos continues, stop.2]
  simp only [leaders, List.mem_cons, List.not_mem_nil, or_false, not_or] at other
  simp [readToken, other, noMark, noDigit, begins, taken, left]

end Dbml.Token
