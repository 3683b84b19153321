import Dbml.Proofs.Token.Printing
import Dbml.Proofs.Verbatim.Columns

/-!
# Texts from one token to another

A text that is cut out of a source on one line begins and ends with no white space, and whether it
begins with a number sign its first token tells. So sources with the same tokens retell each other
as soon as such texts are related. Main statement: `Retold.of_runs`.
-/

namespace Dbml

open Text
open Token (Run ReadsAs EndsGap NumberTail)

/-! ## Single tokens -/

/-- Whether the token is written with a number sign in front. -/
def Token.hasSign : Token → Bool
  | .color _ => true
  | .stray c => c == '#'
  | _ => false

namespace Token.ReadsAs

variable {c : Char} {tail rest : List Char} {token : Token}

/-- A token that begins with no white space ends with none. -/
theorem last_solid (reads : ReadsAs c tail rest token) (first : isBlank c = false) :
    ∀ d ∈ (c :: tail).getLast?, isBlank d = false := by
  have single : ∀ d ∈ [c].getLast?, isBlank d = false := by simpa using first
  have closed {front : List Char} : ∀ d ∈ (c :: (front ++ [c])).getLast?, isBlank d = false := by
    rw [← List.cons_append, List.getLast?_concat]
    simpa using first
  have all {p : Char → Bool} (solid : ∀ {d}, p d = true → isBlank d = false)
      (run : ∀ d ∈ tail, p d = true) : ∀ d ∈ (c :: tail).getLast?, isBlank d = false := by
    intro d last
    rcases List.mem_cons.1 (List.mem_of_mem_getLast? last) with rfl | listed
    · exact first
    · exact solid (run d listed)
  cases reads with
  | newline => exact single
  | @multiStr body =>
    have quotes : '\'' :: '\'' :: body ++ Token.tripleQuote =
        ('\'' :: '\'' :: body ++ ['\'', '\'']) ++ ['\''] := by simp [Token.tripleQuote]
    rw [quotes]
    exact closed
  | str => exact closed
  | expr => exact closed
  | openQuote => exact single
  | color some_digit run => exact all isBlank_alphanum run
  | lessGreater =>
    intro d last
    have same : '>' = d := Option.some.inj last
    rw [← same]
    decide
  | mark => exact single
  | num digit number =>
    intro d last
    rcases List.mem_cons.1 (List.mem_of_mem_getLast? last) with rfl | listed
    · exact first
    · exact number.solid d listed
  | ident begins run => exact all isBlank_continuesWord run
  | stray => exact single

theorem first_sign (reads : ReadsAs c tail rest token) : c = '#' ↔ token.hasSign = true := by
  cases reads with
  | newline => decide
  | multiStr => simp [hasSign]
  | str quotes => rcases quotes with rfl | rfl <;> simp [hasSign]
  | expr => simp [hasSign]
  | openQuote => simp [hasSign]
  | color => simp [hasSign]
  | lessGreater => simp [hasSign]
  | mark spelled =>
    have other : c ≠ '#' := by
      rintro rfl
      cases spelled
    simp [hasSign, other]
  | num digit =>
    have other : c ≠ '#' := by
      rintro rfl
      cases digit
    simp [hasSign, other]
  | ident begins =>
    have other : c ≠ '#' := by
      rintro rfl
      exact absurd begins (by decide)
    simp [hasSign, other]
  | stray => simp [hasSign]

/-- Only a line end is read from a line feed. -/
theorem first_solid (reads : ReadsAs c tail rest token) (ends : EndsGap (c :: (tail ++ rest)))
    (solid : token ≠ .newline) : isBlank c = false := by
  rcases ends with rfl | ⟨blank, -⟩
  · have read := reads.readToken_eq
    rw [readToken_newline] at read
    cases read
    exact absurd rfl solid
  · exact blank

end Token.ReadsAs

/-- The token stands behind these characters of the text and is written with no white space at its
ends. -/
structure Token.Solid (cs : List Char) (lexeme : Lexeme) (front : List Char) (c : Char)
    (tail : List Char) : Prop where
  stands : ∃ rest, cs = front ++ (c :: tail ++ rest)
  start : lexeme.span.start = byteSize front
  stop : lexeme.span.stop = byteSize front + byteSize (c :: tail)
  first : isBlank c = false
  last : ∀ d ∈ (c :: tail).getLast?, isBlank d = false
  sign : c = '#' ↔ lexeme.token.hasSign = true

open Token (Solid)

theorem exists_solid {cs : List Char} {lexemes : List Lexeme} (run : Run 0 cs lexemes)
    {lexeme : Lexeme} (listed : lexeme ∈ lexemes) (solid : lexeme.token ≠ .newline) :
    ∃ front c tail, Solid cs lexeme front c tail := by
  obtain ⟨before, after, rfl⟩ := List.append_of_mem listed
  obtain ⟨front, behind, rfl, -, run⟩ := run.split
  cases run with
  | @token _ gap c tail rest _ _ between ends reads others =>
    have first := reads.first_solid ends solid
    refine ⟨front ++ gap, c, tail, ⟨rest, by simp⟩, ?_, ?_, first, reads.last_solid first,
      reads.first_sign⟩
    · rw [byteSize_append, Nat.zero_add]
    · rw [byteSize_append, Nat.zero_add]

/-- A text from one token to another begins with the first of the one and ends with no white
space. -/
theorem Token.Solid.slice_eq {cs front whole tail rest : List Char} {c d : Char} {l m : Lexeme}
    (first : Solid cs l front c tail) (last : Solid cs m whole d rest)
    (order : l.span.start ≤ m.span.start) :
    ∃ part, slice cs l.span.start m.span.stop = c :: part ∧
      ∀ e ∈ (c :: part).getLast?, isBlank e = false := by
  obtain ⟨others, parts⟩ := first.stands
  obtain ⟨behind, parts'⟩ := last.stands
  rw [first.start, last.start] at order
  obtain ⟨middle, rfl⟩ := exists_prefix (parts.symm.trans parts') order
  have text : slice cs l.span.start m.span.stop = middle ++ d :: rest := by
    have cut := slice_append front (middle ++ d :: rest) behind
    rw [first.start, last.stop, parts']
    simp only [byteSize_append, List.append_assoc, List.cons_append, Nat.add_assoc] at cut ⊢
    rw [cut]
  cases middle with
  | nil =>
    rw [List.append_nil] at parts'
    obtain ⟨rfl, -⟩ := List.cons.inj (List.append_cancel_left (parts.symm.trans parts'))
    exact ⟨rest, text, last.last⟩
  | cons e middle =>
    rw [List.append_assoc] at parts'
    obtain ⟨rfl, -⟩ := List.cons.inj (List.append_cancel_left (parts.symm.trans parts'))
    refine ⟨middle ++ d :: rest, text, fun f ends => last.last f ?_⟩
    rwa [← List.cons_append, List.getLast?_append_of_ne_nil _ (List.cons_ne_nil d rest)] at ends

/-! ## Texts -/

theorem trim_solid {c : Char} {cs : List Char} (first : isBlank c = false)
    (last : ∀ d ∈ (c :: cs).getLast?, isBlank d = false) : trim (c :: cs) = c :: cs := by
  rw [Token.trim_eq, List.dropWhile_cons_of_neg (by simp [first]), List.rdropWhile_eq_self_iff]
  intro nonempty
  simpa using last _ (List.getLast?_eq_some_getLast nonempty)

variable {s t : Source} {range : TokenRange}

namespace Source

theorem text_of_not (absent : ¬ (range.start < range.stop ∧ range.stop ≤ s.size)) :
    s.text range = "" := by
  by_cases inside : range.start < range.stop
  · have none : s.span? (range.stop - 1) = none := by
      rw [span?, Option.map_eq_none_iff, Array.getElem?_eq_none_iff]
      rw [size] at absent
      omega
    rw [text, none]
    split
    · rfl
    · split
      · contradiction
      · rfl
  · rw [text, if_pos]
    simp only [TokenRange.isEmpty, decide_eq_true_eq]
    omega

/-- The text of tokens on one line has no white space at its ends. -/
theorem exists_text (run : Run 0 s.chars s.lexemes.toList) (inline : s.Inline range)
    (inside : range.start < range.stop) (bound : range.stop ≤ s.size) :
    ∃ c part, s.text range = String.ofList (c :: part) ∧ isBlank c = false ∧
      (∀ d ∈ (c :: part).getLast?, isBlank d = false) ∧
      (c = '#' ↔ s.holds range.start (·.hasSign) = true) := by
  have solid {i : Nat} (low : range.start ≤ i) (high : i < range.stop) :
      ∃ lexeme front c tail, s.lexemes[i]? = some lexeme ∧ Solid s.chars lexeme front c tail := by
    have here := Array.getElem?_eq_getElem (Nat.lt_of_lt_of_le high bound)
    have solid := inline i low high
    rw [token?, here, Option.map_some, ne_eq, Option.some.injEq] at solid
    obtain ⟨front, c, tail, solid⟩ := exists_solid run (Array.getElem_mem_toList _) solid
    exact ⟨_, front, c, tail, here, solid⟩
  obtain ⟨l, front, c, tail, here, first⟩ := solid (Nat.le_refl _) inside
  obtain ⟨m, whole, d, rest, there, last⟩ := solid (i := range.stop - 1) (by omega) (by omega)
  have first_span : s.span? range.start = some l.span := by rw [span?, here, Option.map_some]
  have last_span : s.span? (range.stop - 1) = some m.span := by rw [span?, there, Option.map_some]
  have order : l.span.start ≤ m.span.start := by
    by_cases single : range.start = range.stop - 1
    · rw [← single, here] at there
      cases there
      exact Nat.le_refl _
    · have apart := span_apart run (by omega : range.start < range.stop - 1) first_span last_span
      have := first.stop
      rw [first.start]
      omega
  obtain ⟨part, text, ends⟩ := first.slice_eq last order
  refine ⟨c, part, by rw [text_of_span? inside first_span last_span, text], first.first, ends, ?_⟩
  rw [first.sign, holds, token?, here, Option.map_some, Option.any_some]

/-- The text of tokens on one line has no white space at its ends. -/
theorem trimmed_text (run : Run 0 s.chars s.lexemes.toList) (inline : s.Inline range) :
    trimmed (s.text range) = s.text range := by
  by_cases present : range.start < range.stop ∧ range.stop ≤ s.size
  · obtain ⟨c, part, text, first, last, -⟩ := exists_text run inline present.1 present.2
    rw [text, trimmed, String.toList_ofList, trim_solid first last]
  · rw [text_of_not present]
    rfl

end Source

/-! ## Sources -/

open Source

theorem SameTokens.inline (same : SameTokens s t) (inline : s.Inline range) : t.Inline range :=
  fun i low high => by
    rw [same.token?]
    exact inline i low high

namespace SameTokens

variable {R : String → String → Prop} (same : SameTokens s t) (run : Run 0 s.chars s.lexemes.toList)
  (run' : Run 0 t.chars t.lexemes.toList) (inline : s.Inline range)

include same run run' inline

/-- Texts of the same tokens are empty together. -/
theorem text_eq_empty_iff : t.text range = "" ↔ s.text range = "" := by
  by_cases present : range.start < range.stop ∧ range.stop ≤ s.size
  · obtain ⟨c, part, text, -⟩ := exists_text run inline present.1 present.2
    obtain ⟨d, part', text', -⟩ :=
      exists_text run' (same.inline inline) present.1 (by rw [same.size]; exact present.2)
    simp [text, text']
  · rw [text_of_not present, text_of_not (by rwa [same.size])]

/-- Texts of the same tokens begin with a number sign together. -/
theorem head?_text_iff :
    (t.text range).toList.head? = some '#' ↔ (s.text range).toList.head? = some '#' := by
  by_cases present : range.start < range.stop ∧ range.stop ≤ s.size
  · obtain ⟨c, part, text, -, -, sign⟩ := exists_text run inline present.1 present.2
    obtain ⟨d, part', text', -, -, sign'⟩ :=
      exists_text run' (same.inline inline) present.1 (by rw [same.size]; exact present.2)
    rw [same.holds] at sign'
    simp [text, text', sign, sign']
  · rw [text_of_not present, text_of_not (by rwa [same.size])]

theorem valueText (refl : ∀ x, R x x) (text : R (s.text range) (t.text range)) :
    Option.Rel R (s.valueText range) (t.valueText range) := by
  have empty := same.text_eq_empty_iff run run' inline
  rw [Source.valueText, Source.valueText, same.quotedText, trimmed_text run inline,
    trimmed_text run' (same.inline inline)]
  cases s.quotedText range with
  | some quoted => exact .some (refl quoted)
  | none =>
    dsimp only [Option.none_or]
    by_cases blank : s.text range = ""
    · rw [if_pos blank, if_pos (empty.2 blank)]
      exact .none
    · rw [if_neg blank, if_neg (mt empty.1 blank)]
      exact .some text

theorem colorText (refl : ∀ x, R x x) (text : R (s.text range) (t.text range))
    (sign : R ("#" ++ s.text range) ("#" ++ t.text range)) :
    Option.Rel R (s.colorText range) (t.colorText range) := by
  have empty := same.text_eq_empty_iff run run' inline
  have head := same.head?_text_iff run run' inline
  have trimmed := trimmed_text run inline
  have trimmed' := trimmed_text run' (same.inline inline)
  rw [Source.colorText, Source.colorText, Source.valueText, Source.valueText, same.quotedText,
    trimmed, trimmed']
  cases s.quotedText range with
  | some quoted =>
    dsimp only [Option.some_or, Option.bind_some]
    split
    · exact .none
    · split
      · exact .some (refl _)
      · exact .some (refl _)
  | none =>
    dsimp only [Option.none_or]
    by_cases blank : s.text range = ""
    · rw [if_pos blank, if_pos (empty.2 blank)]
      exact .none
    have solid := mt empty.1 blank
    rw [if_neg blank, if_neg solid, Option.bind_some, Option.bind_some, trimmed, trimmed',
      if_neg blank, if_neg solid]
    by_cases front : (s.text range).toList.head? = some '#'
    · rw [if_pos front, if_pos (head.2 front)]
      exact .some text
    · rw [if_neg front, if_neg (mt head.1 front)]
      exact .some sign

end SameTokens

/-- Sources with the same tokens retell each other when the texts on their lines are related. -/
theorem Retold.of_runs {R : String → String → Prop} (same : SameTokens s t)
    (run : Run 0 s.chars s.lexemes.toList) (run' : Run 0 t.chars t.lexemes.toList)
    (refl : ∀ x, R x x)
    (joined : ∀ {i j : Nat} {a b a' b' : Span}, s.token? i ≠ some .newline →
      s.token? j ≠ some .newline → s.span? i = some a → s.span? j = some b →
      t.span? i = some a' → t.span? j = some b' → (a'.stop = b'.start ↔ a.stop = b.start))
    (text : ∀ range, s.Inline range → R (s.text range) (t.text range))
    (sign : ∀ range, s.Inline range → R ("#" ++ s.text range) ("#" ++ t.text range)) :
    Retold R s t where
  tokens := same
  refl := refl
  joined := joined
  text := text
  raw range inline := by
    rw [trimmed_text run inline, trimmed_text run' (same.inline inline)]
    exact text range inline
  value range inline := same.valueText run run' inline refl (text range inline)
  color range inline := same.colorText run run' inline refl (text range inline) (sign range inline)

end Dbml
