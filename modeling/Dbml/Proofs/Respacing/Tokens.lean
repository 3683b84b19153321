import Dbml.Proofs.Respacing.Breaks
import Dbml.Proofs.Source.Contents

/-!
# Sources that differ in line ends

One source is another one with more line ends between its tokens. Each token of the first is found
in the second by its number and the number of line ends added before it. Main statement:
`respaced_ofString`, what line breaks make of a text.
-/

namespace Dbml

open Text
open Token (Run lastStop)

/-- The second source is the first one with more line ends: token `i` has the number `i + shift i`
there, and as many bytes come before it as tokens. -/
structure Respaced (s s' : Source) (shift : Nat → Nat) : Prop where
  lexeme : ∀ i, s'.lexemes[i + shift i]? = s.lexemes[i]?.map (·.shift (shift i))
  mono : ∀ i, shift i ≤ shift (i + 1)
  before : ∀ k < shift 0, s'.token? k = some .newline
  between : ∀ i k, i + shift i < k → k ≤ i + shift (i + 1) → s'.token? k = some .newline
  text : ∀ i j, i ≤ j → j < s.size → shift j = shift i →
    s'.text ⟨i + shift i, j + 1 + shift i⟩ = s.text ⟨i, j + 1⟩
  solid : ∀ i span, s.span? i = some span → span.start < span.stop
  apart : ∀ i j a b, i < j → s.span? i = some a → s.span? j = some b → a.stop ≤ b.start

/-! ## Numbers of tokens -/

/-- By how much the token with the number is moved. -/
def shiftAt (moved : Lexeme → Nat) (total : Nat) (lexemes : List Lexeme) (i : Nat) : Nat :=
  lexemes[i]?.elim total moved

namespace Spread

variable {moved : Lexeme → Nat} {total before : Nat} {lexemes lexemes' : List Lexeme}

theorem le_shiftAt (spread : Spread moved total before lexemes lexemes') (i : Nat) :
    before ≤ shiftAt moved total lexemes i := by
  induction spread generalizing i with
  | last newlines count =>
    simp only [shiftAt, List.getElem?_nil, Option.elim_none]
    omega
  | token newlines count others ih =>
    cases i with
    | zero =>
      simp only [shiftAt, List.getElem?_cons_zero, Option.elim_some]
      omega
    | succ i =>
      have := ih i
      simp only [shiftAt, List.getElem?_cons_succ] at this ⊢
      omega

theorem shiftAt_mono (spread : Spread moved total before lexemes lexemes') (i : Nat) :
    shiftAt moved total lexemes i ≤ shiftAt moved total lexemes (i + 1) := by
  induction spread generalizing i with
  | last => simp [shiftAt]
  | @token before lexeme ends lexemes lexemes' newlines count others ih =>
    cases i with
    | zero => simpa [shiftAt] using others.le_shiftAt 0
    | succ i => simpa [shiftAt] using ih i

/-- Each token is found by its number and the line ends before it. -/
theorem getElem? (spread : Spread moved total before lexemes lexemes') {i k : Nat}
    (place : k + before = i + shiftAt moved total lexemes i) :
    lexemes'[k]? = lexemes[i]?.map (·.shift (shiftAt moved total lexemes i)) := by
  induction spread generalizing i k with
  | last newlines count =>
    simp only [shiftAt, List.getElem?_nil, Option.elim_none, Option.map_none] at place ⊢
    exact List.getElem?_eq_none (by omega)
  | @token before lexeme ends lexemes lexemes' newlines count others ih =>
    have later := others.le_shiftAt (i - 1)
    cases i with
    | zero =>
      simp only [shiftAt, List.getElem?_cons_zero, Option.elim_some] at place ⊢
      rw [List.getElem?_append_right (by omega), show k - ends.length = 0 by omega]
      rfl
    | succ i =>
      simp only [shiftAt, List.getElem?_cons_succ, Nat.add_sub_cancel] at place later ⊢
      rw [List.getElem?_append_right (by omega),
        show k - ends.length = k - ends.length - 1 + 1 by omega, List.getElem?_cons_succ]
      exact ih (by simp only [shiftAt]; omega)

/-- Before the first token stand line ends. -/
theorem newline_first (spread : Spread moved total before lexemes lexemes') {k : Nat}
    (first : k + before < shiftAt moved total lexemes 0) :
    lexemes'[k]?.map (·.token) = some .newline := by
  have inEnds {ends : List Lexeme} (newlines : ∀ l ∈ ends, l.token = .newline)
      (inside : k < ends.length) : ends[k]?.map (·.token) = some .newline := by
    rw [List.getElem?_eq_getElem inside, Option.map_some, newlines _ (List.getElem_mem inside)]
  cases spread with
  | last newlines count =>
    simp only [shiftAt, List.getElem?_nil, Option.elim_none] at first
    exact inEnds newlines (by omega)
  | token newlines count others =>
    simp only [shiftAt, List.getElem?_cons_zero, Option.elim_some] at first
    rw [List.getElem?_append_left (by omega)]
    exact inEnds newlines (by omega)

/-- Between two tokens stand line ends. -/
theorem newline_between (spread : Spread moved total before lexemes lexemes') {i k : Nat}
    (low : i + shiftAt moved total lexemes i < k + before)
    (high : k + before ≤ i + shiftAt moved total lexemes (i + 1)) :
    lexemes'[k]?.map (·.token) = some .newline := by
  induction spread generalizing i k with
  | last newlines count =>
    simp only [shiftAt, List.getElem?_nil, Option.elim_none] at low high
    omega
  | @token before lexeme ends lexemes lexemes' newlines count others ih =>
    have later := others.le_shiftAt (i - 1)
    cases i with
    | zero =>
      simp only [shiftAt, List.getElem?_cons_zero, List.getElem?_cons_succ, Option.elim_some]
        at low high
      rw [List.getElem?_append_right (by omega),
        show k - ends.length = k - ends.length - 1 + 1 by omega, List.getElem?_cons_succ]
      exact others.newline_first (by simp only [shiftAt]; omega)
    | succ i =>
      simp only [shiftAt, List.getElem?_cons_succ, Nat.add_sub_cancel] at low high later
      rw [List.getElem?_append_right (by omega),
        show k - ends.length = k - ends.length - 1 + 1 by omega, List.getElem?_cons_succ]
      exact ih (i := i) (by simp only [shiftAt]; omega) (by simp only [shiftAt]; omega)

end Spread

/-! ## Texts of tokens -/

theorem exists_prefix {as bs cs ds : List Char} (same : as ++ bs = cs ++ ds)
    (short : byteSize as ≤ byteSize cs) : ∃ part, cs = as ++ part := by
  rcases List.append_eq_append_iff.1 same with ⟨part, eq, -⟩ | ⟨part, eq, -⟩
  · exact ⟨part, eq⟩
  · rw [eq, byteSize_append] at short
    cases part with
    | nil => exact ⟨[], by simp [eq]⟩
    | cons c part =>
      have := c.utf8Size_pos
      rw [byteSize_cons] at short
      omega

/-- Where a token of a run stands in the text. -/
theorem exists_spelling {cs : List Char} {lexemes : List Lexeme} (run : Run 0 cs lexemes)
    {lexeme : Lexeme} (listed : lexeme ∈ lexemes) :
    ∃ front c tail rest, cs = front ++ (c :: tail ++ rest) ∧
      lexeme.span.start = byteSize front ∧
      lexeme.span.stop = byteSize front + byteSize (c :: tail) := by
  obtain ⟨before, after, rfl⟩ := List.append_of_mem listed
  obtain ⟨front, gap, c, tail, rest, rfl, -, -, reads, start, stop⟩ := run.exists_token
  refine ⟨front ++ gap, c, tail, rest, by simp, ?_, ?_⟩
  · rw [start, byteSize_append, Nat.zero_add]
  · rw [stop, start, byteSize_append, Nat.zero_add]

variable {breaks : Nat → Nat} {cs front middle behind : List Char} {c d : Char}

/-- As many breaks come before one place as before another one if there are none between them. -/
theorem breaksUpTo_eq (none : ∀ p, byteSize front < p → p ≤ byteSize front + byteSize middle →
    breaks p = 0) :
    breaksUpTo breaks (front ++ (middle ++ behind)) (byteSize front + byteSize middle) =
      breaksUpTo breaks (front ++ (middle ++ behind)) (byteSize front) := by
  rw [breaksUpTo_append, ← List.append_assoc, ← byteSize_append, breaksUpTo_append,
    breaksIn_append, Nat.zero_add, byteSize_append]
  cases middle with
  | nil => simp [breaksIn]
  | cons c middle =>
    have size := c.utf8Size_pos
    have last := none (byteSize front + byteSize (c :: middle))
      (by rw [byteSize_cons]; omega) (Nat.le_refl _)
    have inner : breaksIn breaks (byteSize front + c.utf8Size) middle = 0 :=
      breaksIn_eq_zero fun p low high => none p (by omega) (by rw [byteSize_cons]; omega)
    rw [breaksIn, inner, last]
    rfl

/-- A text is the same when as many breaks come before its last token as before its first. -/
theorem slice_insertBreaks {tail : List Char}
    (same : breaksUpTo breaks (front ++ (middle ++ (d :: tail ++ behind)))
        (byteSize front + byteSize middle) =
      breaksUpTo breaks (front ++ (middle ++ (d :: tail ++ behind))) (byteSize front))
    (whole : ∀ p, byteSize front + byteSize middle < p →
      p < byteSize front + byteSize middle + byteSize (d :: tail) → breaks p = 0) :
    slice (insertBreaks breaks 0 (front ++ (middle ++ (d :: tail ++ behind))))
        (byteSize front + breaksUpTo breaks (front ++ (middle ++ (d :: tail ++ behind)))
          (byteSize front))
        (byteSize front + byteSize middle + byteSize (d :: tail) +
          breaksUpTo breaks (front ++ (middle ++ (d :: tail ++ behind))) (byteSize front)) =
      middle ++ d :: tail := by
  have size := d.utf8Size_pos
  rw [breaksUpTo_append, ← List.append_assoc, ← byteSize_append, breaksUpTo_append,
    breaksIn_append, Nat.zero_add, byteSize_append] at same
  have token : breaksIn breaks (byteSize front + byteSize middle + d.utf8Size) tail = 0 :=
    breaksIn_eq_zero fun p low high => whole p (by omega) (by rw [byteSize_cons]; omega)
  -- There is no break behind the first character.
  obtain ⟨e, part, parts, inner⟩ : ∃ e part, middle ++ d :: tail = e :: part ∧
      breaksIn breaks (byteSize front + e.utf8Size) part = 0 := by
    cases middle with
    | nil => exact ⟨d, tail, rfl, token⟩
    | cons e middle =>
      refine ⟨e, middle ++ d :: tail, rfl, ?_⟩
      rw [byteSize_cons, ← Nat.add_assoc] at same token
      rw [breaksIn] at same
      rw [breaksIn_append, breaksIn, token]
      omega
  have text : front ++ (middle ++ (d :: tail ++ behind)) = front ++ e :: (part ++ behind) := by
    rw [← List.append_assoc middle, parts, List.cons_append]
  have bytes : byteSize middle + byteSize (d :: tail) = byteSize (e :: part) := by
    rw [← parts, byteSize_append]
  have before : byteSize front + breaksUpTo breaks (front ++ (middle ++ (d :: tail ++ behind)))
      (byteSize front) = byteSize (insertBreaks breaks 0 front) := by
    rw [breaksUpTo_append, byteSize_insertBreaks, Nat.zero_add]
  have stop : byteSize front + byteSize middle + byteSize (d :: tail) +
      breaksUpTo breaks (front ++ (middle ++ (d :: tail ++ behind))) (byteSize front) =
      byteSize (insertBreaks breaks 0 front) + byteSize (e :: part) := by
    rw [← before, ← bytes]
    omega
  rw [before, stop, text, insertBreaks_append_cons, Nat.zero_add, insertBreaks_append inner,
    ← List.cons_append, ← List.append_assoc, slice_append, parts]

namespace Source

theorem ofString_eq_ok {text : String} {s : Source} :
    ofString text = .ok s ↔ s.chars = text.toList ∧ Run 0 text.toList s.lexemes.toList := by
  unfold ofString
  constructor
  · intro read
    cases found : Token.tokenize text.toList with
    | error offset => rw [found] at read; cases read
    | ok lexemes =>
      rw [found] at read
      cases read
      exact ⟨rfl, Token.tokenize_eq_ok.1 found⟩
  · rintro ⟨chars, run⟩
    rw [Token.tokenize_eq_ok.2 run, ← chars]

theorem span?_eq_some {s : Source} {i : Nat} {span : Span} (here : s.span? i = some span) :
    ∃ lexeme, s.lexemes.toList[i]? = some lexeme ∧ lexeme.span = span := by
  obtain ⟨lexeme, found, same⟩ := Option.map_eq_some_iff.1 here
  exact ⟨lexeme, by rwa [Array.getElem?_toList], same⟩

theorem span_apart {s : Source} {cs : List Char} (run : Run 0 cs s.lexemes.toList) {i j : Nat}
    {a b : Span} (less : i < j) (first : s.span? i = some a) (second : s.span? j = some b) :
    a.stop ≤ b.start := by
  obtain ⟨l, here, rfl⟩ := span?_eq_some first
  obtain ⟨m, there, rfl⟩ := span?_eq_some second
  obtain ⟨low, rfl⟩ := List.getElem?_eq_some_iff.1 here
  obtain ⟨high, rfl⟩ := List.getElem?_eq_some_iff.1 there
  exact List.pairwise_iff_getElem.1 run.ordered i j low high less

end Source

variable {s : Source}

/-- By how much the breaks move the token with the number. -/
def Source.shiftBy (s : Source) (breaks : Nat → Nat) (i : Nat) : Nat :=
  shiftAt (fun l => breaksUpTo breaks s.chars l.span.start)
    (breaksUpTo breaks s.chars (byteSize s.chars)) s.lexemes.toList i

theorem shiftBy_of_span? {i : Nat} {span : Span} (here : s.span? i = some span) :
    s.shiftBy breaks i = breaksUpTo breaks s.chars span.start := by
  obtain ⟨lexeme, found, rfl⟩ := Source.span?_eq_some here
  rw [Source.shiftBy, shiftAt, found]
  rfl

theorem shiftBy_of_none {i : Nat} (none : s.span? i = none) :
    s.shiftBy breaks i = breaksUpTo breaks s.chars (byteSize s.chars) := by
  rw [Source.span?, Option.map_eq_none_iff, ← Array.getElem?_toList] at none
  rw [Source.shiftBy, shiftAt, none]
  rfl

/-- Where the tokens with two numbers stand, if the first does not come behind the second. -/
theorem exists_spellings {i j : Nat} {a b : Span} (run : Run 0 s.chars s.lexemes.toList)
    (order : i ≤ j) (first : s.span? i = some a) (last : s.span? j = some b) :
    ∃ front middle d tail behind, s.chars = front ++ (middle ++ (d :: tail ++ behind)) ∧
      a.start = byteSize front ∧ b.start = byteSize front + byteSize middle ∧
      b.stop = byteSize front + byteSize middle + byteSize (d :: tail) := by
  obtain ⟨l, here, rfl⟩ := Source.span?_eq_some first
  obtain ⟨m, there, rfl⟩ := Source.span?_eq_some last
  obtain ⟨front, c, rest, others, parts, start, stop⟩ :=
    exists_spelling run (List.mem_of_getElem? here)
  obtain ⟨whole, d, tail, behind, parts', start', stop'⟩ :=
    exists_spelling run (List.mem_of_getElem? there)
  have short : byteSize front ≤ byteSize whole := by
    rw [← start, ← start']
    rcases Nat.lt_or_eq_of_le order with less | rfl
    · have := Source.span_apart run less first last
      rw [byteSize_cons] at stop
      omega
    · rw [here] at there
      cases there
      exact Nat.le_refl _
  obtain ⟨middle, rfl⟩ := exists_prefix (parts.symm.trans parts') short
  rw [byteSize_append] at start' stop'
  exact ⟨front, middle, d, tail, behind, by rw [parts', List.append_assoc], start, start', stop'⟩

/-- Where two tokens are moved by different numbers of breaks, there is a break between them. -/
theorem exists_break {i : Nat} (run : Run 0 s.chars s.lexemes.toList)
    (differ : s.shiftBy breaks i ≠ s.shiftBy breaks (i + 1)) :
    ∃ p span, breaks p ≠ 0 ∧ s.span? i = some span ∧ span.start < p ∧
      ∀ next, s.span? (i + 1) = some next → p ≤ next.start := by
  have between {front middle behind : List Char}
      (differ : breaksUpTo breaks (front ++ (middle ++ behind)) (byteSize front) ≠
        breaksUpTo breaks (front ++ (middle ++ behind)) (byteSize front + byteSize middle)) :
      ∃ p, breaks p ≠ 0 ∧ byteSize front < p ∧ p ≤ byteSize front + byteSize middle := by
    refine Classical.byContradiction fun none => differ (breaksUpTo_eq fun p low high => ?_).symm
    exact Classical.byContradiction fun broken => none ⟨p, broken, low, high⟩
  cases here : s.span? i with
  | none =>
    have after : s.span? (i + 1) = none := by
      rw [Source.span?, Option.map_eq_none_iff, Array.getElem?_eq_none_iff] at here ⊢
      exact Nat.le_succ_of_le here
    exact absurd ((shiftBy_of_none here).trans (shiftBy_of_none after).symm) differ
  | some span =>
    cases there : s.span? (i + 1) with
    | none =>
      obtain ⟨front, middle, d, tail, behind, parts, start, -, -⟩ :=
        exists_spellings run (Nat.le_refl i) here here
      have whole : s.chars = front ++ ((middle ++ (d :: tail ++ behind)) ++ []) := by
        rw [parts, List.append_nil]
      rw [shiftBy_of_span? here, shiftBy_of_none there, start, whole, byteSize_append,
        byteSize_append, byteSize_nil, Nat.add_zero] at differ
      obtain ⟨p, broken, low, -⟩ := between differ
      exact ⟨p, span, broken, rfl, by omega, nofun⟩
    | some next =>
      obtain ⟨front, middle, d, tail, behind, parts, start, place, -⟩ :=
        exists_spellings run (Nat.le_succ i) here there
      rw [shiftBy_of_span? here, shiftBy_of_span? there, start, place, parts] at differ
      obtain ⟨p, broken, low, high⟩ := between differ
      refine ⟨p, span, broken, rfl, by omega, fun other same => ?_⟩
      cases same
      omega

open Source

theorem exists_span? {i : Nat} (inside : i < s.size) : ∃ span, s.span? i = some span := by
  rw [size] at inside
  exact ⟨_, by rw [span?, Array.getElem?_eq_getElem inside]; rfl⟩

theorem lt_size_of_span? {i : Nat} {span : Span} (here : s.span? i = some span) : i < s.size := by
  obtain ⟨lexeme, found, -⟩ := Option.map_eq_some_iff.1 here
  exact (Array.getElem?_eq_some_iff.1 found).1

theorem text_of_span? {range : TokenRange} {a b : Span} (inside : range.start < range.stop)
    (first : s.span? range.start = some a) (last : s.span? (range.stop - 1) = some b) :
    s.text range = String.ofList (slice s.chars a.start b.stop) := by
  have some_token : range.isEmpty = false := by
    simp only [TokenRange.isEmpty, decide_eq_false_iff_not]
    omega
  simp [text, some_token, first, last]

/-- No break stands inside a token. -/
theorem break_outside {j p : Nat} {span : Span} (run : Run 0 s.chars s.lexemes.toList)
    (placed : ∀ p, breaks p ≠ 0 →
      ∃ i span, s.span? i = some span ∧ (p = span.start ∨ p = span.stop))
    (here : s.span? j = some span) (low : span.start < p) (high : p < span.stop) :
    breaks p = 0 := by
  refine Decidable.not_not.1 fun broken => ?_
  obtain ⟨k, other, there, same⟩ := placed p broken
  obtain ⟨l, found, rfl⟩ := span?_eq_some there
  have solid := (run.bounds l (List.mem_of_getElem? found)).2.1
  rcases Nat.lt_trichotomy j k with less | rfl | greater
  · have := span_apart run less here there
    omega
  · rw [here] at there
    cases there
    omega
  · have := span_apart run greater there here
    omega

/-- Tokens between which there are no breaks have the text that they had. -/
theorem text_insertBreaks {s' : Source} {i j : Nat} (run : Run 0 s.chars s.lexemes.toList)
    (placed : ∀ p, breaks p ≠ 0 →
      ∃ i span, s.span? i = some span ∧ (p = span.start ∨ p = span.stop))
    (chars : s'.chars = insertBreaks breaks 0 s.chars)
    (lexeme : ∀ i, s'.lexemes[i + s.shiftBy breaks i]? =
      s.lexemes[i]?.map (·.shift (s.shiftBy breaks i)))
    (order : i ≤ j) (inside : j < s.size) (same : s.shiftBy breaks j = s.shiftBy breaks i) :
    s'.text ⟨i + s.shiftBy breaks i, j + 1 + s.shiftBy breaks i⟩ = s.text ⟨i, j + 1⟩ := by
  have moved {k : Nat} {span : Span} (here : s.span? k = some span) :
      s'.span? (k + s.shiftBy breaks k) =
        some ⟨span.start + s.shiftBy breaks k, span.stop + s.shiftBy breaks k⟩ := by
    obtain ⟨l, found, rfl⟩ := span?_eq_some here
    rw [Array.getElem?_toList] at found
    rw [span?, lexeme k, found]
    rfl
  obtain ⟨a, first⟩ := exists_span? (Nat.lt_of_le_of_lt order inside)
  obtain ⟨b, last⟩ := exists_span? inside
  obtain ⟨front, middle, d, tail, behind, parts, start, place, stop⟩ :=
    exists_spellings run order first last
  have count := same
  rw [shiftBy_of_span? last, shiftBy_of_span? first, parts, start, place] at count
  have whole : ∀ p, byteSize front + byteSize middle < p →
      p < byteSize front + byteSize middle + byteSize (d :: tail) → breaks p = 0 :=
    fun p low high => break_outside run placed last (by omega) (by omega)
  have last' : s'.span? (j + 1 + s.shiftBy breaks i - 1) =
      some ⟨b.start + s.shiftBy breaks i, b.stop + s.shiftBy breaks i⟩ := by
    rw [← same, show j + 1 + s.shiftBy breaks j - 1 = j + s.shiftBy breaks j by omega]
    exact moved last
  rw [text_of_span? (by simp only; omega) (moved first) last', text_of_span? (by simp only; omega)
    first last, chars, shiftBy_of_span? first, parts, start, stop,
    slice_insertBreaks count whole]
  have cut := slice_append front (middle ++ d :: tail) behind
  rw [byteSize_append, ← Nat.add_assoc, List.append_assoc, List.append_assoc] at cut
  rw [cut]

/-- Line breaks before and behind the tokens of a text only add line ends between its tokens, and
where they do, there is a break. -/
theorem respaced_ofString {text : String} (read : ofString text = .ok s)
    (placed : ∀ p, breaks p ≠ 0 →
      ∃ i span, s.span? i = some span ∧ (p = span.start ∨ p = span.stop)) :
    ∃ s', ofString (String.ofList (insertBreaks breaks 0 text.toList)) = .ok s' ∧
      Respaced s s' (s.shiftBy breaks) := by
  obtain ⟨chars, run⟩ := ofString_eq_ok.1 read
  rw [← chars] at run ⊢
  have listed : AtTokens breaks 0 s.lexemes.toList := by
    intro p _ broken
    obtain ⟨i, span, here, same⟩ := placed p broken
    obtain ⟨lexeme, found, rfl⟩ := span?_eq_some here
    exact ⟨lexeme, List.mem_of_getElem? found, same⟩
  obtain ⟨lexemes', run', spread⟩ := @exists_run_insertBreaks breaks 0 s.chars [] _ run rfl listed
  simp only [List.nil_append, breaksIn, Nat.add_zero] at run' spread
  refine ⟨⟨insertBreaks breaks 0 s.chars, lexemes'.toArray⟩,
    ofString_eq_ok.2 ⟨by simp, by simpa using run'⟩, ?_⟩
  have lexeme : ∀ i, lexemes'.toArray[i + s.shiftBy breaks i]? =
      s.lexemes[i]?.map (·.shift (s.shiftBy breaks i)) := fun i => by
    rw [← Array.getElem?_toList, ← Array.getElem?_toList]
    exact spread.getElem? rfl
  refine ⟨lexeme, spread.shiftAt_mono, fun k first => ?_, fun i k low high => ?_,
    fun i j order inside same => ?_, fun i span here => ?_, fun i j a b => span_apart run⟩
  · simpa [token?] using spread.newline_first first
  · simpa [token?] using spread.newline_between low high
  · exact text_insertBreaks run placed rfl lexeme order inside same
  · obtain ⟨l, found, rfl⟩ := span?_eq_some here
    exact (run.bounds l (List.mem_of_getElem? found)).2.1

end Dbml
