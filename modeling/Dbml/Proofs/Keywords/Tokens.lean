import Dbml.Proofs.Keywords.Letters
import Dbml.Proofs.Respacing.Locations
import Dbml.Proofs.Source.Masks

/-!
# Sources with words in other letters

When some letters of words change between capital and small ones, the tokens stay where they are,
and only these words are read differently. Main statement: `ofString_recase`.
-/

namespace Dbml

open Text Source

namespace Token

/-- The token with small letters, if it is a word. -/
def lowered : Token → Token
  | .ident text => .ident (String.ofList (text.toList.map Char.toLower))
  | token => token

theorem sameWord_lowered (text keyword : String) :
    sameWord (String.ofList (text.toList.map Char.toLower)) keyword = sameWord text keyword := by
  have twice : (text.toList.map Char.toLower).map Char.toLower = text.toList.map Char.toLower := by
    rw [List.map_map]
    exact List.map_congr_left fun c _ => toLower_toLower c
  rw [sameWord, String.toList_ofList, twice, sameWord]

theorem isKeyword_lowered (keyword : String) (token : Token) :
    token.lowered.isKeyword keyword = token.isKeyword keyword := by
  cases token with
  | ident text => exact sameWord_lowered text keyword
  | _ => rfl

theorem quoted?_lowered (token : Token) : token.lowered.quoted? = token.quoted? := by
  cases token <;> rfl

end Token

namespace BlockKind

/-- A word is of no known kind when none has it for its keyword. -/
theorem isOther_ident (word : String) : (ofToken (.ident word)).isOther =
    (known.find? fun kind => Token.sameWord word kind.word).isNone := by
  have all : known.all (fun kind => !kind.isOther) = true := by decide
  cases found : known.find? fun kind => Token.sameWord word kind.word with
  | none => rw [ofToken, found]; rfl
  | some kind =>
    have here := List.all_eq_true.1 all kind (List.mem_of_find?_eq_some found)
    rw [ofToken, found]
    simpa using here

theorem find?_lowered (word : String) :
    (known.find? fun kind =>
      Token.sameWord (String.ofList (word.toList.map Char.toLower)) kind.word) =
    known.find? fun kind => Token.sameWord word kind.word :=
  congrArg (known.find? ·) (funext fun kind => Token.sameWord_lowered word kind.word)

theorem isOther_lowered (token : Token) :
    (ofToken token.lowered).isOther = (ofToken token).isOther := by
  cases token with
  | ident word => rw [Token.lowered, isOther_ident, isOther_ident, find?_lowered]
  | _ => rfl

/-- The kind of a known block does not depend on the letters of its keyword. -/
theorem ofToken_lowered {token : Token} (known : (ofToken token).isOther = false) :
    ofToken token.lowered = ofToken token := by
  cases token with
  | ident word =>
    rw [isOther_ident, Option.isNone_eq_false_iff, Option.isSome_iff_exists] at known
    obtain ⟨kind, found⟩ := known
    rw [Token.lowered, ofToken, ofToken, find?_lowered, found]
    rfl
  | _ => rfl

theorem ofToken_of_lowered {a b : Token} (same : b.lowered = a.lowered)
    (known : (ofToken a).isOther = false) : ofToken b = ofToken a := by
  have other : (ofToken b).isOther = false := by
    rw [← isOther_lowered, same, isOther_lowered, known]
  rw [← ofToken_lowered other, same, ofToken_lowered known]

end BlockKind

theorem reveals_lowered : Reveals Token.lowered where
  isMark token mark := by cases token <;> rfl
  isNewline token := by cases token <;> rfl
  isKeyword token keyword := Token.isKeyword_lowered keyword token
  isSome_name? token := by cases token <;> rfl
  isOther := BlockKind.isOther_lowered

/-- The same tokens at the same bytes, with words in other letters. -/
structure SameButCase (s t : Source) : Prop where
  alike : LooksAlike Token.lowered s t
  span : ∀ i, t.span? i = s.span? i
  location : ∀ i, t.location i = s.location i

/-- Only the given words have other letters. -/
structure Recased (s t : Source) (changed : Nat → Prop) : Prop extends SameButCase s t where
  token : ∀ i, ¬ changed i → t.token? i = s.token? i
  text : ∀ range : TokenRange, (∀ i, range.start ≤ i → i < range.stop → ¬ changed i) →
    t.text range = s.text range

/-! ## Texts in which letters of words change -/

theorem advance_recase (flips : Nat → Bool) (offset : Nat) (here : Location) (bytes : Nat)
    (cs : List Char) : here.advance bytes (Text.recase flips offset cs) = here.advance bytes cs := by
  induction cs generalizing offset here bytes with
  | nil => rfl
  | cons c cs ih =>
    have size : (if flips offset then swapCase c else c).utf8Size = c.utf8Size := by
      split
      · exact utf8Size_swapCase c
      · rfl
    have alike : Token.Alike c (if flips offset then swapCase c else c) := by
      split
      · exact alike_swapCase c
      · exact .refl c
    simp only [Text.recase, Location.advance, size, alike.eq_iff (by decide : '\n'.isAlpha = false),
      ih]

namespace Source

variable {s : Source} {flips : Nat → Bool} {i : Nat}

/-- The source with the letters that begin at the given bytes in the other case. -/
def recase (s : Source) (flips : Nat → Bool) : Source :=
  ⟨Text.recase flips 0 s.chars, s.lexemes.map (·.recase flips)⟩

/-- A letter at one of the bytes belongs to the token. -/
def Touches (s : Source) (flips : Nat → Bool) (i : Nat) : Prop :=
  ∃ span p, s.span? i = some span ∧ span.covers p = true ∧ flips p = true

/-- The bytes all belong to words. -/
def InWords (s : Source) (flips : Nat → Bool) : Prop :=
  ∀ p, flips p = true →
    ∃ i span word, s.span? i = some span ∧ span.covers p = true ∧ s.token? i = some (.ident word)

theorem span_recase (lexeme : Lexeme) : (lexeme.recase flips).span = lexeme.span := by
  unfold Lexeme.recase
  split <;> rfl

theorem lowered_recase (lexeme : Lexeme) :
    (lexeme.recase flips).token.lowered = lexeme.token.lowered := by
  unfold Lexeme.recase
  split
  next text same => rw [same, Token.lowered, Token.lowered, String.toList_ofList, map_toLower_recase]
  · rfl

theorem span?_recase (i : Nat) : (s.recase flips).span? i = s.span? i := by
  simp only [span?, recase, Array.getElem?_map, Option.map_map, Function.comp_def, span_recase]

theorem ofString_recase {text : String} (read : ofString text = .ok s) (words : s.InWords flips) :
    ofString (String.ofList (Text.recase flips 0 text.toList)) = .ok (s.recase flips) := by
  obtain ⟨chars, run⟩ := ofString_eq_ok.1 read
  refine ofString_eq_ok.2 ⟨by rw [String.toList_ofList, ← chars]; rfl, ?_⟩
  rw [String.toList_ofList, recase, Array.toList_map]
  refine run.recase fun p _ flipped => ?_
  obtain ⟨i, span, word, here, inside, token⟩ := words p flipped
  obtain ⟨lexeme, found, rfl⟩ := span?_eq_some here
  rw [Array.getElem?_toList] at found
  rw [token?, found] at token
  refine ⟨lexeme, ?_, inside, word, Option.some.inj token⟩
  exact List.mem_of_getElem? (by rwa [Array.getElem?_toList])

theorem location_recase (i : Nat) : (s.recase flips).location i = s.location i := by
  rw [location, location, span?_recase, Location.ofOffset, Location.ofOffset]
  show Location.advance _ ((s.span? i).elim (byteSize (Text.recase flips 0 s.chars)) _)
    (Text.recase flips 0 s.chars) = _
  rw [byteSize_recase, advance_recase]

/-- A word covers the bytes of its text. -/
theorem stop_of_word (run : Token.Run 0 s.chars s.lexemes.toList) {lexeme : Lexeme}
    (listed : lexeme ∈ s.lexemes.toList) {text : String} (word : lexeme.token = .ident text) :
    lexeme.span.stop = lexeme.span.start + byteSize text.toList := by
  obtain ⟨before, after, parts⟩ := List.append_of_mem listed
  rw [parts] at run
  obtain ⟨front, gap, c, tail, rest, -, -, -, reads, -, stop⟩ := run.exists_token
  rw [word] at reads
  cases reads
  rw [stop, String.toList_ofList]

theorem token?_recase (run : Token.Run 0 s.chars s.lexemes.toList)
    (untouched : ¬ s.Touches flips i) : (s.recase flips).token? i = s.token? i := by
  rw [token?, token?, recase, Array.getElem?_map]
  cases found : s.lexemes[i]? with
  | none => rfl
  | some lexeme =>
    have listed : lexeme ∈ s.lexemes.toList :=
      List.mem_of_getElem? (by rwa [Array.getElem?_toList])
    have same : (lexeme.recase flips).token = lexeme.token := by
      unfold Lexeme.recase
      split
      next text word =>
        have none : ∀ p, lexeme.span.start ≤ p → p < lexeme.span.start + byteSize text.toList →
            flips p = false := by
          intro p low high
          rw [← stop_of_word run listed word] at high
          refine Bool.eq_false_iff.2 fun flipped => untouched ⟨lexeme.span, p, ?_, ?_, flipped⟩
          · rw [span?, found]
            rfl
          · exact Token.covers_iff.2 ⟨low, high⟩
        rw [recase_eq_self none, String.ofList_toList, word]
      · rfl
    exact congrArg some same

/-- A part in which no letter changes is cut out as before. -/
theorem slice_recase {front part behind : List Char} (none : ∀ p, byteSize front ≤ p →
      p < byteSize front + byteSize part → flips p = false) :
    slice (Text.recase flips 0 (front ++ (part ++ behind))) (byteSize front)
      (byteSize front + byteSize part) = part := by
  have cut := slice_append (Text.recase flips 0 front) part
    (Text.recase flips (byteSize front + byteSize part) behind)
  rw [byteSize_recase] at cut
  rw [recase_append, recase_append, Nat.zero_add, recase_eq_self none, ← List.append_assoc, cut]

theorem text_recase (run : Token.Run 0 s.chars s.lexemes.toList) (words : s.InWords flips)
    {range : TokenRange}
    (untouched : ∀ i, range.start ≤ i → i < range.stop → ¬ s.Touches flips i) :
    (s.recase flips).text range = s.text range := by
  cases empty : range.isEmpty with
  | true => rw [text, text, if_pos empty, if_pos empty]
  | false =>
    have inside : range.start < range.stop := by simpa [TokenRange.isEmpty] using empty
    cases first : s.span? range.start with
    | none => simp [text, span?_recase, first]
    | some a =>
      cases last : s.span? (range.stop - 1) with
      | none => simp [text, span?_recase, last]
      | some b =>
        have none : ∀ p, a.start ≤ p → p < b.stop → flips p = false := by
          intro p low high
          refine Bool.eq_false_iff.2 fun flipped => ?_
          obtain ⟨i, span, word, here, covers, -⟩ := words p flipped
          obtain ⟨start, stop⟩ := Token.covers_iff.1 covers
          rcases Nat.lt_or_ge i range.start with before | later
          · have := span_apart run before here first
            omega
          rcases Nat.lt_or_ge (range.stop - 1) i with behind | among
          · have := span_apart run behind last here
            omega
          · exact untouched i later (by omega) ⟨span, p, here, covers, flipped⟩
        obtain ⟨front, middle, d, tail, behind, parts, place, -, stop⟩ :=
          exists_spellings run (by omega) first last
        have size : b.stop = byteSize front + byteSize (middle ++ d :: tail) := by
          rw [stop, byteSize_append, Nat.add_assoc]
        have whole : s.chars = front ++ ((middle ++ d :: tail) ++ behind) := by
          rw [parts, List.append_assoc]
        have cut := slice_append front (middle ++ d :: tail) behind
        rw [text_of_span? inside (by rwa [span?_recase]) (by rwa [span?_recase]),
          text_of_span? inside first last]
        rw [place, size] at none ⊢
        show String.ofList (slice (Text.recase flips 0 s.chars) _ _) = _
        rw [whole, slice_recase none, ← List.append_assoc, cut]

theorem recased (run : Token.Run 0 s.chars s.lexemes.toList) (words : s.InWords flips) :
    Recased s (s.recase flips) (s.Touches flips) where
  alike i := by
    simp only [token?, recase, Array.getElem?_map, Option.map_map, Function.comp_def, lowered_recase]
  span := span?_recase
  location := location_recase
  token _ untouched := token?_recase run untouched
  text _ untouched := text_recase run words untouched

end Source

end Dbml
