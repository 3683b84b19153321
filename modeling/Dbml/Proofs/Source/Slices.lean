import Dbml.Proofs.Joining.Tokens
import Dbml.Proofs.Source.Contents

/-!
# Reading a part of a text

No token looks back, and what a token looks ahead to decides the same when the text ends behind
it. A part of a text from the beginning of one token to the end of another is read as these tokens
and those between them. Main statement: `ofString_text`.
-/

namespace Dbml

open Text

namespace Token

variable {offset : Nat} {cs : List Char} {lexeme : Lexeme} {lexemes before after : List Lexeme}

/-- Up to where some of its tokens end, a run is one with these tokens. -/
theorem Run.front (run : Run offset cs (before ++ after)) :
    ∃ front rest, cs = front ++ rest ∧ lastStop offset before = offset + byteSize front ∧
      Run offset front before := by
  induction before generalizing offset cs with
  | nil => exact ⟨[], cs, rfl, rfl, .last (.nil [])⟩
  | cons lexeme before ih =>
    cases run with
    | @token _ gap c tail rest token _ between ends reads others =>
      obtain ⟨front, rest, rfl, stop, run⟩ := ih others
      have cut : Curtailed (front ++ rest) front := .cut front rest
      have short : Gap gap (c :: (tail ++ front)) := between.replace (by simp) fun head => .inr head
      refine ⟨gap ++ c :: (tail ++ front), rest, by simp, ?_,
        .token short (ends.curtailed (cut.append tail)) (reads.curtailed cut) run⟩
      rw [lastStop_cons, stop]
      simp only [byteSize_append, byteSize_cons]
      omega

/-- From where its first token begins, a run is one with the same tokens. -/
theorem Run.from_first (run : Run offset cs (lexeme :: lexemes)) :
    ∃ gap rest, cs = gap ++ rest ∧ lexeme.span.start = offset + byteSize gap ∧
      Run lexeme.span.start rest (lexeme :: lexemes) := by
  cases run with
  | @token _ gap c tail rest token _ between ends reads others =>
    exact ⟨gap, c :: (tail ++ rest), rfl, rfl, .token (.nil _) ends reads others⟩

/-- A run that does not begin at the front is one that does, moved. -/
theorem Run.unshift {n : Nat} (run : Run (offset + n) cs lexemes) :
    ∃ others, lexemes = others.map (·.shift n) ∧ Run offset cs others := by
  induction lexemes generalizing offset cs with
  | nil =>
    cases run with
    | last last => exact ⟨[], rfl, .last last⟩
  | cons lexeme lexemes ih =>
    cases run with
    | @token _ gap c tail rest token _ between ends reads others =>
      have start : offset + n + byteSize gap = offset + byteSize gap + n := by omega
      have stop : offset + n + byteSize gap + byteSize (c :: tail) =
          offset + byteSize gap + byteSize (c :: tail) + n := by omega
      rw [stop] at others
      obtain ⟨later, rfl, run⟩ := ih others
      refine ⟨⟨token, offset + byteSize gap, offset + byteSize gap + byteSize (c :: tail)⟩ :: later,
        ?_, .token between ends reads run⟩
      rw [stop, start]
      rfl

end Token

namespace Source

variable {s : Source} {a b : Nat}

theorem lexemes_parts (order : a ≤ b) : s.lexemes.toList =
    s.lexemes.toList.take a ++ ((s.lexemes.extract a b).toList ++ s.lexemes.toList.drop b) := by
  have behind := List.take_append_drop (b - a) (s.lexemes.toList.drop a)
  rw [List.drop_drop, Nat.add_sub_cancel' order] at behind
  rw [Array.toList_extract, List.extract_eq_take_drop, behind, List.take_append_drop]

/-- A range of tokens that is not empty begins with the first of them. -/
theorem exists_first (some_token : a < b) (inside : b ≤ s.size) :
    ∃ first others, (s.lexemes.extract a b).toList = first :: others ∧
      s.span? a = some first.span := by
  have bound : a < s.lexemes.size := Nat.lt_of_lt_of_le some_token inside
  have listed : a < s.lexemes.toList.length := bound
  refine ⟨s.lexemes[a], (s.lexemes.toList.drop (a + 1)).take (b - a - 1), ?_, ?_⟩
  · rw [Array.toList_extract, List.extract_eq_take_drop, List.drop_eq_getElem_cons listed,
      show b - a = b - a - 1 + 1 by omega, List.take_succ_cons, Nat.add_sub_cancel]
    rfl
  · rw [span?, Array.getElem?_eq_getElem bound, Option.map_some]

/-- The last of the tokens of a range ends where the token before the range's end does. -/
theorem lastStop_extract {last : Span} (some_token : a < b) (there : s.span? (b - 1) = some last)
    (offset : Nat) : Token.lastStop offset (s.lexemes.extract a b).toList = last.stop := by
  obtain ⟨lexeme, found, rfl⟩ := span?_eq_some there
  have listed : (s.lexemes.extract a b).toList.getLast? = some lexeme := by
    obtain ⟨bound, -⟩ := List.getElem?_eq_some_iff.1 found
    rw [Array.toList_extract, List.extract_eq_take_drop, List.getLast?_eq_getElem?,
      List.length_take, List.length_drop, List.getElem?_take_of_lt (by omega), List.getElem?_drop,
      ← found]
    congr 1
    omega
  rw [Token.lastStop, listed]
  rfl

/-- A text from the beginning of a token to the end of one that does not come before it is read,
with these tokens and those between them, which begin at the front. -/
theorem ofString_text {text : String} (read : ofString text = .ok s) (some_token : a < b)
    (inside : b ≤ s.size) :
    ∃ first t, s.span? a = some first ∧ ofString (s.text ⟨a, b⟩) = .ok t ∧
      (s.lexemes.extract a b).toList = t.lexemes.toList.map (·.shift first.start) := by
  obtain ⟨chars, run⟩ := ofString_eq_ok.1 read
  obtain ⟨last, there⟩ : ∃ last, s.span? (b - 1) = some last := exists_span? (by omega)
  obtain ⟨first, others, between, here⟩ := exists_first some_token inside
  have stop := lastStop_extract some_token there first.span.start
  rw [lexemes_parts (Nat.le_of_lt some_token)] at run
  obtain ⟨front, rest, whole, -, behind⟩ := run.split
  rw [between] at stop behind ⊢
  obtain ⟨gap, rest, rfl, start, behind⟩ := behind.from_first
  obtain ⟨part, rest, rfl, size, alone⟩ := @Token.Run.front _ _ (first :: others) _ behind
  have cut : s.text ⟨a, b⟩ = String.ofList part := by
    have sliced := slice_append (front ++ gap) part rest
    rw [text_of_span? some_token here there, ← stop, size, start, chars, whole]
    rw [byteSize_append, List.append_assoc, List.append_assoc] at sliced
    rw [Nat.zero_add, sliced]
  rw [← Nat.zero_add first.span.start] at alone
  obtain ⟨lexemes, moved, alone⟩ := alone.unshift
  refine ⟨first.span, ⟨part, lexemes.toArray⟩, here, ?_, moved⟩
  rw [cut]
  exact ofString_eq_ok.2 ⟨by simp, by simpa using alone⟩

/-- A quote that is not closed on its line, and a comment between two numbers. -/
def openQuoteText : String :=
  "'é' [ 'b 1.5/* c */2 <\n> // end\n\"d"

theorem ofString_text_open_quote : ∃ s t, ofString openQuoteText = .ok s ∧
    s.text ⟨2, 7⟩ = "'b 1.5/* c */2 <" ∧ ofString (s.text ⟨2, 7⟩) = .ok t ∧
    (s.lexemes.extract 2 7).toList = t.lexemes.toList.map (·.shift 7) := by
  have evaluated : (ofString openQuoteText).toOption.map
      (fun s => (s.size, s.span? 2, s.text ⟨2, 7⟩)) =
      some (12, some ⟨7, 8⟩, "'b 1.5/* c */2 <") := by decide +kernel
  obtain ⟨s, read, same⟩ := Option.map_eq_some_iff.1 evaluated
  simp only [Prod.mk.injEq] at same
  obtain ⟨size, start, text⟩ := same
  obtain ⟨first, t, here, part, moved⟩ :=
    ofString_text (b := 7) (eq_ok_of_toOption read) (by decide : 2 < 7) (by omega)
  rw [start] at here
  cases here
  exact ⟨s, t, eq_ok_of_toOption read, text, part, moved⟩

end Source

end Dbml
