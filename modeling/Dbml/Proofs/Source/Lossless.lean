import Dbml.Proofs.Token.Run
import Dbml.Source

/-!
# Tokens and gaps make up the text

The tokens of a text stand in it in order, each with the characters it is written with, and between
them stands nothing but gaps. Main statement: `lossless_ofString`.
-/

namespace Dbml

open Text
open Token (Gap Run ReadsAs lastStop tripleQuote)

/-- The byte position is the beginning of a character, or the end of the text. -/
def IsBoundary (cs : List Char) (offset : Nat) : Prop :=
  ∃ before after, cs = before ++ after ∧ byteSize before = offset

/-- The token may be written with these characters. -/
inductive Spells : Token → List Char → Prop
  | ident (text : String) : Spells (.ident text) text.toList
  | num (text : String) : Spells (.num text) text.toList
  | color (text : String) : Spells (.color text) text.toList
  | mark (mark : Mark) : Spells (.mark mark) mark.spelling.toList
  | newline : Spells .newline ['\n']
  | stray (c : Char) : Spells (.stray c) [c]
  | expr (text : String) (inline : '\n' ∉ text.toList) :
    Spells (.expr text) ('\x60' :: text.toList ++ ['\x60'])
  | str {quote : Char} {raw : List Char} (quotes : quote = '\'' ∨ quote = '"')
    (inline : '\n' ∉ raw) :
    Spells (.str (String.ofList (Token.unescape raw))) (quote :: raw ++ [quote])
  | multiStr (body : List Char) :
    Spells (.multiStr (String.ofList (trim body))) (tripleQuote ++ body ++ tripleQuote)

/-- Where the first of the tokens begins, or the end of the text when there are none. -/
def firstStart (cs : List Char) (lexemes : List Lexeme) : Nat :=
  lexemes.head?.elim (byteSize cs) (·.span.start)

/-- The tokens stand in the text in order, and before, between and behind them are gaps. -/
structure Lossless (cs : List Char) (lexemes : List Lexeme) : Prop where
  nonempty : ∀ lexeme ∈ lexemes, lexeme.span.start < lexeme.span.stop
  boundaries : ∀ lexeme ∈ lexemes,
    IsBoundary cs lexeme.span.start ∧ IsBoundary cs lexeme.span.stop
  ordered : lexemes.Pairwise fun a b => a.span.stop ≤ b.span.start
  inside : ∀ lexeme ∈ lexemes, lexeme.span.stop ≤ byteSize cs
  spelled : ∀ lexeme ∈ lexemes,
    Spells lexeme.token (slice cs lexeme.span.start lexeme.span.stop)
  gaps : ∀ before after, lexemes = before ++ after →
    Gap (slice cs (lastStop 0 before) (firstStart cs after)) (dropBytes (firstStart cs after) cs)

namespace Token

/-- What a token is read from is what it may be written with. -/
theorem ReadsAs.spells {c : Char} {tail rest : List Char} {token : Token}
    (reads : ReadsAs c tail rest token) : Spells token (c :: tail) := by
  cases reads with
  | newline => exact .newline
  | multiStr _ first => simpa [tripleQuote] using Spells.multiStr _
  | str quotes closed inline single => exact .str quotes inline
  | expr _ closed inline => simpa using Spells.expr (String.ofList _) (by simpa using inline)
  | openQuote => exact .stray c
  | color =>
    have spelled := Spells.color (String.ofList ('#' :: tail))
    rwa [String.toList_ofList] at spelled
  | lessGreater => exact .mark .lessGreater
  | @mark _ mark _ spelled apart =>
    rw [← Mark.spelling_of_ofChar? spelled]
    exact .mark mark
  | num =>
    have spelled := Spells.num (String.ofList (c :: tail))
    rwa [String.toList_ofList] at spelled
  | ident =>
    have spelled := Spells.ident (String.ofList (c :: tail))
    rwa [String.toList_ofList] at spelled
  | stray => exact .stray c

namespace Run

variable {offset : Nat} {cs : List Char} {lexemes : List Lexeme}

theorem bounds (run : Run offset cs lexemes) : ∀ lexeme ∈ lexemes,
    offset ≤ lexeme.span.start ∧ lexeme.span.start < lexeme.span.stop ∧
      lexeme.span.stop ≤ offset + byteSize cs := by
  induction run with
  | last => simp
  | @token offset gap c tail rest token lexemes _ _ _ _ ih =>
    have solid : 0 < byteSize (c :: tail) := Nat.lt_of_lt_of_le c.utf8Size_pos (Nat.le_add_right _ _)
    have size : byteSize (gap ++ c :: (tail ++ rest)) =
        byteSize gap + byteSize (c :: tail) + byteSize rest := by
      simp only [byteSize_append, byteSize_cons]
      omega
    intro lexeme listed
    rw [size]
    rcases List.mem_cons.1 listed with rfl | later
    · dsimp only
      omega
    · have := ih lexeme later
      omega

theorem ordered (run : Run offset cs lexemes) :
    lexemes.Pairwise fun a b => a.span.stop ≤ b.span.start := by
  induction run with
  | last => exact .nil
  | token _ _ _ others ih =>
    exact List.pairwise_cons.2 ⟨fun lexeme listed => (others.bounds lexeme listed).1, ih⟩

/-- The tokens of a run make up the text with the gaps between them. -/
theorem lossless (run : Run 0 cs lexemes) : Lossless cs lexemes := by
  -- Where a token stands, and what it is written with.
  have placed : ∀ lexeme ∈ lexemes, ∃ front spelling rest, cs = front ++ spelling ++ rest ∧
      lexeme.span.start = byteSize front ∧
      lexeme.span.stop = byteSize front + byteSize spelling ∧ Spells lexeme.token spelling := by
    intro lexeme listed
    obtain ⟨before, after, rfl⟩ := List.append_of_mem listed
    obtain ⟨front, gap, c, tail, rest, rfl, -, -, reads, start, stop⟩ := run.exists_token
    refine ⟨front ++ gap, c :: tail, rest, by simp, ?_, ?_, reads.spells⟩
    · rw [start, byteSize_append, Nat.zero_add]
    · rw [stop, start, byteSize_append, Nat.zero_add]
  refine ⟨fun lexeme listed => (run.bounds lexeme listed).2.1, fun lexeme listed => ?_, run.ordered,
    fun lexeme listed => by simpa using (run.bounds lexeme listed).2.2, fun lexeme listed => ?_,
    fun before after parts => ?_⟩
  · obtain ⟨front, spelling, rest, rfl, start, stop, -⟩ := placed lexeme listed
    rw [start, stop]
    exact ⟨⟨front, spelling ++ rest, by simp, rfl⟩, front ++ spelling, rest, rfl, by simp⟩
  · obtain ⟨front, spelling, rest, rfl, start, stop, spells⟩ := placed lexeme listed
    rw [start, stop, slice_append]
    exact spells
  · subst parts
    cases after with
    | nil =>
      obtain ⟨front, rest, rfl, stop, behind⟩ := run.split
      cases behind with
      | last last =>
        have cut := slice_append front rest []
        rw [List.append_nil] at cut
        have ended := dropBytes_byteSize_append (front ++ rest) []
        rw [List.append_nil] at ended
        rw [stop, firstStart, Nat.zero_add]
        simp only [List.head?_nil, Option.elim_none, ended]
        rw [byteSize_append, cut]
        exact last
    | cons lexeme after =>
      obtain ⟨front, gap, c, tail, rest, rfl, last, between, -, start, -⟩ := run.exists_token
      have cut := slice_append front gap (c :: tail ++ rest)
      have behind := dropBytes_byteSize_append (front ++ gap) (c :: tail ++ rest)
      rw [List.append_assoc] at cut behind
      rw [Nat.zero_add] at last start
      rw [firstStart, last]
      simp only [List.head?_cons, Option.elim_some, start]
      rw [cut, ← byteSize_append, behind]
      exact between

end Run

end Token

namespace Source

/-- A text is the tokens that are read from it, in order, with nothing but gaps between them. A text
that is not read has three quotes behind which no three follow: they are reported, and all that
stands before them is read. -/
theorem lossless_ofString (text : String) :
    match ofString text with
    | .ok s => s.chars = text.toList ∧ Lossless text.toList s.lexemes.toList
    | .error error => ∃ before after, text.toList = before ++ (tripleQuote ++ after) ∧
      ¬ tripleQuote <:+: after ∧
      error = .unterminatedString (Location.ofOffset text.toList (byteSize before)) ∧
      ∃ s, ofString (String.ofList before) = .ok s := by
  unfold ofString
  cases read : Token.tokenize text.toList with
  | ok lexemes => exact ⟨rfl, (Token.tokenize_eq_ok.1 read).lossless⟩
  | error offset =>
    obtain ⟨before, after, lexemes, parts, absent, rfl, run⟩ := Token.exists_of_tokenize_eq_error read
    have front : Token.tokenize (String.ofList before).toList = .ok lexemes.toArray := by
      rw [String.toList_ofList]
      exact Token.tokenize_eq_ok.2 run
    exact ⟨before, after, parts, absent, rfl, by rw [front]; exact ⟨_, rfl⟩⟩

end Source

end Dbml
