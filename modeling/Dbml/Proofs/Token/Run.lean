import Dbml.Proofs.Token.Reading
import Dbml.Token.Lexer

/-!
# Runs of the reader

A run tells how a text falls into tokens and the gaps between them, token by token. Main statements:
`tokens_spec`, the tokens of a text are those of a run, or three quotes are not closed behind one,
and `Run.split`, a run goes on behind any of its tokens.
-/

namespace Dbml.Token

open Text

/-- From byte `offset` on, the characters are these tokens with gaps between them. -/
inductive Run : Nat → List Char → List Lexeme → Prop
  | last {offset : Nat} {gap : List Char} (last : Gap gap []) : Run offset gap []
  | token {offset : Nat} {gap : List Char} {c : Char} {tail rest : List Char} {token : Token}
    {lexemes : List Lexeme} (between : Gap gap (c :: (tail ++ rest)))
    (ends : EndsGap (c :: (tail ++ rest))) (reads : ReadsAs c tail rest token)
    (others : Run (offset + byteSize gap + byteSize (c :: tail)) rest lexemes) :
    Run offset (gap ++ c :: (tail ++ rest))
      (⟨token, offset + byteSize gap, offset + byteSize gap + byteSize (c :: tail)⟩ :: lexemes)

/-! ## One step -/

/-- Reading fails only at three quotes that are not closed. -/
theorem readToken_eq_none {c : Char} {cs : List Char} (failed : readToken c cs = none) :
    ∃ after, c :: cs = tripleQuote ++ after ∧ ¬ tripleQuote <:+: after := by
  unfold readToken at failed
  by_cases newline : c = '\n'
  · rw [if_pos newline] at failed
    cases failed
  rw [if_neg newline] at failed
  by_cases triple : c = '\'' ∧ cs.take 2 = ['\'', '\'']
  · rw [if_pos triple, Option.map_eq_none_iff] at failed
    refine ⟨cs.drop 2, ?_, ?_⟩
    · rw [triple.1]
      have whole := List.take_append_drop 2 cs
      rw [triple.2] at whole
      rw [← whole]
      rfl
    · rcases splitTriple_spec [] (cs.drop 2) with ⟨-, absent⟩ | ⟨body, rest, parts, first⟩
      · exact absent
      · rw [parts, splitTriple_append_quotes first] at failed
        cases failed
  rw [if_neg triple] at failed
  dsimp only at failed
  repeat' split at failed
  all_goals cases failed

/-- What comes next: a gap and the end, a gap and a token, or a gap and three quotes that are not
closed. -/
theorem next_cases (offset : Nat) (cs : List Char) :
    (Gap cs [] ∧ Cursor.next ⟨offset, cs⟩ = .finished) ∨
    (∃ gap c tail rest token, cs = gap ++ c :: (tail ++ rest) ∧ Gap gap (c :: (tail ++ rest)) ∧
      EndsGap (c :: (tail ++ rest)) ∧ ReadsAs c tail rest token ∧
      Cursor.next ⟨offset, cs⟩ =
        let start := offset + byteSize gap
        let stop := start + byteSize (c :: tail)
        .token ⟨token, start, stop⟩ ⟨stop, rest⟩) ∨
    (∃ gap after follow, cs = gap ++ (tripleQuote ++ after) ∧ Gap gap (tripleQuote ++ after) ∧
      ¬ tripleQuote <:+: after ∧
      Cursor.next ⟨offset, cs⟩ = .unterminated (offset + byteSize gap) follow) := by
  obtain ⟨gap, follow, rfl, between, ends, skipped⟩ := Cursor.exists_gap offset cs
  cases follow with
  | nil =>
    refine .inl ⟨by simpa using between, ?_⟩
    simp only [Cursor.next, skipped]
  | cons c follow =>
    right
    cases read : readToken c follow with
    | some r =>
      have parts := readToken_append read
      have reads := readsAs_of_readToken read
      obtain ⟨token, tail, rest⟩ := r
      dsimp only at parts reads
      subst parts
      refine .inl ⟨gap, c, tail, rest, token, rfl, between, ends, reads, ?_⟩
      simp only [Cursor.next, skipped, read]
    | none =>
      obtain ⟨after, same, absent⟩ := readToken_eq_none read
      rw [same] at between
      refine .inr ⟨gap, after, ⟨offset + byteSize gap + 3, follow.drop 2⟩, by rw [same], between,
        absent, ?_⟩
      simp only [Cursor.next, skipped, read]

theorem next_token {gap : List Char} {c : Char} {tail rest : List Char} {token : Token}
    (between : Gap gap (c :: (tail ++ rest))) (ends : EndsGap (c :: (tail ++ rest)))
    (reads : ReadsAs c tail rest token) (offset : Nat) :
    let start := offset + byteSize gap
    let stop := start + byteSize (c :: tail)
    Cursor.next ⟨offset, gap ++ c :: (tail ++ rest)⟩ = .token ⟨token, start, stop⟩ ⟨stop, rest⟩ := by
  have skipped := Cursor.skipGap_append between ends offset
  simp only [Cursor.next, skipped, reads.readToken_eq]

theorem next_last {gap : List Char} (last : Gap gap []) (offset : Nat) :
    Cursor.next ⟨offset, gap⟩ = .finished := by
  have skipped := Cursor.skipGap_append last trivial offset
  rw [List.append_nil] at skipped
  simp only [Cursor.next, skipped]

/-! ## All steps -/

theorem tokens_of_finished {here : Cursor} (finished : here.next = .finished)
    (done : Array Lexeme) : here.tokens done = .ok done := by
  rw [Cursor.tokens]
  split
  · rfl
  next read => rw [finished] at read; cases read
  next read => rw [finished] at read; cases read

theorem tokens_of_token {here after : Cursor} {lexeme : Lexeme}
    (next : here.next = .token lexeme after) (done : Array Lexeme) :
    here.tokens done = after.tokens (done.push lexeme) := by
  rw [Cursor.tokens]
  split
  next read => rw [next] at read; cases read
  next read => rw [next] at read; cases read
  next read => rw [next] at read; cases read; rfl

theorem tokens_of_unterminated {here after : Cursor} {start : Nat}
    (next : here.next = .unterminated start after) (done : Array Lexeme) :
    here.tokens done = .error start := by
  rw [Cursor.tokens]
  split
  next read => rw [next] at read; cases read
  next read => rw [next] at read; cases read; rfl
  next read => rw [next] at read; cases read

/-- The reader finds the tokens of a run. -/
theorem Run.tokens_eq {offset : Nat} {cs : List Char} {lexemes : List Lexeme}
    (run : Run offset cs lexemes) (done : Array Lexeme) :
    Cursor.tokens ⟨offset, cs⟩ done = .ok (done ++ lexemes.toArray) := by
  induction run generalizing done with
  | last last => rw [tokens_of_finished (next_last last _)]; simp
  | token between ends reads _ ih =>
    rw [tokens_of_token (next_token between ends reads _), ih]
    simp

/-- Where a gap ends for good, it ends as well when a token's successors break off. -/
theorem EndsGap.curtailed {c : Char} {cs ds : List Char} (ends : EndsGap (c :: cs))
    (curtailed : Curtailed cs ds) : EndsGap (c :: ds) :=
  ends.noFurther curtailed.noFurther

/-- Every text is that of a run, or three quotes that are not closed come behind one. -/
theorem tokens_spec (offset : Nat) (cs : List Char) (done : Array Lexeme) :
    (∃ lexemes, Run offset cs lexemes ∧
      Cursor.tokens ⟨offset, cs⟩ done = .ok (done ++ lexemes.toArray)) ∨
    (∃ before after lexemes, cs = before ++ (tripleQuote ++ after) ∧ ¬ tripleQuote <:+: after ∧
      Run offset before lexemes ∧
      Cursor.tokens ⟨offset, cs⟩ done = .error (offset + byteSize before)) := by
  induction size : cs.length using Nat.strongRecOn generalizing offset cs done with
  | ind n ih =>
  rcases next_cases offset cs with ⟨last, finished⟩ |
    ⟨gap, c, tail, rest, token, rfl, between, ends, reads, next⟩ |
    ⟨gap, after, follow, rfl, between, absent, next⟩
  · exact .inl ⟨[], .last last, by rw [tokens_of_finished finished]; simp⟩
  · have shorter : rest.length < n := by
      rw [← size]
      simp only [List.length_append, List.length_cons]
      omega
    rw [tokens_of_token next]
    rcases ih rest.length shorter _ rest _ rfl with ⟨lexemes, others, found⟩ |
      ⟨before, after, lexemes, rfl, absent, others, found⟩
    · exact .inl ⟨_, .token between ends reads others, by rw [found]; simp⟩
    · -- The token is read as well when the text is cut at the quotes.
      have cut : Curtailed (before ++ (tripleQuote ++ after)) before := .cut before _
      have short : Gap gap (c :: (tail ++ before)) := between.replace (by simp) fun head => .inr head
      refine .inr ⟨gap ++ c :: (tail ++ before), after, _, by simp, absent,
        .token short (ends.curtailed (cut.append tail)) (reads.curtailed cut) others, ?_⟩
      rw [found]
      simp [Nat.add_assoc]
  · exact .inr ⟨gap, after, [], rfl, absent, .last (between.replace (by simp [tripleQuote]) fun _ => .inl rfl),
      tokens_of_unterminated next done⟩

/-- The tokens of a text are those of its run. -/
theorem tokenize_eq_ok {cs : List Char} {lexemes : Array Lexeme} :
    tokenize cs = .ok lexemes ↔ Run 0 cs lexemes.toList := by
  constructor
  · intro read
    rcases tokens_spec 0 cs #[] with ⟨found, run, same⟩ | ⟨_, _, _, -, -, -, failed⟩
    · rw [tokenize, Cursor.start, same] at read
      cases read
      simpa using run
    · rw [tokenize, Cursor.start, failed] at read
      cases read
  · intro run
    rw [tokenize, Cursor.start, run.tokens_eq]
    simp

/-- A text without tokens has three quotes that are not closed, behind a run. -/
theorem exists_of_tokenize_eq_error {cs : List Char} {offset : Nat}
    (failed : tokenize cs = .error offset) :
    ∃ before after lexemes, cs = before ++ (tripleQuote ++ after) ∧ ¬ tripleQuote <:+: after ∧
      offset = byteSize before ∧ Run 0 before lexemes := by
  rcases tokens_spec 0 cs #[] with ⟨found, -, same⟩ | ⟨before, after, lexemes, parts, absent, run, same⟩
  · rw [tokenize, Cursor.start, same] at failed
    cases failed
  · rw [tokenize, Cursor.start, same] at failed
    cases failed
    exact ⟨before, after, lexemes, parts, absent, Nat.zero_add _, run⟩

/-! ## Parts of a run -/

/-- Where the last of the tokens ends, or the given place when there are none. -/
def lastStop (offset : Nat) (lexemes : List Lexeme) : Nat :=
  lexemes.getLast?.elim offset (·.span.stop)

@[simp] theorem lastStop_nil (offset : Nat) : lastStop offset [] = offset := rfl

@[simp] theorem lastStop_cons (offset : Nat) (lexeme : Lexeme) (lexemes : List Lexeme) :
    lastStop offset (lexeme :: lexemes) = lastStop lexeme.span.stop lexemes := by
  rw [lastStop, lastStop, List.getLast?_cons]
  cases lexemes.getLast? <;> rfl

/-- Behind some of its tokens a run goes on where the last of them ends. -/
theorem Run.split {offset : Nat} {cs : List Char} {before after : List Lexeme}
    (run : Run offset cs (before ++ after)) :
    ∃ front rest, cs = front ++ rest ∧ lastStop offset before = offset + byteSize front ∧
      Run (offset + byteSize front) rest after := by
  induction before generalizing offset cs with
  | nil => exact ⟨[], cs, rfl, rfl, run⟩
  | cons lexeme before ih =>
    cases run with
    | @token _ gap c tail rest token _ between ends reads others =>
      obtain ⟨front, rest, rfl, stop, run⟩ := ih others
      have size : offset + byteSize (gap ++ c :: (tail ++ front)) =
          offset + byteSize gap + byteSize (c :: tail) + byteSize front := by
        simp only [byteSize_append, byteSize_cons]
        omega
      refine ⟨gap ++ c :: (tail ++ front), rest, by simp, ?_, ?_⟩
      · rw [size, lastStop_cons, stop]
      · rw [size]
        exact run

/-- A token of a run, with the gap before it and all that comes before and behind. -/
theorem Run.exists_token {offset : Nat} {cs : List Char} {before after : List Lexeme}
    {lexeme : Lexeme} (run : Run offset cs (before ++ lexeme :: after)) :
    ∃ front gap c tail rest, cs = front ++ (gap ++ (c :: tail ++ rest)) ∧
      lastStop offset before = offset + byteSize front ∧ Gap gap (c :: (tail ++ rest)) ∧
      ReadsAs c tail rest lexeme.token ∧
      lexeme.span.start = offset + byteSize front + byteSize gap ∧
      lexeme.span.stop = lexeme.span.start + byteSize (c :: tail) := by
  obtain ⟨front, rest, rfl, stop, behind⟩ := run.split
  cases behind with
  | token between ends reads others => exact ⟨front, _, _, _, _, rfl, stop, between, reads, rfl, rfl⟩

end Dbml.Token
