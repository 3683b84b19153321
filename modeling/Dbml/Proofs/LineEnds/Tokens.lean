import Dbml.Proofs.LineEnds.Reading
import Dbml.Proofs.Respacing.Tokens

/-!
# Tokens on lines that end with returns

A source without three quotes has the same tokens when its lines end with a carriage return and a
line feed; each stands where the characters before it end, and the token of a line end behind the
return. Main statement: `ofString_crlf`.
-/

namespace Dbml

open Text
open Token (Run tripleQuote)

/-- Where the byte position of a text is when the lines end with returns. -/
def crlfPlace (cs : List Char) (offset : Nat) : Nat :=
  byteSize (crlf (takeBytes offset cs))

/-- A line end begins behind its return. -/
def Lexeme.crlf (cs : List Char) (lexeme : Lexeme) : Lexeme where
  token := lexeme.token
  span :=
    { start := crlfPlace cs lexeme.span.start + if lexeme.token = .newline then 1 else 0
      stop := crlfPlace cs lexeme.span.stop }

theorem crlfPlace_append (front rest : List Char) :
    crlfPlace (front ++ rest) (byteSize front) = byteSize (crlf front) := by
  rw [crlfPlace, takeBytes_byteSize_append]

namespace Token

variable {front gap tail rest : List Char} {c : Char} {token : Token} {lexemes : List Lexeme}

/-- The return before a line end falls into the gap. -/
theorem run_crlf_newline (between : Gap gap ('\n' :: rest))
    (others : Run (byteSize (crlf (front ++ gap ++ ['\n']))) (crlf rest) lexemes) :
    Run (byteSize (crlf front)) (crlf (gap ++ '\n' :: rest))
      (⟨.newline, byteSize (crlf (front ++ gap)) + 1, byteSize (crlf (front ++ gap ++ ['\n']))⟩ ::
        lexemes) := by
  have start : byteSize (crlf front) + byteSize (crlf gap ++ ['\r']) =
      byteSize (crlf (front ++ gap)) + 1 := by
    rw [byteSize_append, crlf_append, byteSize_append, Nat.add_assoc]
    rfl
  have stop : byteSize (crlf (front ++ gap)) + 1 + byteSize ['\n'] =
      byteSize (crlf (front ++ gap ++ ['\n'])) := by
    rw [crlf_append (front ++ gap), byteSize_append, Nat.add_assoc]
    rfl
  rw [← stop, ← start] at others
  have read := Run.token between.crlf_newline (.inl rfl) (.newline _) others
  rw [start, stop] at read
  simpa using read

/-- A token without line feeds is written as before. -/
theorem run_crlf_inline (inline : '\n' ∉ c :: tail) (between : Gap gap (c :: (tail ++ rest)))
    (ends : EndsGap (c :: (tail ++ rest))) (reads : ReadsAs c tail rest token)
    (others : Run (byteSize (crlf (front ++ gap ++ c :: tail))) (crlf rest) lexemes) :
    Run (byteSize (crlf front)) (crlf (gap ++ c :: (tail ++ rest)))
      (⟨token, byteSize (crlf (front ++ gap)), byteSize (crlf (front ++ gap ++ c :: tail))⟩ ::
        lexemes) := by
  have solid : c ≠ '\n' := fun same => inline (by simp [same])
  have written : crlf (c :: tail) = c :: tail := crlf_eq_self inline
  have follow : crlf (c :: (tail ++ rest)) = c :: (tail ++ crlf rest) := by
    rw [← List.cons_append, crlf_append, written, List.cons_append]
  have start : byteSize (crlf front) + byteSize (crlf gap) = byteSize (crlf (front ++ gap)) := by
    rw [crlf_append, byteSize_append]
  have stop : byteSize (crlf (front ++ gap)) + byteSize (c :: tail) =
      byteSize (crlf (front ++ gap ++ c :: tail)) := by
    rw [crlf_append (front ++ gap), byteSize_append, written]
  have between := between.crlf (by simpa using solid)
  have ends := ends.crlf
  rw [follow] at between
  rw [← crlf_cons solid, follow] at ends
  rw [← stop, ← start] at others
  have read := Run.token between ends reads.crlf others
  rw [start, stop] at read
  rw [crlf_append, follow]
  exact read

/-- A run behind some characters is one when the lines end with returns. -/
theorem Run.crlf {offset : Nat} {cs : List Char} (run : Run offset cs lexemes) (front : List Char)
    (place : offset = byteSize front) (noTriple : ¬ tripleQuote <:+: cs) :
    Run (byteSize (Text.crlf front)) (Text.crlf cs) (lexemes.map (Lexeme.crlf (front ++ cs))) := by
  induction run generalizing front with
  | last last => exact .last (last.crlf nofun)
  | @token offset gap c tail rest token lexemes between ends reads others ih =>
    subst place
    have whole : front ++ (gap ++ c :: (tail ++ rest)) = front ++ gap ++ (c :: tail) ++ rest := by simp
    have start : crlfPlace (front ++ (gap ++ c :: (tail ++ rest))) (byteSize front + byteSize gap) =
        byteSize (Text.crlf (front ++ gap)) := by
      rw [← byteSize_append, ← List.append_assoc, crlfPlace_append]
    have stop : crlfPlace (front ++ (gap ++ c :: (tail ++ rest)))
        (byteSize front + byteSize gap + byteSize (c :: tail)) =
          byteSize (Text.crlf (front ++ gap ++ c :: tail)) := by
      rw [whole, ← byteSize_append, ← byteSize_append, crlfPlace_append]
    have behind := ih (front ++ gap ++ c :: tail) (by simp [Nat.add_assoc])
      fun occurs => noTriple (occurs.trans ⟨gap ++ c :: tail, [], by simp⟩)
    rw [← whole] at behind
    rw [List.map_cons, Lexeme.crlf, start, stop]
    by_cases newline : token = .newline
    · subst newline
      cases reads
      exact run_crlf_newline between behind
    · have inline := reads.inline newline fun occurs =>
        noTriple (occurs.trans ⟨gap, rest, by simp⟩)
      rw [if_neg newline, Nat.add_zero]
      exact run_crlf_inline inline between ends reads behind

end Token

/-- The source when the lines of its text end with returns. -/
def Source.crlf (s : Source) : Source :=
  ⟨Text.crlf s.chars, s.lexemes.map (Lexeme.crlf s.chars)⟩

end Dbml
