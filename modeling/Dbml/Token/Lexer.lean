import Dbml.Token.Cursor
import Dbml.Token.Reading

/-!
# Reading all tokens

The tokens of a text are read one after another, each behind the gap before it. Every token takes
at least one character, so reading ends.
-/

namespace Dbml.Token

open Text
set_option linter.unusedVariables false

/-- What comes next in a text. -/
inductive Step
  | finished
  | token (lexeme : Lexeme) (after : Cursor)
  /-- Three quotes at byte `start` are not closed; `after` is the place behind them. -/
  | unterminated (start : Nat) (after : Cursor)

/-- The next token behind a gap. -/
def Cursor.next (here : Cursor) : Step :=
  let begin := Cursor.skipGap here.offset here.rest
  match begin.rest with
  | [] => .finished
  | c :: cs =>
    match readToken c cs with
    | some r =>
      let stop := begin.offset + byteSize (c :: r.tail)
      .token ⟨r.token, ⟨begin.offset, stop⟩⟩ ⟨stop, r.rest⟩
    | none => .unterminated begin.offset ⟨begin.offset + 3, cs.drop 2⟩

theorem Cursor.next_token_shorter {here after : Cursor} {lexeme : Lexeme}
    (h : here.next = .token lexeme after) : after.rest.length < here.rest.length := by
  have gap := Cursor.skipGap_length_le here.offset here.rest
  unfold Cursor.next at h
  simp only at h
  split at h
  · cases h
  next c cs front =>
    split at h
    next r read =>
      cases h
      have parts := congrArg List.length (readToken_append read)
      rw [front] at gap
      simp only [List.length_append, List.length_cons] at parts gap ⊢
      omega
    · cases h

theorem Cursor.next_unterminated_shorter {here after : Cursor} {start : Nat}
    (h : here.next = .unterminated start after) : after.rest.length < here.rest.length := by
  have gap := Cursor.skipGap_length_le here.offset here.rest
  unfold Cursor.next at h
  simp only at h
  split at h
  · cases h
  next c cs front =>
    split at h
    · cases h
    · cases h
      rw [front] at gap
      simp only [List.length_drop, List.length_cons] at gap ⊢
      omega

/-- All tokens from a place on, behind those already read; or the place of three quotes that are
not closed. -/
def Cursor.tokens (here : Cursor) (done : Array Lexeme) : Except Nat (Array Lexeme) :=
  match read : here.next with
  | .finished => .ok done
  | .unterminated start _ => .error start
  | .token lexeme after => after.tokens (done.push lexeme)
termination_by here.rest.length
decreasing_by exact Cursor.next_token_shorter read

/-- All tokens from a place on and the places of quotes that are not closed; reading goes on behind
those. -/
def Cursor.attempts (here : Cursor) : List (Except Nat Lexeme) :=
  match read : here.next with
  | .finished => []
  | .unterminated start after => .error start :: after.attempts
  | .token lexeme after => .ok lexeme :: after.attempts
termination_by here.rest.length
decreasing_by
  · exact Cursor.next_unterminated_shorter read
  · exact Cursor.next_token_shorter read

/-- The tokens of a text; or the place of three quotes that are not closed. -/
def tokenize (cs : List Char) : Except Nat (Array Lexeme) :=
  (Cursor.start cs).tokens #[]

end Dbml.Token
