import Dbml.Proofs.Respacing.Tokens

/-!
# The tokens of two texts on successive lines

No token and no gap reaches over a line end, except for a comment that is not closed. Main
statement: `Run.join`, the tokens of two texts with a line end between them are those of the first,
the line end, and those of the second.
-/

namespace Dbml

open Text

/-- The token of a line end at a byte. -/
def Lexeme.newlineAt (offset : Nat) : Lexeme :=
  ⟨.newline, offset, offset + 1⟩

namespace Token

variable {offset : Nat} {cs ds gap follow : List Char} {lexemes others : List Lexeme}

/-! ## Gaps before a line end -/

/-- Behind a gap begins a comment that is closed nowhere. -/
def LeavesOpen (cs : List Char) : Prop :=
  ∃ gap body, cs = gap ++ '/' :: '*' :: body ∧ Gap gap ('/' :: '*' :: body) ∧
    ¬ ['*', '/'] <:+: body

/-- A gap at the end of a text is one before a line end as well, if it leaves no comment open. -/
theorem Gap.before_newline (between : Gap gap []) (closed : ¬ LeavesOpen gap) :
    Gap gap ('\n' :: follow) := by
  generalize behind : ([] : List Char) = ended at between
  induction between with
  | nil => exact .nil _
  | @blank c gap _ blank inline _ ih =>
    refine .blank blank inline (ih ?_ behind)
    rintro ⟨front, body, rfl, gap, open_⟩
    exact closed ⟨c :: front, body, rfl, .blank blank inline gap, open_⟩
  | @comment comment gap _ first _ ih =>
    refine .comment first (ih ?_ behind)
    rintro ⟨front, body, rfl, gap, open_⟩
    exact closed ⟨'/' :: '*' :: (comment ++ '*' :: '/' :: front), body, by simp,
      .comment first gap, open_⟩
  | line inline => exact .line inline (.inr rfl)
  | @unclosed body open_ => exact absurd ⟨[], body, rfl, .nil _, open_⟩ closed

/-! ## Runs -/

/-- A run moved by a number of bytes. -/
theorem Run.shift (run : Run offset cs lexemes) (n : Nat) :
    Run (offset + n) cs (lexemes.map (·.shift n)) := by
  induction run with
  | last last => exact .last last
  | @token offset gap c tail rest token lexemes between ends reads _ ih =>
    have start : offset + byteSize gap + n = offset + n + byteSize gap := by omega
    have stop : offset + byteSize gap + byteSize (c :: tail) + n =
        offset + n + byteSize gap + byteSize (c :: tail) := by omega
    rw [stop] at ih
    rw [List.map_cons, Lexeme.shift, start, stop]
    exact .token between ends reads ih

/-- What stands behind the last token of a run. -/
def behindLast (offset : Nat) (lexemes : List Lexeme) (cs : List Char) : List Char :=
  dropBytes (lastStop offset lexemes - offset) cs

theorem Run.behindLast_token {token : Token} {c : Char} {tail rest : List Char}
    (later : Run (offset + byteSize gap + byteSize (c :: tail)) rest lexemes) :
    behindLast offset
        (⟨token, offset + byteSize gap, offset + byteSize gap + byteSize (c :: tail)⟩ :: lexemes)
        (gap ++ c :: (tail ++ rest)) =
      behindLast (offset + byteSize gap + byteSize (c :: tail)) lexemes rest := by
  rw [← List.append_nil lexemes] at later
  obtain ⟨front, last, rfl, stop, -⟩ := later.split
  have whole : gap ++ c :: (tail ++ (front ++ last)) = (gap ++ c :: tail ++ front) ++ last := by
    simp
  have size : lastStop (offset + byteSize gap + byteSize (c :: tail)) lexemes - offset =
      byteSize (gap ++ c :: tail ++ front) := by
    rw [stop]
    simp only [byteSize_append]
    omega
  rw [behindLast, behindLast, lastStop_cons, size, whole, dropBytes_byteSize_append, stop,
    Nat.add_sub_cancel_left, dropBytes_byteSize_append]

/-- A text and another one behind a line end are read one after the other, if the first one leaves
no comment open. -/
theorem Run.join (first : Run offset cs lexemes)
    (closed : ¬ LeavesOpen (behindLast offset lexemes cs))
    (second : Run (offset + byteSize cs + 1) ds others) :
    Run offset (cs ++ '\n' :: ds) (lexemes ++ .newlineAt (offset + byteSize cs) :: others) := by
  induction first with
  | @last offset gap between =>
    rw [behindLast, lastStop_nil, Nat.sub_self, dropBytes_zero] at closed
    exact .token (between.before_newline closed) (.inl rfl) (.newline ds) second
  | @token offset gap c tail rest token lexemes between ends reads later ih =>
    have curtailed : Curtailed rest (rest ++ '\n' :: ds) := by
      simpa using (Curtailed.newline [] ds).append rest
    have size : offset + byteSize (gap ++ c :: (tail ++ rest)) =
        offset + byteSize gap + byteSize (c :: tail) + byteSize rest := by
      simp only [byteSize_append, byteSize_cons]
      omega
    have short : Gap gap (c :: (tail ++ (rest ++ '\n' :: ds))) :=
      between.replace (by simp) fun head => .inr head
    rw [later.behindLast_token] at closed
    rw [size] at second ⊢
    rw [List.append_assoc, List.cons_append, List.append_assoc]
    exact .token short (ends.curtailed (curtailed.append tail)) (reads.curtailed curtailed)
      (ih closed second)

end Token

end Dbml
