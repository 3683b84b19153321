import Dbml.Text.Blank

/-!
# Gaps between tokens

A place in a text while its tokens are read, and the gaps it is moved over: white space, line
comments and block comments, but no line end, which is a token itself. Main statement: a gap is
never longer than what is left of the text.
-/

namespace Dbml.Token

open Text

/-! ## Places while reading -/

/-- The characters still to be read, and the byte position of the first of them. -/
structure Cursor where
  offset : Nat
  rest : List Char

namespace Cursor

def start (cs : List Char) : Cursor :=
  ⟨0, cs⟩

/-! ## Gaps -/

def skipLine (offset : Nat) : List Char → Cursor
  | [] => ⟨offset, []⟩
  | c :: cs => if c = '\n' then ⟨offset, c :: cs⟩ else skipLine (offset + c.utf8Size) cs

/-- What follows the end of a block comment, or the end of the text. -/
def skipComment (offset : Nat) : List Char → Cursor
  | [] => ⟨offset, []⟩
  | '*' :: '/' :: cs => ⟨offset + 2, cs⟩
  | c :: cs => skipComment (offset + c.utf8Size) cs

theorem skipLine_length_le (offset : Nat) (cs : List Char) :
    (skipLine offset cs).rest.length ≤ cs.length := by
  induction cs generalizing offset with
  | nil => simp [skipLine]
  | cons c cs ih =>
    unfold skipLine
    split
    · simp
    · exact Nat.le_succ_of_le (ih _)

theorem skipComment_length_le (offset : Nat) (cs : List Char) :
    (skipComment offset cs).rest.length ≤ cs.length := by
  fun_induction skipComment offset cs with
  | case1 => simp
  | case2 => simp; omega
  | case3 offset c cs _ ih => exact Nat.le_succ_of_le ih

/-- Where the next token begins: behind white space, line comments and block comments. -/
def skipGap (offset : Nat) : List Char → Cursor
  | [] => ⟨offset, []⟩
  | '/' :: '/' :: cs =>
    let after := skipLine (offset + 2) cs
    skipGap after.offset after.rest
  | '/' :: '*' :: cs =>
    let after := skipComment (offset + 2) cs
    skipGap after.offset after.rest
  | c :: cs =>
    if c ≠ '\n' ∧ isBlank c then skipGap (offset + c.utf8Size) cs else ⟨offset, c :: cs⟩
termination_by cs => cs.length
decreasing_by
  · have := skipLine_length_le (offset + 2) cs
    simp only [List.length_cons]; omega
  · have := skipComment_length_le (offset + 2) cs
    simp only [List.length_cons]; omega
  · simp

theorem skipGap_length_le (offset : Nat) (cs : List Char) :
    (skipGap offset cs).rest.length ≤ cs.length := by
  fun_induction skipGap offset cs with
  | case1 => simp
  | case2 offset cs after ih =>
    have : after.rest.length ≤ cs.length := skipLine_length_le (offset + 2) cs
    simp only [List.length_cons]; omega
  | case3 offset cs after ih =>
    have : after.rest.length ≤ cs.length := skipComment_length_le (offset + 2) cs
    simp only [List.length_cons]; omega
  | case4 _ _ _ _ _ _ ih => exact Nat.le_succ_of_le ih
  | case5 => simp

end Cursor

end Dbml.Token
