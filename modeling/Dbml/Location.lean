import Dbml.Text.Slice

/-!
# Places in a text

A place is a byte position, a span of bytes, or a line and a column. Lines end at a line feed only,
columns count characters, and both are counted from one.
-/

namespace Dbml

/-- The bytes from `start` up to but not including `stop`. -/
structure Span where
  start : Nat
  stop : Nat
  deriving DecidableEq, Repr, Inhabited

namespace Span

def text (span : Span) : String :=
  s!"{span.start}..{span.stop}"

end Span

structure Location where
  line : Nat
  column : Nat
  deriving DecidableEq, Repr, Inhabited

namespace Location

def text (location : Location) : String :=
  s!"line {location.line}, column {location.column}"

/-- Whether the first location does not come after the second. -/
def isAtMost (a b : Location) : Bool :=
  a.line < b.line || a.line == b.line && a.column ≤ b.column

/-- The location reached `bytes` bytes after `here`, where `cs` begins. A position inside a
character is placed in the first column, and one past the end at the end. -/
def advance (here : Location) (bytes : Nat) : List Char → Location
  | [] => here
  | c :: cs =>
    if bytes = 0 then here
    else if bytes < c.utf8Size then ⟨here.line, 1⟩
    else if c = '\n' then advance ⟨here.line + 1, 1⟩ (bytes - c.utf8Size) cs
    else advance ⟨here.line, here.column + 1⟩ (bytes - c.utf8Size) cs

/-- The location of a byte position. -/
def ofOffset (cs : List Char) (offset : Nat) : Location :=
  advance ⟨1, 1⟩ offset cs

theorem advance_zero (here : Location) (cs : List Char) : here.advance 0 cs = here := by
  cases cs <;> simp [advance]

@[simp] theorem ofOffset_zero (cs : List Char) : ofOffset cs 0 = ⟨1, 1⟩ :=
  advance_zero _ cs

end Location

end Dbml
