import Dbml.Segment
import Dbml.Setting

/-!
# Notes

A note is written on a line `Note: …` or in a block `Note { … }`, and always quoted.
-/

namespace Dbml.Source

/-- The first quoted text in the body of a block. -/
def blockNote (s : Source) (block : Block) : Option String :=
  (s.tokens block.body).findSome? Token.quoted?

/-- The note of a line `Note: …`, which is none when it is not quoted; no note at all when the line
is another one. -/
def noteLine? (s : Source) (line : TokenRange) : Option (Option String) :=
  if s.isKeyword line.start "Note" ∧ 1 < line.size ∧ s.isMark (line.start + 1) .colon then
    some (s.quotedText (line.drop 2))
  else none

end Dbml.Source
