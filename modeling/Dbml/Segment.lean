import Dbml.Source

/-!
# Segments

A document falls into lines and blocks. A block has a header and a body between braces; the bodies
of the known kinds of block fall into segments again, those of other kinds are left alone.
-/

namespace Dbml

inductive BlockKind
  | table
  | tableGroup
  | ref
  | project
  | note
  | indexes
  /-- A block with an unknown keyword, or with none and then the word is empty. -/
  | other (word : String)
  deriving DecidableEq, Repr, Inhabited

namespace BlockKind

/-- The kinds that are recognised by a keyword. -/
def known : List BlockKind :=
  [.table, .tableGroup, .ref, .project, .note, .indexes]

/-- The keyword of a known kind, or the word of another one. -/
def word : BlockKind → String
  | .table => "Table"
  | .tableGroup => "TableGroup"
  | .ref => "Ref"
  | .project => "Project"
  | .note => "Note"
  | .indexes => "indexes"
  | .other word => word

/-- Whether the kind is none of the known ones. -/
def isOther : BlockKind → Bool
  | .other _ => true
  | _ => false

def ofToken : Token → BlockKind
  | .ident word => (known.find? fun kind => Token.sameWord word kind.word).getD (.other word)
  | _ => .other ""

end BlockKind

/-- What stands between a block's keyword and its brace. -/
structure Header where
  nameParts : List String
  aliasName : Option String
  /-- The tokens between the brackets of the settings. -/
  settings : Option TokenRange
  deriving DecidableEq, Repr, Inhabited

namespace Header

def name? (header : Header) : Option String :=
  if header.nameParts.isEmpty then none else some (".".intercalate header.nameParts)

end Header

structure Block where
  kind : BlockKind
  start : Nat
  header : Header
  opening : Nat
  closing : Nat
  deriving DecidableEq, Repr, Inhabited

namespace Block

def body (block : Block) : TokenRange :=
  ⟨block.opening + 1, block.closing⟩

end Block

/-- A line that is not empty, or a block with the segments of its body. -/
inductive Segment
  | line (range : TokenRange)
  | block (block : Block) (children : List Segment)
  deriving Repr, Inhabited

end Dbml
