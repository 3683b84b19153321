/-!
# JSON values

The values a model is written as, and their text in two layouts: compact, with no space at all, and
indented by two spaces a level.
-/

namespace Dbml

/-- A JSON value; numbers are counts, and an object keeps the order of its members. -/
inductive Json
  | null
  | bool (b : Bool)
  | num (n : Nat)
  | str (s : String)
  | arr (items : List Json)
  | obj (members : List (String × Json))
  deriving Repr, Inhabited

namespace Json

/-! ## Strings -/

def hexDigit (n : Nat) : Char :=
  if n < 10 then Char.ofNat ('0'.toNat + n) else Char.ofNat ('a'.toNat + (n - 10))

/-- A character as it stands between quotes: quotes, backslashes and control characters are
escaped. -/
def escape (c : Char) : List Char :=
  match c with
  | '"' => ['\\', '"']
  | '\\' => ['\\', '\\']
  | '\x08' => ['\\', 'b']
  | '\x0c' => ['\\', 'f']
  | '\n' => ['\\', 'n']
  | '\r' => ['\\', 'r']
  | '\t' => ['\\', 't']
  | c =>
    if c.toNat < 0x20 then ['\\', 'u', '0', '0', hexDigit (c.toNat / 16), hexDigit (c.toNat % 16)]
    else [c]

def quote (s : String) : List Char :=
  '"' :: s.toList.flatMap escape ++ ['"']

/-! ## Layouts -/

inductive Layout
  /-- On one line, without spaces. -/
  | compact
  /-- Each item on a line of its own. -/
  | pretty
  deriving DecidableEq, Repr

namespace Layout

/-- What stands before an item `level` levels deep, and before the bracket that closes a container
of that level. -/
def lineBreak (layout : Layout) (level : Nat) : List Char :=
  match layout with
  | .compact => []
  | .pretty => '\n' :: List.replicate (2 * level) ' '

def colon : Layout → List Char
  | .compact => [':']
  | .pretty => [':', ' ']

end Layout

/-! ## Values -/

mutual

def write (layout : Layout) (level : Nat) : Json → List Char
  | .null => "null".toList
  | .bool true => "true".toList
  | .bool false => "false".toList
  | .num n => Nat.toDigits 10 n
  | .str s => quote s
  | .arr [] => ['[', ']']
  | .arr (item :: items) =>
    '[' :: layout.lineBreak (level + 1) ++ write layout (level + 1) item
      ++ writeItems layout (level + 1) items ++ layout.lineBreak level ++ [']']
  | .obj [] => ['\x7b', '\x7d']
  | .obj ((key, value) :: members) =>
    '\x7b' :: layout.lineBreak (level + 1) ++ quote key ++ layout.colon
      ++ write layout (level + 1) value ++ writeMembers layout (level + 1) members
      ++ layout.lineBreak level ++ ['\x7d']

/-- The text of the items after the first, each with a comma before it. -/
def writeItems (layout : Layout) (level : Nat) : List Json → List Char
  | [] => []
  | item :: items =>
    ',' :: layout.lineBreak level ++ write layout level item ++ writeItems layout level items

/-- The text of the members after the first, each with a comma before it. -/
def writeMembers (layout : Layout) (level : Nat) : List (String × Json) → List Char
  | [] => []
  | (key, value) :: members =>
    ',' :: layout.lineBreak level ++ quote key ++ layout.colon ++ write layout level value
      ++ writeMembers layout level members

end

def text (layout : Layout) (value : Json) : String :=
  String.ofList (write layout 0 value)

end Json

end Dbml
