import Dbml.Location
import Dbml.RelationKind

/-!
# Tokens

A document is read as a sequence of tokens: words, quoted texts, numbers, colours, marks and line
ends. Whatever is none of these is a stray character.
-/

namespace Dbml

inductive Mark
  | openBrace
  | closeBrace
  | openParen
  | closeParen
  | openBracket
  | closeBracket
  | comma
  | colon
  | dot
  | greater
  | less
  | lessGreater
  | dash
  deriving DecidableEq, Repr, Inhabited

namespace Mark

def spelling : Mark → String
  | .openBrace => "\x7b"
  | .closeBrace => "\x7d"
  | .openParen => "("
  | .closeParen => ")"
  | .openBracket => "["
  | .closeBracket => "]"
  | .comma => ","
  | .colon => ":"
  | .dot => "."
  | .greater => ">"
  | .less => "<"
  | .lessGreater => "<>"
  | .dash => "-"

def ofChar? : Char → Option Mark
  | '\x7b' => some .openBrace
  | '\x7d' => some .closeBrace
  | '(' => some .openParen
  | ')' => some .closeParen
  | '[' => some .openBracket
  | ']' => some .closeBracket
  | ',' => some .comma
  | ':' => some .colon
  | '.' => some .dot
  | '>' => some .greater
  | '<' => some .less
  | '-' => some .dash
  | _ => none

theorem spelling_of_ofChar? {c : Char} {mark : Mark} (h : ofChar? c = some mark) :
    mark.spelling.toList = [c] := by
  unfold ofChar? at h
  split at h <;> cases h <;> rfl

/-- The kind of relationship a mark stands for as an operator. -/
def relation? : Mark → Option RelationKind
  | .greater => some .manyToOne
  | .less => some .oneToMany
  | .dash => some .oneToOne
  | .lessGreater => some .manyToMany
  | _ => none

/-- A mark that stands for a relationship is spelled as its operator. -/
theorem operator_of_relation? {mark : Mark} {kind : RelationKind}
    (h : mark.relation? = some kind) : kind.operator = mark.spelling := by
  cases mark <;> cases h <;> rfl

end Mark

/-- The smallest part of a document. -/
inductive Token
  | ident (text : String)
  /-- What stands between two single or two double quotes, with escapes undone. -/
  | str (text : String)
  /-- What stands between two triples of single quotes, without the white space at its ends. -/
  | multiStr (text : String)
  /-- What stands between two backquotes. -/
  | expr (text : String)
  | num (text : String)
  /-- A number sign and the letters and digits after it. -/
  | color (text : String)
  | mark (mark : Mark)
  | newline
  /-- Any other character, a quote that is not closed on its line among them. -/
  | stray (c : Char)
  deriving DecidableEq, Repr, Inhabited

namespace Token

/-- The contents of a quoted token. -/
def quoted? : Token → Option String
  | .str text | .multiStr text | .expr text => some text
  | _ => none

/-- The text of a token that can be part of a name: a bare word or a quoted one. -/
def name? : Token → Option String
  | .ident text | .str text => some text
  | _ => none

/-- Whether two words differ at most in the case of their ASCII letters. -/
def sameWord (a b : String) : Bool :=
  a.toList.map Char.toLower == b.toList.map Char.toLower

def isKeyword (token : Token) (keyword : String) : Bool :=
  match token with
  | .ident text => sameWord text keyword
  | _ => false

/-- The kind of relationship the token stands for as an operator. -/
def relation? : Token → Option RelationKind
  | .mark m => m.relation?
  | _ => none

def isMark (token : Token) (mark : Mark) : Bool :=
  token == .mark mark

@[simp] theorem isMark_iff {token : Token} {mark : Mark} :
    token.isMark mark = true ↔ token = .mark mark := by
  simp [isMark]

end Token

structure Lexeme where
  token : Token
  span : Span
  deriving DecidableEq, Repr, Inhabited

end Dbml
