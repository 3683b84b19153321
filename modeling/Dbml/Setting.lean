import Dbml.Source

/-!
# Settings

A list of settings stands between brackets: flags such as `not null`, and keys with a value such
as `default: 0`, with commas between them.
-/

namespace Dbml

set_option linter.unusedVariables false

/-- One item of a list of settings; `position` is the number of its first token. -/
inductive Setting
  | flag (words : String) (position : Nat)
  /-- A key, a colon and the tokens of a value. -/
  | pair (key : String) (value : TokenRange) (position : Nat)
  | invalid (position : Nat)
  deriving DecidableEq, Repr

namespace Setting

def position : Setting → Nat
  | .flag _ position | .pair _ _ position | .invalid position => position

end Setting

namespace Source

/-! ## Items -/

/-- The parts of the range between commas that are not in parentheses, empty ones included. -/
def splitCommas (s : Source) (range : TokenRange) : List TokenRange :=
  match comma : s.findOutside? .openParen .closeParen range (·.isMark .comma) with
  | some i => ⟨range.start, i⟩ :: s.splitCommas ⟨i + 1, range.stop⟩
  | none => [range]
termination_by range.stop - range.start
decreasing_by
  have := findOutside?_bounds comma
  omega

def word? : Token → Option String
  | .ident word => some word
  | _ => none

def settingOf (s : Source) (item : TokenRange) : Setting :=
  let words := (s.tokens item).mapM word?
  match s.token? item.start with
  | some (.ident key) =>
    if 1 < item.size ∧ s.isMark (item.start + 1) .colon then .pair key (item.drop 2) item.start
    else words.elim (.invalid item.start) fun ws => .flag (" ".intercalate ws) item.start
  | _ => words.elim (.invalid item.start) fun ws => .flag (" ".intercalate ws) item.start

/-- The settings in the range; empty items are passed over. -/
def settings (s : Source) (range : TokenRange) : List Setting :=
  ((s.splitCommas range).filter fun item => !item.isEmpty).map s.settingOf

/-! ## Values -/

/-- The contents of a value that is one quoted token. -/
def quotedText (s : Source) (value : TokenRange) : Option String :=
  if value.size = 1 then (s.token? value.start).bind Token.quoted? else none

/-- The contents of a quoted value, or the text of any other that is not blank. -/
def valueText (s : Source) (value : TokenRange) : Option String :=
  (s.quotedText value).or
    (let raw := Text.trimmed (s.text value)
     if raw = "" then none else some raw)

/-- The text of a value as a colour, which begins with a number sign. -/
def colorText (s : Source) (value : TokenRange) : Option String :=
  (s.valueText value).bind fun raw =>
    let color := Text.trimmed raw
    if color = "" then none
    else if color.toList.head? = some '#' then some color
    else some ("#" ++ color)

end Source

end Dbml
