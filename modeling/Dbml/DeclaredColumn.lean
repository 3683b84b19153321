import Dbml.Finding

/-!
# Declared columns

A line of a table declares a column: a name, a type and settings in brackets. A setting may refer
to another column, which makes a relationship.
-/

namespace Dbml

set_option linter.unusedVariables false

structure DeclaredColumn where
  column : Column
  relationship : Option Relationship := none
  deriving DecidableEq, Repr

namespace Source

/-! ## Types -/

/-- The end of a type, of which the tokens before `j` are part. Tokens without a gap belong to it,
and what stands in parentheses with gaps too; a bracket does only when it is closed at once. -/
def typeEnd (s : Source) (j stop : Nat) : Nat :=
  if j < stop ∧ s.isAdjacent j then
    if s.isMark j .openParen then
      match closes : s.matching j stop .openParen .closeParen with
      | some close => s.typeEnd (close + 1) stop
      | none => stop
    else if s.isMark j .openBracket then
      if s.isMark (j + 1) .closeBracket ∧ j + 1 < stop then s.typeEnd (j + 2) stop else j
    else s.typeEnd (j + 1) stop
  else j
termination_by stop - j
decreasing_by
  · have := matching_bounds closes; omega
  · omega
  · omega

/-- The type that begins at token `start`, and the number of the token behind it. -/
def columnType? (s : Source) (start stop : Nat) : Option (String × Nat) :=
  if start < stop then
    match s.token? start with
    | some (.str text) => some (text, start + 1)
    | some (.ident _) | some (.num _) =>
      let j := s.typeEnd (start + 1) stop
      some (s.text ⟨start, j⟩, j)
    | _ => none
  else none

/-! ## Settings -/

/-- The operator and the target of a column's own reference. -/
def columnReference? (s : Source) (value : TokenRange) : Option (RelationKind × TokenRange) :=
  if value.size < 2 then none
  else ((s.token? value.start).bind Token.relation?).map fun kind => (kind, value.drop 1)

/-- The column with one more setting, in the table with the key. -/
def applyColumnSetting (s : Source) (table : String) (declared : DeclaredColumn) :
    Setting → Noted DeclaredColumn
  | .flag words position =>
    let column := declared.column
    match words with
    | "primary key" | "pk" => pure { declared with column := { column with pk := true } }
    | "unique" => pure { declared with column := { column with unique := true } }
    | "not null" => pure { declared with column := { column with notNull := true } }
    | "null" => pure declared
    | "increment" => pure { declared with column := { column with increment := true } }
    | _ => do
      Noted.note position (.unknownColumnSetting words)
      return declared
  | .pair key value position =>
    let column := declared.column
    match key with
    | "default" =>
      pure { declared with column := { column with defaultValue := s.valueText value } }
    | "note" =>
      match s.quotedText value with
      | some note => pure { declared with column := { column with note := some note } }
      | none => do
        Noted.note position .unquotedColumnNote
        return declared
    | "ref" =>
      if column.reference.isSome then do
        Noted.note position (.repeatedColumnReference column.name)
        return declared
      else
        match s.columnReference? value with
        | some (kind, range) => do
          let target := s.endpoint range
          if target.malformed then Noted.note position (.unplacedTarget (s.text range))
          return {
            column := { column with reference := some (s.text range) }
            relationship := some (Relationship.inline table column.name kind target) }
        | none => do
          Noted.note position .malformedColumnReference
          return declared
    | _ => do
      Noted.note position (.unknownColumnSetting key)
      return declared
  | .invalid position => do
    Noted.note position .malformedColumnSetting
    return declared

/-! ## Lines -/

/-- The settings of a column, in the tokens behind its type: all between the first bracket and the
one that closes it, or the end of the line. -/
def columnSettings (s : Source) (column : String) (range : TokenRange) : Noted (List Setting) :=
  match s.find? range (·.isMark .openBracket) with
  | none => pure []
  | some opening =>
    match s.matching opening range.stop .openBracket .closeBracket with
    | some closing => pure (s.settings ⟨opening + 1, closing⟩)
    | none => do
      Noted.note opening (.unclosedColumnSettings column)
      return s.settings ⟨opening + 1, range.stop⟩

/-- The name, the type and the number of the token behind them of a line that declares a column. -/
def columnHead? (s : Source) (line : TokenRange) : Option (String × String × Nat) := do
  let name ← (s.token? line.start).bind Token.name?
  let (type, next) ← s.columnType? (line.start + 1) line.stop
  return (name, type, next)

def column? (s : Source) (table : String) (line : TokenRange) : Noted (Option DeclaredColumn) :=
  match s.columnHead? line with
  | none => pure none
  | some (name, type, next) => do
    let settings ← s.columnSettings name ⟨next, line.stop⟩
    let declared ← settings.foldlM (s.applyColumnSetting table) { column := { name, type } }
    return some declared

end Source

end Dbml
