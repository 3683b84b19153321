import Dbml.Finding

/-!
# Declared indexes

A line of an `indexes` block declares an index: one column, or columns in parentheses, and settings
in brackets.
-/

namespace Dbml.Source

def indexColumns : List Token → Except IndexFault (List String)
  | [] => .ok []
  | .ident name :: rest | .str name :: rest => do return name :: (← indexColumns rest)
  | .mark .comma :: rest => indexColumns rest
  | .expr _ :: _ => .error .expression
  | _ :: _ => .error .malformedColumns

/-- The columns of an index, and the number of the token behind them. -/
def indexHead (s : Source) (line : TokenRange) : Except IndexFault (List String × Nat) :=
  match s.token? line.start with
  | none => .error .emptyDeclaration
  | some (.mark .openParen) =>
    match s.matching line.start line.stop .openParen .closeParen with
    | none => .error .unclosedColumns
    | some closing => do
      let columns ← indexColumns (s.tokens ⟨line.start + 1, closing⟩)
      if columns.isEmpty then .error .noColumns else return (columns, closing + 1)
  | some (.expr _) => .error .expression
  | some token =>
    match token.name? with
    | some name => .ok ([name], line.start + 1)
    | none => .error .malformedDeclaration

def applyIndexSetting (s : Source) (index : Index) : Setting → Noted Index
  | .flag words position =>
    match words with
    | "pk" | "primary key" => pure { index with pk := true }
    | "unique" => pure { index with unique := true }
    | _ => do
      Noted.note position (.unknownIndexSetting words)
      return index
  | .pair key value position =>
    match key with
    | "name" => pure { index with name := s.valueText value }
    | "type" => pure { index with type := s.valueText value }
    | "note" => pure { index with note := s.quotedText value }
    | _ => do
      Noted.note position (.unknownIndexSetting key)
      return index
  | .invalid position => do
    Noted.note position .malformedIndexSetting
    return index

/-- The settings of an index, when the token behind its columns opens them. -/
def indexSettings (s : Source) (next stop : Nat) : List Setting :=
  if next < stop ∧ s.isMark next .openBracket then
    s.settings ⟨next + 1, (s.matching next stop .openBracket .closeBracket).getD stop⟩
  else []

def index? (s : Source) (line : TokenRange) : Noted (Option Index) :=
  match s.indexHead line with
  | .error fault => do
    Noted.note line.start (.rejectedIndex fault)
    return none
  | .ok (columns, next) => do
    let index ← (s.indexSettings next line.stop).foldlM s.applyIndexSetting { columns }
    return some index

end Dbml.Source
