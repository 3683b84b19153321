import Dbml.Model
import Dbml.Setting

/-!
# References

A reference names two columns with an operator between them: `posts.author > users.id`. A column
is named with its table, and a table of another schema with its schema.
-/

namespace Dbml

structure Endpoint where
  table : String
  column : String
  /-- Whether the text was no name of a column in a table. -/
  malformed : Bool := false
  deriving DecidableEq, Repr, Inhabited

namespace Endpoint

/-- The table of an endpoint that names none. -/
def unknownTable : String := "unknown"

/-- The schema that is left out of a table's key. -/
def defaultSchema : String := "public"

/-- The endpoint of the segments of a name, which is written `raw`. -/
def ofParts (parts : List String) (raw : String) : Endpoint :=
  match parts with
  | [schema, table, column] =>
    if schema = "" ∨ schema = defaultSchema then { table, column }
    else { table := s!"{schema}.{table}", column }
  | [table, column] => { table, column }
  | _ => { table := unknownTable, column := raw, malformed := true }

/-- The parts of the text between dots. -/
def splitDots (text : List Char) : List (List Char) :=
  match text with
  | [] => [[]]
  | c :: cs =>
    if c = '.' then [] :: splitDots cs
    else match splitDots cs with
      | [] => [[c]]
      | part :: parts => (c :: part) :: parts

/-- The endpoint of a text. -/
def ofText (target : String) : Endpoint :=
  ofParts ((splitDots target.toList).map String.ofList) target

end Endpoint

/-- The relationship of a column that refers to an endpoint itself. -/
def Relationship.inline (table column : String) (kind : RelationKind) (target : Endpoint) :
    Relationship :=
  { fromTable := table, fromColumn := column, toTable := target.table, toColumn := target.column,
    kind }

inductive ReferenceFault
  | missingOperator
  | missingEndpoint
  deriving DecidableEq, Repr

def ReferenceFault.message : ReferenceFault → String
  | .missingOperator => "reference has no relationship operator"
  | .missingEndpoint => "reference is missing an endpoint"

structure Reference where
  relationship : Relationship
  /-- Whether one of the sides was no name of a column in a table. -/
  malformed : Bool
  deriving DecidableEq, Repr, Inhabited

def nameParts : List Token → Option (List String)
  | [] => none
  | [token] => token.name?.map ([·])
  | token :: dot :: rest =>
    if dot = .mark .dot then do return (← token.name?) :: (← nameParts rest) else none

namespace Source

/-- The endpoint that the tokens of the range name. -/
def endpoint (s : Source) (range : TokenRange) : Endpoint :=
  Endpoint.ofParts ((nameParts (s.tokens range)).getD []) (Text.trimmed (s.text range))

/-- The name, if there is one, and the tokens behind the colon of a line `Ref name: …`. -/
def shortForm? (s : Source) (line : TokenRange) : Option (Option String × TokenRange) :=
  if s.isKeyword line.start "Ref" then
    let name := if line.start + 1 < line.stop then (s.token? (line.start + 1)).bind Token.name?
      else none
    let i := if name.isSome then line.start + 2 else line.start + 1
    if i < line.stop ∧ s.isMark i .colon then some (name, ⟨i + 1, line.stop⟩) else none
  else none

/-- A relationship with the actions that the settings give it; of two settings of one key the last
one counts. -/
def withActions (s : Source) (relationship : Relationship) : List Setting → Relationship
  | [] => relationship
  | .pair "delete" value _ :: rest =>
    s.withActions { relationship with onDelete := s.valueText value } rest
  | .pair "update" value _ :: rest =>
    s.withActions { relationship with onUpdate := s.valueText value } rest
  | _ :: rest => s.withActions relationship rest

/-- The reference that the tokens of the range make: two endpoints with an operator between them,
and settings in brackets behind. -/
def reference (s : Source) (range : TokenRange) (name : Option String) :
    Except ReferenceFault Reference :=
  let bracket := s.find? range (·.isMark .openBracket)
  let stop := bracket.getD range.stop
  match s.find? ⟨range.start, stop⟩ (·.relation?.isSome) with
  | none => .error .missingOperator
  | some i =>
    match (s.token? i).bind Token.relation? with
    | none => .error .missingOperator
    | some kind =>
      if i = range.start ∨ stop ≤ i + 1 then .error .missingEndpoint
      else
        let source := s.endpoint ⟨range.start, i⟩
        let target := s.endpoint ⟨i + 1, stop⟩
        let relationship := { Relationship.inline source.table source.column kind target with name }
        let settings :=
          match bracket with
          | none => []
          | some opening =>
            let closing := s.matching opening range.stop .openBracket .closeBracket
            s.settings ⟨opening + 1, closing.getD range.stop⟩
        .ok ⟨s.withActions relationship settings, source.malformed || target.malformed⟩

end Source

end Dbml
