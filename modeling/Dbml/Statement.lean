import Dbml.Finding

/-!
# Statements

References may stand on their own: as lines at the top level, in groups and in tables, or listed
in a `Ref` block. They are collected in the order of the document and then read.
-/

namespace Dbml

inductive Statement
  /-- A reference in the range, with the name that is given to it. -/
  | reference (position : Nat) (range : TokenRange) (name : Option String)
  | unknown (position : Nat)
  /-- A block inside a `Ref` block. -/
  | nested (position : Nat)
  deriving DecidableEq, Repr

namespace Source

/-- The statement that a line makes outside a `Ref` block; other lines count at the top level
only. -/
def lineStatement (s : Source) (topLevel : Bool) (line : TokenRange) : List Statement :=
  match s.shortForm? line with
  | some (name, range) => [.reference line.start range name]
  | none => if topLevel then [.unknown line.start] else []

/-- The statement that a segment makes inside a `Ref` block with the name. -/
def listedStatement (name : Option String) : Segment → Statement
  | .line line => .reference line.start line name
  | .block block _ => .nested block.start

mutual

/-- The statements of a segment, those inside a group or a table included; a table that was dropped
makes none. -/
def segmentStatements (s : Source) (dropped : List Nat) (topLevel : Bool) :
    Segment → List Statement
  | .line line => s.lineStatement topLevel line
  | .block block children =>
    match block.kind with
    | .ref => children.map (listedStatement block.header.name?)
    | .table =>
      if dropped.contains block.start then [] else s.statements dropped false children
    | .tableGroup => s.statements dropped false children
    | _ => []

/-- The statements of the segments in the order of the document. -/
def statements (s : Source) (dropped : List Nat) (topLevel : Bool) :
    List Segment → List Statement
  | [] => []
  | segment :: rest =>
    s.segmentStatements dropped topLevel segment ++ s.statements dropped topLevel rest

end

/-- The relationship that a statement makes. -/
def statedRelationship (s : Source) : Statement → Noted (Option Relationship)
  | .reference position range name =>
    match s.reference range name with
    | .ok reference => do
      if reference.malformed then Noted.note position .unplacedEndpoint
      return some reference.relationship
    | .error fault => do
      Noted.note position (.rejectedReference fault)
      return none
  | .unknown position => do
    Noted.note position .unknownStatement
    return none
  | .nested position => do
    Noted.note position .unexpectedInReference
    return none

def statedRelationships (s : Source) : List Statement → Noted (List Relationship)
  | [] => pure []
  | statement :: rest => do
    let relationship ← s.statedRelationship statement
    let relationships ← s.statedRelationships rest
    return relationship.toList ++ relationships

end Source

end Dbml
