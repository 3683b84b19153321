import Dbml.Assembly
import Dbml.Segment.Scan

/-!
# Documents

A document is read as a whole: into tokens, segments and at last a database with diagnostics. In
strict mode the first diagnostic is an error.
-/

namespace Dbml

inductive ParseError
  | lex (error : LexError)
  | scan (error : ScanError)
  | strict (diagnostic : Diagnostic)
  deriving DecidableEq, Repr

def ParseError.message : ParseError → String
  | .lex error => s!"Lex error: {error.message}"
  | .scan error => s!"Scan error: {error.message}"
  | .strict diagnostic => s!"Strict mode: {diagnostic.text}"

/-- A database and all that was passed over or taken in part. -/
structure Report where
  database : Database
  diagnostics : List Diagnostic
  deriving DecidableEq, Repr

/-- What the source declares, with its diagnostics by location. -/
def Source.report (s : Source) : Except ScanError Report := do
  let assembled := s.assemble (← s.scan)
  return ⟨assembled.value, Diagnostic.sort (assembled.findings.map s.diagnose)⟩

/-- A source that may be parsed again and again, and the diagnostics of the last time. -/
structure Session where
  source : Source
  /-- Whether a diagnostic is an error. -/
  strict : Bool := false
  diagnostics : List Diagnostic := []

namespace Session

/-- A session on a text that has not been parsed yet. -/
def start (text : String) (strict : Bool) : Except ParseError Session :=
  match Source.ofString text with
  | .ok source => .ok { source, strict }
  | .error error => .error (.lex error)

/-- Parses the source. The diagnostics are kept when they are an error, and there are none when the
source has no segments. -/
def parse (session : Session) : Except ParseError Database × Session :=
  match session.source.report with
  | .error error => (.error (.scan error), { session with diagnostics := [] })
  | .ok report =>
    let after := { session with diagnostics := report.diagnostics }
    match session.strict, report.diagnostics with
    | true, first :: _ => (.error (.strict first), after)
    | _, _ => (.ok report.database, after)

inductive Step
  | parse
  | diagnostics
  deriving DecidableEq, Repr

inductive Answer
  | parsed (result : Except ParseError Database)
  | diagnostics (diagnostics : List Diagnostic)

/-- The answers to steps that are taken one after another. -/
def run (session : Session) : List Step → List Answer
  | [] => []
  | .parse :: steps => .parsed session.parse.1 :: session.parse.2.run steps
  | .diagnostics :: steps => .diagnostics session.diagnostics :: session.run steps

end Session

def parseReport (text : String) (strict : Bool) : Except ParseError Report := do
  let session ← Session.start text strict
  let (database, after) := session.parse
  return ⟨← database, after.diagnostics⟩

def parse (text : String) : Except ParseError Database := do
  let session ← Session.start text false
  session.parse.1

end Dbml
