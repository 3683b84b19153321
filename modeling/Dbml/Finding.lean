import Dbml.Reference
import Dbml.Segment

/-!
# Findings

What is noted while a document is taken apart: at which token, and for what cause. A computation
that notes findings gives its value together with them, in the order they were made in.
-/

namespace Dbml

inductive IndexFault
  | unclosedColumns
  | expression
  | malformedColumns
  | malformedDeclaration
  | emptyDeclaration
  | noColumns
  deriving DecidableEq, Repr

def IndexFault.message : IndexFault → String
  | .unclosedColumns => "unclosed index column list"
  | .expression => "expression index not supported; skipped"
  | .malformedColumns => "malformed index column list"
  | .malformedDeclaration => "malformed index declaration"
  | .emptyDeclaration => "empty index declaration"
  | .noColumns => "index has no columns"

/-- Why a line, a block or a setting is passed over or taken in part. -/
inductive Cause
  | unnamedTable
  | emptyTable (name : String)
  | repeatedTable (key : String)
  | ownedTable (key owner : String)
  | unknownTableSetting (words : String)
  | malformedTableSetting
  | unquotedTableNote
  | unknownTableLine
  | unexpectedInTable (kind : BlockKind) (key : String)
  | unclosedColumnSettings (column : String)
  | unknownColumnSetting (words : String)
  | malformedColumnSetting
  | unquotedColumnNote
  | repeatedColumnReference (column : String)
  | unplacedTarget (target : String)
  | malformedColumnReference
  | rejectedIndex (fault : IndexFault)
  | unknownIndexSetting (words : String)
  | malformedIndexSetting
  | unnamedGroup
  | repeatedGroup (id : String)
  | unknownGroupSetting
  | unknownGroupLine
  | unexpectedInGroup (kind : BlockKind)
  | unnamedProject
  | repeatedProject
  | unsupportedBlock (kind : BlockKind)
  | unknownStatement
  | unexpectedInReference
  | unplacedEndpoint
  | rejectedReference (fault : ReferenceFault)
  deriving DecidableEq, Repr

def Cause.message : Cause → String
  | .unnamedTable => "table block has no name; skipped"
  | .emptyTable name => s!"table `{name}` has an empty body; skipped"
  | .repeatedTable key => s!"duplicate table `{key}` ignored"
  | .ownedTable key owner => s!"table `{key}` already belongs to `{owner}`"
  | .unknownTableSetting words => s!"unknown table setting `{words}`"
  | .malformedTableSetting => "malformed table setting"
  | .unquotedTableNote => "table note must be a quoted string"
  | .unknownTableLine => "unrecognized line in table body; skipped"
  | .unexpectedInTable kind key =>
    s!"unexpected `{kind.word}` block inside table `{key}`; skipped"
  | .unclosedColumnSettings column => s!"unclosed settings on column `{column}`"
  | .unknownColumnSetting words => s!"unknown column setting `{words}`"
  | .malformedColumnSetting => "malformed column setting"
  | .unquotedColumnNote => "column note must be a quoted string"
  | .repeatedColumnReference column =>
    s!"column `{column}` declares more than one ref; extra ignored"
  | .unplacedTarget target =>
    s!"ref target `{target}` has no table; using `{Endpoint.unknownTable}`"
  | .malformedColumnReference => "malformed ref setting"
  | .rejectedIndex fault => fault.message
  | .unknownIndexSetting words => s!"unknown index setting `{words}`"
  | .malformedIndexSetting => "malformed index setting"
  | .unnamedGroup => "table group has no name; its tables are ungrouped"
  | .repeatedGroup id => s!"duplicate table group id `{id}`"
  | .unknownGroupSetting => "unknown table group setting"
  | .unknownGroupLine => "unrecognized line in table group; skipped"
  | .unexpectedInGroup kind => s!"unexpected `{kind.word}` block inside table group; skipped"
  | .unnamedProject => "project block has no name; skipped"
  | .repeatedProject => "duplicate project block ignored"
  | .unsupportedBlock kind => s!"unsupported `{kind.word}` block skipped"
  | .unknownStatement => "unrecognized top-level statement; skipped"
  | .unexpectedInReference => "unexpected block inside Ref; skipped"
  | .unplacedEndpoint => s!"reference endpoint has no table; using `{Endpoint.unknownTable}`"
  | .rejectedReference fault => s!"{fault.message}; skipped"

/-- A cause and the number of the token it is noted at. -/
structure Finding where
  position : Nat
  cause : Cause
  deriving DecidableEq, Repr

/-- The diagnostic that a finding in the source amounts to. -/
def Source.diagnose (s : Source) (finding : Finding) : Diagnostic :=
  s.diagnostic finding.position finding.cause.message

/-! ## Values with findings -/

/-- A value and what was noted on the way to it. -/
structure Noted (α : Type) where
  value : α
  findings : List Finding

namespace Noted

variable {α β : Type}

instance : Monad Noted where
  pure value := ⟨value, []⟩
  bind x f := ⟨(f x.value).value, x.findings ++ (f x.value).findings⟩

/-- Notes one cause at a token. -/
def note (position : Nat) (cause : Cause) : Noted Unit :=
  ⟨(), [⟨position, cause⟩]⟩

@[simp] theorem pure_value (a : α) : (pure a : Noted α).value = a := rfl

@[simp] theorem pure_findings (a : α) : (pure a : Noted α).findings = [] := rfl

@[simp] theorem bind_value (x : Noted α) (f : α → Noted β) :
    (x >>= f).value = (f x.value).value := rfl

@[simp] theorem bind_findings (x : Noted α) (f : α → Noted β) :
    (x >>= f).findings = x.findings ++ (f x.value).findings := rfl

@[simp] theorem note_findings (position : Nat) (cause : Cause) :
    (note position cause).findings = [⟨position, cause⟩] := rfl

instance : LawfulMonad Noted :=
  LawfulMonad.mk' Noted
    (fun x => by cases x; simp [Functor.map])
    (fun _ _ => rfl)
    (fun x f g => by simp [Bind.bind])

end Noted

end Dbml
