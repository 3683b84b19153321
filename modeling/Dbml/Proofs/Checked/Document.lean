import Dbml.Proofs.Checked.Assembling
import Dbml.Proofs.Checked.Lexing
import Dbml.Proofs.Checked.Scanning
import Dbml.Proofs.Document.Parse
import Dbml.Proofs.Respacing.Tokens

/-!
# Documents read inside bounds

The whole run over a text, with every access checked: a token taken by its number must be there, a
range cut out of the tokens must have its bounds in order and none behind the last token, a range
cut out of the text must have them in order, inside and between two characters, the number of a
group must be that of a group that is there, and a line is looked up among line starts of which one
is not behind the place. Main statement: `parse_within_bounds`.
-/

namespace Dbml

open Token (Run)

variable {s : Source}

namespace Checked

def diagnose (s : Source) (finding : Finding) : Option Diagnostic := do
  let location ← location s finding.position
  return { location, reason := finding.cause.message }

/-- What the source declares and its diagnostics, as `Source.report` gives them. -/
def report (s : Source) : Option (Except ScanError Report) := do
  match ← scan s with
  | .error error => return .error error
  | .ok segments =>
    let assembled := (assemble s segments).run
    let database ← assembled.value
    let diagnostics ← assembled.findings.mapM (diagnose s)
    return .ok ⟨database, Diagnostic.sort diagnostics⟩

/-- The report on a text, as `Dbml.parseReport` gives it, and none when an access is out of
bounds. -/
def parseReport (text : String) (strict : Bool) : Option (Except ParseError Report) := do
  match ← ofString text with
  | .error error => return .error (.lex error)
  | .ok source =>
    match ← report source with
    | .error error => return .error (.scan error)
    | .ok report =>
      match strict, report.diagnostics with
      | true, first :: _ => return .error (.strict first)
      | _, _ => return .ok report

theorem diagnose_eq (run : Run 0 s.chars s.lexemes.toList) (finding : Finding) :
    diagnose s finding = some (s.diagnose finding) := by
  rw [diagnose, location_eq run]
  rfl

theorem report_eq (run : Run 0 s.chars s.lexemes.toList) : report s = some s.report := by
  rw [report, scan_eq run, Source.report]
  cases scanned : s.scan with
  | error error => rfl
  | ok segments =>
    have assembled : (assemble s segments).run =
        ⟨some (s.assemble segments).value, (s.assemble segments).findings ++ []⟩ := by
      rw [assemble_eq run (Source.fits_of_scan scanned)]
      rfl
    have diagnoses : (s.assemble segments).findings.mapM (diagnose s) =
        some ((s.assemble segments).findings.map s.diagnose) :=
      mapM_eq_map fun finding _ => diagnose_eq run finding
    simp only [Option.bind_eq_bind, Option.bind_some, assembled, List.append_nil, diagnoses]
    rfl

theorem parseReport_eq (text : String) (strict : Bool) :
    parseReport text strict = some (Dbml.parseReport text strict) := by
  rw [parseReport, ofString_eq, Dbml.parseReport, Session.start]
  cases read : Source.ofString text with
  | error error => rfl
  | ok s =>
    obtain ⟨chars, run⟩ := Source.ofString_eq_ok.1 read
    rw [← chars] at run
    simp only [Option.bind_some, report_eq run, Bind.bind, Except.bind, Session.parse]
    cases s.report with
    | error error => rfl
    | ok report =>
      obtain ⟨database, diagnostics⟩ := report
      cases strict with
      | false => rfl
      | true => cases diagnostics <;> rfl

end Checked

/-- A diagnostic is an error in strict mode only. -/
theorem strict_of_parseReport {text : String} {strict : Bool} {diagnostic : Diagnostic}
    (parsed : parseReport text strict = .error (.strict diagnostic)) : strict = true := by
  cases strict with
  | true => rfl
  | false =>
    cases read : Source.ofString text with
    | error error =>
      rw [parseReport_of_ofString read] at parsed
      cases parsed
    | ok s =>
      cases scanned : s.scan with
      | error error =>
        rw [parseReport_of_scan read scanned] at parsed
        cases parsed
      | ok segments =>
        rw [parseReport_false read scanned] at parsed
        cases parsed

/-- No text makes the run leave the bounds of the tokens, the text or the groups; it ends in a
report or in one of the errors. -/
theorem parse_within_bounds (text : String) (strict : Bool) :
    Checked.parseReport text strict = some (parseReport text strict) ∧
      ((∃ report, parseReport text strict = .ok report) ∨
        (∃ location, parseReport text strict = .error (.lex (.unterminatedString location))) ∨
        (∃ keyword location,
          parseReport text strict = .error (.scan (.unterminatedBlock keyword location))) ∨
        (∃ location, parseReport text strict = .error (.scan (.tooDeep location))) ∨
        strict = true ∧ ∃ diagnostic, parseReport text strict = .error (.strict diagnostic)) := by
  refine ⟨Checked.parseReport_eq text strict, ?_⟩
  cases parsed : parseReport text strict with
  | ok report => exact .inl ⟨report, rfl⟩
  | error error =>
    refine .inr ?_
    cases error with
    | lex error =>
      cases error with
      | unterminatedString location => exact .inl ⟨location, rfl⟩
    | scan error =>
      cases error with
      | unterminatedBlock keyword location => exact .inr (.inl ⟨keyword, location, rfl⟩)
      | tooDeep location => exact .inr (.inr (.inl ⟨location, rfl⟩))
    | strict diagnostic =>
      exact .inr (.inr (.inr ⟨strict_of_parseReport parsed, diagnostic, rfl⟩))

end Dbml
