import Dbml.Document
import Dbml.Proofs.Source.Contents

/-!
# Parsing a text

What a text parses to in terms of the three stages: its tokens, its segments and what is assembled
from them. Diagnostics do not matter for `parse`; a report in strict mode needs that there are none.
-/

namespace Dbml

variable {text : String} {database : Database}

theorem parse_eq_ok :
    parse text = .ok database ↔ ∃ s segments, Source.ofString text = .ok s ∧
      s.scan = .ok segments ∧ (s.assemble segments).value = database := by
  unfold parse Session.start
  cases read : Source.ofString text with
  | error error => simp [Bind.bind, Except.bind]
  | ok s =>
    simp only [Bind.bind, Except.bind, Session.parse, Source.report]
    cases scanned : s.scan with
    | error error => simp [scanned]
    | ok segments => simp [scanned, Pure.pure, Except.pure]

/-- A text is parsed to the database of its report. -/
theorem parse_eq_map (text : String) : parse text = (parseReport text false).map (·.database) := by
  unfold parse parseReport Session.start
  cases Source.ofString text with
  | error error => rfl
  | ok s =>
    simp only [Bind.bind, Except.bind, Session.parse]
    cases s.report <;> rfl

/-- What is evaluated of the source and the segments of a text holds of them. -/
theorem exists_of_scanned {α : Type} {f : Source → List Segment → α} {value : α}
    (evaluated : (Source.ofString text).toOption.bind (fun s => s.scan.toOption.map (f s)) =
      some value) :
    ∃ s segments, Source.ofString text = .ok s ∧ s.scan = .ok segments ∧ f s segments = value := by
  obtain ⟨s, read, cut⟩ := Option.bind_eq_some_iff.1 evaluated
  obtain ⟨segments, scanned, found⟩ := Option.map_eq_some_iff.1 cut
  exact ⟨s, segments, eq_ok_of_toOption read, eq_ok_of_toOption scanned, found⟩

variable {s : Source} {segments : List Segment}

theorem Source.report_of_scan (scanned : s.scan = .ok segments) :
    s.report = .ok ⟨(s.assemble segments).value,
      Diagnostic.sort ((s.assemble segments).findings.map s.diagnose)⟩ := by
  simp [Source.report, scanned, Bind.bind, Except.bind, Pure.pure, Except.pure]

/-- The report of a text that is not read strictly. -/
theorem parseReport_false (read : Source.ofString text = .ok s)
    (scanned : s.scan = .ok segments) :
    parseReport text false = .ok ⟨(s.assemble segments).value,
      Diagnostic.sort ((s.assemble segments).findings.map s.diagnose)⟩ := by
  simp [parseReport, Session.start, read, Session.parse, Source.report_of_scan scanned, Bind.bind,
    Except.bind, Pure.pure, Except.pure]

/-- In strict mode the first diagnostic is an error. -/
theorem parseReport_of_segments (strict : Bool) (read : Source.ofString text = .ok s)
    (scanned : s.scan = .ok segments) :
    parseReport text strict =
      match strict, Diagnostic.sort ((s.assemble segments).findings.map s.diagnose) with
      | true, first :: _ => .error (.strict first)
      | _, diagnostics => .ok ⟨(s.assemble segments).value, diagnostics⟩ := by
  simp only [parseReport, Session.start, read, Session.parse, Source.report_of_scan scanned,
    Bind.bind, Except.bind, Pure.pure, Except.pure]
  cases strict with
  | false => rfl
  | true => cases Diagnostic.sort ((s.assemble segments).findings.map s.diagnose) <;> rfl

/-- A text about which nothing is noted has a report in strict mode, too. -/
theorem parseReport_eq_ok (strict : Bool) (read : Source.ofString text = .ok s)
    (scanned : s.scan = .ok segments) (silent : (s.assemble segments).findings = []) :
    parseReport text strict = .ok ⟨(s.assemble segments).value, []⟩ := by
  have report := Source.report_of_scan scanned
  rw [silent, List.map_nil, Diagnostic.sort, List.mergeSort_nil] at report
  simp [parseReport, Session.start, read, Session.parse, report, Bind.bind, Except.bind, Pure.pure,
    Except.pure]

theorem parseReport_of_ofString {strict : Bool} {error : LexError}
    (read : Source.ofString text = .error error) :
    parseReport text strict = .error (.lex error) := by
  simp [parseReport, Session.start, read, Bind.bind, Except.bind]

theorem parseReport_of_scan {strict : Bool} {error : ScanError}
    (read : Source.ofString text = .ok s) (scanned : s.scan = .error error) :
    parseReport text strict = .error (.scan error) := by
  simp [parseReport, Session.start, read, Session.parse, Source.report, scanned, Bind.bind,
    Except.bind]

/-- Only a text about which nothing is noted has a report in strict mode. -/
theorem parseReport_true_eq_ok {report : Report} (read : Source.ofString text = .ok s)
    (scanned : s.scan = .ok segments) (parsed : parseReport text true = .ok report) :
    (s.assemble segments).findings = [] ∧ report = ⟨(s.assemble segments).value, []⟩ := by
  simp only [parseReport, Session.start, read, Session.parse, Source.report_of_scan scanned,
    Bind.bind, Except.bind] at parsed
  cases sorted : Diagnostic.sort ((s.assemble segments).findings.map s.diagnose) with
  | nil =>
    rw [sorted] at parsed
    cases parsed
    have length := congrArg List.length sorted
    rw [Diagnostic.sort, List.length_mergeSort, List.length_map] at length
    exact ⟨List.length_eq_zero_iff.1 length, rfl⟩
  | cons first others =>
    rw [sorted] at parsed
    cases parsed

/-- A text with a report has tokens and segments, and in strict mode there are no diagnostics. -/
theorem exists_scan_of_parseReport {strict : Bool} {report : Report}
    (parsed : parseReport text strict = .ok report) :
    ∃ s segments, Source.ofString text = .ok s ∧ s.scan = .ok segments ∧
      report.diagnostics = Diagnostic.sort ((s.assemble segments).findings.map s.diagnose) ∧
      (strict = true → report.diagnostics = []) := by
  cases read : Source.ofString text with
  | error error =>
    rw [parseReport_of_ofString read] at parsed
    cases parsed
  | ok s =>
    cases scanned : s.scan with
    | error error =>
      rw [parseReport_of_scan read scanned] at parsed
      cases parsed
    | ok segments =>
      refine ⟨s, segments, rfl, scanned, ?_⟩
      cases strict with
      | false =>
        rw [parseReport_false read scanned] at parsed
        cases parsed
        exact ⟨rfl, fun strict => by cases strict⟩
      | true =>
        obtain ⟨silent, rfl⟩ := parseReport_true_eq_ok read scanned parsed
        rw [silent, List.map_nil, Diagnostic.sort, List.mergeSort_nil]
        exact ⟨rfl, fun _ => rfl⟩

end Dbml
