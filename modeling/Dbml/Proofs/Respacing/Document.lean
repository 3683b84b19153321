import Dbml.Proofs.Document.Parse
import Dbml.Proofs.Respacing.Assembling
import Dbml.Proofs.Respacing.Locations

/-!
# Documents with more line ends

Line ends that are added where they may be do not change what a document says: it has the same
database, and the same reasons are given for what was passed over, in the same order. Main
statement: `parseReport_insertBreaks`.
-/

namespace Dbml

open Source Text

/-- Whether the first finding is reported no later than the second. -/
def Source.comesFirst (s : Source) (a b : Finding) : Bool :=
  (s.location a.position).isAtMost (s.location b.position)

theorem reasons_sort (s : Source) (findings : List Finding) :
    (Diagnostic.sort (findings.map s.diagnose)).map (·.reason) =
      (findings.mergeSort s.comesFirst).map (·.cause.message) := by
  have sorted : (findings.mergeSort s.comesFirst).map s.diagnose =
      Diagnostic.sort (findings.map s.diagnose) := List.map_mergeSort fun _ _ _ _ => rfl
  rw [← sorted, List.map_map]
  rfl

namespace Respaced

variable {s s' : Source} {shift : Nat → Nat} (respaced : Respaced s s' shift)

include respaced

theorem place_le_iff {i j : Nat} : i + shift i ≤ j + shift j ↔ i ≤ j := by
  refine ⟨fun order => Nat.not_lt.1 fun less => ?_,
    fun order => Nat.add_le_add order (respaced.shift_le order)⟩
  exact Nat.not_lt.2 order (respaced.place_lt less)

theorem place_injective : Function.Injective fun i => i + shift i := by
  intro i j same
  exact Nat.le_antisymm (respaced.place_le_iff.1 (Nat.le_of_eq same))
    (respaced.place_le_iff.1 (Nat.le_of_eq same.symm))

theorem min_place (i : Nat) :
    min (i + shift i) s'.size = min i s.size + shift (min i s.size) := by
  rw [respaced.size]
  rcases Nat.le_total i s.size with inside | behind
  · rw [Nat.min_eq_left inside, Nat.min_eq_left (respaced.place_le_iff.2 inside)]
  · rw [Nat.min_eq_right behind, Nat.min_eq_right (respaced.place_le_iff.2 behind)]

/-- Two tokens stand in the same order as before. -/
theorem isAtMost_location (run : Token.Run 0 s.chars s.lexemes.toList)
    (run' : Token.Run 0 s'.chars s'.lexemes.toList) (i j : Nat) :
    (s'.location (i + shift i)).isAtMost (s'.location (j + shift j)) =
      (s.location i).isAtMost (s.location j) := by
  rw [Source.isAtMost_location run', Source.isAtMost_location run, respaced.min_place,
    respaced.min_place]
  exact decide_eq_decide.2 respaced.place_le_iff

/-- Findings at their new places are reported in the same order. -/
theorem map_reason_sort (run : Token.Run 0 s.chars s.lexemes.toList)
    (run' : Token.Run 0 s'.chars s'.lexemes.toList) (findings : List Finding) :
    (Diagnostic.sort
        ((findings.map (Finding.move fun i => i + shift i)).map s'.diagnose)).map (·.reason) =
      (Diagnostic.sort (findings.map s.diagnose)).map (·.reason) := by
  rw [reasons_sort, reasons_sort]
  have moved : (findings.mergeSort s.comesFirst).map (Finding.move fun i => i + shift i) =
      (findings.map (Finding.move fun i => i + shift i)).mergeSort s'.comesFirst :=
    List.map_mergeSort fun a _ b _ =>
      (respaced.isAtMost_location run run' a.position b.position).symm
  rw [← moved, List.map_map]
  rfl

end Respaced

/-- Line ends added where they may be leave a text that parses to the same database, with the same
reasons for what was passed over. -/
theorem parseReport_insertBreaks {text : String} {strict : Bool} {report : Report} {s : Source}
    {segments : List Segment} {breaks : Nat → Nat} (parsed : parseReport text strict = .ok report)
    (read : Source.ofString text = .ok s) (scanned : s.scan = .ok segments)
    (may : ∀ p, breaks p ≠ 0 → s.MayBreak segments p) :
    ∃ report',
      parseReport (String.ofList (insertBreaks breaks 0 text.toList)) strict = .ok report' ∧
      report'.database = report.database ∧
      report'.diagnostics.map (·.reason) = report.diagnostics.map (·.reason) ∧
      parse (String.ofList (insertBreaks breaks 0 text.toList)) = .ok report.database := by
  obtain ⟨s', read', respaced⟩ := respaced_ofString read fun p broken => (may p broken).placed
  obtain ⟨chars, run⟩ := ofString_eq_ok.1 read
  obtain ⟨chars', run'⟩ := ofString_eq_ok.1 read'
  rw [← chars] at run
  rw [← chars'] at run'
  obtain ⟨segments', scanned', moved⟩ :=
    respaced.scan scanned fun k differ => mayPart_of_shiftBy run may differ
  obtain ⟨same, found⟩ := Relocated.assemble respaced.place_injective moved
  have reasons := respaced.map_reason_sort run run' (s.assemble segments).findings
  rw [← found] at reasons
  cases strict with
  | false =>
    rw [parseReport_false read scanned] at parsed
    cases parsed
    exact ⟨_, parseReport_false read' scanned', same.symm, reasons,
      parse_eq_ok.2 ⟨s', segments', read', scanned', same.symm⟩⟩
  | true =>
    obtain ⟨silent, rfl⟩ := parseReport_true_eq_ok read scanned parsed
    rw [silent] at found
    exact ⟨_, parseReport_eq_ok true read' scanned' found, same.symm, rfl,
      parse_eq_ok.2 ⟨s', segments', read', scanned', same.symm⟩⟩

/-- A table with a block inside, and two lines that are passed over. -/
def spacedText : String :=
  "Table t [note: 'n'] \x7b\n  id int\n  x\n  indexes \x7b id \x7d\n\x7d\nstray\n"

/-- Two line ends before and behind the first brace, behind the first column, before the inner
closing brace and at the end. -/
def spacedBreaks (p : Nat) : Nat :=
  if p ∈ [20, 21, 31, 50, 60] then 2 else 0

theorem parseReport_insertBreaks_spaced :
    ∃ s segments report report', Source.ofString spacedText = .ok s ∧ s.scan = .ok segments ∧
      (∀ p, spacedBreaks p ≠ 0 → s.MayBreak segments p) ∧
      parseReport spacedText false = .ok report ∧
      parseReport (String.ofList (insertBreaks spacedBreaks 0 spacedText.toList)) false =
        .ok report' ∧
      report'.database = report.database ∧
      report'.diagnostics.map (·.reason) = report.diagnostics.map (·.reason) := by
  have evaluated : (Source.ofString spacedText).toOption.bind (fun s =>
      s.scan.toOption.map fun segments =>
        [20, 21, 31, 50, 60].all fun p => decide (s.MayBreak segments p)) = some true := by
    decide +kernel
  obtain ⟨s, read, cut⟩ := Option.bind_eq_some_iff.1 evaluated
  obtain ⟨segments, scanned, listed⟩ := Option.map_eq_some_iff.1 cut
  have read := eq_ok_of_toOption read
  have scanned := eq_ok_of_toOption scanned
  have may : ∀ p, spacedBreaks p ≠ 0 → s.MayBreak segments p := by
    intro p broken
    refine of_decide_eq_true (List.all_eq_true.1 listed p ?_)
    exact Decidable.not_not.1 fun other => broken (if_neg other)
  have parsed := parseReport_false read scanned
  obtain ⟨report', parsed', same, reasons, -⟩ := parseReport_insertBreaks parsed read scanned may
  exact ⟨s, segments, _, report', read, scanned, may, parsed, parsed', same, reasons⟩

end Dbml
