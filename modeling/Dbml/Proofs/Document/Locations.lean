import Dbml.Proofs.Document.Parse
import Dbml.Proofs.Document.Positions
import Dbml.Proofs.Source.LineIndex

/-!
# Diagnostics in the order of the text

A location counts lines and characters, so that the order of locations is that of the text, and
diagnostics by location are those of the findings by token. Main statement: `locations_count`.
-/

namespace Dbml

open Text

variable {s : Source} {findings : List Finding}

/-- Diagnostics at tokens by location are those of the findings by token. -/
theorem sort_diagnose (run : Token.Run 0 s.chars s.lexemes.toList)
    (placed : ∀ finding ∈ findings, finding.position < s.size) :
    Diagnostic.sort (findings.map s.diagnose) =
      (findings.mergeSort fun a b => a.position ≤ b.position).map s.diagnose := by
  refine (List.map_mergeSort fun a first b second => ?_).symm
  have order := s.isAtMost_location run a.position b.position
  rw [Nat.min_eq_left (Nat.le_of_lt (placed a first)),
    Nat.min_eq_left (Nat.le_of_lt (placed b second))] at order
  exact order.symm

/-- Up to a byte at which a character begins, or up to the end, a location counts the line ends and
the characters behind the last of them; it is the one that is found in the index of lines. Of two
bytes at which characters begin the earlier one has the earlier location. So the diagnostics of a
source, which are sorted by location, are those of its findings by token. -/
theorem locations_count (text : String) :
    (∀ front rest offset, text.toList = front ++ rest →
      byteSize front = offset ∨ rest = [] ∧ byteSize front ≤ offset →
      Location.ofOffset text.toList offset =
        ⟨1 + front.count '\n', 1 + (front.rtakeWhile (· ≠ '\n')).length⟩ ∧
      (LineIndex.ofChars text.toList).locate offset = Location.ofOffset text.toList offset) ∧
    (∀ a b, IsBoundary text.toList a → IsBoundary text.toList b →
      ((Location.ofOffset text.toList a).Before (Location.ofOffset text.toList b) ↔ a < b)) ∧
    ∀ s report, Source.ofString text = .ok s → s.report = .ok report →
      ∃ segments, s.scan = .ok segments ∧
        (∀ finding ∈ (s.assemble segments).findings, finding.position < s.size) ∧
        report.diagnostics = ((s.assemble segments).findings.mergeSort
          fun a b => a.position ≤ b.position).map s.diagnose := by
  refine ⟨fun front rest offset parts start => ?_,
    fun a b first second => Location.before_ofOffset_iff first second,
    fun s report read reported => ?_⟩
  · refine ⟨?_, LineIndex.locate_eq _ _⟩
    rw [parts]
    exact Location.ofOffset_counts start
  · obtain ⟨chars, run⟩ := Source.ofString_eq_ok.1 read
    rw [← chars] at run
    cases scanned : s.scan with
    | error error =>
      rw [Source.report, scanned] at reported
      cases reported
    | ok segments =>
      rw [Source.report_of_scan scanned] at reported
      cases reported
      have placed := Source.position_lt_of_mem_findings scanned
      exact ⟨segments, rfl, placed, sort_diagnose run placed⟩

/-- A comment of which one character has two bytes, before a line that is noted after a later
one. -/
def accentedText : String :=
  "Table t {
/*é*/oops
}
TableGroup g {
Table u {
oops
}
}
"

theorem locations_count_accentedText :
    ∃ front rest, accentedText.toList = front ++ rest ∧ byteSize front = 16 ∧
      Location.ofOffset accentedText.toList 16 = ⟨2, 6⟩ ∧
      (LineIndex.ofChars accentedText.toList).locate 16 = ⟨2, 6⟩ ∧
      IsBoundary accentedText.toList 16 ∧ IsBoundary accentedText.toList 48 ∧
      (Location.ofOffset accentedText.toList 16).Before (Location.ofOffset accentedText.toList 48) ∧
      ∃ s report segments, Source.ofString accentedText = .ok s ∧ s.report = .ok report ∧
        s.scan = .ok segments ∧
        ((s.assemble segments).findings.map s.diagnose).map (·.location) = [⟨6, 1⟩, ⟨2, 6⟩] ∧
        report.diagnostics = ((s.assemble segments).findings.mergeSort
          fun a b => a.position ≤ b.position).map s.diagnose := by
  obtain ⟨counts, order, sorted⟩ := locations_count accentedText
  have parts : accentedText.toList = accentedText.toList.take 15 ++ accentedText.toList.drop 15 :=
    (List.take_append_drop 15 _).symm
  have size : byteSize (accentedText.toList.take 15) = 16 := by decide +kernel
  have first : IsBoundary accentedText.toList 16 := by decide +kernel
  have second : IsBoundary accentedText.toList 48 := by decide +kernel
  have counted : (⟨1 + (accentedText.toList.take 15).count '\n',
      1 + ((accentedText.toList.take 15).rtakeWhile (· ≠ '\n')).length⟩ : Location) = ⟨2, 6⟩ := by
    decide +kernel
  obtain ⟨located, indexed⟩ := counts _ _ 16 parts (.inl size)
  rw [counted] at located
  have evaluated : (Source.ofString accentedText).toOption.bind (fun s => s.scan.toOption.map
      fun segments => ((s.assemble segments).findings.map s.diagnose).map (·.location)) =
      some [⟨6, 1⟩, ⟨2, 6⟩] := by decide +kernel
  obtain ⟨s, segments, read, scanned, noted⟩ := exists_of_scanned
    (f := fun s segments => ((s.assemble segments).findings.map s.diagnose).map (·.location))
    evaluated
  have reported := Source.report_of_scan scanned
  obtain ⟨found, again, -, diagnostics⟩ := sorted s _ read reported
  cases scanned.symm.trans again
  exact ⟨_, _, parts, size, located, indexed.trans located, first, second,
    (order 16 48 first second).2 (by decide), s, _, segments, read, reported, scanned, noted,
    diagnostics⟩

end Dbml
