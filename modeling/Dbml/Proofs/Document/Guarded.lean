import Dbml.Proofs.Document.Parse
import Dbml.Proofs.Recovery.Guarded

/-!
# What is skipped is told

A line or block that is not of an accepted shape has a diagnostic at its first token, or lies in a
block that has one. Nothing is told in notes and projects and of blocks in `indexes`, so a text that
is parsed in strict mode may still hold segments there that are ignored. Main statement:
`rejected_told`.
-/

namespace Dbml

open Segment

/-- Whether the segment is a block of an unknown kind, of which the body is left alone. -/
def Place.isOpaque (place : Place) : Bool :=
  match place.segment with
  | .block inner _ => inner.kind.isOther
  | .line _ => false

namespace Source

variable {s : Source} {segments : List Segment}

/-- A sorted list of diagnostics has one for each place where something is noted. -/
theorem exists_diagnostic {x : Noted Database} {position : Nat} (noted : x.NotesAt position) :
    ∃ diagnostic ∈ Diagnostic.sort (x.findings.map s.diagnose),
      diagnostic.location = s.location position := by
  obtain ⟨finding, listed, rfl⟩ := noted
  exact ⟨s.diagnose finding, List.mem_mergeSort.2 (List.mem_map_of_mem listed), rfl⟩

/-- Every segment of a text that parses has an accepted shape, or there is a diagnostic located at
its first token or at that of a block around it, or it stands, itself or with such a block, where
nothing is told. In strict mode there is no diagnostic then. -/
theorem rejected_told {text : String} {strict : Bool} {report : Report}
    (parsed : parseReport text strict = .ok report) :
    ∃ s segments, ofString text = .ok s ∧ s.scan = .ok segments ∧
      (∀ place ∈ places none segments, s.accepts place = false →
        ∃ outer ∈ places none segments, place ∈ outer :: outer.segment.inside ∧
          ((∃ diagnostic ∈ report.diagnostics, diagnostic.location = s.location outer.start) ∨
            outer.isUnguarded = true)) ∧
      (strict = true → ∀ place ∈ places none segments, s.accepts place = true ∨
        ∃ outer ∈ places none segments, place ∈ outer :: outer.segment.inside ∧
          outer.isUnguarded = true) := by
  obtain ⟨s, segments, read, scanned, diagnostics, strictly⟩ := exists_scan_of_parseReport parsed
  have told : ∀ place ∈ places none segments, s.accepts place = false →
      ∃ outer ∈ places none segments, place ∈ outer :: outer.segment.inside ∧
        ((∃ diagnostic ∈ report.diagnostics, diagnostic.location = s.location outer.start) ∨
          outer.isUnguarded = true) := by
    intro place here rejected
    obtain ⟨outer, there, within, noted⟩ := guards_assemble s segments place here rejected
    refine ⟨outer, there, within, noted.imp_left fun noted => ?_⟩
    rw [diagnostics]
    exact exists_diagnostic noted
  refine ⟨s, segments, read, scanned, told, fun strict place here => ?_⟩
  cases accepted : s.accepts place with
  | true => exact .inl rfl
  | false =>
    obtain ⟨outer, there, within, ⟨diagnostic, listed, -⟩ | unguarded⟩ := told place here accepted
    · rw [strictly strict] at listed
      cases listed
    · exact .inr ⟨outer, there, within, unguarded⟩

/-- A text with a segment of no accepted shape at the top level, in a group, in a table, in
`indexes`, in a `Ref` block and in a project. -/
def rejectedText : String :=
  "oops\nTableGroup g \x7b\n a > b\n\x7d\nTable t \x7b\n id int\n : x\n" ++
    " indexes \x7b\n  (id)\n  ,\n \x7d\n\x7d\nRef \x7b\n t.id\n\x7d\n" ++
    "Project p \x7b\n foo bar\n\x7d\n"

/-- All but the last one are told. -/
theorem rejected_told_rejectedText :
    ∃ report, parseReport rejectedText false = .ok report ∧ report.diagnostics.length = 5 ∧
      ∃ s segments, ofString rejectedText = .ok s ∧ s.scan = .ok segments ∧
        ((places none segments).filter (!s.accepts ·)).map Place.isUnguarded =
          [false, false, false, false, false, true] ∧
        ∀ place ∈ places none segments, s.accepts place = false →
          ∃ outer ∈ places none segments, place ∈ outer :: outer.segment.inside ∧
            ((∃ diagnostic ∈ report.diagnostics, diagnostic.location = s.location outer.start) ∨
              outer.isUnguarded = true) := by
  have evaluated : (ofString rejectedText).toOption.bind (fun s =>
      s.scan.toOption.map fun segments => ((s.assemble segments).findings.length,
        ((places none segments).filter (!s.accepts ·)).map Place.isUnguarded)) =
      some (5, [false, false, false, false, false, true]) := by
    decide +kernel
  obtain ⟨s, found, cut⟩ := Option.bind_eq_some_iff.1 evaluated
  obtain ⟨segments, scanned, counted⟩ := Option.map_eq_some_iff.1 cut
  have read := eq_ok_of_toOption found
  have parsed := parseReport_false read (eq_ok_of_toOption scanned)
  obtain ⟨s', segments', read', scanned', told, -⟩ := rejected_told parsed
  cases read.symm.trans read'
  cases (eq_ok_of_toOption scanned).symm.trans scanned'
  refine ⟨_, parsed, ?_, s, segments, read, scanned', (Prod.mk.inj counted).2, told⟩
  rw [Diagnostic.sort, List.length_mergeSort, List.length_map]
  exact (Prod.mk.inj counted).1

/-- A line of a project that says nothing. -/
def silentText : String :=
  "Project p \x7b\n foo bar\n\x7d\n"

/-- A text may be parsed in strict mode though a line of it is ignored. -/
theorem rejected_untold :
    ∃ s segments place report, ofString silentText = .ok s ∧ s.scan = .ok segments ∧
      parseReport silentText true = .ok report ∧ report.diagnostics = [] ∧
      place ∈ places none segments ∧ s.accepts place = false ∧
      ∀ outer ∈ places none segments, outer.isOpaque = false := by
  have evaluated : (ofString silentText).toOption.bind (fun s =>
      s.scan.toOption.map fun segments => ((s.assemble segments).findings,
        (places none segments).any (!s.accepts ·),
        (places none segments).all fun outer => !outer.isOpaque)) = some ([], true, true) := by
    decide +kernel
  obtain ⟨s, read, cut⟩ := Option.bind_eq_some_iff.1 evaluated
  obtain ⟨segments, scanned, found⟩ := Option.map_eq_some_iff.1 cut
  obtain ⟨silent, found⟩ := Prod.mk.inj found
  obtain ⟨rejects, clear⟩ := Prod.mk.inj found
  obtain ⟨place, here, rejected⟩ := List.any_eq_true.1 rejects
  have parsed := parseReport_eq_ok true (eq_ok_of_toOption read) (eq_ok_of_toOption scanned) silent
  refine ⟨s, segments, place, _, eq_ok_of_toOption read, eq_ok_of_toOption scanned, parsed, rfl,
    here, by simpa using rejected, fun outer there => ?_⟩
  simpa using List.all_eq_true.1 clear outer there

end Source

end Dbml
