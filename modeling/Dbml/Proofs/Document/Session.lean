import Dbml.Proofs.Document.Parse
import Dbml.Proofs.Respacing.Locations
import Dbml.Proofs.Source.Contents

/-!
# Parsing again

A session parses its source again as it did the first time: a parse changes its diagnostics only,
and these do not matter for a parse. Main statement: `sessions_repeat`, with what a strict session
has to do with one that is not.
-/

namespace Dbml

namespace Diagnostic

/-- The second list is the first one by location. Diagnostics of one location keep their order. -/
structure ByLocation (noted sorted : List Diagnostic) : Prop where
  perm : sorted.Perm noted
  ordered : sorted.Pairwise fun a b => ¬ b.location.Before a.location
  stable : ∀ here, sorted.filter (·.location = here) = noted.filter (·.location = here)

theorem sort_perm (noted : List Diagnostic) : (sort noted).Perm noted :=
  List.mergeSort_perm noted _

theorem isAtMost_trans (a b c : Diagnostic) (first : a.location.isAtMost b.location = true)
    (second : b.location.isAtMost c.location = true) : a.location.isAtMost c.location = true := by
  rw [Location.isAtMost_iff] at first second ⊢
  omega

theorem isAtMost_total (a b : Diagnostic) :
    (a.location.isAtMost b.location || b.location.isAtMost a.location) = true := by
  rw [Bool.or_eq_true, Location.isAtMost_iff, Location.isAtMost_iff]
  omega

theorem sort_ordered (noted : List Diagnostic) :
    (sort noted).Pairwise fun a b => ¬ b.location.Before a.location := by
  refine (List.pairwise_mergeSort isAtMost_trans isAtMost_total noted).imp ?_
  intro a b atMost before
  rw [Location.Before, atMost] at before
  cases before

/-- Diagnostics of one location are in order already, so that sorting leaves them as they are. -/
theorem sort_stable (noted : List Diagnostic) (here : Location) :
    (sort noted).filter (·.location = here) = noted.filter (·.location = here) := by
  have ordered : (noted.filter (·.location = here)).Pairwise fun a b =>
      a.location.isAtMost b.location = true := by
    refine List.pairwise_of_forall_mem_list fun a first b second => ?_
    have first := of_decide_eq_true (List.mem_filter.1 first).2
    have second := of_decide_eq_true (List.mem_filter.1 second).2
    rw [first, second, Location.isAtMost_self]
  -- What is in order is found in order in the sorted list, and there is no more of it there.
  have kept := (List.sublist_mergeSort isAtMost_trans isAtMost_total ordered
    List.filter_sublist).filter (·.location = here)
  simp only [List.filter_filter, Bool.and_self] at kept
  exact (kept.eq_of_length ((sort_perm noted).filter _).length_eq.symm).symm

theorem byLocation_sort (noted : List Diagnostic) : ByLocation noted (sort noted) :=
  ⟨sort_perm noted, sort_ordered noted, sort_stable noted⟩

end Diagnostic

/-- What one parse of the source notes, in the order in which it is met. -/
def Source.noted (s : Source) : List Diagnostic :=
  match s.scan with
  | .ok segments => (s.assemble segments).findings.map s.diagnose
  | .error _ => []

namespace Session

variable (session : Session)

/-- A parse changes nothing but the diagnostics, and these are its own whatever comes of it. -/
theorem parse_after :
    session.parse.2 = { session with diagnostics := Diagnostic.sort session.source.noted } := by
  unfold parse Source.report Source.noted
  cases session.source.scan with
  | error error => simp [Bind.bind, Except.bind, Diagnostic.sort]
  | ok segments =>
    simp only [Bind.bind, Except.bind, Pure.pure, Except.pure]
    split <;> rfl

/-- The diagnostics that a session holds do not matter for a parse. -/
theorem parse_with (diagnostics : List Diagnostic) :
    { session with diagnostics }.parse = session.parse :=
  rfl

theorem parse_parse : session.parse.2.parse = session.parse := by
  rw [parse_after, parse_with]

/-- What a step is answered that comes behind others. -/
def answer (before : List Step) : Step → Answer
  | .parse => .parsed session.parse.1
  | .diagnostics => .diagnostics
      (if .parse ∈ before then session.parse.2.diagnostics else session.diagnostics)

theorem answer_cons_parse (before : List Step) (step : Step) :
    session.answer (.parse :: before) step = session.parse.2.answer before step := by
  cases step with
  | parse => rw [answer, answer, parse_parse]
  | diagnostics => rw [answer, answer, parse_parse, ite_self, if_pos List.mem_cons_self]

theorem answer_cons_diagnostics (before : List Step) (step : Step) :
    session.answer (.diagnostics :: before) step = session.answer before step := by
  cases step with
  | parse => rfl
  | diagnostics => simp [answer]

theorem run_getElem? (steps : List Step) (k : Nat) :
    (session.run steps)[k]? = steps[k]?.map (session.answer (steps.take k)) := by
  -- Behind a parse the steps are taken by another session, so the session is general.
  induction steps generalizing session k with
  | nil => rfl
  | cons step steps ih =>
    cases k with
    | zero => cases step <;> rfl
    | succ k =>
      rw [List.getElem?_cons_succ, List.take_succ_cons]
      cases step with
      | parse =>
        rw [run, List.getElem?_cons_succ, ih]
        exact Option.map_congr fun later _ => (session.answer_cons_parse _ later).symm
      | diagnostics =>
        rw [run, List.getElem?_cons_succ, ih]
        exact Option.map_congr fun later _ => (session.answer_cons_diagnostics _ later).symm

/-- Every parse has the one result. There are no diagnostics before the first parse, and behind it
there are always the same. -/
def Repeats (result : Except ParseError Database) (diagnostics : List Diagnostic) : Prop :=
  ∀ (steps : List Step) (k : Nat), (session.run steps)[k]? = steps[k]?.map fun
    | .parse => .parsed result
    | .diagnostics => .diagnostics (if .parse ∈ steps.take k then diagnostics else [])

variable {session} in
theorem repeats_of_unparsed (unparsed : session.diagnostics = []) :
    session.Repeats session.parse.1 (Diagnostic.sort session.source.noted) := by
  intro steps k
  rw [run_getElem?]
  refine Option.map_congr fun step _ => ?_
  cases step with
  | parse => rfl
  | diagnostics => rw [answer, parse_after, unparsed]

end Session

/-- What becomes of a text that is read strictly, and what becomes of it otherwise. -/
structure StrictOf (strict lenient : Except ParseError Report) : Prop where
  ok_iff : ∀ database, (∃ diagnostics, strict = .ok ⟨database, diagnostics⟩) ↔
    lenient = .ok ⟨database, []⟩
  strict_iff : ∀ first, strict = .error (.strict first) ↔
    ∃ database others, lenient = .ok ⟨database, first :: others⟩
  earliest : ∀ database first others, lenient = .ok ⟨database, first :: others⟩ →
    ∀ other ∈ others, ¬ other.location.Before first.location
  scan_iff : ∀ error, strict = .error (.scan error) ↔ lenient = .error (.scan error)

variable {text : String} {s : Source}

theorem parseReport_map_database (strict : Bool) (read : Source.ofString text = .ok s) :
    (parseReport text strict).map (·.database) = ({ source := s, strict } : Session).parse.1 := by
  simp only [parseReport, Session.start, read, Bind.bind, Except.bind]
  cases ({ source := s, strict } : Session).parse.1 <;> rfl

theorem strictOf_parseReport (read : Source.ofString text = .ok s) :
    StrictOf (parseReport text true) (parseReport text false) := by
  cases scanned : s.scan with
  | error error =>
    rw [parseReport_of_scan read scanned, parseReport_of_scan read scanned]
    exact ⟨by simp, by simp, by simp, fun _ => Iff.rfl⟩
  | ok segments =>
    have ordered := Diagnostic.sort_ordered ((s.assemble segments).findings.map s.diagnose)
    rw [parseReport_of_segments true read scanned, parseReport_false read scanned]
    cases sorted : Diagnostic.sort ((s.assemble segments).findings.map s.diagnose) with
    | nil => exact ⟨by simp, by simp, by simp, fun _ => Iff.rfl⟩
    | cons first others =>
      rw [sorted] at ordered
      refine ⟨by simp, by simp, ?_, fun _ => by simp⟩
      rintro database x rest same
      cases same
      exact (List.pairwise_cons.1 ordered).1

/-- However often the source of a session is parsed, every parse has the result of a fresh one. The
diagnostics are those of one parse by location, also when they are an error, and none when there are
no segments. A strict parse fails with the first diagnostic if there is any; if not, it has the
result of a parse that is not strict. -/
theorem sessions_repeat (read : Source.ofString text = .ok s) :
    ∃ diagnostics, Diagnostic.ByLocation s.noted diagnostics ∧
      (∀ strict, ∃ session, Session.start text strict = .ok session ∧
        session.Repeats ((parseReport text strict).map (·.database)) diagnostics) ∧
      (∀ report, parseReport text false = .ok report → report.diagnostics = diagnostics) ∧
      (∀ error, s.scan = .error error → diagnostics = [] ∧
        ∀ strict, parseReport text strict = .error (.scan error)) ∧
      StrictOf (parseReport text true) (parseReport text false) := by
  refine ⟨Diagnostic.sort s.noted, Diagnostic.byLocation_sort _, fun strict => ?_,
    fun report parsed => ?_, fun error scanned => ?_, strictOf_parseReport read⟩
  · refine ⟨{ source := s, strict }, by rw [Session.start, read], ?_⟩
    rw [parseReport_map_database strict read]
    exact Session.repeats_of_unparsed rfl
  · obtain ⟨t, segments, read', scanned, sorted, -⟩ := exists_scan_of_parseReport parsed
    cases read.symm.trans read'
    rw [sorted, Source.noted, scanned]
  · rw [Source.noted, scanned]
    exact ⟨List.mergeSort_nil, fun strict => parseReport_of_scan read scanned⟩

/-- A line of a table and one of a later group's table that are not understood. -/
def twoOddLinesText : String :=
  "Table t {
oops
}
TableGroup g {
Table u {
oops
}
}
"

theorem sessions_repeat_twoOddLinesText :
    ∃ s, Source.ofString twoOddLinesText = .ok s ∧
      s.noted.map (fun noted => noted.location.line) = [6, 2] ∧
      ∃ diagnostics, Diagnostic.ByLocation s.noted diagnostics ∧
        (∀ strict, ∃ session, Session.start twoOddLinesText strict = .ok session ∧
          session.Repeats ((parseReport twoOddLinesText strict).map (·.database)) diagnostics) ∧
        (∀ report, parseReport twoOddLinesText false = .ok report →
          report.diagnostics = diagnostics) ∧
        (∀ error, s.scan = .error error → diagnostics = [] ∧
          ∀ strict, parseReport twoOddLinesText strict = .error (.scan error)) ∧
        StrictOf (parseReport twoOddLinesText true) (parseReport twoOddLinesText false) := by
  have evaluated : (Source.ofString twoOddLinesText).toOption.map
      (fun s => s.noted.map fun noted => noted.location.line) = some [6, 2] := by
    decide +kernel
  obtain ⟨s, found, lines⟩ := Option.map_eq_some_iff.1 evaluated
  have read := eq_ok_of_toOption found
  exact ⟨s, read, lines, sessions_repeat read⟩

end Dbml
