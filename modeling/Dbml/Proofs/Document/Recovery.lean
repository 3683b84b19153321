import Dbml.Proofs.Assembly.Removal
import Dbml.Proofs.Document.Relationships
import Dbml.Proofs.Statement.Removal

/-!
# Reading on after something is skipped

What is skipped may as well not be there: a table that is dropped, or a line of which it is noted
that it is skipped, leaves no trace in the database. Main statements: what a document lacks without
a segment it may do without (`assemble_removed_eq_iff`), and that it lacks nothing without a segment
that is skipped (`assemble_without_skipped`).
-/

namespace Dbml

open Segment

/-- The database of an assembly with the relationships that are stated besides. -/
def Assembly.database (a : Assembly) (stated : List Relationship) : Database :=
  { tables := a.tables
    relationships := (a.relationships ++ stated).map (·.resolve a.tables)
    tableGroups := a.groups
    project := a.project }

theorem length_filterMap_apart {α β : Type} (f : α → Option β) (p : α → Prop) [DecidablePred p]
    (xs : List α) : (xs.filterMap f).length =
      ((xs.filter (p ·)).filterMap f).length + ((xs.filter (¬ p ·)).filterMap f).length := by
  have apart := (List.filter_append_perm (fun a => decide (p a)) xs).filterMap f
  rw [List.filterMap_append] at apart
  simpa using apart.length_eq.symm

namespace Source

variable {s : Source} {segments rest children : List Segment} {x : Segment} {block : Block}
  {place : Place} {finding : Finding} {statement : Statement} {met tail : List TableBlock}

/-! ## Dropped tables -/

/-- A block is discovered once, so that it is dropped wherever it is discovered. -/
theorem discards_of_drops (ordered : Place.InOrder (places none segments))
    (drops : s.Drops segments block)
    (here : discovered segments = met ++ ⟨block, children⟩ :: tail) :
    s.Discards met ⟨block, children⟩ := by
  obtain ⟨met', children', tail', there, discards⟩ := drops
  have apart := nodup_discovered ordered
  rw [there, List.map_append, List.map_cons] at apart
  have before : ∀ found ∈ met', found.block.start ≠ block.start := fun found listed same =>
    (List.nodup_append'.1 apart).2.2 (List.mem_map.2 ⟨found, listed, same⟩) List.mem_cons_self
  have after : ∀ found ∈ tail', found.block.start ≠ block.start := fun found listed same =>
    (List.nodup_cons.1 (List.nodup_append'.1 apart).2.1).1 (List.mem_map.2 ⟨found, listed, same⟩)
  obtain ⟨rfl, same, -⟩ := (List.append_cons_inj_of_notMem
    (fun listed => before ⟨block, children⟩ listed rfl)
    (fun listed => after ⟨block, children⟩ listed rfl)).1 (there.symm.trans here)
  rwa [← same]

theorem kind_of_drops (drops : s.Drops segments block) : block.kind = .table := by
  obtain ⟨met, children, tail, split, -⟩ := drops
  have found : ⟨block, children⟩ ∈ discovered segments := by rw [split]; simp
  exact (exists_place_of_mem_discovered found).1

theorem spares_of_drops (ordered : Place.InOrder (places none segments))
    (drops : s.Drops segments block) :
    s.Spares segments (.block block children) (places none segments) := by
  intro around here
  obtain ⟨met, children', tail, split, -⟩ := id drops
  have found : ⟨block, children'⟩ ∈ discovered segments := by rw [split]; simp
  obtain ⟨kind, outer, groups, there⟩ := exists_place_of_mem_discovered found
  cases ordered.eq_of_start_eq here there rfl
  exact .dropped kind groups fun met tail split => discards_of_drops ordered drops split

/-! ## What is noted to be skipped -/

theorem exists_of_mem_assemble (noted : finding ∈ (s.assemble segments).findings) :
    finding ∈ (Assembly.ofSegments s segments).findings ∨
      ∃ statement ∈ s.collected segments,
        finding ∈ (s.statedRelationship statement).findings := by
  rw [assemble, Noted.bind_findings, Noted.bind_findings, Noted.pure_findings, List.append_nil,
    statedRelationships_findings] at noted
  exact (List.mem_append.1 noted).imp_right List.mem_flatMap.1

theorem position_eq_of_noted (noted : finding ∈ (s.statedRelationship statement).findings) :
    finding.position = statement.position := by
  cases statement with
  | unknown position | nested position =>
    rw [List.mem_singleton.1 noted]
    rfl
  | reference position range name =>
    rw [statedRelationship] at noted
    cases read : s.reference range name with
    | error fault =>
      rw [read] at noted
      rw [List.mem_singleton.1 noted]
      rfl
    | ok reference =>
      rw [read] at noted
      dsimp only at noted
      split at noted
      · rw [List.mem_singleton.1 noted]
        rfl
      · cases noted

theorem accepted?_eq_none_of_noted (noted : finding ∈ (s.statedRelationship statement).findings)
    (skips : finding.cause.skips = true) : s.accepted? statement = none := by
  cases statement with
  | unknown position | nested position => rfl
  | reference position range name =>
    rw [statedRelationship] at noted
    rw [accepted?]
    cases read : s.reference range name with
    | error fault => rfl
    | ok reference =>
      rw [read] at noted
      dsimp only at noted
      split at noted
      · rw [List.mem_singleton.1 noted] at skips
        cases skips
      · cases noted

/-- What is noted to be skipped is overlooked while the tables and groups are read. -/
theorem overlooks_of_noted (ordered : Place.InOrder (places none segments))
    (noted : finding ∈ (s.assemble segments).findings) (skips : finding.cause.skips = true)
    (here : place ∈ places none segments) (same : place.start = finding.position) :
    s.Overlooks place := by
  rcases exists_of_mem_assemble noted with early | ⟨statement, made, late⟩
  · obtain ⟨other, there, begins, passed⟩ := Assembly.tells_of_ofSegments early skips
    cases ordered.eq_of_start_eq here there (same.trans begins.symm)
    exact .inl ⟨_, passed⟩
  · obtain ⟨other, there, states⟩ := exists_states (fun _ => rfl) (by simp) made
    have begins : other.start = finding.position :=
      states.position_eq.symm.trans (position_eq_of_noted late).symm
    cases ordered.eq_of_start_eq here there (same.trans begins.symm)
    exact .inr ⟨_, states⟩

theorem spares_of_noted {cause : Cause} (ordered : Place.InOrder (places none segments))
    (noted : ⟨x.start, cause⟩ ∈ (s.assemble segments).findings) (skips : cause.skips = true) :
    s.Spares segments x (places none segments) :=
  fun _ here => .overlooked (overlooks_of_noted ordered noted skips here rfl)

/-- A line that is passed over is no statement. -/
theorem PassesOver.not_states {cause : Cause} (passed : s.PassesOver place cause)
    (skips : cause.skipsLine = true) : ¬ s.States place statement := by
  intro states
  cases passed with
  | tableLine kind _ reference =>
    cases states with
    | line _ short => rw [reference] at short; cases short
    | listed other => rw [kind] at other; cases other
  | groupLine kind _ reference =>
    cases states with
    | line _ short => rw [reference] at short; cases short
    | listed other => rw [kind] at other; cases other
  | @index block _ _ kind =>
    cases states with
    | line other => rcases other block rfl with other | other <;> rw [kind] at other <;> cases other
    | listed other => rw [kind] at other; cases other
  | unsupported | inTable | inGroup => cases skips

/-- A line of which it is noted that it is skipped makes no relationship. -/
theorem refused_of_noted (ordered : Place.InOrder (places none segments))
    (noted : finding ∈ (s.assemble segments).findings) (skips : finding.cause.skipsLine = true)
    (made : statement ∈ s.collected segments)
    (same : statement.position = finding.position) : s.accepted? statement = none := by
  have skipsAny := Cause.skips_of_skipsLine skips
  rcases exists_of_mem_assemble noted with early | ⟨other, listed, late⟩
  · -- The line is passed over, and the statement at its first token would have to be the line's.
    obtain ⟨place, here, begins, passed⟩ := Assembly.tells_of_ofSegments early skipsAny
    obtain ⟨place', there, states⟩ := exists_states (fun _ => rfl) (by simp) made
    cases ordered.eq_of_start_eq there here
      (states.position_eq.symm.trans (same.trans begins.symm))
    exact absurd states (passed.not_states skips)
  · -- Another statement is noted at the token, and no two statements begin at one token.
    have apart : ((s.collected segments).map Statement.position).Nodup :=
      ordered.nodup.sublist (sublist_positions s _ true none segments)
    have equal := List.inj_on_of_nodup_map apart made listed
      (same.trans (position_eq_of_noted late))
    rw [equal]
    exact accepted?_eq_none_of_noted late skipsAny

/-! ## The database without the segment -/

theorem assemble_value (s : Source) (segments : List Segment) :
    (s.assemble segments).value =
      (Assembly.ofSegments s segments).value.database
        ((s.collected segments).filterMap s.accepted?) := by
  rw [collected, ← statedRelationships_value]
  rfl

section

variable (ordered : Place.InOrder (places none segments)) (removed : Removed x segments rest)
  (spares : s.Spares segments x (places none segments))

include ordered removed spares

/-- Without a dispensable segment the database is the same, but for the relationships of statements
that begin in the segment. -/
theorem assemble_removed :
    (s.assemble rest).value = (Assembly.ofSegments s segments).value.database
      (((s.collected segments).filter (¬ ·.position ∈ x.starts)).filterMap s.accepted?) := by
  obtain ⟨dropped, same, agree⟩ := Assembly.sameBut_ofSegments removed spares
  rw [assemble_value s rest, collected, same, collected,
    ← (filter_statements ordered removed agree true).1]
  rfl

/-- A segment is missed when a statement that begins in it is accepted, and only then. -/
theorem assemble_removed_eq_iff : (s.assemble rest).value = (s.assemble segments).value ↔
    ∀ statement ∈ s.collected segments, statement.position ∈ x.starts →
      s.accepted? statement = none := by
  rw [assemble_removed ordered removed spares, assemble_value]
  constructor
  · -- Aliases are resolved one by one, so that equal databases have relationships in equal number.
    intro same statement made inside
    have lengths := congrArg (·.relationships.length) same
    simp only [Assembly.database, List.length_map, List.length_append, Nat.add_left_cancel_iff]
      at lengths
    have apart := length_filterMap_apart s.accepted? (·.position ∈ x.starts) (s.collected segments)
    have none : ((s.collected segments).filter (·.position ∈ x.starts)).filterMap s.accepted? =
        [] := List.eq_nil_of_length_eq_zero (by omega)
    exact List.filterMap_eq_nil_iff.1 none statement (by simp [made, inside])
  · intro refused
    congr 1
    rw [List.filterMap_filter]
    refine List.filterMap_congr fun statement made => ?_
    by_cases inside : statement.position ∈ x.starts
    · simp [inside, refused statement made inside]
    · simp [inside]

/-- A block without statements of its own is not missed. -/
theorem assemble_removed_of_quiet (isBlock : x = .block block children)
    (quiet : ∀ topLevel, s.segmentStatements (Assembly.ofSegments s segments).value.dropped topLevel
      (.block block children) = []) :
    (s.assemble rest).value = (s.assemble segments).value := by
  subst isBlock
  refine (assemble_removed_eq_iff ordered removed spares).2 fun statement made inside => ?_
  obtain ⟨dropped, -, agree⟩ := Assembly.sameBut_ofSegments removed spares
  obtain ⟨-, around, -, makes⟩ := filter_statements (s := s) ordered removed agree true
  have own : statement ∈ (s.collected segments).filter
      (·.position ∈ (Segment.block block children).starts) :=
    List.mem_filter.2 ⟨made, decide_eq_true inside⟩
  rw [collected] at own
  rcases makes.nothing_or_listed quiet with nothing | nested
  · rw [nothing] at own
    cases own
  · rw [nested, List.mem_singleton] at own
    rw [own]
    rfl

end

/-! ## What is skipped -/

/-- A table block that is dropped, or a line of which it is noted that it is skipped. -/
inductive Skipped (s : Source) (segments : List Segment) : Segment → Prop
  | table {block : Block} {children : List Segment} (drops : s.Drops segments block) :
    s.Skipped segments (.block block children)
  | line {line : TokenRange} {cause : Cause}
    (noted : ⟨line.start, cause⟩ ∈ (s.assemble segments).findings)
    (skips : cause.skipsLine = true) : s.Skipped segments (.line line)

theorem assemble_removed_of_skipped (ordered : Place.InOrder (places none segments))
    (removed : Removed x segments rest) (skipped : s.Skipped segments x) :
    (s.assemble rest).value = (s.assemble segments).value := by
  cases skipped with
  | @line line cause noted skips =>
    have skipsAny := Cause.skips_of_skipsLine skips
    refine (assemble_removed_eq_iff ordered removed (spares_of_noted ordered noted skipsAny)).2 ?_
    intro statement made inside
    exact refused_of_noted ordered noted skips made (List.mem_singleton.1 inside)
  | @table block children drops =>
    have drop : (Assembly.ofSegments s segments).value.dropped.contains block.start = true := by
      simpa using Assembly.mem_dropped_iff.2 ⟨block, drops, rfl⟩
    have spares : s.Spares segments (.block block children) (places none segments) :=
      spares_of_drops ordered drops
    refine assemble_removed_of_quiet ordered removed spares rfl fun topLevel => ?_
    rw [segmentStatements, kind_of_drops drops]
    simp only [drop, if_true]

/-- A document without something that is skipped gives the same database. -/
theorem assemble_without_skipped {text : String} {database : Database}
    (parsed : parse text = .ok database) :
    ∃ s segments, ofString text = .ok s ∧ s.scan = .ok segments ∧
      parseReport text false =
        .ok ⟨database, Diagnostic.sort ((s.assemble segments).findings.map s.diagnose)⟩ ∧
      ∀ x rest, s.Skipped segments x → Removed x segments rest →
        (s.assemble rest).value = database := by
  obtain ⟨s, segments, read, scanned, rfl⟩ := parse_eq_ok.1 parsed
  exact ⟨s, segments, read, scanned, parseReport_false read scanned, fun x rest skipped removed =>
    assemble_removed_of_skipped (inOrder_places scanned) removed skipped⟩

/-- Whether a cause of the given sort is noted at the token. -/
def notes (s : Source) (segments : List Segment) (sort : Cause → Bool) (position : Nat) : Bool :=
  (s.assemble segments).findings.any fun finding =>
    finding.position == position && sort finding.cause

theorem exists_of_notes {sort : Cause → Bool} {position : Nat}
    (noted : s.notes segments sort position = true) :
    ∃ cause, ⟨position, cause⟩ ∈ (s.assemble segments).findings ∧ sort cause = true := by
  obtain ⟨⟨there, cause⟩, listed, told⟩ := List.any_eq_true.1 noted
  obtain ⟨same, sorted⟩ := Bool.and_eq_true_iff.1 told
  cases beq_iff_eq.1 same
  exact ⟨cause, listed, sorted⟩

/-- Whether a segment is skipped, as it is computed. -/
def isSkipped (s : Source) (segments : List Segment) : Segment → Bool
  | .line range => s.notes segments Cause.skipsLine range.start
  | .block b _ => (Assembly.ofSegments s segments).value.dropped.contains b.start

theorem skipped_of_isSkipped (scanned : s.scan = .ok segments) (removed : Removed x segments rest)
    (found : s.isSkipped segments x = true) : s.Skipped segments x := by
  cases x with
  | line line =>
    obtain ⟨cause, noted, skips⟩ := exists_of_notes found
    exact .line noted skips
  | block block children =>
    obtain ⟨outer, here⟩ := removed.exists_place none
    have drop : block.start ∈ (Assembly.ofSegments s segments).value.dropped :=
      List.contains_iff_mem.1 found
    exact .table ((mem_dropped_iff_drops (inOrder_places scanned) here).1 drop)

/-- A table with a line that is none, a reference that is none, and a repeated table with a
reference. -/
def brokenText : String :=
  "Table a \x7b\nid int\noops\nRef: a\n\x7d\nTable a \x7b\nRef: a.q > b.q\n\x7d\n"

theorem assemble_without_skipped_brokenText :
    ∃ database, parse brokenText = .ok database ∧
      ∃ s segments, ofString brokenText = .ok s ∧ s.scan = .ok segments ∧
        ((removals segments).filter (s.isSkipped segments ·.1)).length = 3 ∧
        ∀ removal ∈ (removals segments).filter (s.isSkipped segments ·.1),
          (s.assemble removal.2).value = database := by
  have evaluated : (ofString brokenText).toOption.map (fun s => s.scan.toOption.map fun segments =>
      ((removals segments).filter (s.isSkipped segments ·.1)).length) = some (some 3) := by
    decide +kernel
  obtain ⟨s, read, cut⟩ := Option.map_eq_some_iff.1 evaluated
  obtain ⟨segments, scanned, three⟩ := Option.map_eq_some_iff.1 cut
  have read := eq_ok_of_toOption read
  have scanned := eq_ok_of_toOption scanned
  have parsed : parse brokenText = .ok (s.assemble segments).value :=
    parse_eq_ok.2 ⟨s, segments, read, scanned, rfl⟩
  refine ⟨_, parsed, s, segments, read, scanned, three, fun removal listed => ?_⟩
  obtain ⟨s', segments', read', scanned', -, same⟩ := assemble_without_skipped parsed
  cases read.symm.trans read'
  cases scanned.symm.trans scanned'
  obtain ⟨there, found⟩ := List.mem_filter.1 listed
  have removed := Removed.iff_mem_removals.2 there
  exact same _ _ (skipped_of_isSkipped scanned removed found) removed

end Source

end Dbml
