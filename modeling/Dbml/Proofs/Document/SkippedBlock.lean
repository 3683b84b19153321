import Dbml.Proofs.Document.Recovery

/-!
# Blocks that are skipped

A block of which it is noted that it is skipped leaves no trace in the database, except for the
references that are found inside it: groups and tables are searched for references also where they
are skipped. Main statement: `assemble_without_block`.
-/

namespace Dbml

open Segment

namespace Source

variable {s : Source} {segments rest children : List Segment} {x : Segment} {block : Block}

/-- A database without a block is the one with it, but for the references found in the block. -/
structure MissesReferences (s : Source) (segments : List Segment) (x : Segment)
    (database without : Database) : Prop where
  tables : without.tables = database.tables
  tableGroups : without.tableGroups = database.tableGroups
  project : without.project = database.project
  relationships : without.relationships.Sublist database.relationships
  same_iff : without = database ↔ ∀ statement, s.Refers (s.Drops segments) segments statement →
    statement.position ∈ x.starts → s.accepted? statement = none

theorem missesReferences (ordered : Place.InOrder (places none segments))
    (removed : Removed x segments rest)
    (spares : s.Spares segments x (places none segments)) :
    s.MissesReferences segments x (s.assemble segments).value (s.assemble rest).value := by
  have without := assemble_removed ordered removed spares
  refine ⟨?_, ?_, ?_, ?_, ?_⟩
  · rw [without]
    rfl
  · rw [without]
    rfl
  · rw [without]
    rfl
  · rw [without, assemble_value]
    exact ((List.filter_sublist.filterMap _).append_left _).map _
  · rw [assemble_removed_eq_iff ordered removed spares]
    constructor
    · intro refused statement refers inside
      exact refused statement (List.mem_filter.1 ((mem_references ordered).2 refers)).1 inside
    · intro refused statement made inside
      cases reference : statement.isReference with
      | false => exact accepted?_eq_none statement reference
      | true =>
        exact refused statement
          ((mem_references ordered).1 (List.mem_filter.2 ⟨made, reference⟩)) inside

/-- A block that is skipped is missed for the references found in it only, and not at all when it
is neither a table nor a group nor a `Ref` block. -/
theorem assemble_without_block {text : String} {database : Database}
    (parsed : parse text = .ok database) :
    ∃ s segments, ofString text = .ok s ∧ s.scan = .ok segments ∧
      parseReport text false =
        .ok ⟨database, Diagnostic.sort ((s.assemble segments).findings.map s.diagnose)⟩ ∧
      ∀ block children rest cause, ⟨block.start, cause⟩ ∈ (s.assemble segments).findings →
        cause.skipsBlock = true → Removed (.block block children) segments rest →
          s.MissesReferences segments (.block block children) database (s.assemble rest).value ∧
          (block.kind ∉ [BlockKind.table, .tableGroup, .ref] →
            (s.assemble rest).value = database) := by
  obtain ⟨s, segments, read, scanned, rfl⟩ := parse_eq_ok.1 parsed
  refine ⟨s, segments, read, scanned, parseReport_false read scanned, ?_⟩
  intro block children rest cause noted skips removed
  have ordered := inOrder_places scanned
  have spares : s.Spares segments (.block block children) (places none segments) :=
    spares_of_noted ordered noted (Cause.skips_of_skipsBlock skips)
  refine ⟨missesReferences ordered removed spares, fun other => ?_⟩
  refine assemble_removed_of_quiet ordered removed spares rfl fun topLevel => ?_
  rw [segmentStatements]
  split
  next kind => simp [kind] at other
  next kind => simp [kind] at other
  next kind => simp [kind] at other
  · rfl

/-- The blocks of which it is noted that they are skipped, each with the segments without it. -/
def skippedBlocks (s : Source) (segments : List Segment) :
    List (Block × List Segment × List Segment) :=
  (removals segments).filterMap fun removal =>
    match removal.1 with
    | .line _ => none
    | .block b children =>
      if s.notes segments Cause.skipsBlock b.start then some (b, children, removal.2) else none

theorem exists_of_mem_skippedBlocks {skipped : Block × List Segment × List Segment}
    (listed : skipped ∈ s.skippedBlocks segments) :
    ∃ cause, ⟨skipped.1.start, cause⟩ ∈ (s.assemble segments).findings ∧
      cause.skipsBlock = true ∧ Removed (.block skipped.1 skipped.2.1) segments skipped.2.2 := by
  obtain ⟨⟨x, rest⟩, there, read⟩ := List.mem_filterMap.1 listed
  cases x with
  | line line => cases read
  | block block children =>
    dsimp only at read
    split at read
    next told =>
      cases read
      obtain ⟨cause, noted, skips⟩ := exists_of_notes told
      exact ⟨cause, noted, skips, Removed.iff_mem_removals.2 there⟩
    · cases read

/-- A table inside a table, with a reference. -/
def nestedTableText : String :=
  "Table a \x7b\n id int\n Table b \x7b\n  Ref: b.x > c.y\n \x7d\n\x7d\n"

/-- The inner table is skipped, and its reference makes a relationship all the same. -/
theorem exists_skipped_nestedTable :
    ∃ s segments block children rest cause, ofString nestedTableText = .ok s ∧
      s.scan = .ok segments ∧ ⟨block.start, cause⟩ ∈ (s.assemble segments).findings ∧
      cause.skipsBlock = true ∧ Removed (.block block children) segments rest ∧
      (s.assemble segments).value.relationships.length = 1 ∧
      (s.assemble rest).value.relationships.length = 0 := by
  have evaluated : (ofString nestedTableText).toOption.map (fun s =>
      s.scan.toOption.map fun segments => (s.skippedBlocks segments).map fun skipped =>
        ((s.assemble segments).value.relationships.length,
          (s.assemble skipped.2.2).value.relationships.length)) = some (some [(1, 0)]) := by
    decide +kernel
  obtain ⟨s, read, cut⟩ := Option.map_eq_some_iff.1 evaluated
  obtain ⟨segments, scanned, counted⟩ := Option.map_eq_some_iff.1 cut
  obtain ⟨skipped, alone, counts⟩ := List.map_eq_singleton_iff.1 counted
  have listed : skipped ∈ s.skippedBlocks segments := by simp [alone]
  obtain ⟨cause, noted, skips, removed⟩ := exists_of_mem_skippedBlocks listed
  exact ⟨s, segments, _, _, _, cause, eq_ok_of_toOption read, eq_ok_of_toOption scanned, noted,
    skips, removed, (Prod.mk.inj counts).1, (Prod.mk.inj counts).2⟩

theorem assemble_without_block_nestedTable :
    ∃ database, parse nestedTableText = .ok database ∧
      ∃ s segments block children rest, ofString nestedTableText = .ok s ∧
        s.scan = .ok segments ∧ Removed (.block block children) segments rest ∧
        s.MissesReferences segments (.block block children) database (s.assemble rest).value := by
  obtain ⟨s, segments, block, children, rest, cause, read, scanned, noted, skips, removed, -⟩ :=
    exists_skipped_nestedTable
  have parsed : parse nestedTableText = .ok (s.assemble segments).value :=
    parse_eq_ok.2 ⟨s, segments, read, scanned, rfl⟩
  obtain ⟨s', segments', read', scanned', -, without⟩ := assemble_without_block parsed
  cases read.symm.trans read'
  cases scanned.symm.trans scanned'
  exact ⟨_, parsed, s, segments, block, children, rest, read, scanned, removed,
    (without block children rest cause noted skips removed).1⟩

/-- A block that is skipped may leave a trace in the database. -/
theorem skipped_block_refers :
    ∃ s segments block children rest cause, ofString nestedTableText = .ok s ∧
      s.scan = .ok segments ∧ ⟨block.start, cause⟩ ∈ (s.assemble segments).findings ∧
      cause.skipsBlock = true ∧ Removed (.block block children) segments rest ∧
      (s.assemble rest).value ≠ (s.assemble segments).value := by
  obtain ⟨s, segments, block, children, rest, cause, read, scanned, noted, skips, removed, counts⟩
    := exists_skipped_nestedTable
  refine ⟨s, segments, block, children, rest, cause, read, scanned, noted, skips, removed, ?_⟩
  intro same
  rw [same, counts.1] at counts
  cases counts.2

end Source

end Dbml
