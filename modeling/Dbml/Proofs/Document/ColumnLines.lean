import Dbml.Proofs.Assembly.Discovery
import Dbml.Proofs.Document.Guarded
import Dbml.Proofs.Respacing.Lines
import Dbml.Proofs.Table.Body

/-!
# What is read on the line of a column

A column is read off a line from its name, its type and the first brackets behind them. A line on
which nothing is noted may hold other tokens between the type and the brackets, behind the brackets
or, without brackets, behind the type; none of them counts for the column. Main statement:
`column_line_read`; a word that is passed over is `column_passes_over`.
-/

namespace Dbml

/-- A line of a table that declares a column, and the key of the table. -/
structure ColumnLine where
  key : String
  line : TokenRange
  declared : DeclaredColumn

namespace Source

/-- The columns that the lines of a table declare. -/
def columnLinesOf (s : Source) (key : String) (body : List Segment) : List ColumnLine :=
  body.filterMap fun x =>
    match x with
    | .line line => (s.columnIn? key (.line line)).map fun declared => ⟨key, line, declared⟩
    | .block _ _ => none

/-- The lines that declare columns, in all tables of a document. -/
def columnLines (s : Source) (segments : List Segment) : List ColumnLine :=
  (Segment.discovered segments).flatMap fun found =>
    (s.declared? found).elim [] fun table => s.columnLinesOf table.key found.children

/-- From token `next` up to `stop` there is nothing, or one list in brackets. -/
def IsSettingsList (s : Source) (next stop : Nat) : Prop :=
  next = stop ∨ s.isMark next .openBracket = true ∧
    ∃ closing ∈ s.matching next stop .openBracket .closeBracket, closing + 1 = stop

instance (s : Source) (next stop : Nat) : Decidable (s.IsSettingsList next stop) :=
  inferInstanceAs (Decidable (_ ∨ _ ∧ _))

/-- The line is a name, a type and at most one list in brackets, and nothing else. -/
def IsColumnLine (s : Source) (line : TokenRange) : Prop :=
  ∃ head ∈ s.columnHead? line, s.IsSettingsList head.2.2 line.stop

instance (s : Source) (line : TokenRange) : Decidable (s.IsColumnLine line) :=
  inferInstanceAs (Decidable (∃ head ∈ s.columnHead? line, s.IsSettingsList head.2.2 line.stop))

/-- How the tokens from `next` up to `stop`, which follow the type of a column, are read: the
settings that are found among them, and the ranges that are passed over. -/
inductive ReadsSettings (s : Source) (next stop : Nat) : List Setting → List TokenRange → Prop
  | bare (none : s.find? ⟨next, stop⟩ (·.isMark .openBracket) = none) :
    ReadsSettings s next stop [] [⟨next, stop⟩]
  | listed {opening closing : Nat}
    (opens : s.find? ⟨next, stop⟩ (·.isMark .openBracket) = some opening)
    (closes : s.matching opening stop .openBracket .closeBracket = some closing) :
    ReadsSettings s next stop (s.settings ⟨opening + 1, closing⟩)
      [⟨next, opening⟩, ⟨closing + 1, stop⟩]

/-- How a line on which nothing is noted declares a column: by its first token, the type behind it
up to token `next`, and the settings. No token is passed over exactly when the line is nothing but a
name, a type and at most one list in brackets. -/
structure ReadsColumn (s : Source) (found : ColumnLine) (name type : String) (next : Nat)
    (settings : List Setting) (passed : List TokenRange) : Prop where
  head : s.columnHead? found.line = some (name, type, next)
  inside : found.line.start + 1 < next ∧ next ≤ found.line.stop
  reads : s.ReadsSettings next found.line.stop settings passed
  declared : found.declared =
    (settings.foldlM (s.applyColumnSetting found.key) { column := { name, type } }).value
  wholly : s.IsColumnLine found.line ↔ ∀ range ∈ passed, range.isEmpty = true

variable {s : Source} {key name type : String} {line : TokenRange} {next stop opening : Nat}
  {settings : List Setting} {passed : List TokenRange} {declared : DeclaredColumn}

/-! ## The tokens of a line -/

theorem columnHead?_bounds (found : s.columnHead? line = some (name, type, next)) :
    line.start + 1 < next ∧ next ≤ line.stop := by
  unfold columnHead? at found
  obtain ⟨word, -, found⟩ := Option.bind_eq_some_iff.1 found
  obtain ⟨⟨kind, behind⟩, here, same⟩ := Option.bind_eq_some_iff.1 found
  cases same
  constructor
  · exact columnType?_gt here
  · unfold columnType? at here
    obtain ⟨inside, here⟩ := Option.ite_none_right_eq_some.1 here
    split at here
    · cases here
      exact inside
    · cases here
      exact typeEnd_le inside
    · cases here
      exact typeEnd_le inside
    · cases here

/-- A mark that stands first in the range is the first one. -/
theorem find?_isMark_of_isMark {mark : Mark} (here : s.isMark next mark = true)
    (inside : next < stop) : s.find? ⟨next, stop⟩ (·.isMark mark) = some next := by
  rw [find?, TokenRange.size, show stop - next = (stop - next - 1) + 1 by omega, findFrom,
    holds_isMark, if_pos here]

/-- No token is passed over exactly when there is nothing or one list in brackets. -/
theorem ReadsSettings.isSettingsList_iff (reads : s.ReadsSettings next stop settings passed)
    (order : next ≤ stop) :
    s.IsSettingsList next stop ↔ ∀ range ∈ passed, range.isEmpty = true := by
  cases reads with
  | bare none =>
    simp only [List.forall_mem_singleton, TokenRange.isEmpty, decide_eq_true_eq]
    constructor
    · rintro (rfl | ⟨here, closing, closes, rfl⟩)
      · exact Nat.le_refl _
      · have bounds := matching_bounds closes
        rw [find?_isMark_of_isMark here (by omega)] at none
        cases none
    · intro empty
      exact .inl (by omega)
  | @listed opening closing opens closes =>
    obtain ⟨behind, before, bracket⟩ := find?_bounds opens
    have bounds := matching_bounds closes
    dsimp only at behind before
    simp only [List.forall_mem_cons, List.not_mem_nil, IsEmpty.forall_iff, implies_true, and_true,
      TokenRange.isEmpty, decide_eq_true_eq]
    constructor
    · rintro (rfl | ⟨here, last, matched, rfl⟩)
      · omega
      · rw [find?_isMark_of_isMark here (by omega)] at opens
        cases opens
        rw [closes] at matched
        cases matched
        exact ⟨Nat.le_refl _, Nat.le_refl _⟩
    · rintro ⟨front, last⟩
      obtain rfl : next = opening := by omega
      rw [holds_isMark] at bracket
      exact .inr ⟨bracket, closing, closes, by omega⟩

/-! ## What is noted on a line -/

/-- Brackets behind a type that are not closed are noted. -/
theorem notesAt_column? (key : String) (head : s.columnHead? line = some (name, type, next))
    (opens : s.find? ⟨next, line.stop⟩ (·.isMark .openBracket) = some opening)
    (unclosed : s.matching opening line.stop .openBracket .closeBracket = none) :
    (s.column? key line).NotesAt opening := by
  rw [column?, head]
  apply Noted.NotesAt.bind_left
  rw [columnSettings, opens]
  dsimp only
  rw [unclosed]
  exact (Noted.notesAt_note opening _).bind_left _

/-- A column on a line no token of which is noted in every table. -/
theorem readsColumn_of_column? (read : (s.column? key line).value = some declared)
    (silent : ∀ i, line.start ≤ i → i < line.stop → ¬ ∀ key, (s.column? key line).NotesAt i) :
    ∃ name type next settings passed,
      s.ReadsColumn ⟨key, line, declared⟩ name type next settings passed := by
  cases head : s.columnHead? line with
  | none =>
    rw [column?, head] at read
    cases read
  | some found =>
    obtain ⟨name, type, next⟩ := found
    have inside := columnHead?_bounds head
    have reads : ∃ passed,
        s.ReadsSettings next line.stop (s.columnSettings name ⟨next, line.stop⟩).value passed := by
      rw [columnSettings]
      cases opens : s.find? ⟨next, line.stop⟩ (·.isMark .openBracket) with
      | none => exact ⟨_, .bare opens⟩
      | some opening =>
        dsimp only
        cases closes : s.matching opening line.stop .openBracket .closeBracket with
        | some closing => exact ⟨_, .listed opens closes⟩
        | none =>
          have bounds := find?_bounds opens
          dsimp only at bounds
          exact absurd (fun key => notesAt_column? key head opens closes)
            (silent opening (by omega) (by omega))
    obtain ⟨passed, reads⟩ := reads
    have whole : s.IsColumnLine line ↔ s.IsSettingsList next line.stop := by
      simp [IsColumnLine, head]
    refine ⟨name, type, next, _, passed, head, inside, reads, ?_,
      whole.trans (reads.isSettingsList_iff inside.2)⟩
    rw [column?, head] at read
    exact (Option.some.inj read).symm

/-! ## What is noted in a document -/

/-- The body of a table notes what its lines do, in whatever state they are read. -/
theorem notesAt_declaredTable {found : TableBlock} {table : DeclaredTable} {x : Segment}
    {position : Nat} (declared : s.declared? found = some table) (listed : x ∈ found.children)
    (noted : ∀ table, (s.applyTableSegment table x).NotesAt position) :
    (s.declaredTable found.block found.children).NotesAt position := by
  rw [declared?] at declared
  unfold declaredTable at declared ⊢
  split at declared
  · cases declared
  · split at declared
    · cases declared
    next named full =>
      rw [if_neg full]
      obtain ⟨before, more⟩ := Noted.exists_step_foldlM s.applyTableSegment listed _
      exact .bind_right (.bind_left (more position (noted before)) _)

/-- What a table notes is noted by the group around it. -/
theorem notesAt_applyGroup {group : Block} {body : List Segment} {found : TableBlock}
    {position : Nat} (kind : group.kind = .tableGroup)
    (there : .block found.block found.children ∈ body) (table : found.block.kind = .table)
    (noted : (s.declaredTable found.block found.children).NotesAt position) (a : Assembly) :
    (Assembly.applyGroup s a (.block group body)).NotesAt position := by
  have inner (number : Option Nat) (o : Assembly.OpenGroup) :
      (body.foldlM (Assembly.applyGroupSegment s number) o).NotesAt position := by
    obtain ⟨o', more⟩ := Noted.exists_step_foldlM (Assembly.applyGroupSegment s number) there o
    have placed (place : DeclaredTable → Noted Assembly) :
        (o'.assembly.placeTable s found.block found.children place).NotesAt position :=
      noted.bind_left _
    apply more
    simp only [Assembly.applyGroupSegment, table]
    exact (placed _).bind_left _
  rw [Assembly.applyGroup, if_pos kind, Assembly.addGroup]
  split
  · exact .bind_right ((inner _ _).bind_left _)
  · exact .bind_right ((inner _ _).bind_left _)

/-- What a discovered block notes is noted in the document. -/
theorem notesAt_assemble_of_discovered {segments : List Segment} {found : TableBlock}
    {position : Nat} (met : found ∈ Segment.discovered segments)
    (noted : (s.declaredTable found.block found.children).NotesAt position) :
    (s.assemble segments).NotesAt position := by
  rcases List.mem_append.1 met with inGroup | atTop
  · obtain ⟨x, listed, inner⟩ := List.mem_flatMap.1 inGroup
    cases x with
    | line line => cases inner
    | block group children =>
      rw [Segment.groupBlocks] at inner
      split at inner
      next kind =>
        obtain ⟨y, there, read⟩ := List.mem_filterMap.1 inner
        obtain ⟨rfl, table⟩ := Segment.tableBlock?_eq_some.1 read
        obtain ⟨a, groups⟩ := Noted.exists_step_foldlM (Assembly.applyGroup s) listed {}
        have grouped := notesAt_applyGroup kind there table noted a
        exact notesAt_assemble_of_groups (groups position grouped)
      · cases inner
  · obtain ⟨x, listed, read⟩ := List.mem_filterMap.1 atTop
    obtain ⟨rfl, table⟩ := Segment.tableBlock?_eq_some.1 read
    obtain ⟨a, blocks⟩ := Noted.exists_step_foldlM (Assembly.applyBlock s) listed _
    have placed : (Assembly.applyBlock s a (.block found.block found.children)).NotesAt position := by
      simp only [Assembly.applyBlock, table]
      exact noted.bind_left _
    exact notesAt_assemble_of_blocks rfl (blocks position placed)

/-- A line of a table that declares a column stands in the body of a discovered block. -/
theorem exists_of_mem_columnLines {segments : List Segment} {found : ColumnLine}
    (listed : found ∈ s.columnLines segments) :
    ∃ block ∈ Segment.discovered segments, ∃ table, s.declared? block = some table ∧
      .line found.line ∈ block.children ∧
      s.columnIn? found.key (.line found.line) = some found.declared := by
  obtain ⟨block, met, inner⟩ := List.mem_flatMap.1 listed
  cases own : s.declared? block with
  | none =>
    rw [own] at inner
    cases inner
  | some table =>
    rw [own] at inner
    obtain ⟨x, there, read⟩ := List.mem_filterMap.1 inner
    cases x with
    | block b children => cases read
    | line line =>
      obtain ⟨declared, column, rfl⟩ := Option.map_eq_some_iff.1 read
      exact ⟨block, met, table, own, there, column⟩

variable {text : String} {strict : Bool} {report : Report}

/-- A line of a table that declares a column, and at no token of which there is a diagnostic, begins
with a name and a type. The column has the settings in the first brackets behind the type, if there
are any, and these are closed on the line; it is declared by the name, the type and the settings
alone. The rest of the line is passed over. There is no rest exactly when behind the type there is
nothing, or one list in brackets up to the end of the line. -/
theorem column_line_read (parsed : parseReport text strict = .ok report) :
    ∃ s segments, ofString text = .ok s ∧ s.scan = .ok segments ∧
      ∀ found ∈ s.columnLines segments,
        (∀ i, found.line.start ≤ i → i < found.line.stop →
          ∀ diagnostic ∈ report.diagnostics, diagnostic.location ≠ s.location i) →
        ∃ name type next settings passed,
          s.ReadsColumn found name type next settings passed := by
  obtain ⟨s, segments, read, scanned, diagnostics, -⟩ := exists_scan_of_parseReport parsed
  refine ⟨s, segments, read, scanned, fun found listed silent => ?_⟩
  obtain ⟨block, met, table, own, there, column⟩ := exists_of_mem_columnLines listed
  rw [columnIn?] at column
  split at column
  · cases column
  next other =>
    obtain ⟨note, short⟩ := not_or.1 other
    refine readsColumn_of_column? column fun i after before noted => ?_
    have told (table : DeclaredTable) :
        (s.applyTableSegment table (.line found.line)).NotesAt i := by
      rw [applyTableSegment, applyTableLine, Option.not_isSome_iff_eq_none.1 note, if_neg short]
      exact (noted table.key).bind_left _
    obtain ⟨diagnostic, here, located⟩ := exists_diagnostic (s := s)
      (notesAt_assemble_of_discovered met (notesAt_declaredTable own there told))
    rw [← diagnostics] at here
    exact silent i after before diagnostic here located

/-- A table with a column that is wholly read, one with a type of two words, one whose setting has
no brackets and one with tokens before and behind its brackets. -/
def columnLinesText : String :=
  "Table t \x7b\na decimal(10, 2) [pk, not null]\nb double precision\nc int pk\n" ++
  "d int x [unique] y\n\x7d\n"

theorem column_line_read_columnLinesText :
    ∃ report, parseReport columnLinesText true = .ok report ∧
      ∃ s segments, ofString columnLinesText = .ok s ∧ s.scan = .ok segments ∧
        (s.columnLines segments).map (fun found => decide (s.IsColumnLine found.line)) =
          [true, false, false, false] ∧
        ∀ found ∈ s.columnLines segments, ∃ name type next settings passed,
          s.ReadsColumn found name type next settings passed := by
  have evaluated : (ofString columnLinesText).toOption.bind (fun s =>
      s.scan.toOption.map fun segments =>
        ((s.assemble segments).findings,
          (s.columnLines segments).map fun found => decide (s.IsColumnLine found.line))) =
      some ([], [true, false, false, false]) := by
    decide +kernel
  obtain ⟨s, segments, read, scanned, found⟩ := exists_of_scanned evaluated
  obtain ⟨silent, whole⟩ := Prod.mk.inj found
  have parsed := parseReport_eq_ok true read scanned silent
  obtain ⟨s', segments', read', scanned', reads⟩ := column_line_read parsed
  cases read.symm.trans read'
  cases scanned.symm.trans scanned'
  refine ⟨_, parsed, s, segments, read', scanned', whole, fun found listed => ?_⟩
  exact reads found listed fun i _ _ diagnostic told => by cases told

/-- A line that is no name, type and list of settings. -/
def passedWordText : String :=
  "Table t \x7b\n id int foo\n\x7d\n"

/-- A column is declared by a line with a word that is passed over, and nothing is noted. -/
theorem column_passes_over :
    ∃ s segments found report, ofString passedWordText = .ok s ∧ s.scan = .ok segments ∧
      parseReport passedWordText true = .ok report ∧ report.diagnostics = [] ∧
      found ∈ s.columnLines segments ∧ ¬ s.IsColumnLine found.line := by
  have evaluated : (ofString passedWordText).toOption.bind (fun s =>
      s.scan.toOption.map fun segments =>
        ((s.assemble segments).findings,
          (s.columnLines segments).map fun found => decide (s.IsColumnLine found.line))) =
      some ([], [false]) := by
    decide +kernel
  obtain ⟨s, segments, read, scanned, found⟩ := exists_of_scanned evaluated
  obtain ⟨silent, passed⟩ := Prod.mk.inj found
  obtain ⟨found, rest, listed, partly, -⟩ := List.map_eq_cons_iff.1 passed
  have parsed := parseReport_eq_ok true read scanned silent
  refine ⟨s, segments, found, _, read, scanned, parsed, rfl, ?_, of_decide_eq_false partly⟩
  rw [listed]
  exact List.mem_cons_self

end Source

end Dbml
