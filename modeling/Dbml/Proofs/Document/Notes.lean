import Dbml.Proofs.Assembly.Groups
import Dbml.Proofs.Assembly.Kept
import Dbml.Proofs.Document.Parse
import Dbml.Proofs.Source.Contents
import Mathlib.Data.Option.Basic

/-!
# The notes of a database

A table and a group have the last quoted note of their body before the one of their heading. A
project has the last note stated in it, quoted or not, and so may lose an earlier one. Main
statement: `notes_settled`; a project that loses its note is `projectNote_lost`.
-/

namespace Dbml

namespace Source

/-- The table is the declared one, with the last quoted note in its block, else its heading's. -/
structure NotesTable (s : Source) (sited : SitedTable) (table : Table) : Prop where
  describes : sited.table.Describes table
  note : table.note =
    (s.bodyNote? sited.site.children).or (s.headingNote? sited.site.block.header)

/-- The group has the name of its block, and the last quoted note in it, else its heading's. -/
structure NotesGroup (s : Source) (found : NamedBlock) (g : TableGroup) : Prop where
  name : g.name = found.name
  note : g.note = (s.bodyNote? found.children).or (s.headingNote? found.block.header)

/-- The project has the name of its block and the last note stated in it. This is the last quoted
one, unless it is not quoted and another one is. -/
structure NotesProject (s : Source) (found : NamedBlock) (project : Project) : Prop where
  name : project.name = found.name
  note : project.note = (s.statedNotes found.children).getLast?.join
  quoted : project.note = s.bodyNote? found.children ↔
    ((s.statedNotes found.children).getLast? = some none →
      ∀ note ∈ s.statedNotes found.children, note = none)

theorem notesTable_assemble (s : Source) (segments : List Segment) :
    List.Forall₂ s.NotesTable (s.keptTables segments) (s.assemble segments).value.tables := by
  refine Assembly.forall₂_keptTables s segments fun sited table declared describes => ?_
  constructor
  · exact describes
  · exact describes.note.trans (note_of_declaredTable declared)

theorem notesGroup_assemble (s : Source) (segments : List Segment) :
    List.Forall₂ s.NotesGroup (segments.filterMap (·.namedBlock? .tableGroup))
      (s.assemble segments).value.tableGroups := by
  have bare := Assembly.memberless_ofSegments s segments
  rw [← List.forall₂_eq_eq_eq, List.forall₂_map_left_iff, List.forall₂_map_right_iff] at bare
  refine bare.flip.imp fun found g same => ?_
  have heading : (Assembly.headedGroup s found.block.header found.name).note =
      s.headingNote? found.block.header :=
    field_foldlM_heading note_applyGroupSetting found.block.header rfl
  constructor
  · exact congrArg TableGroup.name same
  · rw [← heading]
    exact congrArg TableGroup.note same

theorem notesProject_assemble (s : Source) (segments : List Segment) :
    Option.Rel s.NotesProject (segments.findSome? (·.namedBlock? .project))
      (s.assemble segments).value.project := by
  show Option.Rel _ _ (Assembly.ofSegments s segments).value.project
  rw [Assembly.project_ofSegments]
  cases segments.findSome? (·.namedBlock? .project) with
  | none => exact .none
  | some found =>
    have note : (Assembly.blockProject s found).note =
        (s.statedNotes found.children).getLast?.join := by
      rw [Assembly.blockProject, Assembly.note_projectBody]
      cases (s.statedNotes found.children).getLast? <;> rfl
    refine .some ⟨?_, note, ?_⟩
    · exact Assembly.name_projectBody found.children _
    · rw [note]
      exact getLast?_join_eq_iff _

end Source

variable {text : String} {database : Database}

/-- In every table and every group the last quoted note of the body goes before the note of the
heading. The project, that of the first block with a name, has the last note stated in its body: the
last quoted one unless the last one is not quoted and an earlier one is. -/
theorem notes_settled (parsed : parse text = .ok database) :
    ∃ s segments, Source.ofString text = .ok s ∧ s.scan = .ok segments ∧
      List.Forall₂ s.NotesTable (s.keptTables segments) database.tables ∧
      List.Forall₂ s.NotesGroup (segments.filterMap (·.namedBlock? .tableGroup))
        database.tableGroups ∧
      Option.Rel s.NotesProject (segments.findSome? (·.namedBlock? .project))
        database.project := by
  obtain ⟨s, segments, read, scanned, rfl⟩ := parse_eq_ok.1 parsed
  exact ⟨s, segments, read, scanned, s.notesTable_assemble segments,
    s.notesGroup_assemble segments, s.notesProject_assemble segments⟩

/-- Notes in all three kinds of block, the last of each of them not quoted. -/
def notedText : String :=
  "Table t [note: 'h'] \x7b\nNote: 'a'\nNote \x7b'b' 'c'\x7d\nNote: d\nid n\n\x7d\n" ++
  "TableGroup g [note: 'h'] \x7b\nNote \x7bd\x7d\nNote: e\n\x7d\n" ++
  "Project p \x7b\nNote: 'a'\nNote: b\n\x7d\n"

theorem notes_settled_notedText :
    ∃ database, parse notedText = .ok database ∧
      database.tables.map (·.note) = [some "b"] ∧
      database.tableGroups.map (·.note) = [some "h"] ∧
      database.project.map (·.note) = some none ∧
      ∃ s segments, Source.ofString notedText = .ok s ∧ s.scan = .ok segments ∧
        List.Forall₂ s.NotesTable (s.keptTables segments) database.tables ∧
        List.Forall₂ s.NotesGroup (segments.filterMap (·.namedBlock? .tableGroup))
          database.tableGroups ∧
        Option.Rel s.NotesProject (segments.findSome? (·.namedBlock? .project))
          database.project := by
  have evaluated : (parse notedText).toOption.map (fun database =>
      (database.tables.map (·.note), database.tableGroups.map (·.note),
        database.project.map (·.note))) =
      some ([some "b"], [some "h"], some none) := by
    decide +kernel
  obtain ⟨database, read, found⟩ := Option.map_eq_some_iff.1 evaluated
  obtain ⟨tables, others⟩ := Prod.mk.inj found
  obtain ⟨groups, project⟩ := Prod.mk.inj others
  have parsed := eq_ok_of_toOption read
  exact ⟨database, parsed, tables, groups, project, notes_settled parsed⟩

/-- A project with a quoted note before one that is not. -/
def lostNoteText : String :=
  "Project p \x7b\n Note: 'a'\n Note: b\n\x7d\n"

/-- The project has lost the last quoted note of its body. -/
theorem projectNote_lost :
    ∃ database s segments found, parse lostNoteText = .ok database ∧
      Source.ofString lostNoteText = .ok s ∧ s.scan = .ok segments ∧
      segments.findSome? (·.namedBlock? .project) = some found ∧
      s.bodyNote? found.children = some "a" ∧ database.project.map (·.note) = some none := by
  have evaluated : (Source.ofString lostNoteText).toOption.bind (fun s =>
      s.scan.toOption.map fun segments =>
        ((segments.findSome? (·.namedBlock? .project)).map (s.bodyNote? ·.children),
          (s.assemble segments).value.project.map (·.note))) =
      some (some (some "a"), some none) := by
    decide +kernel
  obtain ⟨s, segments, read, scanned, notes⟩ := exists_of_scanned evaluated
  obtain ⟨stated, project⟩ := Prod.mk.inj notes
  obtain ⟨found, first, body⟩ := Option.map_eq_some_iff.1 stated
  exact ⟨_, s, segments, found, parse_eq_ok.2 ⟨s, segments, read, scanned, rfl⟩, read, scanned,
    first, body, project⟩

end Dbml
