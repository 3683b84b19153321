import Dbml.Proofs.Assembly.Colors
import Dbml.Proofs.Assembly.FirstDeclaration
import Dbml.Proofs.Assembly.Kept
import Dbml.Proofs.Table.Body

/-!
# The colours of a database

A table has the colour of its own heading before that of its group, and one that is chosen for its
key when there is neither. Main statement: `colors_settled`.
-/

namespace Dbml

/-! ## Colours begin with a number sign -/

/-- Whether a text begins as a colour does. -/
def Color.IsMarked (color : String) : Prop :=
  color.toList.head? = some '#'

instance (color : String) : Decidable (Color.IsMarked color) :=
  inferInstanceAs (Decidable (_ = _))

theorem Color.IsMarked.ne_empty {color : String} (marked : Color.IsMarked color) : color ≠ "" := by
  rintro rfl
  cases marked

theorem Color.isMarked_ofName (name : String) : Color.IsMarked (Color.ofName name) := by
  have marked : ∀ color ∈ palette, Color.IsMarked color := by decide
  have inside : (hash name).toInt.natAbs % palette.length < palette.length :=
    Nat.mod_lt _ (by decide)
  rw [ofName, List.getD_eq_getElem?_getD, List.getElem?_eq_getElem inside]
  exact marked _ (List.getElem_mem inside)

theorem Source.isMarked_of_colorText {s : Source} {value : TokenRange} {color : String}
    (read : s.colorText value = some color) : Color.IsMarked color := by
  obtain ⟨raw, -, read⟩ := Option.bind_eq_some_iff.1 read
  dsimp only at read
  split at read
  · cases read
  · split at read
    next marked =>
      cases read
      exact marked
    · cases read
      simp [Color.IsMarked]

theorem Source.isMarked_of_lastColor? {s : Source} {header : Header} {key color : String}
    (read : s.lastColor? header key = some color) : Color.IsMarked color := by
  obtain ⟨value, -, read⟩ := Option.bind_eq_some_iff.1 read
  exact isMarked_of_colorText read

theorem isMarked_getD {given : Option String} {name : String}
    (marked : ∀ color ∈ given, Color.IsMarked color) :
    Color.IsMarked (given.getD (Color.ofName name)) := by
  cases given with
  | none => exact Color.isMarked_ofName name
  | some color => exact marked color rfl

/-! ## The group of a table -/

/-- The group that a table is added to: the one that lists its key, unless the table is declared in
a group without a name. -/
def SitedTable.group? (sited : SitedTable) (groups : List TableGroup) : Option TableGroup :=
  if sited.site.isUngrouped then none else groups.find? (·.tables.contains sited.key)

namespace Assembly

variable {a : Assembly} {seen : List Declaration}

/-- The owner of a key is the one group that lists it. -/
theorem Consistent.find?_groups (consistent : Consistent a seen) (key : String) :
    a.groups.find? (·.tables.contains key) = (a.owner? key).bind (a.groups[·]?) := by
  cases owned : a.owner? key with
  | some group =>
    obtain ⟨g, here, listed⟩ := consistent.exists_group owned
    cases found : a.groups.find? (·.tables.contains key) with
    | none =>
      have absent := List.find?_eq_none.1 found g (List.mem_of_getElem? here)
      simp [listed] at absent
    | some other =>
      obtain ⟨i, there⟩ := List.mem_iff_getElem?.1 (List.mem_of_find?_eq_some found)
      have lists : key ∈ other.tables := by simpa using List.find?_some found
      have owner := (consistent.owner_iff key i).2 ⟨other, there, lists⟩
      rw [owned] at owner
      cases owner
      exact there.symm
  | none =>
    refine List.find?_eq_none.2 fun g group lists => ?_
    obtain ⟨i, here⟩ := List.mem_iff_getElem?.1 group
    have owner := (consistent.owner_iff key i).2 ⟨g, here, by simpa using lists⟩
    rw [owned] at owner
    cases owner

theorem Consistent.home?_declaration (consistent : Consistent a seen) (sited : SitedTable) :
    a.home? sited.declaration = sited.group? a.groups := by
  rw [home?, SitedTable.group?, consistent.find?_groups]
  rfl

end Assembly

/-! ## The precedence of colours -/

namespace Source

/-- The name and the colour of a group are those of its heading. -/
structure ColorsGroup (s : Source) (named : Header × String) (g : TableGroup) : Prop where
  name : g.name = named.2
  color : g.color = (s.lastColor? named.1 "color").getD (Color.ofName g.name)

/-- The table is the declared one, and its colour is the first there is: of its heading, of its
group, of its key. -/
structure ColorsTable (s : Source) (groups : List TableGroup) (sited : SitedTable)
    (table : Table) : Prop where
  describes : sited.table.Describes table
  groupId : table.groupId = (sited.group? groups).map (·.id)
  color : table.color =
    (((s.lastColor? sited.site.block.header "headercolor").or
      (s.lastColor? sited.site.block.header "color")).or
        ((sited.group? groups).map (·.color))).getD (Color.ofName table.key)

variable {s : Source} {segments : List Segment} {sited : SitedTable}

theorem colorsGroup_assemble (s : Source) (segments : List Segment) :
    List.Forall₂ s.ColorsGroup (segments.filterMap namedGroup?)
      (s.assemble segments).value.tableGroups := by
  have faces : (s.assemble segments).value.tableGroups.map (fun g => (g.name, g.color)) =
      (segments.filterMap namedGroup?).map s.groupFace := Assembly.groupFaces_ofSegments s segments
  rw [← List.forall₂_eq_eq_eq, List.forall₂_map_left_iff, List.forall₂_map_right_iff] at faces
  refine faces.flip.imp fun named g face => ?_
  obtain ⟨name, color⟩ := Prod.mk.inj face
  exact ⟨name, by rw [color, name]⟩

/-- The colours of a kept table are those of its block's heading. -/
theorem colors_of_mem_keptTables (kept : sited ∈ s.keptTables segments) :
    sited.table.headerColor = s.lastColor? sited.site.block.header "headercolor" ∧
      sited.table.color = s.lastColor? sited.site.block.header "color" := by
  obtain ⟨heading, head, same⟩ := sameHeading_of_declaredTable (declared?_of_mem_keptTables kept)
  rw [same.headerColor, same.color]
  exact heading?_colors head

theorem colorsTable_assemble (s : Source) (segments : List Segment) :
    List.Forall₂ (s.ColorsTable (s.assemble segments).value.tableGroups) (s.keptTables segments)
      (s.assemble segments).value.tables := by
  have consistent := Assembly.consistent_ofSegments s segments
  show List.Forall₂ _ _ (Assembly.ofSegments s segments).value.tables
  rw [Assembly.tables_ofSegments, List.forall₂_map_right_iff, List.forall₂_same]
  intro sited kept
  obtain ⟨headerColor, color⟩ := colors_of_mem_keptTables kept
  have home : (Assembly.ofSegments s segments).value.home? sited.declaration =
      sited.group? (s.assemble segments).value.tableGroups := consistent.home?_declaration sited
  refine ⟨Assembly.describes_settle _ sited.declaration, ?_, ?_⟩
  · rw [Assembly.settle, home]
    rfl
  · rw [Assembly.settle, home]
    show Color.resolve [sited.table.headerColor, sited.table.color] _ _ = _
    rw [headerColor, color, Color.resolve]
    cases s.lastColor? sited.site.block.header "headercolor" <;>
      cases s.lastColor? sited.site.block.header "color" <;> rfl

end Source

variable {text : String} {database : Database}

/-- Every group has the colour of its heading, else one chosen for its name; every table has the
first colour there is of its heading's `headercolor` and `color`, its group's and the one chosen for
its key; and all these colours begin with a number sign. -/
theorem colors_settled (parsed : parse text = .ok database) :
    ∃ s segments, Source.ofString text = .ok s ∧ s.scan = .ok segments ∧
      List.Forall₂ s.ColorsGroup (segments.filterMap Source.namedGroup?) database.tableGroups ∧
      List.Forall₂ (s.ColorsTable database.tableGroups) (s.keptTables segments) database.tables ∧
      ∀ color ∈ database.tableGroups.map (·.color) ++ database.tables.map (·.color),
        color ≠ "" ∧ Color.IsMarked color := by
  obtain ⟨s, segments, read, scanned, rfl⟩ := parse_eq_ok.1 parsed
  have groups := Source.colorsGroup_assemble s segments
  have tables := Source.colorsTable_assemble s segments
  have markedGroup : ∀ g ∈ (s.assemble segments).value.tableGroups, Color.IsMarked g.color := by
    intro g group
    obtain ⟨named, -, colors⟩ := exists_of_mem_of_forall₂ groups group
    rw [colors.color]
    exact isMarked_getD fun color given => Source.isMarked_of_lastColor? given
  have markedTable : ∀ table ∈ (s.assemble segments).value.tables, Color.IsMarked table.color := by
    intro table added
    obtain ⟨sited, -, colors⟩ := exists_of_mem_of_forall₂ tables added
    rw [colors.color]
    refine isMarked_getD fun color given => ?_
    -- A colour that a table inherits is that of a group, which is settled already.
    rcases Option.or_eq_some_iff.1 given with own | ⟨-, inherited⟩
    · rcases Option.or_eq_some_iff.1 own with first | ⟨-, second⟩
      · exact Source.isMarked_of_lastColor? first
      · exact Source.isMarked_of_lastColor? second
    · obtain ⟨g, home, rfl⟩ := Option.map_eq_some_iff.1 inherited
      refine markedGroup g ?_
      unfold SitedTable.group? at home
      split at home
      · cases home
      · exact List.mem_of_find?_eq_some home
  refine ⟨s, segments, read, scanned, groups, tables, fun color listed => ?_⟩
  have marked : Color.IsMarked color := by
    rcases List.mem_append.1 listed with ofGroup | ofTable
    · obtain ⟨g, group, rfl⟩ := List.mem_map.1 ofGroup
      exact markedGroup g group
    · obtain ⟨table, added, rfl⟩ := List.mem_map.1 ofTable
      exact markedTable table added
  exact ⟨marked.ne_empty, marked⟩

/-- A group with two colours, a table in it whose colour has no value, one with a colour of its own
and one without a colour. -/
def coloredText : String :=
  "TableGroup g [color: x, color: a] \x7b\nTable b [headercolor: ''] \x7bid n\x7d\n\x7d\n" ++
  "Table c [color: e] \x7bid n\x7d\nTable d \x7bid n\x7d\n"

theorem colors_settled_coloredText :
    ∃ database, parse coloredText = .ok database ∧
      database.tableGroups.map (·.color) = ["#a"] ∧
      database.tables.map (fun table => (table.key, table.color)) =
        [("b", "#a"), ("c", "#e"), ("d", Color.ofName "d")] ∧
      ∃ s segments, Source.ofString coloredText = .ok s ∧ s.scan = .ok segments ∧
        List.Forall₂ s.ColorsGroup (segments.filterMap Source.namedGroup?) database.tableGroups ∧
        List.Forall₂ (s.ColorsTable database.tableGroups) (s.keptTables segments) database.tables ∧
        ∀ color ∈ database.tableGroups.map (·.color) ++ database.tables.map (·.color),
          color ≠ "" ∧ Color.IsMarked color := by
  have evaluated : (parse coloredText).toOption.map (fun database =>
      (database.tableGroups.map (·.color),
        database.tables.map fun table => (table.key, table.color))) =
      some (["#a"], [("b", "#a"), ("c", "#e"), ("d", Color.ofName "d")]) := by
    decide +kernel
  obtain ⟨database, read, found⟩ := Option.map_eq_some_iff.1 evaluated
  obtain ⟨groups, tables⟩ := Prod.mk.inj found
  have parsed := eq_ok_of_toOption read
  exact ⟨database, parsed, groups, tables, colors_settled parsed⟩

end Dbml
