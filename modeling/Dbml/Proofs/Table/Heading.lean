import Dbml.DeclaredTable

/-!
# The heading of a table

What a table block says before its body is read, and the table as the outcome of reading the body
from there on.
-/

namespace Dbml

/-- A table without anything of its body, and the note that its settings give it. -/
structure TableHeading where
  table : DeclaredTable
  note : Option String

namespace TableHeading

/-- The table when its body has made `table` of it. A note in the body goes before. -/
def complete (heading : TableHeading) (table : DeclaredTable) : DeclaredTable :=
  { table with note := table.note.or heading.note }

end TableHeading

namespace Source

/-- The heading of a table block that has a name and is not empty. -/
def heading? (s : Source) (block : Block) : Option TableHeading :=
  match tableName? block.header with
  | none => none
  | some (schema, name) =>
    if s.hasEmptyBody block then none
    else
      let given := ((block.header.settings.elim [] s.settings).foldlM s.applyTableSetting {}).value
      some
        { table := { name, schema, aliasName := block.header.aliasName,
                     headerColor := given.headerColor, color := given.color }
          note := given.note }

theorem heading?_eq_none {s : Source} {block : Block} : s.heading? block = none ↔
    tableName? block.header = none ∨ s.hasEmptyBody block = true := by
  unfold heading?
  split
  next unnamed => simp [unnamed]
  next schema name named =>
    by_cases empty : s.hasEmptyBody block = true <;> simp [named, empty]

/-- The settings in the heading of a table. -/
def tableSettings (s : Source) (header : Header) : TableSettings :=
  ((header.settings.elim [] s.settings).foldlM s.applyTableSetting {}).value

/-- A heading has the names of its block and what its settings give, and nothing of a body. -/
theorem heading?_eq_some {s : Source} {block : Block} {heading : TableHeading}
    (head : s.heading? block = some heading) :
    ∃ schema name, tableName? block.header = some (schema, name) ∧
      heading =
        { table := { name, schema, aliasName := block.header.aliasName,
                     headerColor := (s.tableSettings block.header).headerColor,
                     color := (s.tableSettings block.header).color }
          note := (s.tableSettings block.header).note } := by
  unfold heading? at head
  split at head
  · cases head
  next schema name named =>
    split at head
    · cases head
    · exact ⟨schema, name, named, (Option.some.inj head).symm⟩

theorem declaredTable_value (s : Source) (block : Block) (children : List Segment) :
    (s.declaredTable block children).value = (s.heading? block).map fun heading =>
      heading.complete (children.foldlM s.applyTableSegment heading.table).value := by
  unfold declaredTable heading?
  cases tableName? block.header with
  | none => rfl
  | some named =>
    dsimp only
    by_cases empty : s.hasEmptyBody block = true
    · rw [if_pos empty, if_pos empty]
      rfl
    · rw [if_neg empty, if_neg empty]
      rfl

end Source

end Dbml
