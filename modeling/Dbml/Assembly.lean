import Dbml.DeclaredTable
import Dbml.Statement

/-!
# Assembling a database

The segments of a document are merged into one database. Groups come first, for a table inside a
group counts as the declaration of its key; then the other tables and the project; then the
references that stand on their own; last, aliases are replaced by the keys they stand for.
-/

namespace Dbml

structure Assembly where
  tables : List Table := []
  groups : List TableGroup := []
  /-- For each claimed key the number of the group that claimed it first. -/
  owners : List (String × Nat) := []
  /-- The first tokens of the table blocks that were dropped. -/
  dropped : List Nat := []
  relationships : List Relationship := []
  project : Option Project := none

namespace Assembly

/-! ## Groups and their members -/

def isDefined (a : Assembly) (key : String) : Bool :=
  a.tables.any (·.key == key)

def owner? (a : Assembly) (key : String) : Option Nat :=
  a.owners.lookup key

/-- Makes the key a member of the group, unless a group has claimed it. -/
def claim (a : Assembly) (group : Nat) (key : String) : Assembly :=
  match a.owner? key with
  | some _ => a
  | none =>
    { a with
      owners := (key, group) :: a.owners
      groups := a.groups.modify group fun g => { g with tables := g.tables ++ [key] } }

/-- Claims the key for the group, and notes it when another group has it already. -/
def claimAt (a : Assembly) (group : Nat) (key : String) (position : Nat) : Noted Assembly := do
  match a.owner? key with
  | some owner =>
    if owner ≠ group then
      Noted.note position (.ownedTable key ((a.groups[owner]?).elim "" (·.id)))
  | none => pure ()
  return a.claim group key

/-! ## Tables -/

/-- Drops a table block. -/
def drop (a : Assembly) (block : Block) : Assembly :=
  { a with dropped := block.start :: a.dropped }

/-- Adds a table as a member of the group with the number, or of none. -/
def addTable (a : Assembly) (table : DeclaredTable) (owner : Option Nat) : Assembly :=
  let group := owner.bind (a.groups[·]?)
  { a with
    tables := a.tables ++ [table.finish (group.map (·.id)) (group.map (·.color))]
    relationships := a.relationships ++ table.relationships }

/-- Adds the table of a block, if it declares one and the key is new; `place` settles its group. -/
def placeTable (s : Source) (a : Assembly) (block : Block) (children : List Segment)
    (place : DeclaredTable → Noted Assembly) : Noted Assembly := do
  match ← s.declaredTable block children with
  | none => return a.drop block
  | some table =>
    if a.isDefined table.key then
      Noted.note block.start (.repeatedTable table.key)
      return a.drop block
    else place table

/-- Adds the table of a block inside a group; `group` is none when the group has no name. -/
def addGroupTable (s : Source) (group : Option Nat) (a : Assembly) (block : Block)
    (children : List Segment) : Noted Assembly :=
  placeTable s a block children fun table =>
    match group with
    | none => return a.addTable table none
    | some group => do
      let a ← a.claimAt group table.key block.start
      return a.addTable table (a.owner? table.key)

/-- Adds the table of a block at the top level; a group may have claimed it by name. -/
def addTopTable (s : Source) (a : Assembly) (block : Block) (children : List Segment) :
    Noted Assembly :=
  placeTable s a block children fun table => return a.addTable table (a.owner? table.key)

/-! ## Group blocks -/

structure GroupSettings where
  color : Option String := none
  note : Option String := none

/-- The settings with one more; of two of one key the last one counts. -/
def applyGroupSetting (s : Source) (settings : GroupSettings) (setting : Setting) :
    Noted GroupSettings :=
  match setting with
  | .pair "color" value _ => pure { settings with color := s.colorText value }
  | .pair "note" value _ => pure { settings with note := s.quotedText value }
  | _ => do
    Noted.note setting.position .unknownGroupSetting
    return settings

def openGroup (s : Source) (a : Assembly) (block : Block) (name : String) : Noted Assembly := do
  let given ← (block.header.settings.elim [] s.settings).foldlM (applyGroupSetting s) {}
  let id := groupId name
  if a.groups.any (·.id == id) then Noted.note block.start (.repeatedGroup id)
  let group : TableGroup :=
    { id, name, note := given.note, color := Color.resolve [given.color] none name, tables := [] }
  return { a with groups := a.groups ++ [group] }

/-- What has been assembled while the body of a group is read, and the note found in it. -/
structure OpenGroup where
  assembly : Assembly
  note : Option String := none

/-- Reads one segment of a group's body. References are left to the document. -/
def applyGroupSegment (s : Source) (group : Option Nat) (o : OpenGroup) :
    Segment → Noted OpenGroup
  | .block block children =>
    match block.kind with
    | .table => do
      let assembly ← addGroupTable s group o.assembly block children
      return { o with assembly }
    | .note => pure { o with note := (s.blockNote block).or o.note }
    | kind => do
      Noted.note block.start (.unexpectedInGroup kind)
      return o
  | .line line =>
    match s.noteLine? line with
    | some note => pure { o with note := note.or o.note }
    | none =>
      if (s.shortForm? line).isSome then pure o
      else
        match nameParts (s.tokens line), group with
        | some names, some group => do
          let assembly ← o.assembly.claimAt group (".".intercalate names) line.start
          return { o with assembly }
        | some _, none => pure o
        | none, _ => do
          Noted.note line.start .unknownGroupLine
          return o

/-- Gives the group the note, when there is one. -/
def setGroupNote (a : Assembly) (group : Nat) (note : Option String) : Assembly :=
  match note with
  | none => a
  | some note => { a with groups := a.groups.modify group fun g => { g with note := some note } }

def addGroup (s : Source) (a : Assembly) (block : Block) (children : List Segment) :
    Noted Assembly := do
  match block.header.name? with
  | some name =>
    let group := a.groups.length
    let a ← openGroup s a block name
    let o ← children.foldlM (applyGroupSegment s (some group)) { assembly := a }
    return o.assembly.setGroupNote group o.note
  | none =>
    Noted.note block.start .unnamedGroup
    let o ← children.foldlM (applyGroupSegment s none) { assembly := a }
    return o.assembly

/-! ## The project -/

/-- The project with what one segment of its body says. -/
def applyProjectSegment (s : Source) (project : Project) : Segment → Project
  | .block block _ =>
    if block.kind = .note then { project with note := s.blockNote block } else project
  | .line line =>
    match s.noteLine? line with
    | some note => { project with note }
    | none =>
      if s.isKeyword line.start "database_type" ∧ s.isMark (line.start + 1) .colon then
        { project with databaseType := s.valueText (line.drop 2) }
      else project

/-- Reads a project block; the first one with a name counts. -/
def addProject (s : Source) (a : Assembly) (block : Block) (children : List Segment) :
    Noted Assembly := do
  match block.header.name? with
  | none =>
    Noted.note block.start .unnamedProject
    return a
  | some name =>
    if a.project.isSome then
      Noted.note block.start .repeatedProject
      return a
    else return { a with project := some (children.foldl (applyProjectSegment s) { name }) }

/-! ## The top level -/

def applyGroup (s : Source) (a : Assembly) : Segment → Noted Assembly
  | .block block children =>
    if block.kind = .tableGroup then addGroup s a block children else pure a
  | .line _ => pure a

/-- Reads the segment when it is a block but no group. -/
def applyBlock (s : Source) (a : Assembly) : Segment → Noted Assembly
  | .block block children =>
    match block.kind with
    | .table => addTopTable s a block children
    | .project => addProject s a block children
    | .tableGroup | .ref => pure a
    | kind => do
      Noted.note block.start (.unsupportedBlock kind)
      return a
  | .line _ => pure a

/-- The groups of the segments, and then the other blocks. -/
def ofSegments (s : Source) (segments : List Segment) : Noted Assembly := do
  let a ← segments.foldlM (applyGroup s) {}
  segments.foldlM (applyBlock s) a

end Assembly

/-! ## Aliases -/

/-- The key that a table's name stands for: itself if it is a key, else the key of the last table
that has it as an alias. -/
def resolveName (tables : List Table) (name : String) : String :=
  if tables.any (·.key == name) then name
  else ((tables.reverse.find? (·.aliasName == some name)).map Table.key).getD name

/-- The relationship with both its tables named by their keys. -/
def Relationship.resolve (tables : List Table) (relationship : Relationship) : Relationship :=
  { relationship with
    fromTable := resolveName tables relationship.fromTable
    toTable := resolveName tables relationship.toTable }

/-! ## The database -/

/-- The database that the segments of a source declare. -/
def Source.assemble (s : Source) (segments : List Segment) : Noted Database := do
  let a ← Assembly.ofSegments s segments
  let stated ← s.statedRelationships (s.statements a.dropped true segments)
  return {
    tables := a.tables
    relationships := (a.relationships ++ stated).map (·.resolve a.tables)
    tableGroups := a.groups
    project := a.project }

end Dbml
