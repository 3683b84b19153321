import Dbml.Proofs.Assembly.Ownership
import Dbml.Proofs.Checked.Tables
import Dbml.Proofs.Statement.Found

/-!
# Groups found by their numbers

While a document is assembled, groups are found by the numbers that keys have as their owners, and a
colour is taken from the palette by the hash of a name. Main statements: one lemma for each step,
that it takes no group and no colour that is not there and does not leave the source;
`assemble_eq` puts them together.
-/

namespace Dbml

open Assembly (Consistent Grouping)
open Token (Run)
open Trial

variable {s : Source} {a : Assembly} {seen : List Declaration} {group : Nat} {key : String}
  {block : Block} {children segments : List Segment}

/-- The owner of a key is the number of a group that is there. -/
theorem Assembly.Consistent.owner_lt (consistent : Consistent a seen)
    (owned : a.owner? key = some group) : group < a.groups.length := by
  obtain ⟨g, here, -⟩ := consistent.exists_group owned
  exact (List.getElem?_eq_some_iff.1 here).1

namespace Checked

/-! ## Colours -/

def colorOfName (name : String) : Option String :=
  Color.palette[(Color.hash name).toInt.natAbs % Color.palette.length]?

/-- The colour of a table or a group, as `Color.resolve` gives it. -/
def resolve (given : List (Option String)) (inherited : Option String) (name : String) :
    Option String :=
  match (given.findSome? id).or inherited with
  | some color => some color
  | none => colorOfName name

theorem colorOfName_eq (name : String) : colorOfName name = some (Color.ofName name) := by
  have inside : (Color.hash name).toInt.natAbs % Color.palette.length < Color.palette.length :=
    Nat.mod_lt _ (by decide)
  rw [colorOfName, Color.ofName, List.getD_eq_getElem?_getD, List.getElem?_eq_getElem inside]
  rfl

theorem resolve_eq (given : List (Option String)) (inherited : Option String) (name : String) :
    resolve given inherited name = some (Color.resolve given inherited name) := by
  rw [resolve, Color.resolve]
  cases (given.findSome? id).or inherited with
  | some color => rfl
  | none => exact colorOfName_eq name

/-! ## Members -/

/-- The assembly with a key claimed, as `Assembly.claim` gives it. -/
def claim (a : Assembly) (group : Nat) (key : String) : Option Assembly :=
  match a.owner? key with
  | some _ => some a
  | none =>
    if group < a.groups.length then
      some { a with
        owners := (key, group) :: a.owners
        groups := a.groups.modify group fun g => { g with tables := g.tables ++ [key] } }
    else none

def claimAt (a : Assembly) (group : Nat) (key : String) (position : Nat) : Trial Assembly := do
  match a.owner? key with
  | some owner =>
    if owner ≠ group then
      let other ← access a.groups[owner]?
      Noted.note position (.ownedTable key other.id)
  | none => pure ()
  access (claim a group key)

def memberOf (a : Assembly) : Option Nat → Option (Option TableGroup)
  | none => some none
  | some owner => do
    let g ← a.groups[owner]?
    return some g

/-- The assembly with one more table, as `Assembly.addTable` gives it. -/
def addTable (a : Assembly) (table : DeclaredTable) (owner : Option Nat) : Option Assembly := do
  let g ← memberOf a owner
  let color ← resolve [table.headerColor, table.color] (g.map (·.color)) table.key
  return { a with
    tables := a.tables ++ [{ table.finish (g.map (·.id)) (g.map (·.color)) with color }]
    relationships := a.relationships ++ table.relationships }

theorem claim_eq (present : group < a.groups.length) :
    claim a group key = some (a.claim group key) := by
  rw [claim, Assembly.claim, if_pos present]
  cases a.owner? key <;> rfl

theorem claimAt_eq (consistent : Consistent a seen) (present : group < a.groups.length)
    (position : Nat) : claimAt a group key position = liftM (a.claimAt group key position) := by
  rw [claimAt, Assembly.claimAt, claim_eq present]
  cases owned : a.owner? key with
  | none => rfl
  | some owner =>
    dsimp only
    split
    · rw [List.getElem?_eq_getElem (consistent.owner_lt owned)]
      rfl
    · rfl

theorem addTable_eq (table : DeclaredTable) {owner : Option Nat}
    (present : ∀ i, owner = some i → i < a.groups.length) :
    addTable a table owner = some (a.addTable table owner) := by
  have member : memberOf a owner = some (owner.bind (a.groups[·]?)) := by
    cases owner with
    | none => rfl
    | some i =>
      rw [memberOf, Option.bind_some, List.getElem?_eq_getElem (present i rfl)]
      rfl
  rw [addTable, member]
  simp only [Option.bind_eq_bind, Option.bind_some, resolve_eq]
  rfl

/-! ## Tables -/

/-- The assembly with the table of a block, as `Assembly.placeTable` gives it. -/
def placeTable (s : Source) (a : Assembly) (block : Block) (children : List Segment)
    (place : DeclaredTable → Trial Assembly) : Trial Assembly := do
  match ← declaredTable s block children with
  | none => return a.drop block
  | some table =>
    if a.isDefined table.key then
      Noted.note block.start (.repeatedTable table.key)
      return a.drop block
    else place table

def addGroupTable (s : Source) (group : Option Nat) (a : Assembly) (block : Block)
    (children : List Segment) : Trial Assembly :=
  placeTable s a block children fun table =>
    match group with
    | none => access (addTable a table none)
    | some group => do
      let a ← claimAt a group table.key block.start
      access (addTable a table (a.owner? table.key))

def addTopTable (s : Source) (a : Assembly) (block : Block) (children : List Segment) :
    Trial Assembly :=
  placeTable s a block children fun table => access (addTable a table (a.owner? table.key))

theorem placeTable_eq (run : Run 0 s.chars s.lexemes.toList)
    (fits : (Segment.block block children).Fits s) {place : DeclaredTable → Trial Assembly}
    {settle : DeclaredTable → Noted Assembly}
    (same : ∀ table, place table = liftM (settle table)) :
    placeTable s a block children place = liftM (a.placeTable s block children settle) := by
  rw [placeTable, Assembly.placeTable, declaredTable_eq run fits]
  refine lift_bind ?_
  cases (s.declaredTable block children).value with
  | none => rfl
  | some table =>
    dsimp only
    split
    · rfl
    · exact same table

theorem addGroupTable_eq (run : Run 0 s.chars s.lexemes.toList) (grouping : Grouping a seen)
    {number : Option Nat} (present : ∀ group ∈ number, group < a.groups.length)
    (fits : (Segment.block block children).Fits s) :
    addGroupTable s number a block children =
      liftM (Assembly.addGroupTable s number a block children) := by
  refine placeTable_eq run fits fun table => ?_
  cases number with
  | none =>
    have added : addTable a table none = _ := addTable_eq table fun i owned => by cases owned
    dsimp only
    rw [added]
    rfl
  | some group =>
    dsimp only
    rw [claimAt_eq grouping.consistent (present group rfl)]
    refine lift_bind ?_
    have claimed := (grouping.claim (present group rfl) table.key).consistent
    rw [Assembly.claimAt_value, addTable_eq table fun i owned => claimed.owner_lt owned]
    rfl

theorem addTopTable_eq (run : Run 0 s.chars s.lexemes.toList) (consistent : Consistent a seen)
    (fits : (Segment.block block children).Fits s) :
    addTopTable s a block children = liftM (Assembly.addTopTable s a block children) := by
  refine placeTable_eq run fits fun table => ?_
  rw [addTable_eq table fun i owned => consistent.owner_lt owned]
  rfl

/-! ## Groups -/

def applyGroupSetting (s : Source) (settings : Assembly.GroupSettings) (setting : Setting) :
    Trial Assembly.GroupSettings :=
  match setting with
  | .pair "color" value _ => do
    let color ← access (colorText s value)
    return { settings with color }
  | _ => liftM (Assembly.applyGroupSetting s settings setting)

def openGroup (s : Source) (a : Assembly) (block : Block) (name : String) : Trial Assembly := do
  let given ← access (headerSettings s block.header)
  let given ← given.foldlM (applyGroupSetting s) {}
  let id := groupId name
  if a.groups.any (·.id == id) then Noted.note block.start (.repeatedGroup id)
  let color ← access (resolve [given.color] none name)
  let group : TableGroup := { id, name, note := given.note, color, tables := [] }
  return { a with groups := a.groups ++ [group] }

/-- Reads one segment of a group's body, as `Assembly.applyGroupSegment` does. -/
def applyGroupSegment (s : Source) (group : Option Nat) (o : Assembly.OpenGroup) :
    Segment → Trial Assembly.OpenGroup
  | .block block children =>
    match block.kind with
    | .table => do
      let assembly ← addGroupTable s group o.assembly block children
      return { o with assembly }
    | .note => do
      let note ← access (blockNote s block)
      return { o with note := note.or o.note }
    | kind => do
      Noted.note block.start (.unexpectedInGroup kind)
      return o
  | .line line =>
    match s.noteLine? line with
    | some note => return { o with note := note.or o.note }
    | none =>
      if (s.shortForm? line).isSome then return o
      else do
        let ts ← access (tokens s line)
        match nameParts ts, group with
        | some names, some group => do
          let assembly ← claimAt o.assembly group (".".intercalate names) line.start
          return { o with assembly }
        | some _, none => return o
        | none, _ => do
          Noted.note line.start .unknownGroupLine
          return o

def setGroupNote (a : Assembly) (group : Nat) (note : Option String) : Option Assembly :=
  match note with
  | none => some a
  | some note =>
    if group < a.groups.length then
      some { a with groups := a.groups.modify group fun g => { g with note := some note } }
    else none

/-- The assembly with a group, as `Assembly.addGroup` gives it. -/
def addGroup (s : Source) (a : Assembly) (block : Block) (children : List Segment) :
    Trial Assembly := do
  match block.header.name? with
  | some name =>
    let group := a.groups.length
    let a ← openGroup s a block name
    let o ← children.foldlM (applyGroupSegment s (some group)) { assembly := a }
    access (setGroupNote o.assembly group o.note)
  | none =>
    Noted.note block.start .unnamedGroup
    let o ← children.foldlM (applyGroupSegment s none) { assembly := a }
    return o.assembly

theorem applyGroupSetting_eq (run : Run 0 s.chars s.lexemes.toList)
    (settings : Assembly.GroupSettings) {setting : Setting} (fits : setting.Fits s) :
    applyGroupSetting s settings setting =
      liftM (Assembly.applyGroupSetting s settings setting) := by
  unfold applyGroupSetting
  split
  next value position =>
    have bound : value.stop ≤ s.size := fits
    rw [colorText_eq run bound]
    rfl
  · rfl

theorem openGroup_eq (run : Run 0 s.chars s.lexemes.toList) (name : String)
    (bound : ∀ range, block.header.settings = some range → range.stop ≤ s.size) :
    openGroup s a block name = liftM (Assembly.openGroup s a block name) := by
  have given := lift_foldlM_of_forall (b := ({} : Assembly.GroupSettings))
    fun given setting listed =>
      applyGroupSetting_eq run given (fits_headerSettings bound setting listed)
  rw [openGroup, Assembly.openGroup, headerSettings_eq bound]
  simp only [access_bind, given, resolve_eq]
  refine lift_bind ?_
  split <;> rfl

theorem applyGroupSegment_eq (run : Run 0 s.chars s.lexemes.toList) {o : Assembly.OpenGroup}
    (grouping : Grouping o.assembly seen) {number : Option Nat}
    (present : ∀ group ∈ number, group < o.assembly.groups.length) {segment : Segment}
    (fits : segment.Fits s) :
    applyGroupSegment s number o segment =
      liftM (Assembly.applyGroupSegment s number o segment) := by
  cases fits with
  | @line line nonempty bound =>
    rw [applyGroupSegment, Assembly.applyGroupSegment.eq_def]
    dsimp only
    cases s.noteLine? line with
    | some note => rfl
    | none =>
      dsimp only
      split
      · rfl
      · rw [tokens_eq (Nat.le_of_lt nonempty) bound, access_bind]
        cases nameParts (s.tokens line) with
        | none => rfl
        | some names =>
          cases number with
          | none => rfl
          | some group =>
            dsimp only
            rw [claimAt_eq grouping.consistent (present group rfl)]
            exact lift_bind rfl
  | @block block children braces inside settings inner =>
    have fits : (Segment.block block children).Fits s := .block braces inside settings inner
    rw [applyGroupSegment, Assembly.applyGroupSegment.eq_def,
      blockNote_eq braces (Nat.le_of_lt inside), addGroupTable_eq run grouping present fits]
    dsimp only
    cases block.kind with
    | table => exact lift_bind rfl
    | _ => rfl

/-- The groups that there were are still there behind a group's body. -/
theorem groupBody_eq (run : Run 0 s.chars s.lexemes.toList) {o : Assembly.OpenGroup}
    (grouping : Grouping o.assembly seen) {number : Option Nat}
    (present : ∀ group ∈ number, group < o.assembly.groups.length)
    (fits : ∀ x ∈ children, x.Fits s) :
    children.foldlM (applyGroupSegment s number) o =
        liftM (children.foldlM (Assembly.applyGroupSegment s number) o) ∧
      ∀ group ∈ number, group <
        (children.foldlM (Assembly.applyGroupSegment s number) o).value.assembly.groups.length := by
  induction children generalizing o seen with
  | nil => exact ⟨rfl, present⟩
  | cons x rest ih =>
    obtain ⟨after, length⟩ := grouping.applyGroupSegment (s := s) present x
    obtain ⟨later, kept⟩ := ih after (by rw [length]; exact present)
      fun y listed => fits y (List.mem_cons_of_mem _ listed)
    refine ⟨?_, by rw [List.foldlM_cons, Noted.bind_value]; exact kept⟩
    rw [List.foldlM_cons, List.foldlM_cons,
      applyGroupSegment_eq run grouping present (fits x List.mem_cons_self)]
    exact lift_bind later

theorem setGroupNote_eq (present : group < a.groups.length) (note : Option String) :
    setGroupNote a group note = some (a.setGroupNote group note) := by
  cases note with
  | none => rfl
  | some note => rw [setGroupNote, if_pos present]; rfl

theorem addGroup_eq (run : Run 0 s.chars s.lexemes.toList) (grouping : Grouping a seen)
    (fits : (Segment.block block children).Fits s) :
    addGroup s a block children = liftM (Assembly.addGroup s a block children) := by
  cases fits with
  | block braces inside settings inner =>
    rw [addGroup, Assembly.addGroup]
    cases block.header.name? with
    | none =>
      have absent : ∀ group ∈ (none : Option Nat), group < a.groups.length := by simp
      obtain ⟨body, -⟩ := groupBody_eq run (o := { assembly := a }) grouping absent inner
      dsimp only
      rw [body]
      exact lift_bind (lift_bind rfl)
    | some name =>
      obtain ⟨opened, length⟩ := grouping.openGroup (s := s) block name
      have present : ∀ group ∈ some a.groups.length,
          group < (Assembly.openGroup s a block name).value.groups.length := by
        rintro group ⟨⟩
        rw [length]
        exact Nat.lt_succ_self _
      obtain ⟨body, kept⟩ := groupBody_eq run (o := ⟨_, none⟩) opened present inner
      dsimp only
      rw [openGroup_eq run name settings]
      refine lift_bind ?_
      rw [body]
      refine lift_bind ?_
      rw [setGroupNote_eq (kept _ rfl)]
      rfl

/-! ## The project -/

def applyProjectSegment (s : Source) (project : Project) : Segment → Option Project
  | .block block _ =>
    if block.kind = .note then do
      let note ← blockNote s block
      return { project with note }
    else some project
  | .line line =>
    match s.noteLine? line with
    | some note => some { project with note }
    | none =>
      if s.isKeyword line.start "database_type" ∧ s.isMark (line.start + 1) .colon then do
        let databaseType ← valueText s (line.drop 2)
        return { project with databaseType }
      else some project

/-- The assembly with a project, as `Assembly.addProject` gives it. -/
def addProject (s : Source) (a : Assembly) (block : Block) (children : List Segment) :
    Trial Assembly := do
  match block.header.name? with
  | none =>
    Noted.note block.start .unnamedProject
    return a
  | some name =>
    if a.project.isSome then
      Noted.note block.start .repeatedProject
      return a
    else
      let project ← access (children.foldlM (applyProjectSegment s) { name })
      return { a with project := some project }

theorem applyProjectSegment_eq (run : Run 0 s.chars s.lexemes.toList) (project : Project)
    {segment : Segment} (fits : segment.Fits s) :
    applyProjectSegment s project segment =
      some (Assembly.applyProjectSegment s project segment) := by
  cases fits with
  | @line line nonempty bound =>
    have value : valueText s (line.drop 2) = some (s.valueText (line.drop 2)) :=
      valueText_eq run bound
    rw [applyProjectSegment, Assembly.applyProjectSegment, value]
    cases s.noteLine? line with
    | some note => rfl
    | none =>
      dsimp only
      split <;> rfl
  | block braces inside settings inner =>
    rw [applyProjectSegment, Assembly.applyProjectSegment,
      blockNote_eq braces (Nat.le_of_lt inside)]
    split <;> rfl

theorem addProject_eq (run : Run 0 s.chars s.lexemes.toList)
    (fits : (Segment.block block children).Fits s) :
    addProject s a block children = liftM (Assembly.addProject s a block children) := by
  cases fits with
  | block braces inside settings inner =>
    rw [addProject, Assembly.addProject]
    cases block.header.name? with
    | none => rfl
    | some name =>
      dsimp only
      split
      · rfl
      · have body : children.foldlM (applyProjectSegment s) { name } =
            some (children.foldl (Assembly.applyProjectSegment s) { name }) :=
          foldlM_eq_foldl fun project x listed =>
            applyProjectSegment_eq run project (inner x listed)
        rw [body]
        rfl

/-! ## The top level -/

def applyGroup (s : Source) (a : Assembly) : Segment → Trial Assembly
  | .block block children =>
    if block.kind = .tableGroup then addGroup s a block children else return a
  | .line _ => return a

def applyBlock (s : Source) (a : Assembly) : Segment → Trial Assembly
  | .block block children =>
    match block.kind with
    | .table => addTopTable s a block children
    | .project => addProject s a block children
    | .tableGroup | .ref => return a
    | kind => do
      Noted.note block.start (.unsupportedBlock kind)
      return a
  | .line _ => return a

/-- The assembly of the segments, as `Assembly.ofSegments` gives it. -/
def ofSegments (s : Source) (segments : List Segment) : Trial Assembly := do
  let a ← segments.foldlM (applyGroup s) {}
  segments.foldlM (applyBlock s) a

theorem applyGroup_eq (run : Run 0 s.chars s.lexemes.toList) (grouping : Grouping a seen)
    {segment : Segment} (fits : segment.Fits s) :
    applyGroup s a segment = liftM (Assembly.applyGroup s a segment) := by
  cases segment with
  | line line => rfl
  | block block children =>
    rw [applyGroup, Assembly.applyGroup]
    split
    · exact addGroup_eq run grouping fits
    · rfl

theorem applyBlock_eq (run : Run 0 s.chars s.lexemes.toList) (consistent : Consistent a seen)
    {segment : Segment} (fits : segment.Fits s) :
    applyBlock s a segment = liftM (Assembly.applyBlock s a segment) := by
  cases segment with
  | line line => rfl
  | block block children =>
    rw [applyBlock, Assembly.applyBlock, addTopTable_eq run consistent fits, addProject_eq run fits]
    cases block.kind <;> rfl

theorem ofSegments_eq (run : Run 0 s.chars s.lexemes.toList) (fits : ∀ x ∈ segments, x.Fits s) :
    ofSegments s segments = liftM (Assembly.ofSegments s segments) := by
  have start : Grouping {} [] := ⟨.empty, by intro declaration met; cases met⟩
  have groups : segments.foldlM (applyGroup s) {} =
      liftM (segments.foldlM (Assembly.applyGroup s) {}) := by
    refine lift_foldlM (P := fun a => ∃ seen, Grouping a seen) ⟨[], start⟩ ?_
    rintro a ⟨seen, grouping⟩ x listed
    exact ⟨applyGroup_eq run grouping (fits x listed), _, grouping.applyGroup x⟩
  have blocks : segments.foldlM (applyBlock s) (segments.foldlM (Assembly.applyGroup s) {}).value =
      liftM (segments.foldlM (Assembly.applyBlock s)
        (segments.foldlM (Assembly.applyGroup s) {}).value) := by
    have read := start.groups (s := s) segments
    refine lift_foldlM (P := fun a => ∃ seen, Consistent a seen) ⟨_, read.consistent⟩ ?_
    rintro a ⟨seen, consistent⟩ x listed
    exact ⟨applyBlock_eq run consistent (fits x listed), _, consistent.applyBlock x⟩
  rw [ofSegments, groups]
  exact lift_bind blocks

/-! ## Statements -/

/-- The relationship of a statement, as `Source.statedRelationship` gives it. -/
def statedRelationship (s : Source) : Statement → Trial (Option Relationship)
  | .reference position range name => do
    match ← access (reference s range name) with
    | .ok reference => do
      if reference.malformed then Noted.note position .unplacedEndpoint
      return some reference.relationship
    | .error fault => do
      Noted.note position (.rejectedReference fault)
      return none
  | statement => liftM (s.statedRelationship statement)

def statedRelationships (s : Source) : List Statement → Trial (List Relationship)
  | [] => return []
  | statement :: rest => do
    let relationship ← statedRelationship s statement
    let relationships ← statedRelationships s rest
    return relationship.toList ++ relationships

/-- The database that the segments declare, as `Source.assemble` gives it. -/
def assemble (s : Source) (segments : List Segment) : Trial Database := do
  let a ← ofSegments s segments
  let stated ← statedRelationships s (s.statements a.dropped true segments)
  return {
    tables := a.tables
    relationships := (a.relationships ++ stated).map (·.resolve a.tables)
    tableGroups := a.groups
    project := a.project }

theorem fits_of_place {around : Option Block} (fits : ∀ x ∈ segments, x.Fits s) :
    ∀ place ∈ Segment.places around segments, place.segment.Fits s := by
  induction segments using Segment.tree_induction generalizing around with
  | nil => exact fun place listed => absurd listed List.not_mem_nil
  | line range rest ih =>
    obtain ⟨here, later⟩ := List.forall_mem_cons.1 fits
    exact List.forall_mem_cons.2 ⟨here, ih later⟩
  | block block children rest inner ih =>
    obtain ⟨here, later⟩ := List.forall_mem_cons.1 fits
    refine List.forall_mem_cons.2 ⟨here, List.forall_mem_append.2 ⟨?_, ih later⟩⟩
    cases here with
    | block braces inside settings within => exact inner within

/-- The tokens of a statement end inside the source. -/
theorem stop_le_of_states {place : Place} {position : Nat} {range : TokenRange}
    {name : Option String} (states : s.States place (.reference position range name))
    (fits : place.segment.Fits s) : range.stop ≤ s.size := by
  cases states with
  | line kind short =>
    cases fits with
    | line nonempty bound => exact Nat.le_trans (Source.shortForm?_bounds short).2 bound
  | listed kind =>
    cases fits with
    | line nonempty bound => exact bound

theorem statedRelationship_eq (run : Run 0 s.chars s.lexemes.toList) {place : Place}
    {statement : Statement} (states : s.States place statement) (fits : place.segment.Fits s) :
    statedRelationship s statement = liftM (s.statedRelationship statement) := by
  cases statement with
  | reference position range name =>
    rw [statedRelationship, Source.statedRelationship,
      reference_eq run (stop_le_of_states states fits), access_bind]
    cases s.reference range name with
    | error fault => rfl
    | ok reference =>
      dsimp only
      split <;> rfl
  | _ => rfl

theorem statedRelationships_eq {statements : List Statement}
    (each : ∀ statement ∈ statements,
      statedRelationship s statement = liftM (s.statedRelationship statement)) :
    statedRelationships s statements = liftM (s.statedRelationships statements) := by
  induction statements with
  | nil => rfl
  | cons statement rest ih =>
    obtain ⟨here, later⟩ := List.forall_mem_cons.1 each
    rw [statedRelationships, Source.statedRelationships, here, ih later]
    exact lift_bind (lift_bind rfl)

theorem assemble_eq (run : Run 0 s.chars s.lexemes.toList) (fits : ∀ x ∈ segments, x.Fits s) :
    assemble s segments = liftM (s.assemble segments) := by
  rw [assemble, Source.assemble, ofSegments_eq run fits]
  refine lift_bind ?_
  rw [statedRelationships_eq fun statement made => ?_]
  · exact lift_bind rfl
  · have top : true = true → (none : Option Block) = none := fun _ => rfl
    obtain ⟨place, here, states⟩ := Source.exists_states top (by simp) made
    exact statedRelationship_eq run states (fits_of_place fits place here)

end Checked

end Dbml
