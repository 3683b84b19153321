import Dbml.Proofs.Checked.Columns
import Dbml.Proofs.Respacing.Headers
import Dbml.Proofs.Segment.Unclosed

/-!
# Tables read inside bounds

The columns, the indexes and the notes of a table are read off the lines and blocks of its body,
which stand inside the source. Main statements: `fits_of_scan`, where segments stand, and
`declaredTable_eq`, a table is read without leaving the bounds.
-/

namespace Dbml

open Token (Run)
open Trial

variable {s : Source} {i stop : Nat} {range line : TokenRange}

/-! ## Where segments stand -/

/-- Lines hold tokens of the source; blocks stand between two tokens of it, with the settings of the
header before the first of them, and the segments in them stand there as well. -/
inductive Segment.Fits (s : Source) : Segment → Prop
  | line {range : TokenRange} (nonempty : range.start < range.stop) (bound : range.stop ≤ s.size) :
    Fits s (.line range)
  | block {block : Block} {children : List Segment} (braces : block.opening < block.closing)
    (inside : block.closing < s.size)
    (settings : ∀ range, block.header.settings = some range → range.stop ≤ s.size)
    (inner : ∀ x ∈ children, Fits s x) : Fits s (.block block children)

namespace Source

theorem fits_of_scanFrom {limit : Option Nat} {depth : Nat} {segments : List Segment}
    (bound : stop ≤ s.size) (scanned : s.scanFrom limit depth i stop = .ok segments) :
    ∀ x ∈ segments, x.Fits s := by
  induction size : stop - i using Nat.strongRecOn generalizing depth i stop segments with
  | ind n ih =>
  rcases scanFrom_cases scanned with ⟨-, rfl⟩ | ⟨inside, -, rest⟩ |
    ⟨inside, solid, rest, later, rfl⟩ |
    ⟨inside, solid, opening, closing, children, rest, opens, closes, within, later, rfl⟩
  · exact fun x listed => absurd listed List.not_mem_nil
  · exact ih _ (by omega) bound rest rfl
  · have ahead := lineEnd_gt inside fun here => solid (holds_newline.1 here)
    refine List.forall_mem_cons.2 ⟨?_, ih _ (by omega) bound later rfl⟩
    exact .line ahead (Nat.le_trans lineEnd_le bound)
  · obtain ⟨framed, ends⟩ := framed_blockAt inside bound solid opens closes
    have first := framed.start_le
    have order := framed.opening_lt
    simp only [blockAt] at first order
    refine List.forall_mem_cons.2 ⟨.block order (Nat.lt_of_lt_of_le ends bound) ?_ ?_,
      ih _ (by omega) bound later rfl⟩
    · intro settings given
      have before : settings.stop ≤ opening := (header_settings_bounds given).2
      omega
    · rcases blockChildren_eq_ok.1 within with ⟨-, rfl⟩ | ⟨-, -, found⟩
      · exact fun x listed => absurd listed List.not_mem_nil
      · exact ih _ (by omega) (by omega) found rfl

theorem fits_of_scan {segments : List Segment} (scanned : s.scan = .ok segments) :
    ∀ x ∈ segments, x.Fits s :=
  fits_of_scanFrom (Nat.le_refl s.size) (scan_eq_ok.1 scanned)

end Source

namespace Checked

/-! ## Indexes -/

def indexHead (s : Source) (line : TokenRange) :
    Option (Except IndexFault (List String × Nat)) :=
  match s.token? line.start with
  | none => some (.error .emptyDeclaration)
  | some (.mark .openParen) => do
    match ← matching s line.start line.stop .openParen .closeParen with
    | none => return .error .unclosedColumns
    | some closing =>
      let ts ← tokens s ⟨line.start + 1, closing⟩
      return do
        let columns ← Source.indexColumns ts
        if columns.isEmpty then .error .noColumns else return (columns, closing + 1)
  | some (.expr _) => some (.error .expression)
  | some token =>
    match token.name? with
    | some name => some (.ok ([name], line.start + 1))
    | none => some (.error .malformedDeclaration)

def applyIndexSetting (s : Source) (index : Index) : Setting → Trial Index
  | .pair key value position =>
    match key with
    | "name" => do
      let name ← access (valueText s value)
      return { index with name }
    | "type" => do
      let type ← access (valueText s value)
      return { index with type }
    | key => liftM (s.applyIndexSetting index (.pair key value position))
  | setting => liftM (s.applyIndexSetting index setting)

def indexSettings (s : Source) (next stop : Nat) : Option (List Setting) :=
  if next < stop ∧ s.isMark next .openBracket then do
    let closing ← matching s next stop .openBracket .closeBracket
    settings s ⟨next + 1, closing.getD stop⟩
  else some []

/-- The index of a line, as `Source.index?` gives it. -/
def index? (s : Source) (line : TokenRange) : Trial (Option Index) := do
  match ← access (indexHead s line) with
  | .error fault => do
    Noted.note line.start (.rejectedIndex fault)
    return none
  | .ok (columns, next) =>
    let given ← access (indexSettings s next line.stop)
    let index ← given.foldlM (applyIndexSetting s) { columns }
    return some index

theorem indexHead_eq (bound : line.stop ≤ s.size) :
    indexHead s line = some (s.indexHead line) := by
  rw [indexHead, Source.indexHead]
  cases first : s.token? line.start with
  | none => rfl
  | some t =>
    have named : (match t.name? with
        | some name => some (.ok ([name], line.start + 1))
        | none => some (.error .malformedDeclaration) :
          Option (Except IndexFault (List String × Nat))) =
        some (match t.name? with
          | some name => .ok ([name], line.start + 1)
          | none => .error .malformedDeclaration) := by
      cases t.name? <;> rfl
    cases t with
    | expr => rfl
    | mark m =>
      cases m with
      | openParen =>
        dsimp only
        rw [matching_eq bound]
        cases closes : s.matching line.start line.stop .openParen .closeParen with
        | none => rfl
        | some closing =>
          obtain ⟨low, high, closer⟩ := Source.matching_bounds closes
          have apart : line.start ≠ closing := by
            rintro rfl
            cases Source.eq_of_isMark (Source.isMark_iff_token?.2 first) closer
          have between : tokens s ⟨line.start + 1, closing⟩ = _ :=
            tokens_eq (by simp only; omega) (by simp only; omega)
          simp only [Option.bind_eq_bind, Option.bind_some, between]
          rfl
      | _ => exact named
    | _ => exact named

theorem indexSettings_eq (bound : stop ≤ s.size) :
    indexSettings s i stop = some (s.indexSettings i stop) := by
  rw [indexSettings, Source.indexSettings]
  split
  · have given : settings s
        ⟨i + 1, (s.matching i stop .openBracket .closeBracket).getD stop⟩ = _ :=
      settings_eq (closing_le bound)
    rw [matching_eq bound]
    exact given
  · rfl

theorem fits_indexSettings (bound : stop ≤ s.size) :
    ∀ setting ∈ s.indexSettings i stop, setting.Fits s := by
  rw [Source.indexSettings]
  split
  · have inside : (s.matching i stop .openBracket .closeBracket).getD stop ≤ s.size :=
      closing_le bound
    exact Source.fits_settings inside
  · exact fun setting listed => absurd listed List.not_mem_nil

/-! ## Bodies -/

/-- The table with the indexes of a block, as `Source.addIndexes` gives it. -/
def addIndexes (s : Source) (table : DeclaredTable) : List Segment → Trial DeclaredTable
  | [] => return table
  | .line line :: rest => do
    let index ← index? s line
    addIndexes s (index.elim table table.addIndex) rest
  | .block _ _ :: rest => addIndexes s table rest

def applyTableSetting (s : Source) (settings : TableSettings) : Setting → Trial TableSettings
  | .pair key value position =>
    match key with
    | "headercolor" => do
      let headerColor ← access (colorText s value)
      return { settings with headerColor }
    | "color" => do
      let color ← access (colorText s value)
      return { settings with color }
    | key => liftM (s.applyTableSetting settings (.pair key value position))
  | setting => liftM (s.applyTableSetting settings setting)

def applyTableLine (s : Source) (table : DeclaredTable) (line : TokenRange) :
    Trial DeclaredTable :=
  match s.noteLine? line with
  | some (some note) => return { table with note := some note }
  | some none => do
    Noted.note line.start .unquotedTableNote
    return table
  | none =>
    if (s.shortForm? line).isSome then return table
    else do
      match ← column? s table.key line with
      | some declared =>
        return { table with
          columns := table.columns ++ [declared.column]
          relationships := table.relationships ++ declared.relationship.toList }
      | none =>
        Noted.note line.start .unknownTableLine
        return table

/-- The table with one segment of its body, as `Source.applyTableSegment` gives it. -/
def applyTableSegment (s : Source) (table : DeclaredTable) : Segment → Trial DeclaredTable
  | .line line => applyTableLine s table line
  | .block block children =>
    match block.kind with
    | .note => do
      let note ← access (blockNote s block)
      return { table with note := note.or table.note }
    | .indexes => addIndexes s table children
    | kind => do
      Noted.note block.start (.unexpectedInTable kind table.key)
      return table

def headerSettings (s : Source) (header : Header) : Option (List Setting) :=
  header.settings.elim (some []) (settings s)

/-- The table of a block, as `Source.declaredTable` gives it. -/
def declaredTable (s : Source) (block : Block) (children : List Segment) :
    Trial (Option DeclaredTable) :=
  match Source.tableName? block.header with
  | none => do
    Noted.note block.start .unnamedTable
    return none
  | some (schema, name) =>
    if s.hasEmptyBody block then do
      Noted.note block.start (.emptyTable name)
      return none
    else do
      let given ← access (headerSettings s block.header)
      let given ← given.foldlM (applyTableSetting s) {}
      let table : DeclaredTable :=
        { name, schema, aliasName := block.header.aliasName,
          headerColor := given.headerColor, color := given.color }
      let table ← children.foldlM (applyTableSegment s) table
      return some { table with note := table.note.or given.note }

theorem headerSettings_eq {header : Header}
    (bound : ∀ range, header.settings = some range → range.stop ≤ s.size) :
    headerSettings s header = some (header.settings.elim [] s.settings) := by
  rw [headerSettings]
  cases given : header.settings with
  | none => rfl
  | some range => exact settings_eq (bound range given)

theorem fits_headerSettings {header : Header}
    (bound : ∀ range, header.settings = some range → range.stop ≤ s.size) :
    ∀ setting ∈ header.settings.elim [] s.settings, setting.Fits s := by
  cases given : header.settings with
  | none => exact fun setting listed => absurd listed List.not_mem_nil
  | some range => exact Source.fits_settings (bound range given)

section

variable (run : Run 0 s.chars s.lexemes.toList)
include run

theorem applyIndexSetting_eq (index : Index) {setting : Setting} (fits : setting.Fits s) :
    applyIndexSetting s index setting = liftM (s.applyIndexSetting index setting) := by
  cases setting with
  | flag words position => rfl
  | invalid position => rfl
  | pair key value position =>
    have bound : value.stop ≤ s.size := fits
    unfold applyIndexSetting
    dsimp only
    split
    · rw [valueText_eq run bound]
      rfl
    · rw [valueText_eq run bound]
      rfl
    · rfl

theorem index?_eq (bound : line.stop ≤ s.size) : index? s line = liftM (s.index? line) := by
  rw [index?, Source.index?, indexHead_eq bound]
  cases s.indexHead line with
  | error fault => rfl
  | ok head =>
    obtain ⟨columns, next⟩ := head
    have applied := lift_foldlM_of_forall (b := ({ columns } : Index)) fun index setting listed =>
      applyIndexSetting_eq run index
        (fits_indexSettings (i := next) bound setting listed)
    simp only [access_bind, indexSettings_eq bound, applied]
    exact lift_bind rfl

theorem addIndexes_eq (table : DeclaredTable) {segments : List Segment}
    (fits : ∀ x ∈ segments, x.Fits s) :
    addIndexes s table segments = liftM (s.addIndexes table segments) := by
  induction segments generalizing table with
  | nil => rfl
  | cons segment rest ih =>
    obtain ⟨here, fits⟩ := List.forall_mem_cons.1 fits
    have later {table : DeclaredTable} := ih table fits
    cases here with
    | line nonempty bound =>
      rw [addIndexes, Source.addIndexes, index?_eq run bound]
      exact lift_bind later
    | block => exact later

theorem applyTableSetting_eq (settings : TableSettings) {setting : Setting}
    (fits : setting.Fits s) :
    applyTableSetting s settings setting = liftM (s.applyTableSetting settings setting) := by
  cases setting with
  | flag words position => rfl
  | invalid position => rfl
  | pair key value position =>
    have bound : value.stop ≤ s.size := fits
    unfold applyTableSetting
    dsimp only
    split
    · rw [colorText_eq run bound]
      rfl
    · rw [colorText_eq run bound]
      rfl
    · rfl

theorem applyTableLine_eq (table : DeclaredTable) (bound : line.stop ≤ s.size) :
    applyTableLine s table line = liftM (s.applyTableLine table line) := by
  rw [applyTableLine, Source.applyTableLine]
  cases s.noteLine? line with
  | some note => cases note <;> rfl
  | none =>
    dsimp only
    split
    · rfl
    · rw [column?_eq run table.key bound]
      refine lift_bind ?_
      cases (s.column? table.key line).value <;> rfl

theorem applyTableSegment_eq (table : DeclaredTable) {segment : Segment} (fits : segment.Fits s) :
    applyTableSegment s table segment = liftM (s.applyTableSegment table segment) := by
  cases fits with
  | line nonempty bound => exact applyTableLine_eq run table bound
  | @block block children braces inside settings inner =>
    rw [applyTableSegment, Source.applyTableSegment, blockNote_eq braces (Nat.le_of_lt inside)]
    cases block.kind with
    | indexes => exact addIndexes_eq run table inner
    | _ => rfl

theorem declaredTable_eq {block : Block} {children : List Segment}
    (fits : (Segment.block block children).Fits s) :
    declaredTable s block children = liftM (s.declaredTable block children) := by
  cases fits with
  | block braces inside settings inner =>
    rw [declaredTable, Source.declaredTable, headerSettings_eq settings]
    cases Source.tableName? block.header with
    | none => rfl
    | some names =>
      obtain ⟨schema, name⟩ := names
      dsimp only
      split
      · rfl
      · have given := lift_foldlM_of_forall (b := ({} : TableSettings)) fun given setting listed =>
          applyTableSetting_eq run given (fits_headerSettings settings setting listed)
        have applied {table : DeclaredTable} := lift_foldlM_of_forall (b := table)
          fun table segment listed => applyTableSegment_eq run table (inner segment listed)
        simp only [access_bind, given]
        refine lift_bind ?_
        rw [applied]
        exact lift_bind rfl

end

end Checked

end Dbml
