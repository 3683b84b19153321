import Dbml.Proofs.Recovery.PassedOver
import Dbml.Proofs.Statement.Removal

/-!
# Shapes that are accepted

The top level and each kind of block accept lines and blocks of some shapes. A segment of another
shape is noted at its first token, except where no shape is asked for: in notes and projects, and
of the blocks in `indexes`. Main statement: `guards_assemble`.
-/

namespace Dbml

open Segment

/-! ## Shapes -/

namespace Source

/-- Whether the line has a shape that lines in the block, or at the top level, are accepted in. -/
def acceptsLine (s : Source) (around : Option Block) (line : TokenRange) : Bool :=
  match around with
  | none => (s.shortForm? line).isSome
  | some outer =>
    match outer.kind with
    | .tableGroup =>
      (s.noteLine? line).isSome || (s.shortForm? line).isSome ||
        (nameParts (s.tokens line)).isSome
    | .table =>
      (s.noteLine? line).isSome || (s.shortForm? line).isSome || (s.columnHead? line).isSome
    | .ref => (s.reference line outer.header.name?).isOk
    | .project =>
      (s.noteLine? line).isSome ||
        s.isKeyword line.start "database_type" && s.isMark (line.start + 1) .colon
    | .indexes => (s.indexHead line).isOk
    | .note | .other _ => true

/-- Whether blocks of the kind are accepted in the block, or at the top level. -/
def acceptsBlock (around : Option Block) (kind : BlockKind) : Bool :=
  match around with
  | none => [.table, .tableGroup, .ref, .project].contains kind
  | some outer =>
    match outer.kind with
    | .tableGroup => [.table, .note].contains kind
    | .table => [.note, .indexes].contains kind
    | .project => kind == .note
    | .ref | .indexes => false
    | .note | .other _ => true

/-- Whether the segment has a shape that is accepted in its place. -/
def accepts (s : Source) (place : Place) : Bool :=
  match place.segment with
  | .line range => s.acceptsLine place.around range
  | .block inner _ => acceptsBlock place.around inner.kind

end Source

/-- Whether a segment of a shape that is not accepted may stand in the place without a word: in a
note, in a project, or as a block in `indexes`. -/
def Place.isUnguarded (place : Place) : Bool :=
  match place.around.map Block.kind, place.segment with
  | some .note, _ | some .project, _ => true
  | some .indexes, .block _ _ => true
  | _, _ => false

/-! ## What is noted at a token -/

namespace Noted

variable {α β : Type} {position : Nat}

def NotesAt (x : Noted α) (position : Nat) : Prop :=
  ∃ finding ∈ x.findings, finding.position = position

theorem notesAt_note (position : Nat) (cause : Cause) : (note position cause).NotesAt position :=
  ⟨⟨position, cause⟩, List.mem_singleton_self _, rfl⟩

theorem NotesAt.bind_left {x : Noted α} (noted : x.NotesAt position) (f : α → Noted β) :
    (x >>= f).NotesAt position := by
  obtain ⟨finding, listed, same⟩ := noted
  exact ⟨finding, List.mem_append_left _ listed, same⟩

theorem NotesAt.bind_right {x : Noted α} {f : α → Noted β}
    (noted : (f x.value).NotesAt position) : (x >>= f).NotesAt position := by
  obtain ⟨finding, listed, same⟩ := noted
  exact ⟨finding, List.mem_append_right _ listed, same⟩

/-- What the step of a fold for one of the elements notes, the fold notes. -/
theorem exists_step_foldlM (f : β → α → Noted β) {xs : List α} {x : α} (listed : x ∈ xs) (b : β) :
    ∃ b', ∀ position, (f b' x).NotesAt position → (xs.foldlM f b).NotesAt position := by
  induction xs generalizing b with
  | nil => cases listed
  | cons y xs ih =>
    rw [List.foldlM_cons]
    rcases List.mem_cons.1 listed with rfl | later
    · exact ⟨b, fun position noted => noted.bind_left _⟩
    · obtain ⟨b', more⟩ := ih later (f b y).value
      exact ⟨b', fun position noted => .bind_right (more position noted)⟩

end Noted

namespace Source

open Noted

variable {s : Source} {α β : Type} {x y : Noted α} {around : Option Block} {block : Block}
  {children segments : List Segment} {places : List Place} {segment : Segment}

/-! ## Guards -/

/-- Of every segment in the places that is not accepted, or of a block around it, something is noted
at the first token, unless it stands unguarded. -/
def Guards (s : Source) (x : Noted α) (places : List Place) : Prop :=
  ∀ place ∈ places, s.accepts place = false → ∃ outer ∈ places,
    place ∈ outer :: outer.segment.inside ∧ (x.NotesAt outer.start ∨ outer.isUnguarded = true)

theorem Guards.mono {z : Noted β} (guards : s.Guards x places)
    (more : ∀ position, x.NotesAt position → z.NotesAt position) : s.Guards z places := by
  intro place here rejected
  obtain ⟨outer, there, within, noted⟩ := guards place here rejected
  exact ⟨outer, there, within, noted.imp_left (more outer.start)⟩

/-- A segment that is noted guards what is inside it as well. -/
theorem guards_of_notesAt (place : Place) (noted : x.NotesAt place.start) :
    s.Guards x (place :: place.segment.inside) :=
  fun _ here _ => ⟨place, List.mem_cons_self, here, .inl noted⟩

theorem guards_of_isUnguarded (place : Place) (unguarded : place.isUnguarded = true) :
    s.Guards x (place :: place.segment.inside) :=
  fun _ here _ => ⟨place, List.mem_cons_self, here, .inr unguarded⟩

theorem guards_of_accepts (place : Place) (accepted : s.accepts place = true)
    (inner : s.Guards x place.segment.inside) : s.Guards x (place :: place.segment.inside) := by
  intro other here rejected
  rcases List.mem_cons.1 here with rfl | within
  · rw [accepted] at rejected
    cases rejected
  · obtain ⟨outer, there, found⟩ := inner other within rejected
    exact ⟨outer, List.mem_cons_of_mem _ there, found⟩

theorem guards_line {line : TokenRange}
    (noted : s.acceptsLine around line = false → x.NotesAt line.start) :
    s.Guards x [⟨around, .line line⟩] := by
  cases accepted : s.acceptsLine around line with
  | false => exact guards_of_notesAt ⟨around, .line line⟩ (noted accepted)
  | true =>
    have nothing : s.Guards x (Segment.inside (.line line)) := by simp [Guards, inside]
    exact guards_of_accepts ⟨around, .line line⟩ accepted nothing

theorem guards_foldlM {f : β → Segment → Noted β} (listed : segment ∈ segments)
    (guards : ∀ b, s.Guards (f b segment) places) (b : β) :
    s.Guards (segments.foldlM f b) places := by
  obtain ⟨b', more⟩ := exists_step_foldlM f listed b
  exact (guards b').mono more

theorem guards_places
    (each : ∀ segment ∈ segments, s.Guards x (⟨around, segment⟩ :: segment.inside)) :
    s.Guards x (Segment.places around segments) := by
  intro place here rejected
  rw [places_eq_flatMap] at here
  obtain ⟨segment, listed, within⟩ := List.mem_flatMap.1 here
  obtain ⟨outer, there, found⟩ := each segment listed place within rejected
  rw [places_eq_flatMap]
  exact ⟨outer, List.mem_flatMap.2 ⟨segment, listed, there⟩, found⟩

/-- In the body of a note or a project nothing is guarded. -/
theorem guards_of_kind (kind : block.kind = .note ∨ block.kind = .project) :
    s.Guards x (Segment.places (some block) children) :=
  guards_places fun segment _ => guards_of_isUnguarded ⟨some block, segment⟩ <| by
    rcases kind with kind | kind <;> simp [Place.isUnguarded, kind]

/-! ## Tables -/

theorem notesAt_index? {line : TokenRange} (rejected : (s.indexHead line).isOk = false) :
    (s.index? line).NotesAt line.start := by
  rw [index?]
  cases head : s.indexHead line with
  | ok found =>
    rw [head] at rejected
    cases rejected
  | error fault => exact (notesAt_note _ _).bind_left _

theorem notesAt_addIndexes {line : TokenRange} (listed : .line line ∈ children)
    (rejected : (s.indexHead line).isOk = false) (table : DeclaredTable) :
    (s.addIndexes table children).NotesAt line.start := by
  induction children generalizing table with
  | nil => cases listed
  | cons segment rest ih =>
    rcases List.mem_cons.1 listed with rfl | later
    · exact (notesAt_index? rejected).bind_left _
    · cases segment with
      | line other => exact .bind_right (ih later _)
      | block => exact ih later table

theorem guards_addIndexes (kind : block.kind = .indexes) (table : DeclaredTable) :
    s.Guards (s.addIndexes table children) (Segment.places (some block) children) := by
  refine guards_places fun segment listed => ?_
  cases segment with
  | line range =>
    refine guards_line fun rejected => notesAt_addIndexes listed ?_ table
    simpa only [acceptsLine, kind] using rejected
  | block inner within =>
    exact guards_of_isUnguarded ⟨some block, .block inner within⟩
      (by simp [Place.isUnguarded, kind])

theorem guards_applyTableSegment (kind : block.kind = .table) (table : DeclaredTable) :
    s.Guards (s.applyTableSegment table segment) (⟨some block, segment⟩ :: segment.inside) := by
  cases segment with
  | line range =>
    refine guards_line fun rejected => ?_
    simp only [acceptsLine, kind, Bool.or_eq_false_iff, Option.isSome_eq_false_iff,
      Option.isNone_iff_eq_none] at rejected
    obtain ⟨⟨note, reference⟩, column⟩ := rejected
    rw [applyTableSegment, applyTableLine, note, reference, column?, column]
    exact ⟨⟨range.start, .unknownTableLine⟩, List.mem_singleton_self _, rfl⟩
  | block inner within =>
    have accepted (allowed : [BlockKind.note, .indexes].contains inner.kind = true) :
        s.accepts ⟨some block, .block inner within⟩ = true := by
      simpa only [accepts, acceptsBlock, kind] using allowed
    rw [applyTableSegment]
    split
    next note =>
      exact guards_of_accepts _ (accepted (by simp [note])) (guards_of_kind (.inl note))
    next indexes =>
      exact guards_of_accepts _ (accepted (by simp [indexes])) (guards_addIndexes indexes table)
    · exact guards_of_notesAt ⟨some block, .block inner within⟩
        ((notesAt_note inner.start _).bind_left _)

/-- A table is noted as a whole, or its body is read. -/
theorem guards_declaredTable (kind : block.kind = .table)
    (accepted : acceptsBlock around .table = true) :
    s.Guards (s.declaredTable block children)
      (⟨around, .block block children⟩ :: Segment.places (some block) children) := by
  rw [declaredTable]
  split
  · exact guards_of_notesAt ⟨around, .block block children⟩
      ((notesAt_note block.start .unnamedTable).bind_left _)
  next schema name _ =>
    split
    · exact guards_of_notesAt ⟨around, .block block children⟩
        ((notesAt_note block.start (.emptyTable name)).bind_left _)
    · refine guards_of_accepts ⟨around, .block block children⟩ ?_ ?_
      · simpa only [accepts, kind] using accepted
      · refine guards_places fun segment listed => ?_
        exact (guards_foldlM listed (guards_applyTableSegment kind) _).mono fun _ noted =>
          .bind_right (noted.bind_left _)

theorem guards_placeTable (kind : block.kind = .table)
    (accepted : acceptsBlock around .table = true) (a : Assembly)
    (place : DeclaredTable → Noted Assembly) :
    s.Guards (a.placeTable s block children place)
      (⟨around, .block block children⟩ :: Segment.places (some block) children) :=
  (guards_declaredTable kind accepted).mono fun _ noted => noted.bind_left _

/-! ## Groups -/

theorem guards_applyGroupSegment (kind : block.kind = .tableGroup) (group : Option Nat)
    (o : Assembly.OpenGroup) :
    s.Guards (Assembly.applyGroupSegment s group o segment)
      (⟨some block, segment⟩ :: segment.inside) := by
  cases segment with
  | line range =>
    refine guards_line fun rejected => ?_
    simp only [acceptsLine, kind, Bool.or_eq_false_iff, Option.isSome_eq_false_iff,
      Option.isNone_iff_eq_none] at rejected
    obtain ⟨⟨note, reference⟩, member⟩ := rejected
    rw [Assembly.applyGroupSegment.eq_def]
    simp only [note, reference, member]
    exact (notesAt_note range.start .unknownGroupLine).bind_left _
  | block inner within =>
    have accepted (allowed : [BlockKind.table, .note].contains inner.kind = true) :
        acceptsBlock (some block) inner.kind = true := by
      simpa only [acceptsBlock, kind] using allowed
    rw [Assembly.applyGroupSegment.eq_def]
    dsimp only
    split
    next table =>
      have placed := accepted (by simp [table])
      rw [table] at placed
      exact (guards_placeTable table placed _ _).mono fun _ noted => noted.bind_left _
    next note =>
      exact guards_of_accepts ⟨some block, .block inner within⟩ (accepted (by simp [note]))
        (guards_of_kind (.inl note))
    · exact guards_of_notesAt ⟨some block, .block inner within⟩
        ((notesAt_note inner.start _).bind_left _)

theorem guards_addGroup (kind : block.kind = .tableGroup) (a : Assembly) :
    s.Guards (Assembly.addGroup s a block children) (Segment.places (some block) children) := by
  refine guards_places fun segment listed => ?_
  have body (group : Option Nat) (o : Assembly.OpenGroup) :=
    guards_foldlM (s := s) listed (guards_applyGroupSegment kind group) o
  rw [Assembly.addGroup]
  split
  · exact (body _ _).mono fun _ noted => .bind_right (noted.bind_left _)
  · exact (body _ _).mono fun _ noted => .bind_right (noted.bind_left _)

/-! ## Statements -/

theorem segmentStatements_subset (listed : segment ∈ segments) {dropped : List Nat}
    {topLevel : Bool} : s.segmentStatements dropped topLevel segment ⊆
      s.statements dropped topLevel segments := by
  obtain ⟨before, after, rfl⟩ := List.append_of_mem listed
  rw [statements_append, statements]
  exact fun statement made => List.mem_append_right _ (List.mem_append_left _ made)

theorem notesAt_statedRelationships {statement : Statement} {statements : List Statement}
    (listed : statement ∈ statements) {position : Nat}
    (noted : (s.statedRelationship statement).NotesAt position) :
    (s.statedRelationships statements).NotesAt position := by
  obtain ⟨finding, told, same⟩ := noted
  refine ⟨finding, ?_, same⟩
  rw [statedRelationships_findings]
  exact List.mem_flatMap.2 ⟨statement, listed, told⟩

/-- In a `Ref` block a line is a reference or noted, and a block is noted. -/
theorem guards_listed (kind : block.kind = .ref) {statements : List Statement}
    (listed : children.map (listedStatement block.header.name?) ⊆ statements) :
    s.Guards (s.statedRelationships statements) (Segment.places (some block) children) := by
  refine guards_places fun segment here => ?_
  have made := listed (List.mem_map_of_mem here)
  cases segment with
  | line range =>
    refine guards_line fun rejected => notesAt_statedRelationships made ?_
    simp only [acceptsLine, kind] at rejected
    rw [listedStatement, statedRelationship]
    cases read : s.reference range block.header.name? with
    | ok reference =>
      rw [read] at rejected
      cases rejected
    | error fault => exact (notesAt_note range.start _).bind_left _
  | block inner within =>
    exact guards_of_notesAt ⟨some block, .block inner within⟩
      (notesAt_statedRelationships made ((notesAt_note inner.start _).bind_left _))

/-! ## The document -/

section

variable {position : Nat}

theorem notesAt_assemble_of_groups
    (noted : (segments.foldlM (Assembly.applyGroup s) {}).NotesAt position) :
    (s.assemble segments).NotesAt position :=
  (noted.bind_left _).bind_left _

theorem notesAt_assemble_of_blocks {a : Assembly}
    (groups : (segments.foldlM (Assembly.applyGroup s) {}).value = a)
    (noted : (segments.foldlM (Assembly.applyBlock s) a).NotesAt position) :
    (s.assemble segments).NotesAt position := by
  subst groups
  exact NotesAt.bind_left (.bind_right noted) _

theorem notesAt_assemble_of_statements {dropped : List Nat}
    (drops : (Assembly.ofSegments s segments).value.dropped = dropped)
    (noted : (s.statedRelationships (s.statements dropped true segments)).NotesAt position) :
    (s.assemble segments).NotesAt position := by
  subst drops
  exact .bind_right (noted.bind_left _)

end

theorem guards_topLine {line : TokenRange} (listed : .line line ∈ segments) :
    s.Guards (s.assemble segments) [⟨none, .line line⟩] := by
  refine guards_line fun rejected => ?_
  have other : s.shortForm? line = none := by
    simpa only [acceptsLine, Option.isSome_eq_false_iff, Option.isNone_iff_eq_none] using rejected
  have made : Statement.unknown line.start ∈
      s.statements (Assembly.ofSegments s segments).value.dropped true segments := by
    refine segmentStatements_subset listed ?_
    rw [segmentStatements, lineStatement, other]
    exact List.mem_singleton_self _
  exact notesAt_assemble_of_statements rfl
    (notesAt_statedRelationships made ((notesAt_note line.start _).bind_left _))

/-- A group is read first, a reference block last, and a block of another kind in between. -/
theorem guards_topBlock (listed : .block block children ∈ segments) :
    s.Guards (s.assemble segments)
      (⟨none, .block block children⟩ :: Segment.places (some block) children) := by
  have accepted (known : acceptsBlock none block.kind = true)
      (inner : s.Guards (s.assemble segments) (Segment.places (some block) children)) :
      s.Guards (s.assemble segments)
        (⟨none, .block block children⟩ :: Segment.places (some block) children) :=
    guards_of_accepts ⟨none, .block block children⟩ known inner
  have blocks {places : List Place}
      (guards : ∀ a, s.Guards (Assembly.applyBlock s a (.block block children)) places) :
      s.Guards (s.assemble segments) places :=
    (guards_foldlM listed guards _).mono fun _ => notesAt_assemble_of_blocks rfl
  cases kind : block.kind with
  | table =>
    refine blocks fun a => ?_
    simp only [Assembly.applyBlock, kind]
    exact guards_placeTable kind rfl a _
  | tableGroup =>
    have groups (a : Assembly) : s.Guards (Assembly.applyGroup s a (.block block children))
        (Segment.places (some block) children) := by
      rw [Assembly.applyGroup, if_pos kind]
      exact guards_addGroup kind a
    refine accepted (by rw [kind]; rfl) ?_
    exact (guards_foldlM listed groups _).mono fun _ => notesAt_assemble_of_groups
  | ref =>
    have made : children.map (listedStatement block.header.name?) ⊆
        s.statements (Assembly.ofSegments s segments).value.dropped true segments := by
      refine fun statement here => segmentStatements_subset listed ?_
      rw [segmentStatements, kind]
      exact here
    refine accepted (by rw [kind]; rfl) ?_
    exact (guards_listed kind made).mono fun _ => notesAt_assemble_of_statements rfl
  | project => exact accepted (by rw [kind]; rfl) (guards_of_kind (.inr kind))
  | _ =>
    refine blocks fun a => ?_
    simp only [Assembly.applyBlock, kind]
    exact guards_of_notesAt ⟨none, .block block children⟩ ((notesAt_note block.start _).bind_left _)

/-- Nothing in a document that is not accepted goes without a word, but for what stands
unguarded. -/
theorem guards_assemble (s : Source) (segments : List Segment) :
    s.Guards (s.assemble segments) (Segment.places none segments) := by
  refine guards_places fun segment listed => ?_
  cases segment with
  | line line => exact guards_topLine listed
  | block block children => exact guards_topBlock listed

end Source

end Dbml
