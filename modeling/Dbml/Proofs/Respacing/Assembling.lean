import Dbml.Assembly
import Dbml.Proofs.Respacing.Tables

/-!
# Assembling segments that move

Segments at their new places are assembled into the same database. Only the tables that were dropped
are remembered by their places. Main statement: `Relocated.assemble`.
-/

namespace Dbml

open Source Noted

variable {s s' : Source} {place : Nat → Nat} {d : Nat} {line : TokenRange} {b b' : Block}
  {segment segment' : Segment} {children children' segments segments' : List Segment}

namespace Assembly

/-- The assembly with the dropped tables at their new places. -/
def move (place : Nat → Nat) (a : Assembly) : Assembly :=
  { a with dropped := a.dropped.map place }

/-- The second assembly is the first one, but for the places of dropped tables. -/
def Moved (place : Nat → Nat) (a a' : Assembly) : Prop :=
  a' = a.move place

/-! ## Tables -/

theorem move_claim (a : Assembly) (group : Nat) (key : String) :
    (a.move place).claim group key = (a.claim group key).move place := by
  simp only [claim, show (a.move place).owner? key = a.owner? key from rfl]
  split <;> rfl

theorem moves_claimAt {position position' : Nat} (same : position' = place position)
    (a : Assembly) (group : Nat) (key : String) :
    Moves place (Moved place) (a.claimAt group key position)
      ((a.move place).claimAt group key position') := by
  simp only [claimAt, move_claim, show (a.move place).owner? key = a.owner? key from rfl]
  split
  · split
    · exact moves_note_pure same _ rfl
    · exact moves_pure rfl
  · exact moves_pure rfl

theorem moves_placeTable (same : SameBlock s s' place b b')
    (inner : List.Forall₂ (Relocated s s' place) children children') (a : Assembly)
    {settle settle' : DeclaredTable → Noted Assembly}
    (settled : ∀ table, Moves place (Moved place) (settle table) (settle' table)) :
    Moves place (Moved place) (placeTable s a b children settle)
      (placeTable s' (a.move place) b' children' settle') := by
  have dropped : Moved place (a.drop b) ((a.move place).drop b') := by
    rw [Moved, drop, drop, same.start]
    rfl
  refine (same.declaredTable inner).bind_same fun declared => ?_
  cases declared with
  | none => exact moves_pure dropped
  | some table =>
    dsimp only
    rw [show (a.move place).isDefined table.key = a.isDefined table.key from rfl]
    split
    · exact moves_note_pure same.start _ dropped
    · exact settled table

theorem moves_addGroupTable (same : SameBlock s s' place b b')
    (inner : List.Forall₂ (Relocated s s' place) children children') (group : Option Nat)
    (a : Assembly) :
    Moves place (Moved place) (addGroupTable s group a b children)
      (addGroupTable s' group (a.move place) b' children') := by
  refine moves_placeTable same inner a fun table => ?_
  cases group with
  | none => exact moves_pure rfl
  | some group =>
    refine (moves_claimAt same.start a group table.key).bind fun claimed claimed' moved => ?_
    rw [show claimed' = _ from moved]
    exact moves_pure rfl

theorem moves_addTopTable (same : SameBlock s s' place b b')
    (inner : List.Forall₂ (Relocated s s' place) children children') (a : Assembly) :
    Moves place (Moved place) (addTopTable s a b children)
      (addTopTable s' (a.move place) b' children') :=
  moves_placeTable same inner a fun _ => moves_pure rfl

/-! ## Groups -/

theorem moves_openGroup (same : SameBlock s s' place b b') (a : Assembly) (name : String) :
    Moves place (Moved place) (openGroup s a b name) (openGroup s' (a.move place) b' name) := by
  refine Moves.bind_same ?_ fun given => ?_
  · exact moves_foldlM_same same.header.settings
      (fun settings x y setting => setting.applyGroupSetting settings) _
  · dsimp only
    rw [show (a.move place).groups = a.groups from rfl]
    split
    · exact moves_note_pure same.start _ rfl
    · exact moves_pure rfl

/-- The same note, and what has been assembled with dropped tables at their new places. -/
def OpenGroup.Moved (place : Nat → Nat) (o o' : OpenGroup) : Prop :=
  o' = { o with assembly := o.assembly.move place }

theorem moves_applyGroupSegment (moved : Relocated s s' place segment segment')
    (group : Option Nat) (o : OpenGroup) :
    Moves place (OpenGroup.Moved place) (applyGroupSegment s group o segment)
      (applyGroupSegment s' group { o with assembly := o.assembly.move place } segment') := by
  cases moved with
  | @line line d copied nonempty behind behind' =>
    have here := (copied.place _ (Nat.le_refl _) nonempty).symm
    simp only [applyGroupSegment, copied.noteLine? nonempty, copied.shortForm? nonempty,
      Option.isSome_map, copied.tokens]
    split
    · exact moves_pure rfl
    · split
      · exact moves_pure rfl
      · split
        · refine (moves_claimAt here ..).bind fun claimed claimed' moved => ?_
          rw [show claimed' = _ from moved]
          exact moves_pure rfl
        · exact moves_pure rfl
        · exact moves_note_pure here _ rfl
  | block same inner =>
    simp only [applyGroupSegment, same.kind, same.note]
    split
    · refine (moves_addGroupTable same inner group o.assembly).bind fun added added' moved => ?_
      rw [show added' = _ from moved]
      exact moves_pure rfl
    · exact moves_pure rfl
    · exact moves_note_pure same.start _ rfl

theorem moves_applyGroupSegments (moved : List.Forall₂ (Relocated s s' place) children children')
    (group : Option Nat) (a : Assembly) :
    Moves place (OpenGroup.Moved place)
      (children.foldlM (applyGroupSegment s group) { assembly := a })
      (children'.foldlM (applyGroupSegment s' group) { assembly := a.move place }) :=
  moves_foldlM moved rfl fun o o' x y same segment => by
    rw [show o' = _ from same]
    exact moves_applyGroupSegment segment group o

theorem move_setGroupNote (a : Assembly) (group : Nat) (note : Option String) :
    (a.move place).setGroupNote group note = (a.setGroupNote group note).move place := by
  cases note <;> rfl

theorem moves_addGroup (same : SameBlock s s' place b b')
    (inner : List.Forall₂ (Relocated s s' place) children children') (a : Assembly) :
    Moves place (Moved place) (addGroup s a b children)
      (addGroup s' (a.move place) b' children') := by
  rw [addGroup, addGroup, same.header.name?]
  cases b.header.name? with
  | some name =>
    refine (moves_openGroup same a name).bind fun opened opened' moved => ?_
    rw [show opened' = _ from moved]
    refine (moves_applyGroupSegments inner _ opened).bind fun o o' moved => moves_pure ?_
    rw [show o' = _ from moved]
    exact move_setGroupNote ..
  | none =>
    refine (moves_note same.start _).bind_same fun _ => ?_
    refine (moves_applyGroupSegments inner none a).bind fun o o' moved => moves_pure ?_
    rw [show o' = _ from moved]
    rfl

/-! ## The project -/

theorem applyProjectSegment_moved (moved : Relocated s s' place segment segment')
    (project : Project) :
    applyProjectSegment s' project segment' = applyProjectSegment s project segment := by
  cases moved with
  | @line line d copied nonempty behind behind' =>
    have value := (copied.drop 2).valueText
    have colon : s'.isMark (line.start + d + 1) .colon = s.isMark (line.start + 1) .colon := by
      rw [Nat.add_right_comm]
      by_cases another : line.start + 1 < line.stop
      · exact copied.isMark .colon (Nat.le_succ _) another
      · rw [show line.start + 1 = line.stop by omega, behind, behind']
    simp only [applyProjectSegment, copied.noteLine? nonempty, TokenRange.shift_start,
      TokenRange.shift_drop, copied.isKeyword _ (Nat.le_refl _) nonempty, colon, value]
  | block same inner => rw [applyProjectSegment, applyProjectSegment, same.kind, same.note]

theorem moves_addProject (same : SameBlock s s' place b b')
    (inner : List.Forall₂ (Relocated s s' place) children children') (a : Assembly) :
    Moves place (Moved place) (addProject s a b children)
      (addProject s' (a.move place) b' children') := by
  have body (project : Project) :
      children'.foldl (applyProjectSegment s') project =
        children.foldl (applyProjectSegment s) project := by
    induction inner generalizing project with
    | nil => rfl
    | cons first _ ih =>
      rw [List.foldl_cons, List.foldl_cons, applyProjectSegment_moved first, ih]
  rw [addProject, addProject, same.header.name?]
  cases b.header.name? with
  | none => exact moves_note_pure same.start _ rfl
  | some name =>
    dsimp only
    rw [show (a.move place).project = a.project from rfl, body]
    split
    · exact moves_note_pure same.start _ rfl
    · exact moves_pure rfl

/-! ## The top level -/

theorem moves_applyGroup (moved : Relocated s s' place segment segment') (a : Assembly) :
    Moves place (Moved place) (applyGroup s a segment) (applyGroup s' (a.move place) segment') := by
  cases moved with
  | line => exact moves_pure rfl
  | block same inner =>
    rw [applyGroup, applyGroup, same.kind]
    split
    · exact moves_addGroup same inner a
    · exact moves_pure rfl

theorem moves_applyBlock (moved : Relocated s s' place segment segment') (a : Assembly) :
    Moves place (Moved place) (applyBlock s a segment) (applyBlock s' (a.move place) segment') := by
  cases moved with
  | line => exact moves_pure rfl
  | block same inner =>
    rw [applyBlock, applyBlock, same.kind]
    split
    · exact moves_addTopTable same inner a
    · exact moves_addProject same inner a
    · exact moves_pure rfl
    · exact moves_pure rfl
    · exact moves_note_pure same.start _ rfl

theorem moves_ofSegments (moved : List.Forall₂ (Relocated s s' place) segments segments') :
    Moves place (Moved place) (ofSegments s segments) (ofSegments s' segments') := by
  refine Moves.bind (R := Moved place) ?_ fun a a' same => ?_
  · refine moves_foldlM moved rfl fun a a' x y same segment => ?_
    rw [show a' = _ from same]
    exact moves_applyGroup segment a
  · refine moves_foldlM moved same fun a a' x y same segment => ?_
    rw [show a' = _ from same]
    exact moves_applyBlock segment a

end Assembly

/-! ## Statements -/

/-- The same statement at its new place, about copied tokens. -/
inductive Statement.Copied (s s' : Source) (place : Nat → Nat) : Statement → Statement → Prop
  | reference (position : Nat) {range : TokenRange} {d : Nat}
    (copied : Dbml.Copied s s' place d range) (name : Option String) :
    Copied s s' place (.reference position range name)
      (.reference (place position) (range.shift d) name)
  | unknown (position : Nat) : Copied s s' place (.unknown position) (.unknown (place position))
  | nested (position : Nat) : Copied s s' place (.nested position) (.nested (place position))

theorem Copied.lineStatement (copied : Copied s s' place d line)
    (nonempty : line.start < line.stop) (topLevel : Bool) :
    List.Forall₂ (Statement.Copied s s' place) (s.lineStatement topLevel line)
      (s'.lineStatement topLevel (line.shift d)) := by
  rw [Source.lineStatement, Source.lineStatement, copied.shortForm? nonempty,
    TokenRange.shift_start, ← copied.place _ (Nat.le_refl _) nonempty]
  cases found : s.shortForm? line with
  | some pair =>
    obtain ⟨name, range⟩ := pair
    have bounds := shortForm?_bounds found
    exact .cons (.reference _ (copied.restrict (Nat.le_of_lt bounds.1) bounds.2) name) .nil
  | none =>
    dsimp only [Option.map_none]
    split
    · exact .cons (.unknown _) .nil
    · exact .nil

theorem Relocated.listedStatement (moved : Relocated s s' place segment segment')
    (name : Option String) :
    Statement.Copied s s' place (Source.listedStatement name segment)
      (Source.listedStatement name segment') := by
  cases moved with
  | @line line d copied nonempty behind behind' =>
    rw [Source.listedStatement, Source.listedStatement, TokenRange.shift_start,
      ← copied.place _ (Nat.le_refl _) nonempty]
    exact .reference _ copied name
  | block same inner =>
    rw [Source.listedStatement, Source.listedStatement, same.start]
    exact .nested _

/-- The statements of segments that move, with dropped tables at their new places. -/
theorem Relocated.statements (injective : Function.Injective place) (dropped : List Nat)
    (topLevel : Bool) (moved : List.Forall₂ (Relocated s s' place) segments segments') :
    List.Forall₂ (Statement.Copied s s' place) (s.statements dropped topLevel segments)
      (s'.statements (dropped.map place) topLevel segments') := by
  induction segments using Segment.tree_induction generalizing segments' topLevel with
  | nil =>
    cases moved
    exact .nil
  | line range rest ih =>
    obtain _ | ⟨first, others⟩ := moved
    cases first with
    | line copied nonempty behind behind' =>
      exact List.rel_append (copied.lineStatement nonempty topLevel) (ih _ others)
  | block b children rest inner ih =>
    obtain _ | ⟨first, others⟩ := moved
    cases first with
    | block same moved =>
      refine List.rel_append ?_ (ih _ others)
      have kept : (dropped.map place).contains (place b.start) = dropped.contains b.start := by
        rw [Bool.eq_iff_iff, List.contains_iff_mem, List.contains_iff_mem,
          List.mem_map_of_injective injective]
      rw [segmentStatements, segmentStatements, same.kind, same.start, same.header.name?, kept]
      split
      · rw [List.forall₂_map_left_iff, List.forall₂_map_right_iff]
        exact moved.imp fun _ _ child => child.listedStatement _
      · split
        · exact .nil
        · exact inner _ moved
      · exact inner _ moved
      · exact .nil

/-! ## The database -/

theorem Statement.Copied.statedRelationship {statement statement' : Statement}
    (copied : Statement.Copied s s' place statement statement') :
    Moves place (· = ·) (s.statedRelationship statement) (s'.statedRelationship statement') := by
  cases copied with
  | reference position copied name =>
    rw [Source.statedRelationship, Source.statedRelationship, copied.reference]
    split
    · split
      · exact moves_note_pure rfl _ rfl
      · exact moves_pure rfl
    · exact moves_note_pure rfl _ rfl
  | unknown position => exact moves_note_pure rfl _ rfl
  | nested position => exact moves_note_pure rfl _ rfl

theorem Statement.Copied.statedRelationships {statements statements' : List Statement}
    (copied : List.Forall₂ (Statement.Copied s s' place) statements statements') :
    Moves place (· = ·) (s.statedRelationships statements)
      (s'.statedRelationships statements') := by
  induction copied with
  | nil => exact moves_pure rfl
  | cons first _ ih =>
    exact first.statedRelationship.bind_same fun relationship =>
      ih.bind_same fun _ => moves_pure rfl

/-- The same database, and the same findings at their new places. -/
theorem Relocated.assemble (injective : Function.Injective place)
    (moved : List.Forall₂ (Relocated s s' place) segments segments') :
    Moves place (· = ·) (s.assemble segments) (s'.assemble segments') := by
  refine (Assembly.moves_ofSegments moved).bind fun a a' same => ?_
  rw [show a' = _ from same]
  exact (Statement.Copied.statedRelationships
    (Relocated.statements injective a.dropped true moved)).bind_same fun _ => moves_pure rfl

end Dbml
