import Dbml.Proofs.Recovery.Overlooked

/-!
# Assembling without a segment

A document that may do without a segment is assembled to the same without it, but for the memory of
a block that was dropped. Main statement: `sameBut_ofSegments`.
-/

namespace Dbml

open Segment Source

namespace Assembly

variable {s : Source} {position : Nat} {a b : Assembly} {o o' : OpenGroup} {block : Block}
  {segments children rest : List Segment} {x : Segment} {seen : List TableBlock}

/-- Two assemblies that differ at most in whether the block at the token counts as dropped. -/
def SameBut (position : Nat) (a b : Assembly) : Prop :=
  ∃ dropped, b = { a with dropped } ∧
    ∀ other, other ≠ position → (other ∈ a.dropped ↔ other ∈ dropped)

/-- The same of groups whose bodies are being read. -/
def SameOpen (position : Nat) (o o' : OpenGroup) : Prop :=
  SameBut position o.assembly o'.assembly ∧ o.note = o'.note

namespace SameBut

theorem refl (position : Nat) (a : Assembly) : SameBut position a a :=
  ⟨a.dropped, rfl, fun _ _ => Iff.rfl⟩

/-! ## Single tables -/

theorem owner? (same : SameBut position a b) (key : String) : a.owner? key = b.owner? key := by
  obtain ⟨dropped, rfl, -⟩ := same
  rfl

theorem isDefined (same : SameBut position a b) (key : String) :
    a.isDefined key = b.isDefined key := by
  obtain ⟨dropped, rfl, -⟩ := same
  rfl

theorem claim (same : SameBut position a b) (group : Nat) (key : String) :
    SameBut position (a.claim group key) (b.claim group key) := by
  have owner := same.owner? key
  obtain ⟨dropped, rfl, agree⟩ := same
  unfold Assembly.claim
  rw [← owner]
  cases a.owner? key with
  | none => exact ⟨dropped, rfl, agree⟩
  | some group => exact ⟨dropped, rfl, agree⟩

theorem drop (same : SameBut position a b) (block : Block) :
    SameBut position (a.drop block) (b.drop block) := by
  obtain ⟨dropped, rfl, agree⟩ := same
  refine ⟨block.start :: dropped, rfl, fun other apart => ?_⟩
  rw [List.mem_cons, ← agree other apart]
  exact List.mem_cons

theorem drop_left (same : SameBut block.start a b) : SameBut block.start (a.drop block) b := by
  obtain ⟨dropped, rfl, agree⟩ := same
  refine ⟨dropped, rfl, fun other apart => ?_⟩
  rw [← agree other apart]
  exact List.mem_cons.trans (or_iff_right apart)

theorem addTable (same : SameBut position a b) (table : DeclaredTable) (owner : Option Nat) :
    SameBut position (a.addTable table owner) (b.addTable table owner) := by
  obtain ⟨dropped, rfl, agree⟩ := same
  exact ⟨dropped, rfl, agree⟩

theorem placeTable (same : SameBut position a b) {place place' : DeclaredTable → Noted Assembly}
    (declared : (s.declaredTable block children).value = (s.declaredTable block rest).value)
    (placed : ∀ table, SameBut position (place table).value (place' table).value) :
    SameBut position (placeTable s a block children place).value
      (placeTable s b block rest place').value := by
  rw [placeTable_value, placeTable_value, declared]
  cases (s.declaredTable block rest).value with
  | none => exact same.drop block
  | some table =>
    dsimp only
    rw [same.isDefined]
    split
    · exact same.drop block
    · exact placed table

theorem addTopTable (same : SameBut position a b)
    (declared : (s.declaredTable block children).value = (s.declaredTable block rest).value) :
    SameBut position (addTopTable s a block children).value (addTopTable s b block rest).value := by
  refine same.placeTable declared fun table => ?_
  rw [same.owner?]
  exact same.addTable table _

theorem addGroupTable (same : SameBut position a b) (group : Option Nat)
    (declared : (s.declaredTable block children).value = (s.declaredTable block rest).value) :
    SameBut position (addGroupTable s group a block children).value
      (addGroupTable s group b block rest).value := by
  refine same.placeTable declared fun table => ?_
  cases group with
  | none => exact same.addTable table none
  | some group =>
    have claimed := same.claim group table.key
    rw [Noted.bind_value, Noted.bind_value, claimAt_value, claimAt_value, Noted.pure_value,
      Noted.pure_value, claimed.owner?]
    exact claimed.addTable table _

theorem setGroupNote (same : SameBut position a b) (group : Nat) (note : Option String) :
    SameBut position (a.setGroupNote group note) (b.setGroupNote group note) := by
  obtain ⟨dropped, rfl, agree⟩ := same
  cases note <;> exact ⟨dropped, rfl, agree⟩

/-! ## Groups -/

theorem addGroup (same : SameBut position a b)
    (body : ∀ group groups o', SameOpen position { assembly := { a with groups } } o' →
      SameOpen position
        (children.foldlM (applyGroupSegment s group) { assembly := { a with groups } }).value
        (rest.foldlM (applyGroupSegment s group) o').value) :
    SameBut position (addGroup s a block children).value (addGroup s b block rest).value := by
  obtain ⟨dropped, rfl, agree⟩ := same
  unfold Assembly.addGroup
  cases block.header.name? with
  | none =>
    exact (body none a.groups { assembly := { a with dropped } } ⟨⟨dropped, rfl, agree⟩, rfl⟩).1
  | some name =>
    obtain ⟨g, opened⟩ := openGroup_value s block name
    have read := body (some a.groups.length) (a.groups ++ [g])
      { assembly := { a with groups := a.groups ++ [g], dropped } } ⟨⟨dropped, rfl, agree⟩, rfl⟩
    simp only [Noted.bind_value, opened, Noted.pure_value]
    rw [read.2]
    exact read.1.setGroupNote _ _

theorem addProject (same : SameBut position a b)
    (read : ∀ project, children.foldl (applyProjectSegment s) project =
      rest.foldl (applyProjectSegment s) project) :
    SameBut position (addProject s a block children).value (addProject s b block rest).value := by
  obtain ⟨dropped, rfl, agree⟩ := same
  unfold Assembly.addProject
  cases block.header.name? with
  | none => exact ⟨dropped, rfl, agree⟩
  | some name =>
    dsimp only
    rw [read]
    split <;> exact ⟨dropped, rfl, agree⟩

end SameBut

theorem SameOpen.applyGroupSegment_block (same : SameOpen position o o') (group : Option Nat)
    (declared : block.kind = .table →
      (s.declaredTable block children).value = (s.declaredTable block rest).value) :
    SameOpen position (applyGroupSegment s group o (.block block children)).value
      (applyGroupSegment s group o' (.block block rest)).value := by
  rw [applyGroupSegment, applyGroupSegment]
  cases kind : block.kind with
  | table => exact ⟨same.1.addGroupTable group (declared kind), same.2⟩
  | note => exact ⟨same.1, congrArg (s.blockNote block).or same.2⟩
  | _ => exact same

theorem SameOpen.applyGroupSegment (same : SameOpen position o o') (group : Option Nat) :
    SameOpen position (applyGroupSegment s group o x).value
      (applyGroupSegment s group o' x).value := by
  cases x with
  | block block children => exact same.applyGroupSegment_block group fun _ => rfl
  | line line =>
    rw [applyGroupSegment.eq_def, applyGroupSegment.eq_def]
    dsimp only
    cases s.noteLine? line with
    | some note => exact ⟨same.1, congrArg note.or same.2⟩
    | none =>
      dsimp only
      split
      · exact same
      · cases nameParts (s.tokens line) with
        | none => exact same
        | some names =>
          cases group with
          | none => exact same
          | some group =>
            rw [Noted.bind_value, Noted.bind_value, claimAt_value, claimAt_value]
            exact ⟨same.1.claim group _, same.2⟩

theorem SameBut.applyGroup (same : SameBut position a b) (x : Segment) :
    SameBut position (applyGroup s a x).value (applyGroup s b x).value := by
  cases x with
  | line line => exact same
  | block block children =>
    rw [Assembly.applyGroup, Assembly.applyGroup]
    split
    · refine same.addGroup fun group groups o' start => ?_
      exact Noted.foldlM_related (fun _ _ _ same => same.applyGroupSegment group) start children
    · exact same

theorem SameBut.applyBlock_block (same : SameBut position a b)
    (declared : block.kind = .table →
      (s.declaredTable block children).value = (s.declaredTable block rest).value)
    (read : block.kind = .project → ∀ project, children.foldl (applyProjectSegment s) project =
      rest.foldl (applyProjectSegment s) project) :
    SameBut position (applyBlock s a (.block block children)).value
      (applyBlock s b (.block block rest)).value := by
  rw [applyBlock, applyBlock]
  cases kind : block.kind with
  | table => exact same.addTopTable (declared kind)
  | project => exact same.addProject (read kind)
  | _ => exact same

theorem SameBut.applyBlock (same : SameBut position a b) (x : Segment) :
    SameBut position (applyBlock s a x).value (applyBlock s b x).value := by
  cases x with
  | line line => exact same
  | block block children => exact same.applyBlock_block (fun _ => rfl) fun _ _ => rfl

/-! ## Steps over a dispensable segment -/

theorem applyGroupSegment_overlooked (kind : block.kind = .tableGroup)
    (overlooks : s.Overlooks ⟨some block, x⟩) (group : Option Nat) (o : OpenGroup) :
    (applyGroupSegment s group o x).value = o := by
  rcases overlooks with ⟨cause, passed⟩ | ⟨statement, states⟩
  · cases passed with
    | tableLine other | index other | inTable other =>
      rw [kind] at other
      cases other
    | groupLine _ note reference member =>
      rw [applyGroupSegment.eq_def]
      simp only [note, reference, member]
      rfl
    | inGroup _ table note =>
      rw [applyGroupSegment]
      split
      · contradiction
      · contradiction
      · rfl
  · cases states with
    | line _ short =>
      rw [applyGroupSegment.eq_def]
      simp only [noteLine?_of_shortForm? short, short]
      rfl
    | listed other | nested other =>
      rw [kind] at other
      cases other

theorem applyGroup_overlooked (overlooks : s.Overlooks ⟨none, x⟩) (a : Assembly) :
    (applyGroup s a x).value = a := by
  cases x with
  | line line => rfl
  | block block children =>
    obtain ⟨cause, passed⟩ | ⟨statement, states⟩ := overlooks
    · cases passed with
      | unsupported _ _ group => rw [applyGroup, if_neg group]; rfl
    · cases states

theorem applyBlock_overlooked (overlooks : s.Overlooks ⟨none, x⟩) (a : Assembly) :
    (applyBlock s a x).value = a := by
  cases x with
  | line line => rfl
  | block block children =>
    obtain ⟨cause, passed⟩ | ⟨statement, states⟩ := overlooks
    · cases passed with
      | unsupported table project =>
        rw [applyBlock]
        split
        · contradiction
        · contradiction
        · rfl
        · rfl
        · rfl
    · cases states

theorem placeTable_discarded (discovering : Discovering s a seen)
    (discards : s.Discards seen ⟨block, children⟩) (place : DeclaredTable → Noted Assembly) :
    (placeTable s a block children place).value = a.drop block := by
  rw [placeTable_value]
  cases declared : (s.declaredTable block children).value with
  | none => rfl
  | some table =>
    have taken := (discovering.defined _).2 (discards_iff.1 discards table declared)
    dsimp only
    rw [if_pos taken]

theorem not_dispensable_project (kind : block.kind = .project) :
    ¬ s.Dispensable segments ⟨some block, x⟩ := by
  rintro (⟨⟨cause, passed⟩ | ⟨statement, states⟩⟩ | ⟨-, outer, -⟩)
  · cases passed with
    | tableLine other | groupLine other | index other | inTable other | inGroup other =>
      rw [kind] at other
      cases other
  · cases states with
    | line other => rcases other block rfl with other | other <;> rw [kind] at other <;> cases other
    | listed other | nested other =>
      rw [kind] at other
      cases other
  · rw [outer block rfl] at kind
    cases kind

theorem foldl_applyProjectSegment_removed (kind : block.kind = .project)
    (removed : Removed x children rest)
    (spares : s.Spares segments x (places (some block) children)) (project : Project) :
    children.foldl (applyProjectSegment s) project =
      rest.foldl (applyProjectSegment s) project := by
  cases removed with
  | here before after =>
    exact absurd (spares _ (mem_places (by simp))) (not_dispensable_project kind)
  | inside before after inner removed' =>
    rw [List.foldl_append, List.foldl_append, List.foldl_cons, List.foldl_cons,
      applyProjectSegment, applyProjectSegment]

/-! ## Runs without the segment -/

theorem sameOpen_groupBody (kind : block.kind = .tableGroup) (removed : Removed x children rest)
    (spares : s.Spares segments x (places (some block) children))
    (tail : List TableBlock)
    (met : discovered segments = seen ++ children.filterMap tableBlock? ++ tail)
    (group : Option Nat) (discovering : Discovering s o.assembly seen)
    (same : SameOpen x.start o o') :
    SameOpen x.start (children.foldlM (applyGroupSegment s group) o).value
      (rest.foldlM (applyGroupSegment s group) o').value := by
  refine removed.foldlM (fun y b c same => same.applyGroupSegment group) ?_ ?_ same
  · rintro before after rfl c same
    rcases spares _ (mem_places (by simp)) with overlooks | ⟨table, -, drops⟩
    · rw [applyGroupSegment_overlooked kind overlooks]
      exact same
    · -- The group has met the blocks up to here, and with them what the table is discarded for.
      have discards := drops (seen ++ before.filterMap tableBlock?)
        (after.filterMap tableBlock? ++ tail) (by rw [met]; simp [tableBlock?_table table])
      have reached : Discovering s (before.foldlM (applyGroupSegment s group) o).value.assembly
          (seen ++ before.filterMap tableBlock?) :=
        (discovering_invariant s).groupBody before discovering
      refine ⟨?_, ?_⟩
      · simp only [applyGroupSegment, table, Noted.bind_value, addGroupTable, Noted.pure_value]
        rw [placeTable_discarded reached discards]
        exact same.1.drop_left
      · simp only [applyGroupSegment, table, Noted.bind_value, Noted.pure_value]
        exact same.2
  · -- Of the blocks in a group only tables are read into, and they declare the same.
    rintro before after inner children' rest' rfl removed' c same
    have within : s.Spares segments x (places (some inner) children') :=
      spares.of_subset (places_subset (by simp))
    exact same.applyGroupSegment_block group fun table =>
      declaredTable_removed table removed' within

theorem sameBut_groups (removed : Removed x segments rest)
    (spares : s.Spares segments x (places none segments)) :
    SameBut x.start (segments.foldlM (applyGroup s) {}).value
      (rest.foldlM (applyGroup s) {}).value := by
  refine removed.foldlM (fun y b c same => same.applyGroup y) ?_ ?_ (SameBut.refl _ _)
  · intro before after split c same
    rcases spares none (mem_places (by simp [split])) with overlooks | ⟨table, -, -⟩
    · rw [applyGroup_overlooked overlooks]
      exact same
    · rw [applyGroup, if_neg (by simp [table])]
      exact same
  · intro before after block children inner split removed' c same
    rw [applyGroup, applyGroup]
    by_cases kind : block.kind = .tableGroup
    · rw [if_pos kind, if_pos kind]
      have met : discovered segments = before.flatMap groupBlocks ++
          children.filterMap tableBlock? ++
            (after.flatMap groupBlocks ++ segments.filterMap tableBlock?) := by
        rw [discovered, ← List.append_assoc]
        congr 1
        rw [split]
        simp [groupBlocks, kind]
      have reached := (discovering_invariant s).groups before (discovering_empty s)
      refine same.addGroup fun group groups o' start => ?_
      refine sameOpen_groupBody kind removed' ?_ _ met group ?_ start
      · exact spares.of_subset (places_subset (by simp [split]))
      · exact (discovering_invariant s).frame reached rfl rfl rfl
    · rw [if_neg kind, if_neg kind]
      exact same

/-- A document that may do without a segment is assembled to the same without it, but for the memory
that the segment was dropped. -/
theorem sameBut_ofSegments (removed : Removed x segments rest)
    (spares : s.Spares segments x (places none segments)) :
    SameBut x.start (ofSegments s segments).value (ofSegments s rest).value := by
  -- The other blocks are read when all groups have been, so the tables of the groups are met first.
  have grouped := (discovering_invariant s).groups segments (discovering_empty s)
  refine removed.foldlM (fun y b c same => same.applyBlock y) ?_ ?_
    (sameBut_groups removed spares)
  · intro before after split c same
    rcases spares none (mem_places (by simp [split])) with overlooks | ⟨table, -, drops⟩
    · rw [applyBlock_overlooked overlooks]
      exact same
    · have discards := drops (segments.flatMap groupBlocks ++ before.filterMap tableBlock?)
        (after.filterMap tableBlock?) (by
          rw [discovered, List.append_assoc]
          congr 1
          rw [split]
          simp [tableBlock?_table table])
      have reached := (discovering_invariant s).blocks before grouped
      rw [List.nil_append] at reached
      simp only [applyBlock, table, addTopTable]
      rw [placeTable_discarded reached discards]
      exact same.drop_left
  · intro before after block children inner split removed' c same
    have within : s.Spares segments x (places (some block) children) :=
      spares.of_subset (places_subset (by simp [split]))
    exact same.applyBlock_block (fun table => declaredTable_removed table removed' within)
      fun project => foldl_applyProjectSegment_removed project removed' within

end Assembly

end Dbml
