import Dbml.Proofs.Keywords.Lines
import Dbml.Proofs.Respacing.Assembling

/-!
# Databases of sources with other keywords

Segments that are kept are assembled into the same database, with the same findings. Main statement:
`Kept.assemble`.
-/

namespace Dbml

open Source Noted Assembly

variable {s t : Source} {around : Option Block} {b : Block} {line range : TokenRange} {x : Segment}
  {segments children : List Segment}

namespace Kept

/-! ## Groups -/

theorem addGroupTable (same : SameButCase s t) (kind : b.kind = .table)
    (kept : Kept s t around (.block b children)) (group : Option Nat) (a : Assembly) :
    Assembly.addGroupTable t group a b children = Assembly.addGroupTable s group a b children := by
  simp only [Assembly.addGroupTable, placeTable, kept.declaredTable same kind]

theorem addTopTable (same : SameButCase s t) (kind : b.kind = .table)
    (kept : Kept s t around (.block b children)) (a : Assembly) :
    Assembly.addTopTable t a b children = Assembly.addTopTable s a b children := by
  simp only [Assembly.addTopTable, placeTable, kept.declaredTable same kind]

theorem applyGroupSegment (same : SameButCase s t) (kind : b.kind = .tableGroup)
    (kept : Kept s t (some b) x) (group : Option Nat) (o : OpenGroup) :
    Assembly.applyGroupSegment t group o x = Assembly.applyGroupSegment s group o x := by
  cases x with
  | line line =>
    cases kept with
    | line nonempty behind whole =>
      simp only [Assembly.applyGroupSegment, behind.noteLine?_behind same,
        behind.shortForm?_behind same]
      cases note : s.noteLine? line with
      | some found => rfl
      | none =>
        cases short : (s.shortForm? line).isSome with
        | true => rfl
        | false =>
          have plain : s.opensWithKeyword (some b) line = false := by
            simp [opensWithKeyword, kind, note, short]
          have tokens : t.tokens line = s.tokens line := (whole plain).tokens
          rw [tokens]
  | block inner children =>
    rw [Assembly.applyGroupSegment, Assembly.applyGroupSegment, same.blockNote]
    split
    next table => rw [kept.addGroupTable same table]
    · rfl
    · rfl

theorem openGroup (kept : Kept s t around (.block b children)) (a : Assembly) (name : String) :
    Assembly.openGroup t a b name = Assembly.openGroup s a b name := by
  cases kept with
  | block settings inner =>
    have given := (moves_foldlM_same settings
      (fun given x y setting => setting.applyGroupSetting given) {}).eq
    simp only [Assembly.openGroup, given]

theorem addGroup (same : SameButCase s t) (kind : b.kind = .tableGroup)
    (kept : Kept s t around (.block b children)) (a : Assembly) :
    Assembly.addGroup t a b children = Assembly.addGroup s a b children := by
  have opened := kept.openGroup a
  cases kept with
  | block settings inner =>
    have body (group : Option Nat) := foldlM_congr fun x listed o =>
      (inner x listed).applyGroupSegment same kind group o
    simp only [Assembly.addGroup, opened, body]

/-! ## The project -/

theorem applyProjectSegment (same : SameButCase s t) (kept : Kept s t (some b) x)
    (project : Project) :
    Assembly.applyProjectSegment t project x = Assembly.applyProjectSegment s project x := by
  cases kept with
  | @line _ range nonempty behind whole =>
    have value : t.valueText (range.drop 2) = s.valueText (range.drop 2) :=
      (behind.drop 1).valueText
    rw [Assembly.applyProjectSegment, Assembly.applyProjectSegment, behind.noteLine?_behind same,
      same.isKeyword, same.isMark, value]
  | block settings inner =>
    rw [Assembly.applyProjectSegment, Assembly.applyProjectSegment, same.blockNote]

theorem addProject (same : SameButCase s t) (kept : Kept s t around (.block b children))
    (a : Assembly) : Assembly.addProject t a b children = Assembly.addProject s a b children := by
  cases kept with
  | block settings inner =>
    have body (project : Project) : children.foldl (Assembly.applyProjectSegment t) project =
        children.foldl (Assembly.applyProjectSegment s) project :=
      List.foldl_ext _ _ _ fun project x listed => (inner x listed).applyProjectSegment same project
    simp only [Assembly.addProject, body]

/-! ## The top level -/

theorem applyGroup (same : SameButCase s t) (kept : Kept s t around x) (a : Assembly) :
    Assembly.applyGroup t a x = Assembly.applyGroup s a x := by
  cases x with
  | line line => rfl
  | block inner children =>
    rw [Assembly.applyGroup, Assembly.applyGroup]
    split
    next group => exact kept.addGroup same group a
    · rfl

theorem applyBlock (same : SameButCase s t) (kept : Kept s t around x) (a : Assembly) :
    Assembly.applyBlock t a x = Assembly.applyBlock s a x := by
  cases x with
  | line line => rfl
  | block inner children =>
    rw [Assembly.applyBlock, Assembly.applyBlock]
    split
    next table => exact kept.addTopTable same table a
    · exact kept.addProject same a
    · rfl
    · rfl
    · rfl

theorem ofSegments (same : SameButCase s t) (kept : ∀ x ∈ segments, Kept s t none x) :
    Assembly.ofSegments t segments = Assembly.ofSegments s segments := by
  have groups := foldlM_congr fun x listed a => (kept x listed).applyGroup same a
  have blocks := foldlM_congr fun x listed a => (kept x listed).applyBlock same a
  simp only [Assembly.ofSegments, groups, blocks]

/-! ## Statements -/

theorem lineStatement (same : SameButCase s t) (kept : Kept s t around (.line line))
    (topLevel : Bool) :
    List.Forall₂ (Statement.Copied s t id) (s.lineStatement topLevel line)
      (t.lineStatement topLevel line) := by
  cases kept with
  | line nonempty behind whole =>
    rw [Source.lineStatement, Source.lineStatement, behind.shortForm?_behind same]
    cases found : s.shortForm? line with
    | some pair =>
      obtain ⟨name, range⟩ := pair
      have bounds := shortForm?_bounds found
      exact .cons (.reference _ (behind.restrict bounds.1 bounds.2) name) .nil
    | none =>
      dsimp only
      split
      · exact .cons (.unknown _) .nil
      · exact .nil

theorem listedStatement (kind : b.kind = .ref) (kept : Kept s t (some b) x) (name : Option String) :
    Statement.Copied s t id (Source.listedStatement name x) (Source.listedStatement name x) := by
  cases kept with
  | @line _ range nonempty behind whole =>
    have plain : s.opensWithKeyword (some b) range = false := by
      simp only [opensWithKeyword, Option.map_some, kind]
    exact .reference _ (whole plain) name
  | block settings inner => exact .nested _

theorem statements (same : SameButCase s t) (dropped : List Nat) (topLevel : Bool)
    (kept : ∀ x ∈ segments, Kept s t around x) :
    List.Forall₂ (Statement.Copied s t id) (s.statements dropped topLevel segments)
      (t.statements dropped topLevel segments) := by
  induction segments using Segment.tree_induction generalizing around topLevel with
  | nil => exact .nil
  | line range rest ih =>
    obtain ⟨first, others⟩ := List.forall_mem_cons.1 kept
    exact List.rel_append (first.lineStatement same topLevel) (ih topLevel others)
  | block b children rest inner ih =>
    obtain ⟨first, others⟩ := List.forall_mem_cons.1 kept
    refine List.rel_append ?_ (ih topLevel others)
    cases first with
    | block settings within =>
      rw [segmentStatements, segmentStatements]
      split
      next reference =>
        rw [List.forall₂_map_left_iff, List.forall₂_map_right_iff]
        exact List.forall₂_same.2 fun x listed => (within x listed).listedStatement reference _
      · split
        · exact .nil
        · exact inner false within
      · exact inner false within
      · exact .nil

/-- Keywords in other letters leave the same database, with the same findings. -/
theorem assemble (same : SameButCase s t) (kept : ∀ x ∈ segments, Kept s t none x) :
    t.assemble segments = s.assemble segments := by
  have stated (dropped : List Nat) :=
    (Statement.Copied.statedRelationships (statements same dropped true kept)).eq
  simp only [Source.assemble, ofSegments same kept, stated]

end Kept

end Dbml
