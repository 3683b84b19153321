import Dbml.Finding
import Dbml.Proofs.Segment.Places

/-!
# Taking a segment out of a document

A document may be read without one of its segments. What is left stands in the same places, and a
reading that goes through the segments one after another is compared with the one that meets the
segment, too. Main statements: `Removed.iff_mem_removals`, `Removed.perm_starts` and
`Removed.foldlM`.
-/

namespace Dbml

open Segment

/-- Two readings of the same list stay related when every step keeps them so. -/
theorem Noted.foldlM_related {α β : Type} {R : β → β → Prop} {f : β → α → Noted β} {b c : β}
    (carry : ∀ x b c, R b c → R (f b x).value (f c x).value) (related : R b c) (xs : List α) :
    R (xs.foldlM f b).value (xs.foldlM f c).value := by
  induction xs generalizing b c with
  | nil => exact related
  | cons x xs ih => exact ih (carry x b c related)

/-- The segments without the segment `x`, which is one of them or stands inside one. -/
inductive Removed (x : Segment) : List Segment → List Segment → Prop
  | here (before after : List Segment) : Removed x (before ++ x :: after) (before ++ after)
  | inside (before after : List Segment) (block : Block) {children rest : List Segment}
    (inner : Removed x children rest) :
    Removed x (before ++ .block block children :: after) (before ++ .block block rest :: after)

namespace Segment

mutual

/-- The segments inside a segment, each with the segment without it. -/
def innerRemovals : Segment → List (Segment × Segment)
  | .line _ => []
  | .block b children => (removals children).map fun removal => (removal.1, .block b removal.2)

/-- The segments among segments and inside them, each with the segments without it. -/
def removals : List Segment → List (Segment × List Segment)
  | [] => []
  | x :: rest =>
    (x, rest) :: (x.innerRemovals.map (fun removal => (removal.1, removal.2 :: rest)) ++
      (removals rest).map fun removal => (removal.1, x :: removal.2))

end

end Segment

namespace Removed

theorem cons {x : Segment} {segments rest : List Segment} (y : Segment)
    (removed : Removed x segments rest) : Removed x (y :: segments) (y :: rest) := by
  cases removed with
  | here before after => exact .here (y :: before) after
  | inside before after block inner => exact .inside (y :: before) after block inner

/-- What is left without a segment is computed. -/
theorem iff_mem_removals {x : Segment} {segments rest : List Segment} :
    Removed x segments rest ↔ (x, rest) ∈ removals segments := by
  constructor
  · intro removed
    induction removed with
    | here before after =>
      induction before with
      | nil => simp [removals]
      | cons y before ih => simp [removals, ih]
    | inside before after block inner ih =>
      induction before with
      | nil => simp [removals, innerRemovals, ih]
      | cons y before ih' => simp [removals, ih']
  · intro listed
    induction segments using tree_induction generalizing rest with
    | nil => cases listed
    | line range behind ih =>
      rcases List.mem_cons.1 listed with same | later
      · cases same
        exact .here [] behind
      · obtain ⟨⟨y, left⟩, there, same⟩ := List.mem_map.1 later
        cases same
        exact (ih there).cons _
    | block b children behind inner ih =>
      rcases List.mem_cons.1 listed with same | listed
      · cases same
        exact .here [] behind
      · rcases List.mem_append.1 listed with within | later
        · obtain ⟨⟨y, whole⟩, found, same⟩ := List.mem_map.1 within
          cases same
          obtain ⟨⟨z, left⟩, there, same⟩ := List.mem_map.1 found
          cases same
          exact .inside [] behind b (inner there)
        · obtain ⟨⟨y, left⟩, there, same⟩ := List.mem_map.1 later
          cases same
          exact (ih there).cons _

variable {around : Option Block} {segments rest : List Segment} {x : Segment}

/-! ## Places -/

theorem exists_place (removed : Removed x segments rest) (around : Option Block) :
    ∃ outer, ⟨outer, x⟩ ∈ places around segments := by
  induction removed generalizing around with
  | here before after => exact ⟨around, mem_places (by simp)⟩
  | inside before after block inner ih =>
    obtain ⟨outer, there⟩ := ih (some block)
    exact ⟨outer, places_subset (by simp) there⟩

theorem starts_cons (around : Option Block) (x : Segment) (segments : List Segment) :
    (places around (x :: segments)).map Place.start =
      x.starts ++ (places around segments).map Place.start := by
  rw [places, List.map_cons, List.map_append]
  rfl

/-- The first tokens of a document are those of the segment and those of what is left. -/
theorem perm_starts (removed : Removed x segments rest) (around : Option Block) :
    ((places around segments).map Place.start).Perm
      (x.starts ++ (places around rest).map Place.start) := by
  induction removed generalizing around with
  | here before after =>
    rw [places_append, places_append, List.map_append, List.map_append, starts_cons]
    exact List.perm_append_comm_assoc ..
  | @inside before after block children rest inner ih =>
    have own : (Segment.block block children).starts.Perm
        (x.starts ++ (Segment.block block rest).starts) :=
      ((ih (some block)).cons block.start).trans List.perm_middle.symm
    rw [places_append, places_append, List.map_append, List.map_append, starts_cons, starts_cons]
    refine ((own.append_right _).append_left _).trans ?_
    rw [List.append_assoc]
    exact List.perm_append_comm_assoc ..

/-- What is left of a document begins at no token at which something in the segment begins. -/
theorem notMem_starts (removed : Removed x segments rest)
    (ordered : Place.InOrder (places around segments)) {place : Place}
    (left : place ∈ places around rest) : place.start ∉ x.starts := by
  have apart := (removed.perm_starts around).nodup_iff.1 ordered.nodup
  have disjoint := (List.nodup_append'.1 apart).2.2
  exact fun inside => disjoint inside (List.mem_map_of_mem left)

/-! ## Readings -/

variable {β : Type} {R : β → β → Prop} {f : β → Segment → Noted β} {b c : β}

/-- A reading with the segment and one without it stay related when every step keeps them so, the
step over the segment keeps the one reading related to the other, and so do the steps over the
block that the segment is taken out of. -/
theorem foldlM (removed : Removed x segments rest)
    (carry : ∀ y b c, R b c → R (f b y).value (f c y).value)
    (own : ∀ before after, segments = before ++ x :: after → ∀ c,
      R (before.foldlM f b).value c → R (f (before.foldlM f b).value x).value c)
    (within : ∀ before after block children inner,
      segments = before ++ .block block children :: after → Removed x children inner → ∀ c,
        R (before.foldlM f b).value c →
          R (f (before.foldlM f b).value (.block block children)).value
            (f c (.block block inner)).value)
    (related : R b c) : R (segments.foldlM f b).value (rest.foldlM f c).value := by
  cases removed with
  | here before after =>
    rw [List.foldlM_append, List.foldlM_append]
    refine Noted.foldlM_related carry ?_ after
    exact own before after rfl _ (Noted.foldlM_related carry related before)
  | inside before after block inner =>
    rw [List.foldlM_append, List.foldlM_append]
    refine Noted.foldlM_related carry ?_ after
    exact within before after block _ _ rfl inner _ (Noted.foldlM_related carry related before)

end Removed

end Dbml
