import Dbml.Proofs.Segment.Partition
import Mathlib.Data.List.Nodup

/-!
# Places in a document

A segment stands at the top level or in the body of a block. The places of a document are listed in
the order of their first tokens, so that a token number tells at most one of them. Main statement:
`inOrder_places`.
-/

namespace Dbml

/-- A segment and the block around it, which is none at the top level. -/
structure Place where
  around : Option Block
  segment : Segment

namespace Segment

/-- Follows segments as they are built: first the segments in a block, then those behind it. -/
@[elab_as_elim]
theorem tree_induction {motive : List Segment → Prop} (nil : motive [])
    (line : ∀ range rest, motive rest → motive (.line range :: rest))
    (block : ∀ block children rest, motive children → motive rest →
      motive (.block block children :: rest)) :
    ∀ segments, motive segments
  | [] => nil
  | .line range :: rest => line range rest (tree_induction nil line block rest)
  | .block b children :: rest =>
    block b children rest (tree_induction nil line block children)
      (tree_induction nil line block rest)

/-- The number of the first token. -/
def start : Segment → Nat
  | .line range => range.start
  | .block b _ => b.start

mutual

/-- The places inside a segment. -/
def inside : Segment → List Place
  | .line _ => []
  | .block b children => places (some b) children

/-- The places of segments that stand in the block, each with the places inside it. -/
def places (around : Option Block) : List Segment → List Place
  | [] => []
  | x :: rest => ⟨around, x⟩ :: (x.inside ++ places around rest)

end

/-- The first tokens of the segment and of all segments inside it. -/
def starts (segment : Segment) : List Nat :=
  segment.start :: segment.inside.map fun place => place.segment.start

end Segment

namespace Place

def start (place : Place) : Nat :=
  place.segment.start

/-- The places stand in the order of their first tokens. -/
def InOrder (places : List Place) : Prop :=
  places.Pairwise fun a b => a.start < b.start

theorem InOrder.nodup {places : List Place} (ordered : InOrder places) :
    (places.map start).Nodup :=
  (List.pairwise_map.2 ordered).imp fun less => Nat.ne_of_lt less

theorem InOrder.eq_of_start_eq {places : List Place} (ordered : InOrder places) {a b : Place}
    (here : a ∈ places) (there : b ∈ places) (same : a.start = b.start) : a = b :=
  List.inj_on_of_nodup_map ordered.nodup here there same

end Place

open Segment

variable {around : Option Block} {segments before after children : List Segment} {x : Segment}
  {block : Block}

theorem places_append :
    places around (before ++ after) = places around before ++ places around after := by
  induction before with
  | nil => rfl
  | cons x before ih => simp [places, ih]

theorem places_eq_flatMap :
    places around segments = segments.flatMap fun x => ⟨around, x⟩ :: x.inside := by
  induction segments with
  | nil => rfl
  | cons x segments ih => rw [places, List.flatMap_cons, ih, List.cons_append]

theorem mem_places (listed : x ∈ segments) : ⟨around, x⟩ ∈ places around segments := by
  rw [places_eq_flatMap]
  exact List.mem_flatMap.2 ⟨x, listed, by simp⟩

theorem inside_subset (listed : x ∈ segments) : x.inside ⊆ places around segments := by
  intro place inner
  rw [places_eq_flatMap]
  exact List.mem_flatMap.2 ⟨x, listed, by simp [inner]⟩

theorem places_subset (listed : .block block children ∈ segments) :
    places (some block) children ⊆ places around segments :=
  inside_subset listed

/-- The segments of a document and those inside them stand in order, within the tokens of the
document. -/
theorem Partition.places_inOrder {s : Source} {range : TokenRange}
    (partition : Partition s range segments) (around : Option Block) :
    Place.InOrder (places around segments) ∧
      ∀ place ∈ places around segments, range.start ≤ place.start ∧ place.start < range.stop := by
  induction partition generalizing around with
  | @intro range segments tiles lines blocks known others ih =>
    -- A segment and what is inside it stand in order within the tokens of the segment.
    have own : ∀ x ∈ segments, Place.InOrder (⟨around, x⟩ :: x.inside) ∧
        ∀ place ∈ (⟨around, x⟩ : Place) :: x.inside,
          x.extent.start ≤ place.start ∧ place.start < x.extent.stop := by
      intro x listed
      have bounds := tiles.inside x.extent (List.mem_map_of_mem listed)
      cases x with
      | line line =>
        simpa [inside, Place.InOrder, Place.start, Segment.start, extent] using bounds.2.1
      | block block children =>
        have framed := blocks block children listed
        have first := framed.start_le
        have second := framed.opening_lt
        obtain ⟨ordered, within⟩ : Place.InOrder (places (some block) children) ∧
            ∀ place ∈ places (some block) children,
              block.opening + 1 ≤ place.start ∧ place.start < block.closing := by
          by_cases other : block.kind.isOther = true
          · rw [others block children listed other]
            exact ⟨.nil, by simp [places]⟩
          · exact ih block children listed (by simpa using other) (some block)
        have behind : ∀ place ∈ places (some block) children, block.start < place.start :=
          fun place inner => by
            have := within place inner
            omega
        refine ⟨List.pairwise_cons.2 ⟨behind, ordered⟩, fun place inner => ?_⟩
        rcases List.mem_cons.1 inner with rfl | inner
        · exact ⟨Nat.le_refl _, by show block.start < block.closing + 1; omega⟩
        · have := within place inner
          show block.start ≤ place.start ∧ place.start < block.closing + 1
          omega
    rw [places_eq_flatMap]
    refine ⟨List.pairwise_flatMap.2 ⟨fun x listed => (own x listed).1, ?_⟩, fun place listed => ?_⟩
    · refine (List.pairwise_map.1 tiles.ordered).imp_of_mem fun {x y} xListed yListed apart => ?_
      intro a inX b inY
      have left := (own x xListed).2 a inX
      have right := (own y yListed).2 b inY
      omega
    · obtain ⟨x, xListed, inX⟩ := List.mem_flatMap.1 listed
      have bounds := tiles.inside x.extent (List.mem_map_of_mem xListed)
      have := (own x xListed).2 place inX
      omega

/-- The places of a source stand in the order of their first tokens. -/
theorem Source.inOrder_places {s : Source} (scanned : s.scan = .ok segments) :
    Place.InOrder (places none segments) :=
  ((Source.partition_of_scanFrom (Nat.le_refl s.size) (Source.scan_eq_ok.1 scanned)).places_inOrder
    none).1

end Dbml
