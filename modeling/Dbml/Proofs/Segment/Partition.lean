import Dbml.Proofs.Segment.Steps

/-!
# Segments partition the tokens

The segments of a range stand in order, do not overlap, and leave out nothing but line ends; and so
do the children of a known block in its body, at every depth. Main statement: `partition_of_scan`.
-/

namespace Dbml

/-- The tokens of a segment, both braces of a block included. -/
def Segment.extent : Segment → TokenRange
  | .line range => range
  | .block b _ => ⟨b.start, b.closing + 1⟩

/-- Ranges that stand in order inside a range and leave out only line ends. -/
structure Tiles (s : Source) (range : TokenRange) (parts : List TokenRange) : Prop where
  ordered : parts.Pairwise fun a b => a.stop ≤ b.start
  inside : ∀ part ∈ parts,
    range.start ≤ part.start ∧ part.start < part.stop ∧ part.stop ≤ range.stop
  outside : ∀ i, range.start ≤ i → i < range.stop →
    (∀ part ∈ parts, i < part.start ∨ part.stop ≤ i) → s.token? i = some .newline

/-- A block stands between its braces, and what they enclose is balanced. -/
structure Framed (s : Source) (block : Block) : Prop where
  kind : block.kind = s.kindAt block.start
  start_le : block.start ≤ block.opening
  opening_lt : block.opening < block.closing
  opens : s.token? block.opening = some (.mark .openBrace)
  closes : s.token? block.closing = some (.mark .closeBrace)
  balanced : Balanced .openBrace .closeBrace (s.tokens block.body)

/-- The segments tile the range; lines hold no line end, blocks are framed, and the children of a
known block partition its body in turn, while a block of another kind has none. -/
inductive Partition (s : Source) : TokenRange → List Segment → Prop
  | intro {range : TokenRange} {segments : List Segment}
    (tiles : Tiles s range (segments.map Segment.extent))
    (lines : ∀ line, .line line ∈ segments →
      ∀ i, line.start ≤ i → i < line.stop → s.token? i ≠ some .newline)
    (blocks : ∀ block children, .block block children ∈ segments → Framed s block)
    (known : ∀ block children, .block block children ∈ segments →
      block.kind.isOther = false → Partition s block.body children)
    (others : ∀ block children, .block block children ∈ segments →
      block.kind.isOther = true → children = []) : Partition s range segments

namespace Tiles

variable {s : Source} {parts : List TokenRange} {i j stop : Nat}

theorem nil (done : ¬ i < stop) : Tiles s ⟨i, stop⟩ [] := by
  refine ⟨.nil, by simp, fun k low high => ?_⟩
  simp only at low high
  omega

/-- A line end in front belongs to no part. -/
theorem newline (tiles : Tiles s ⟨i + 1, stop⟩ parts) (here : s.token? i = some .newline) :
    Tiles s ⟨i, stop⟩ parts := by
  refine ⟨tiles.ordered, fun part listed => ?_, fun k low high apart => ?_⟩
  · have bounds := tiles.inside part listed
    simp only at bounds ⊢
    omega
  · by_cases first : k = i
    · rw [first, here]
    · exact tiles.outside k (by simp only at low ⊢; omega) high apart

/-- A part in front of the others. -/
theorem cons (tiles : Tiles s ⟨j, stop⟩ parts) (nonempty : i < j) (bound : j ≤ stop) :
    Tiles s ⟨i, stop⟩ (⟨i, j⟩ :: parts) := by
  refine ⟨List.pairwise_cons.2 ⟨fun part listed => (tiles.inside part listed).1, tiles.ordered⟩,
    fun part listed => ?_, fun k low high apart => ?_⟩
  · rcases List.mem_cons.1 listed with rfl | later
    · exact ⟨Nat.le_refl i, nonempty, bound⟩
    · have bounds := tiles.inside part later
      simp only at bounds ⊢
      omega
  · have first := apart ⟨i, j⟩ (by simp)
    refine tiles.outside k ?_ high fun part listed => apart part (by simp [listed])
    simp only at first low ⊢
    omega

end Tiles

namespace Source

variable {s : Source} {limit : Option Nat} {depth i stop : Nat}

/-! ## What the steps of a scan find -/

theorem token?_ne_newline_of_lt_lineEnd {k : Nat} (low : i ≤ k) (high : k < s.lineEnd i stop) :
    s.token? k ≠ some .newline := by
  have first : ∀ count i, i ≤ k → (∀ j, s.findFrom (· == .newline) i count = some j → k < j) →
      k < i + count → s.token? k ≠ some .newline := by
    intro count
    induction count with
    | zero => intro i low _ high; omega
    | succ count ih =>
      intro i low before high
      rw [findFrom] at before
      by_cases here : s.holds i (· == .newline) = true
      · rw [if_pos here] at before
        have := before i rfl
        omega
      · rw [if_neg here] at before
        rcases Nat.lt_or_eq_of_le low with later | rfl
        · exact ih (i + 1) later before (by omega)
        · exact fun same => here (holds_newline.2 same)
  have bound : s.lineEnd i stop ≤ stop := lineEnd_le
  refine first (stop - i) i low (fun j found => ?_) (by omega)
  have found : s.find? ⟨i, stop⟩ (· == .newline) = some j := found
  rw [lineEnd, found] at high
  exact high

/-- The block that a scan takes is framed, and ends inside what is scanned. -/
theorem framed_blockAt {opening closing : Nat} (inside : i < stop) (bound : stop ≤ s.size)
    (line : s.token? i ≠ some .newline)
    (opens : s.openingBrace ⟨i, s.lineEnd i stop⟩ stop = some opening)
    (closes : s.matching opening stop .openBrace .closeBrace = some closing) :
    Framed s (s.blockAt i opening closing) ∧ closing < stop := by
  have ahead := lineEnd_gt inside fun here => line (holds_newline.1 here)
  have start := openingBrace_ge (Nat.le_of_lt ahead) opens
  have brace := openingBrace_isMark opens
  have place := matching_bounds closes
  obtain ⟨later, balanced⟩ := balanced_of_matching (by decide) bound brace closes
  exact ⟨⟨rfl, start, later, isMark_iff_token?.1 brace, isMark_iff_token?.1 place.2.2, balanced⟩,
    place.2.1⟩

/-- A scan that succeeds partitions what is scanned. -/
theorem partition_of_scanFrom {segments : List Segment} (bound : stop ≤ s.size)
    (scanned : s.scanFrom limit depth i stop = .ok segments) :
    Partition s ⟨i, stop⟩ segments := by
  -- Every step leaves fewer tokens, those of a block's body included.
  induction size : stop - i using Nat.strongRecOn generalizing depth i stop segments with
  | ind n ih =>
  rcases scanFrom_cases scanned with ⟨done, rfl⟩ | ⟨inside, newline, rest⟩ |
    ⟨inside, line, rest, later, rfl⟩ |
    ⟨inside, line, opening, closing, children, rest, opens, closes, within, later, rfl⟩
  · exact ⟨.nil done, by simp, by simp, by simp, by simp⟩
  · obtain ⟨tiles, lines, blocks, known, others⟩ := ih _ (by omega) bound rest rfl
    exact ⟨tiles.newline newline, lines, blocks, known, others⟩
  · have ahead := lineEnd_gt inside fun here => line (holds_newline.1 here)
    obtain ⟨tiles, lines, blocks, known, others⟩ := ih _ (by omega) bound later rfl
    refine ⟨?_, fun range listed => ?_, ?_, ?_, ?_⟩
    · rw [List.map_cons]
      exact tiles.cons ahead lineEnd_le
    · rcases List.mem_cons.1 listed with same | listed
      · cases same
        exact fun k => token?_ne_newline_of_lt_lineEnd
      · exact lines range listed
    · simpa using blocks
    · simpa using known
    · simpa using others
  · obtain ⟨framed, ends⟩ := framed_blockAt inside bound line opens closes
    have start := framed.start_le
    have order := framed.opening_lt
    simp only [blockAt] at start order
    obtain ⟨tiles, lines, blocks, known, others⟩ := ih _ (by omega) bound later rfl
    refine ⟨?_, ?_, fun block cs listed => ?_, fun block cs listed kind => ?_,
      fun block cs listed kind => ?_⟩
    · show Tiles s ⟨i, stop⟩ (⟨i, closing + 1⟩ :: rest.map Segment.extent)
      exact tiles.cons (by omega) (by omega)
    · simpa using lines
    · rcases List.mem_cons.1 listed with same | listed
      · cases same
        exact framed
      · exact blocks block cs listed
    · rcases List.mem_cons.1 listed with same | listed
      · cases same
        have known : ¬ (s.kindAt i).isOther = true := by simpa [blockAt] using kind
        rw [blockChildren, if_neg known] at within
        split at within
        · cases within
        · show Partition s ⟨opening + 1, closing⟩ _
          exact ih _ (by omega) (by omega) within rfl
      · exact known block cs listed kind
    · rcases List.mem_cons.1 listed with same | listed
      · cases same
        have other : (s.kindAt i).isOther = true := by simpa [blockAt] using kind
        rw [blockChildren, if_pos other] at within
        cases within
        rfl
      · exact others block cs listed kind

/-- The segments of a source partition its tokens. -/
theorem partition_of_scan {segments : List Segment} (scanned : s.scan = .ok segments) :
    Partition s s.all segments :=
  partition_of_scanFrom (Nat.le_refl s.size) (scan_eq_ok.1 scanned)

/-- A table that opens on the line behind its header, where a brace stands in the settings, and a
group around a block of an unknown kind. -/
def nestedText : String :=
  "Table t [x: \x7b]\n\x7b\n a int\n \x7b \x7d \x7d\nTableGroup g \x7b\nx \x7b \x7b \x7d \x7d\n\x7d"

theorem partition_of_scan_nested :
    ∃ s segments, ofString nestedText = .ok s ∧ s.scan = .ok segments ∧ segments.length = 2 ∧
      Partition s s.all segments := by
  have evaluated : (ofString nestedText).toOption.map
      (fun s => s.scan.toOption.map List.length) = some (some 2) := by decide +kernel
  obtain ⟨s, read, cut⟩ := Option.map_eq_some_iff.1 evaluated
  obtain ⟨segments, scanned, two⟩ := Option.map_eq_some_iff.1 cut
  have scanned := eq_ok_of_toOption scanned
  exact ⟨s, segments, eq_ok_of_toOption read, scanned, two, partition_of_scan scanned⟩

end Source

end Dbml
