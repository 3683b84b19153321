import Dbml.Proofs.Respacing.Headers
import Dbml.Proofs.Segment.Places

/-!
# Scans of copied tokens

A scan only looks at the tokens that it is given. Where these are copied to another source, the same
lines and blocks are found at their new numbers, and so is a fault. Main statement:
`Copied.scanFrom`.
-/

namespace Dbml

namespace Header

/-- The header with its settings `d` tokens behind. -/
def shift (header : Header) (d : Nat) : Header :=
  { header with settings := header.settings.map (·.shift d) }

end Header

namespace Block

/-- The block `d` tokens behind. -/
def shift (block : Block) (d : Nat) : Block :=
  { kind := block.kind
    start := block.start + d
    header := block.header.shift d
    opening := block.opening + d
    closing := block.closing + d }

theorem shift_zero (block : Block) : block.shift 0 = block := by
  have settings : block.header.settings.map (·.shift 0) = block.header.settings := Option.map_id'
  rw [shift, Header.shift, settings]
  rfl

end Block

namespace Segment

mutual

/-- The segment `d` tokens behind. -/
def shift (d : Nat) : Segment → Segment
  | .line range => .line (range.shift d)
  | .block b children => .block (b.shift d) (shiftAll d children)

/-- The segments `d` tokens behind. -/
def shiftAll (d : Nat) : List Segment → List Segment
  | [] => []
  | x :: rest => x.shift d :: shiftAll d rest

end

theorem shiftAll_zero (segments : List Segment) : shiftAll 0 segments = segments := by
  induction segments using tree_induction with
  | nil => rfl
  | line range rest ih =>
    rw [shiftAll, ih]
    rfl
  | block b children rest inner ih => rw [shiftAll, shift, b.shift_zero, inner, ih]

end Segment

namespace ScanFault

/-- The fault `d` tokens behind. -/
def shift (d : Nat) : ScanFault → ScanFault
  | .unterminated position => .unterminated (position + d)
  | .tooDeep position => .tooDeep (position + d)

end ScanFault

namespace Source

open Segment

/-- What a scan of tokens finds, `d` tokens behind. -/
def movedScan (d : Nat) : Except ScanFault (List Segment) → Except ScanFault (List Segment)
  | .ok segments => .ok (shiftAll d segments)
  | .error fault => .error (fault.shift d)

theorem movedScan_zero {found : Except ScanFault (List Segment)} : movedScan 0 found = found := by
  cases found with
  | ok segments => rw [movedScan, shiftAll_zero]
  | error fault => cases fault <;> rfl

end Source

namespace Copied

open Source Segment

variable {s s' : Source} {place : Nat → Nat} {d i j stop : Nat} {range : TokenRange}

/-! ## Headers -/

theorem bracketed?_shift (copied : Copied s s' place d range) (low : range.start ≤ i) :
    s'.bracketed? (i + d) (range.stop + d) = (s.bracketed? i range.stop).map (·.shift d) := by
  rw [Source.bracketed?, Source.bracketed?, copied.matching _ _ low]
  simp only [Nat.add_lt_add_iff_right]
  by_cases inside : i < range.stop
  · rw [copied.isMark _ low inside]
    split
    · simp only [Option.map_map]
      congr 1
      funext close
      simp only [Function.comp_apply, TokenRange.shift, Nat.add_right_comm]
    · rfl
  · simp only [inside, false_and, if_false]
    rfl

theorem headerBehind_shift (copied : Copied s s' place d range) (names : List String)
    (low : range.start ≤ i) :
    s'.headerBehind names (i + d) (range.stop + d) =
      (s.headerBehind names i range.stop).shift d := by
  have aliased : (i + 1 + d < range.stop + d ∧ s'.isKeyword (i + d) "as" = true) ↔
      (i + 1 < range.stop ∧ s.isKeyword i "as" = true) := by
    rw [Nat.add_lt_add_iff_right]
    exact and_congr_right fun inside => by rw [copied.isKeyword _ low (by omega)]
  rw [Source.headerBehind, Source.headerBehind]
  simp only [Nat.add_right_comm _ d, aliased, copied.nameAt? (Nat.le_succ_of_le low),
    copied.bracketed?_shift low, copied.bracketed?_shift (Nat.le_add_right_of_le low)]
  split <;> rfl

theorem header_shift (copied : Copied s s' place d range) (kind : BlockKind) :
    s'.header kind (range.shift d) = (s.header kind range).shift d := by
  obtain ⟨start, stop⟩ := range
  simp only [TokenRange.shift, header_eq]
  split
  · exact copied.headerBehind_shift [] (Nat.le_refl _)
  · rw [copied.dottedName (Nat.le_refl _)]
    exact copied.headerBehind_shift _ (dottedName_ge _ _)

/-! ## Where a block opens -/

theorem lineEnd (copied : Copied s s' place d ⟨i, stop⟩) :
    s'.lineEnd (i + d) (stop + d) = s.lineEnd i stop + d := by
  have found := copied.find? (· == .newline)
  simp only [TokenRange.shift] at found
  rw [Source.lineEnd, Source.lineEnd, found]
  cases s.find? ⟨i, stop⟩ (· == .newline) <;> rfl

theorem kindAt (copied : Copied s s' place d range) (low : range.start ≤ i)
    (high : i < range.stop) : s'.kindAt (i + d) = s.kindAt i := by
  rw [Source.kindAt, copied.token i low high, Source.kindAt]

theorem braceOnNextLine (copied : Copied s s' place d ⟨i, stop⟩) (nonempty : i < j)
    (inside : j ≤ stop) :
    s'.braceOnNextLine ⟨i + d, j + d⟩ (stop + d) = (s.braceOnNextLine ⟨i, j⟩ stop).map (· + d) := by
  have line := copied.between (Nat.le_refl i) inside
  have colon := line.outsideSettings .colon
  have kind : s'.kindAt (i + d) = s.kindAt i :=
    copied.kindAt (Nat.le_refl i) (Nat.lt_of_lt_of_le nonempty inside)
  have found :=
    (copied.between (i := j) (Nat.le_of_lt nonempty) (Nat.le_refl stop)).find? (· != .newline)
  simp only [TokenRange.shift] at colon found
  rw [Source.braceOnNextLine, Source.braceOnNextLine, kind, colon, found, Option.isSome_map]
  split
  · rfl
  · cases next : s.find? ⟨j, stop⟩ (· != .newline) with
    | none => rfl
    | some k =>
      obtain ⟨low, high, -⟩ := find?_bounds next
      have mark := copied.isMark (i := k) .openBrace (by simp only at *; omega) high
      rw [Option.map_some, Option.filter_some, Option.filter_some, mark]
      split <;> rfl

theorem openingBrace (copied : Copied s s' place d ⟨i, stop⟩) (nonempty : i < j)
    (inside : j ≤ stop) :
    s'.openingBrace ⟨i + d, j + d⟩ (stop + d) = (s.openingBrace ⟨i, j⟩ stop).map (· + d) := by
  have brace := (copied.between (Nat.le_refl i) inside).outsideSettings .openBrace
  simp only [TokenRange.shift] at brace
  rw [Source.openingBrace, Source.openingBrace, brace, copied.braceOnNextLine nonempty inside]
  cases s.outsideSettings ⟨i, j⟩ .openBrace <;> rfl

/-! ## Scans -/

theorem blockAt (copied : Copied s s' place d range) {opening closing : Nat}
    (low : range.start ≤ i) (high : i < range.stop) (order : opening ≤ range.stop) :
    s'.blockAt (i + d) (opening + d) (closing + d) = (s.blockAt i opening closing).shift d := by
  have inner := copied.between (i := i + 1) (Nat.le_succ_of_le low) order
  have header := inner.header_shift (s.kindAt i)
  simp only [TokenRange.shift, Nat.add_right_comm i 1 d] at header
  rw [Source.blockAt, Source.blockAt, copied.kindAt low high, header, Block.shift]

theorem blockChildren (copied : Copied s s' place d range) {opening closing : Nat}
    (low : range.start ≤ i) (high : i < range.stop) {limit : Option Nat} {depth : Nat}
    (body : s'.scanFrom limit (depth + 1) (opening + 1 + d) (closing + d) =
      movedScan d (s.scanFrom limit (depth + 1) (opening + 1) closing)) :
    s'.blockChildren limit depth (i + d) (opening + d) (closing + d) =
      movedScan d (s.blockChildren limit depth i opening closing) := by
  rw [Source.blockChildren, Source.blockChildren, copied.kindAt low high]
  split
  · rfl
  split
  · rfl
  · rw [Nat.add_right_comm, body]

/-- The same segments are found in a copied range, or the same fault. -/
theorem scanFrom (copied : Copied s s' place d ⟨i, stop⟩) (limit : Option Nat) (depth : Nat) :
    s'.scanFrom limit depth (i + d) (stop + d) = movedScan d (s.scanFrom limit depth i stop) := by
  induction size : stop - i using Nat.strongRecOn generalizing depth i stop with
  | ind n ih =>
  have later {j : Nat} (ahead : i < j) (inside : j ≤ stop) :
      s'.scanFrom limit depth (j + d) (stop + d) = movedScan d (s.scanFrom limit depth j stop) :=
    ih _ (by omega) (copied.between (Nat.le_of_lt ahead) (Nat.le_refl stop)) depth rfl
  by_cases done : ¬ i < stop
  · rw [scanFrom_end done, scanFrom_end (by omega)]
    rfl
  have inside := Decidable.not_not.1 done
  have inside' : i + d < stop + d := Nat.add_lt_add_right inside d
  have token : s'.token? (i + d) = s.token? i := copied.token i (Nat.le_refl i) inside
  by_cases newline : s.token? i = some .newline
  · have rest := later (Nat.lt_add_one i) inside
    rw [Nat.add_right_comm] at rest
    rw [scanFrom_newline inside newline, scanFrom_newline inside' (token.trans newline), rest]
  have line : ¬ s.holds i (· == .newline) = true := fun here => newline (holds_newline.1 here)
  have line' : ¬ s'.holds (i + d) (· == .newline) = true := fun here =>
    newline (token.symm.trans (holds_newline.1 here))
  have ahead := lineEnd_gt inside line
  have brace := copied.openingBrace ahead lineEnd_le
  rw [← copied.lineEnd] at brace
  cases opens : s.openingBrace ⟨i, s.lineEnd i stop⟩ stop with
  | none =>
    rw [opens] at brace
    rw [scanFrom_line inside line opens, scanFrom_line inside' line' brace, copied.lineEnd,
      later ahead lineEnd_le]
    cases s.scanFrom limit depth (s.lineEnd i stop) stop <;> rfl
  | some opening =>
    rw [opens] at brace
    have start := openingBrace_ge (Nat.le_of_lt ahead) opens
    have partner := copied.matching (i := opening) .openBrace .closeBrace start
    simp only at start partner
    cases closes : s.matching opening stop .openBrace .closeBrace with
    | none =>
      rw [closes] at partner
      rw [scanFrom_unterminated inside line opens closes,
        scanFrom_unterminated inside' line' brace partner]
      rfl
    | some closing =>
      rw [closes] at partner
      obtain ⟨order, high, -⟩ := matching_bounds closes
      have body := copied.between (i := opening + 1) (j := closing) (Nat.le_succ_of_le start)
        (Nat.le_of_lt high)
      have children := copied.blockChildren (Nat.le_refl i) inside
        (ih _ (by omega) body (depth + 1) rfl)
      have rest := later (j := closing + 1) (by omega) (by omega)
      rw [Nat.add_right_comm] at rest
      rw [scanFrom_block inside line opens closes, scanFrom_block inside' line' brace partner,
        children, rest, copied.blockAt (Nat.le_refl i) inside (by simp only; omega)]
      cases s.blockChildren limit depth i opening closing with
      | error fault => rfl
      | ok found => cases s.scanFrom limit depth (closing + 1) stop <;> rfl

end Copied

end Dbml
