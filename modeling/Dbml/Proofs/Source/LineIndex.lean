import Dbml.Proofs.Checked.Text
import Mathlib.Data.List.DropRight

/-!
# Lines and columns

The line of a byte counts the line ends before it, and its column the characters behind the last of
them. Both are found as well in an index of the places where lines begin, which is searched by
halving. Main statements: `LineIndex.locate_eq`, the index finds every location, and
`Location.ofOffset_counts`, what a location counts.
-/

namespace Dbml

open Text

variable {cs front rest : List Char} {offset : Nat}

/-! ## Where a byte stands -/

/-- A byte of a text begins a character, or stands inside one. -/
theorem isBoundary_or_inside (inside : offset ≤ byteSize cs) : IsBoundary cs offset ∨
    ∃ front c rest, cs = front ++ c :: rest ∧ byteSize front < offset ∧
      offset < byteSize front + c.utf8Size := by
  induction cs generalizing offset with
  | nil => exact .inl ⟨[], [], rfl, (Nat.le_zero.1 inside).symm⟩
  | cons c cs ih =>
    rw [byteSize_cons] at inside
    by_cases first : offset = 0
    · exact .inl ⟨[], c :: cs, rfl, first.symm⟩
    by_cases parted : offset < c.utf8Size
    · exact .inr ⟨[], c, cs, rfl, Nat.pos_of_ne_zero first, by simpa using parted⟩
    rcases @ih (offset - c.utf8Size) (by omega) with ⟨front, rest, rfl, size⟩ |
      ⟨front, d, rest, rfl, after, before⟩
    · exact .inl ⟨c :: front, rest, rfl, by rw [byteSize_cons]; omega⟩
    · refine .inr ⟨c :: front, d, rest, rfl, ?_, ?_⟩
      · rw [byteSize_cons]
        omega
      · rw [byteSize_cons]
        omega

theorem not_isBoundary_inside {c : Char} (after : byteSize front < offset)
    (before : offset < byteSize front + c.utf8Size) : ¬ IsBoundary (front ++ c :: rest) offset := by
  rw [← isBoundary_iff]
  obtain ⟨n, rfl⟩ : ∃ n, offset = n + 1 := ⟨offset - 1, by omega⟩
  induction front generalizing n with
  | nil =>
    rw [byteSize_nil, Nat.zero_add] at before
    rw [List.nil_append, isBoundary, decide_eq_false (Nat.not_le.2 before)]
    exact Bool.false_ne_true
  | cons d front ih =>
    rw [byteSize_cons] at after before
    obtain ⟨m, less⟩ : ∃ m, n + 1 - d.utf8Size = m + 1 := ⟨n - d.utf8Size, by omega⟩
    rw [List.cons_append, isBoundary, less, Bool.and_eq_true]
    rintro ⟨-, boundary⟩
    exact ih m (by omega) (by omega) boundary

/-! ## Searching by halving -/

/-- The first number from `low` on, but not beyond `high`, at which the entry has the property no
longer. -/
def partitionPoint (xs : Array Nat) (p : Nat → Bool) (low high : Nat) : Nat :=
  if low < high then
    let middle := low + (high - low) / 2
    if xs[middle]?.any p then partitionPoint xs p (middle + 1) high
    else partitionPoint xs p low middle
  else low
termination_by high - low

/-- Where the entries with the property are those before number `n`, this one is found. -/
theorem partitionPoint_eq {xs : Array Nat} {p : Nat → Bool} {low high n : Nat}
    (parted : ∀ k < high, xs[k]?.any p = decide (k < n)) (after : low ≤ n) (upTo : n ≤ high) :
    partitionPoint xs p low high = n := by
  fun_induction partitionPoint xs p low high with
  | case1 low high inside middle has ih =>
    have before : middle < n := by
      rw [parted middle (by omega)] at has
      exact of_decide_eq_true has
    exact ih parted before upTo
  | case2 low high inside middle lacks ih =>
    have behind : n ≤ middle := by
      rw [parted middle (by omega), decide_eq_true_eq] at lacks
      exact Nat.not_lt.1 lacks
    exact ih (fun k within => parted k (by omega)) after behind
  | case3 low high done => omega

/-- In increasing numbers those up to a bound are those before some number. -/
theorem any_le_of_pairwise {xs : List Nat} (increasing : xs.Pairwise (· < ·)) (k : Nat) :
    xs[k]?.any (· ≤ offset) = decide (k < (xs.takeWhile (· ≤ offset)).length) := by
  induction xs generalizing k with
  | nil => rfl
  | cons x xs ih =>
    obtain ⟨least, increasing⟩ := List.pairwise_cons.1 increasing
    by_cases small : x ≤ offset
    · rw [List.takeWhile_cons_of_pos (by simpa using small), List.length_cons]
      cases k with
      | zero => simpa using small
      | succ k => simpa using ih increasing k
    · rw [List.takeWhile_cons_of_neg (by simpa using small), List.length_nil]
      cases entry : (x :: xs)[k]? with
      | none => rfl
      | some y =>
        have above : x ≤ y := by
          rcases List.mem_cons.1 (List.mem_of_getElem? entry) with rfl | later
          · exact Nat.le_refl y
          · exact Nat.le_of_lt (least y later)
        simp only [Option.any_some, Nat.not_lt_zero, decide_false, decide_eq_false_iff_not]
        omega

theorem lineStarts_increasing (cs : List Char) (offset : Nat) :
    (offset :: lineStarts offset cs).Pairwise (· < ·) := by
  induction cs generalizing offset with
  | nil => exact List.pairwise_singleton _ _
  | cons c cs ih =>
    refine List.pairwise_cons.2 ⟨fun start listed => (lineStarts_bounds start listed).1, ?_⟩
    rw [lineStarts]
    split
    · exact ih _
    · exact (List.pairwise_cons.1 (ih _)).2

/-! ## The index of lines -/

/-- A text and the places where its lines begin, in order. -/
structure LineIndex where
  chars : List Char
  starts : Array Nat

namespace LineIndex

def ofChars (cs : List Char) : LineIndex :=
  ⟨cs, (0 :: lineStarts 0 cs).toArray⟩

/-- The last line that begins up to the byte, and the characters from there on; none are counted
when the byte stands inside one. A byte behind the end counts as the end. -/
def locate (index : LineIndex) (offset : Nat) : Location :=
  let offset := min offset (byteSize index.chars)
  let line := partitionPoint index.starts (· ≤ offset) 0 index.starts.size - 1
  let column := (cut? index.chars (index.starts.getD line 0) offset).elim 0 List.length
  ⟨line + 1, column + 1⟩

/-- The line that is found is the last one of the characters before the byte, when no line begins
between these and the byte. -/
theorem exists_locate (inside : offset ≤ byteSize (front ++ rest)) (behind : byteSize front ≤ offset)
    (none : ∀ start ∈ lineStarts (byteSize front) rest, offset < start) :
    ∃ lines before line, front = before ++ line ∧
      (⟨1, 1⟩ : Location).advance (byteSize front) front = ⟨lines, line.length + 1⟩ ∧
      (ofChars (front ++ rest)).locate offset =
        ⟨lines, (cut? (front ++ rest) (byteSize before) offset).elim 0 List.length + 1⟩ := by
  obtain ⟨starts, before, line, listed, parts, here⟩ := Location.exists_lastLine front
  refine ⟨starts.length + 1, before, line, parts, here, ?_⟩
  have upTo := takeWhile_lineStarts behind none
  rw [listed] at upTo
  have last : (0 :: lineStarts 0 (front ++ rest)).getD starts.length 0 = byteSize before := by
    rw [lineStarts_append, ← List.cons_append, listed]
    simp
  have count : partitionPoint (0 :: lineStarts 0 (front ++ rest)).toArray (· ≤ offset) 0
      (0 :: lineStarts 0 (front ++ rest)).toArray.size = starts.length + 1 := by
    refine partitionPoint_eq (fun k _ => ?_) (Nat.zero_le _) ?_
    · rw [List.getElem?_toArray, any_le_of_pairwise (lineStarts_increasing _ 0), upTo,
        List.length_append, List.length_singleton]
    · have longest := (List.takeWhile_prefix (l := 0 :: lineStarts 0 (front ++ rest))
        (· ≤ offset)).length_le
      rwa [upTo, List.length_append, List.length_singleton] at longest
  have start : (0 :: lineStarts 0 (front ++ rest)).toArray.getD starts.length 0 =
      byteSize before := by
    rw [Array.getD_eq_getD_getElem?, List.getElem?_toArray, ← List.getD_eq_getElem?_getD, last]
  rw [locate]
  simp only [ofChars, Nat.min_eq_left inside, count, Nat.add_sub_cancel, start]

/-- A byte at which a character begins, or the text ends. -/
theorem locate_boundary (front rest : List Char) :
    (ofChars (front ++ rest)).locate (byteSize front) =
      Location.ofOffset (front ++ rest) (byteSize front) := by
  have inside : byteSize front ≤ byteSize (front ++ rest) := by
    rw [byteSize_append]
    exact Nat.le_add_right _ _
  obtain ⟨lines, before, line, rfl, here, found⟩ := exists_locate inside (Nat.le_refl _)
    fun start later => (lineStarts_bounds start later).1
  have cut := cut?_append before line rest
  have whole := Location.advance_append ⟨1, 1⟩ 0 (before ++ line) rest
  rw [Nat.add_zero, Location.advance_zero] at whole
  rw [found, byteSize_append, cut, Location.ofOffset, ← byteSize_append, whole, here]
  rfl

/-- A byte inside a character. -/
theorem locate_inside {c : Char} (after : byteSize front < offset)
    (before : offset < byteSize front + c.utf8Size) :
    (ofChars (front ++ c :: rest)).locate offset =
      Location.ofOffset (front ++ c :: rest) offset := by
  have noLineEnd : c ≠ '\n' := by
    rintro rfl
    have : '\n'.utf8Size = 1 := rfl
    omega
  have inside : offset ≤ byteSize (front ++ c :: rest) := by
    rw [byteSize_append, byteSize_cons]
    omega
  obtain ⟨lines, start, line, -, here, found⟩ := exists_locate inside (Nat.le_of_lt after)
    fun start later => by
      rw [lineStarts, if_neg noLineEnd] at later
      exact Nat.lt_trans before (lineStarts_bounds start later).1
  obtain ⟨n, rfl⟩ : ∃ n, offset = byteSize front + n := ⟨offset - byteSize front, by omega⟩
  have cut : cut? (front ++ c :: rest) (byteSize start) (byteSize front + n) = none :=
    if_neg fun whole => not_isBoundary_inside after before whole.2.2.2
  rw [found, cut, Location.ofOffset, Location.advance_append, here, Location.advance,
    if_neg (by omega), if_pos (by omega)]
  rfl

theorem locate_min (index : LineIndex) (offset : Nat) :
    index.locate (min offset (byteSize index.chars)) = index.locate offset := by
  simp only [locate, Nat.min_assoc, Nat.min_self]

end LineIndex

namespace Location

theorem advance_behind {here : Location} (behind : byteSize cs ≤ offset) :
    here.advance offset cs = here.advance (byteSize cs) cs := by
  induction cs generalizing here offset with
  | nil => rfl
  | cons c cs ih =>
    rw [byteSize_cons] at behind
    obtain ⟨n, rfl⟩ : ∃ n, offset = c.utf8Size + n := ⟨offset - c.utf8Size, by omega⟩
    rw [byteSize_cons, advance_cons, advance_cons, ih (by omega)]

/-- A byte behind the end counts as the end. -/
theorem ofOffset_min (cs : List Char) (offset : Nat) :
    ofOffset cs (min offset (byteSize cs)) = ofOffset cs offset := by
  rcases Nat.le_total offset (byteSize cs) with inside | behind
  · rw [Nat.min_eq_left inside]
  · rw [Nat.min_eq_right behind, ofOffset, ofOffset, advance_behind behind]

/-- The location behind some characters counts the line ends among them, and the characters behind
the last of these. -/
theorem advance_counts (front : List Char) : (⟨1, 1⟩ : Location).advance (byteSize front) front =
    ⟨1 + front.count '\n', 1 + (front.rtakeWhile (· ≠ '\n')).length⟩ := by
  induction front using List.reverseRecOn with
  | nil => rfl
  | append_singleton front c ih =>
    have last := advance_cons ((⟨1, 1⟩ : Location).advance (byteSize front) front) c [] 0
    rw [advance_zero] at last
    rw [byteSize_append, advance_append, byteSize_cons, byteSize_nil, last, ih, next,
      List.rtakeWhile_concat, List.count_append]
    by_cases newline : c = '\n'
    · simp [newline, Nat.add_assoc]
    · simp [newline, Nat.add_assoc]

/-- A byte at which a character begins, or one at or behind the end, counts the characters before
it. -/
theorem ofOffset_counts (start : byteSize front = offset ∨ rest = [] ∧ byteSize front ≤ offset) :
    ofOffset (front ++ rest) offset =
      ⟨1 + front.count '\n', 1 + (front.rtakeWhile (· ≠ '\n')).length⟩ := by
  rcases start with rfl | ⟨rfl, behind⟩
  · have whole := advance_append ⟨1, 1⟩ 0 front rest
    rw [Nat.add_zero, advance_zero, advance_counts] at whole
    exact whole
  · rw [List.append_nil, ofOffset, advance_behind behind, advance_counts]

theorem before_ofOffset_of_lt {a b : Nat} (first : IsBoundary cs a) (second : IsBoundary cs b)
    (less : a < b) : Before (ofOffset cs a) (ofOffset cs b) := by
  obtain ⟨front, tail, parts, rfl⟩ := first
  obtain ⟨front', tail', parts', rfl⟩ := second
  rcases List.prefix_or_prefix_of_prefix ⟨tail, parts.symm⟩ ⟨tail', parts'.symm⟩ with
    ⟨middle, rfl⟩ | ⟨middle, rfl⟩
  · have nonempty : middle ≠ [] := by
      rintro rfl
      rw [List.append_nil] at less
      exact Nat.lt_irrefl _ less
    rw [byteSize_append, parts', List.append_assoc]
    exact before_ofOffset nonempty
  · rw [byteSize_append] at less
    omega

/-- Where characters begin, the order of locations is that of the bytes. -/
theorem before_ofOffset_iff {a b : Nat} (first : IsBoundary cs a) (second : IsBoundary cs b) :
    Before (ofOffset cs a) (ofOffset cs b) ↔ a < b := by
  refine ⟨fun before => ?_, before_ofOffset_of_lt first second⟩
  rcases Nat.lt_trichotomy a b with less | rfl | greater
  · exact less
  · rw [Before, isAtMost_self] at before
    cases before
  · have back := (before_ofOffset_of_lt second first greater).isAtMost
    rw [Before, back] at before
    cases before

end Location

/-- The index finds every location. -/
theorem LineIndex.locate_eq (cs : List Char) (offset : Nat) :
    (ofChars cs).locate offset = Location.ofOffset cs offset := by
  have clamped : (ofChars cs).locate (min offset (byteSize cs)) = _ := locate_min _ offset
  rw [← clamped, ← Location.ofOffset_min]
  rcases isBoundary_or_inside (Nat.min_le_right offset (byteSize cs)) with
    ⟨front, rest, parts, size⟩ | ⟨front, c, rest, parts, after, before⟩
  · rw [← size, parts]
    exact locate_boundary front rest
  · rw [parts] at after before ⊢
    exact locate_inside after before

end Dbml
