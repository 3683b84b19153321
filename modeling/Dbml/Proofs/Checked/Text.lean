import Dbml.Proofs.Respacing.Locations
import Mathlib.Data.List.Induction

/-!
# Cutting a text inside its bounds

Bytes of a text are cut out with a check: that they are in order, inside the text, and do not part a
character. The line of a byte is looked up in the list of places where lines begin, which must hold
it. Main statements: `cut?_append` and `locate?_append`, the checks hold where characters begin.
-/

namespace Dbml

variable {cs front rest : List Char} {offset : Nat}

namespace Text

/-- Whether a character begins at the byte, or the text ends there. -/
def isBoundary : List Char → Nat → Bool
  | _, 0 => true
  | [], _ + 1 => false
  | c :: cs, n + 1 => c.utf8Size ≤ n + 1 && isBoundary cs (n + 1 - c.utf8Size)

theorem isBoundary_byteSize (front rest : List Char) :
    isBoundary (front ++ rest) (byteSize front) = true := by
  induction front with
  | nil => simp [isBoundary]
  | cons c front ih =>
    obtain ⟨n, size⟩ := Nat.exists_eq_succ_of_ne_zero (Nat.ne_of_gt c.utf8Size_pos)
    rw [List.cons_append, byteSize_cons, size, Nat.succ_add, isBoundary, size,
      show n + byteSize front + 1 - n.succ = byteSize front by omega, ih]
    simp only [Bool.and_true, decide_eq_true_eq]
    omega

theorem isBoundary_iff : isBoundary cs offset = true ↔ IsBoundary cs offset := by
  refine ⟨fun boundary => ?_, ?_⟩
  · induction cs generalizing offset with
    | nil =>
      cases offset with
      | zero => exact ⟨[], [], rfl, rfl⟩
      | succ n => cases boundary
    | cons c cs ih =>
      cases offset with
      | zero => exact ⟨[], c :: cs, rfl, rfl⟩
      | succ n =>
        rw [isBoundary, Bool.and_eq_true, decide_eq_true_eq] at boundary
        obtain ⟨before, after, rfl, size⟩ := ih boundary.2
        exact ⟨c :: before, after, rfl, by rw [byteSize_cons]; omega⟩
  · rintro ⟨before, after, rfl, rfl⟩
    exact isBoundary_byteSize before after

instance : Decidable (IsBoundary cs offset) :=
  decidable_of_iff _ isBoundary_iff

/-- The characters from byte `start` up to byte `stop`; none when the bytes are not in order, not
inside the text, or part a character. -/
def cut? (cs : List Char) (start stop : Nat) : Option (List Char) :=
  if start ≤ stop ∧ stop ≤ byteSize cs ∧ IsBoundary cs start ∧ IsBoundary cs stop then
    some (slice cs start stop)
  else none

theorem cut?_append (before part after : List Char) :
    cut? (before ++ part ++ after) (byteSize before) (byteSize before + byteSize part) =
      some part := by
  have size : byteSize before + byteSize part ≤ byteSize (before ++ part ++ after) := by
    simp only [byteSize_append]
    omega
  have last : IsBoundary (before ++ part ++ after) (byteSize before + byteSize part) :=
    ⟨before ++ part, after, rfl, byteSize_append _ _⟩
  rw [cut?, if_pos ⟨Nat.le_add_right _ _, size, ⟨before, part ++ after, by simp, rfl⟩, last⟩,
    slice_append]

/-- The characters from a byte on, if one begins there. -/
def from? (cs : List Char) (start : Nat) : Option (List Char) :=
  cut? cs start (byteSize cs)

theorem from?_append (front rest : List Char) :
    from? (front ++ rest) (byteSize front) = some rest := by
  have cut := cut?_append front rest []
  rwa [List.append_nil, ← byteSize_append] at cut

/-! ## Lines -/

/-- Where the lines behind the first one begin, in characters that begin at byte `offset`. -/
def lineStarts (offset : Nat) : List Char → List Nat
  | [] => []
  | c :: cs =>
    if c = '\n' then (offset + 1) :: lineStarts (offset + 1) cs
    else lineStarts (offset + c.utf8Size) cs

theorem lineStarts_append : lineStarts offset (front ++ rest) =
    lineStarts offset front ++ lineStarts (offset + byteSize front) rest := by
  induction front generalizing offset with
  | nil => rfl
  | cons c front ih =>
    rw [List.cons_append, lineStarts, lineStarts, byteSize_cons, ← Nat.add_assoc]
    split
    next newline => rw [ih, newline, List.cons_append]; rfl
    · exact ih

theorem lineStarts_bounds : ∀ start ∈ lineStarts offset cs,
    offset < start ∧ start ≤ offset + byteSize cs := by
  induction cs generalizing offset with
  | nil => exact fun start listed => absurd listed List.not_mem_nil
  | cons c cs ih =>
    have size := c.utf8Size_pos
    intro start listed
    rw [lineStarts] at listed
    rw [byteSize_cons]
    split at listed
    · rcases List.mem_cons.1 listed with rfl | later
      · omega
      · have := ih start later
        omega
    · have := ih start listed
      omega

/-- The lines that begin up to a byte are those of the characters before it, when no line begins
between these and the byte. -/
theorem takeWhile_lineStarts (behind : byteSize front ≤ offset)
    (none : ∀ start ∈ lineStarts (byteSize front) rest, offset < start) :
    (0 :: lineStarts 0 (front ++ rest)).takeWhile (· ≤ offset) = 0 :: lineStarts 0 front := by
  have early : ∀ start ∈ 0 :: lineStarts 0 front, decide (start ≤ offset) = true := by
    intro start member
    rcases List.mem_cons.1 member with rfl | later
    · exact decide_eq_true (Nat.zero_le _)
    · have := (lineStarts_bounds start later).2
      exact decide_eq_true (by omega)
  rw [lineStarts_append, ← List.cons_append, Nat.zero_add, List.takeWhile_append_of_pos early]
  cases late : lineStarts (byteSize front) rest with
  | nil => simp
  | cons start others =>
    have after := none start (by rw [late]; exact List.mem_cons_self)
    rw [List.takeWhile_cons_of_neg (by simpa using after), List.append_nil]

/-- The location of a byte: its line is the last one that begins at or before it, and its column
counts the characters from there on. None when no line begins there. -/
def locate? (cs : List Char) (offset : Nat) : Option Location := do
  let offset := min offset (byteSize cs)
  let starts := 0 :: lineStarts 0 cs
  let lines := (starts.takeWhile (· ≤ offset)).length
  let line ← if 0 < lines then some (lines - 1) else none
  let start ← starts[line]?
  let column := (cut? cs start offset).elim 0 List.length
  return ⟨line + 1, column + 1⟩

end Text

open Text

namespace Location

/-- The last line begins behind the last line end, and the column counts the characters behind. -/
theorem exists_lastLine (front : List Char) : ∃ starts before line,
    0 :: lineStarts 0 front = starts ++ [byteSize before] ∧ front = before ++ line ∧
      (⟨1, 1⟩ : Location).advance (byteSize front) front =
        ⟨starts.length + 1, line.length + 1⟩ := by
  induction front using List.reverseRecOn with
  | nil => exact ⟨[], [], [], rfl, rfl, rfl⟩
  | append_singleton front c ih =>
    obtain ⟨starts, before, line, listed, parts, here⟩ := ih
    have behind : (⟨1, 1⟩ : Location).advance (byteSize (front ++ [c])) (front ++ [c]) =
        Location.next ⟨starts.length + 1, line.length + 1⟩ c := by
      rw [byteSize_append, advance_append, here, byteSize_cons, advance_cons, byteSize_nil,
        advance_zero]
    by_cases newline : c = '\n'
    · refine ⟨starts ++ [byteSize before], front ++ [c], [], ?_, (List.append_nil _).symm, ?_⟩
      · rw [lineStarts_append, ← List.cons_append, listed, lineStarts, if_pos newline, newline,
          byteSize_append, Nat.zero_add]
        rfl
      · rw [behind, next, if_pos newline, List.length_append]
        rfl
    · refine ⟨starts, before, line ++ [c], ?_, by rw [parts, List.append_assoc], ?_⟩
      · rw [lineStarts_append, ← List.cons_append, listed, lineStarts, if_neg newline, lineStarts,
          List.append_nil]
      · rw [behind, next, if_neg newline, List.length_append]
        rfl

/-- The line of a character is found among those that the text has. -/
theorem locate?_append (front rest : List Char) :
    locate? (front ++ rest) (byteSize front) =
      some (ofOffset (front ++ rest) (byteSize front)) := by
  obtain ⟨starts, before, line, listed, parts, here⟩ := exists_lastLine front
  have inside : min (byteSize front) (byteSize (front ++ rest)) = byteSize front :=
    Nat.min_eq_left (by rw [byteSize_append]; exact Nat.le_add_right _ _)
  have all : 0 :: lineStarts 0 (front ++ rest) =
      (starts ++ [byteSize before]) ++ lineStarts (byteSize front) rest := by
    rw [lineStarts_append, ← List.cons_append, listed, Nat.zero_add]
  have upTo : ((starts ++ [byteSize before]) ++ lineStarts (byteSize front) rest).takeWhile
      (· ≤ byteSize front) = starts ++ [byteSize before] := by
    rw [← all, ← listed]
    exact takeWhile_lineStarts (Nat.le_refl _) fun start later => (lineStarts_bounds start later).1
  have count : (starts ++ [byteSize before]).length = starts.length + 1 := List.length_append
  have start : ((starts ++ [byteSize before]) ++ lineStarts (byteSize front) rest)[starts.length]? =
      some (byteSize before) := by simp
  have column : cut? (front ++ rest) (byteSize before) (byteSize front) = some line := by
    have cut := cut?_append before line rest
    rwa [← byteSize_append, ← parts] at cut
  have place : ofOffset (front ++ rest) (byteSize front) =
      ⟨starts.length + 1, line.length + 1⟩ := by
    have whole := advance_append ⟨1, 1⟩ 0 front rest
    rw [Nat.add_zero, advance_zero] at whole
    rw [ofOffset, whole, here]
  rw [locate?]
  simp only [inside, all, upTo, count, Nat.succ_pos, if_true, Nat.add_sub_cancel, start, column,
    place, Option.bind_eq_bind, Option.bind_some, Option.elim_some, Option.pure_def]

end Location

end Dbml
