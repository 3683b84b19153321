import Dbml.Proofs.Respacing.Assembling

/-!
# Where findings stand

Nothing in the segments of a source has a number that no token has. If such numbers were others, the
same would be found at the same places; so every finding stands at a token. Main statement:
`position_lt_of_mem_findings`.
-/

namespace Dbml.Source

open Segment

variable {s : Source} {place : Nat → Nat} {limit : Option Nat} {depth i stop : Nat}
  {segments : List Segment}

/-- The number of every token, and another number for each that no token has. -/
def elsewhere (s : Source) (k : Nat) : Nat :=
  if k < s.size then k else k + 1

theorem elsewhere_of_lt (inside : i < s.size) : s.elsewhere i = i :=
  if_pos inside

theorem lt_of_elsewhere_eq (same : s.elsewhere i = i) : i < s.size := by
  refine Nat.not_le.1 fun outside => ?_
  rw [elsewhere, if_neg (Nat.not_lt.2 outside)] at same
  omega

theorem elsewhere_injective (s : Source) : Function.Injective s.elsewhere := by
  intro k l same
  simp only [elsewhere] at same
  split at same <;> split at same <;> omega

/-! ## Segments that stay -/

theorem copied_self (fixed : ∀ k < s.size, place k = k) {range : TokenRange}
    (bound : range.stop ≤ s.size) : Copied s s place 0 range where
  bound := bound
  place k _ high := fixed k (Nat.lt_of_lt_of_le high bound)
  token _ _ _ := rfl
  adjacent _ _ _ := rfl
  text _ _ _ := rfl

theorem sameBlock_self (fixed : ∀ k < s.size, place k = k) {opening closing : Nat}
    (inside : i < s.size) (bound : opening ≤ s.size) :
    SameBlock s s place (s.blockAt i opening closing) (s.blockAt i opening closing) where
  kind := rfl
  start := (fixed i inside).symm
  header := (copied_self fixed bound : Copied s s place 0 ⟨i + 1, opening⟩).header (s.kindAt i)
  note := rfl
  empty := rfl

/-- Segments stay where they are when the numbers of all tokens stay. -/
theorem relocated_self (fixed : ∀ k < s.size, place k = k) (bound : stop ≤ s.size)
    (closed : s.isMark stop .colon = false)
    (scanned : s.scanFrom limit depth i stop = .ok segments) :
    List.Forall₂ (Relocated s s place) segments segments := by
  -- Every step leaves fewer tokens, those of a block's body included.
  induction size : stop - i using Nat.strongRecOn generalizing depth i stop segments with
  | ind n ih =>
  rcases scanFrom_cases scanned with ⟨-, rfl⟩ | ⟨inside, -, rest⟩ |
    ⟨inside, line, rest, later, rfl⟩ |
    ⟨inside, line, opening, closing, children, rest, opens, closes, within, later, rfl⟩
  · exact .nil
  · exact ih _ (by omega) bound closed rest rfl
  · have ahead := lineEnd_gt inside fun here => line (holds_newline.1 here)
    have behind : s.isMark (s.lineEnd i stop) .colon = false := by
      rcases Nat.lt_or_eq_of_le (lineEnd_le : s.lineEnd i stop ≤ stop) with less | same
      · rw [isMark_of_token? (token?_lineEnd less)]
        rfl
      · rw [same, closed]
    have copied : Copied s s place 0 ⟨i, s.lineEnd i stop⟩ :=
      copied_self fixed (Nat.le_trans lineEnd_le bound)
    exact .cons (.line copied ahead behind behind) (ih _ (by omega) bound closed later rfl)
  · obtain ⟨framed, ends⟩ := framed_blockAt inside bound line opens closes
    have start : i ≤ opening := framed.start_le
    have order : opening < closing := framed.opening_lt
    have brace : s.isMark closing .colon = false := (isMark_of_token? framed.closes _).trans rfl
    refine .cons (.block (sameBlock_self fixed (by omega) (by omega)) ?_)
      (ih _ (by omega) bound closed later rfl)
    rcases blockChildren_eq_ok.1 within with ⟨-, rfl⟩ | ⟨-, -, scanned⟩
    · exact .nil
    · exact ih _ (by omega) (by omega) brace scanned rfl

/-- Findings stand at tokens: the same ones are made at the same places when other numbers are
moved. -/
theorem position_lt_of_mem_findings (scanned : s.scan = .ok segments) :
    ∀ finding ∈ (s.assemble segments).findings, finding.position < s.size := by
  have closed : s.isMark s.size .colon = false := by
    rw [isMark, Option.not_isSome_iff_eq_none.1 fun there =>
      Nat.lt_irrefl _ (token?_isSome.1 there)]
    rfl
  have stay := relocated_self (fun k inside => elsewhere_of_lt inside) (Nat.le_refl s.size) closed
    (scan_eq_ok.1 scanned)
  have same := (Relocated.assemble s.elsewhere_injective stay).findings
  have still := List.map_eq_map_iff.1 ((List.map_id _).trans same)
  intro finding listed
  exact lt_of_elsewhere_eq (congrArg Finding.position (still finding listed)).symm

end Dbml.Source
