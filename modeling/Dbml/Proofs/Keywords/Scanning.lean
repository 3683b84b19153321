import Dbml.Proofs.Keywords.Places

/-!
# Segments of sources with other keywords

Keywords in other letters cut a source into the same segments, with the same headers, and leave the
rest of every segment as it was. Main statement: `Recased.scan`.
-/

namespace Dbml

open Segment Source

/-- The second source has the settings of the header, and of a line all that stands behind the first
word; the first word too when the line does not begin with a keyword. So it is with the segments in
a block. -/
inductive Kept (s t : Source) : Option Block → Segment → Prop
  | line {around : Option Block} {range : TokenRange} (nonempty : range.start < range.stop)
    (behind : Copied s t id 0 (range.drop 1))
    (whole : s.opensWithKeyword around range = false → Copied s t id 0 range) :
    Kept s t around (.line range)
  | block {around : Option Block} {b : Block} {children : List Segment}
    (settings : SettingsCopied s t id (b.header.settings.elim [] s.settings)
      (b.header.settings.elim [] t.settings))
    (inner : ∀ x ∈ children, Kept s t (some b) x) : Kept s t around (.block b children)

namespace SameButCase

variable {s t : Source} {i start stop : Nat} {range : TokenRange}

theorem isAdjacent (same : SameButCase s t) (i : Nat) : t.isAdjacent i = s.isAdjacent i := by
  cases i with
  | zero => rfl
  | succ i => rw [Source.isAdjacent, same.span, same.span, Source.isAdjacent]

theorem isMark (same : SameButCase s t) (i : Nat) (mark : Mark) :
    t.isMark i mark = s.isMark i mark :=
  same.alike.isMark reveals_lowered i mark

theorem isKeyword (same : SameButCase s t) (i : Nat) (keyword : String) :
    t.isKeyword i keyword = s.isKeyword i keyword :=
  same.alike.isKeyword reveals_lowered i keyword

/-- The keyword of a known block may have other letters. -/
theorem kindAt (same : SameButCase s t)
    (word : (s.kindAt i).isOther = true → t.token? i = s.token? i) : t.kindAt i = s.kindAt i := by
  cases known : (s.kindAt i).isOther with
  | true => rw [Source.kindAt, word known, Source.kindAt]
  | false =>
    have both := same.alike i
    rw [Source.kindAt] at known ⊢
    rw [Source.kindAt]
    cases found : s.token? i with
    | none => rw [found] at known; cases known
    | some token =>
      rw [found] at both known
      obtain ⟨other, found', lowered⟩ := Option.map_eq_some_iff.1 both
      rw [found']
      exact BlockKind.ofToken_of_lowered lowered known

end SameButCase

namespace Recased

variable {s t : Source} {changed : Nat → Prop} {around : Option Block} {limit : Option Nat}
  {depth i stop opening closing : Nat} {range : TokenRange} {segments children rest : List Segment}

/-- A range in which no letter changes. -/
theorem copied (recased : Recased s t changed) (bound : range.stop ≤ s.size)
    (unchanged : ∀ k, range.start ≤ k → k < range.stop → ¬ changed k) : Copied s t id 0 range where
  bound := bound
  place _ _ _ := rfl
  token k low high := recased.token k (unchanged k low high)
  adjacent k _ _ := recased.isAdjacent k
  text part low high := recased.text part fun k first last =>
    unchanged k (Nat.le_trans low first) (Nat.lt_of_lt_of_le last high)

/-- The line that a scan takes, with what it keeps. -/
theorem kept_line (recased : Recased s t changed) (nonempty : range.start < range.stop)
    (bound : range.stop ≤ s.size)
    (placed : ∀ k, range.start ≤ k → k < range.stop → changed k →
      s.opensWithKeyword around range = true ∧ k = range.start) :
    Kept s t around (.line range) := by
  refine .line nonempty (recased.copied bound fun k low high touched => ?_)
    fun plain => recased.copied bound fun k low high touched => ?_
  · have low : range.start + 1 ≤ k := low
    have := (placed k (by omega) high touched).2
    omega
  · rw [(placed k low high touched).1] at plain
    cases plain

/-- The block that a scan takes is the same, and keeps the settings of its header. -/
theorem blockAt (recased : Recased s t changed) (start : i ≤ opening) (bound : opening ≤ s.size)
    (placed : ∀ k, i ≤ k → k ≤ opening → changed k →
      k ∈ s.keywordsAt ⟨around, .block (s.blockAt i opening closing) children⟩) :
    t.blockAt i opening closing = s.blockAt i opening closing ∧
      SettingsCopied s t id ((s.blockAt i opening closing).header.settings.elim [] s.settings)
        ((s.blockAt i opening closing).header.settings.elim [] t.settings) := by
  -- Behind the first token only the word before the alias may have other letters.
  have behind (k : Nat) (low : i < k) (high : k < opening) (touched : changed k) :
      k = s.nameEnd (s.kindAt i) ⟨i + 1, opening⟩ := by
    rcases mem_keywordsAt_block.1 (placed k (Nat.le_of_lt low) (Nat.le_of_lt high) touched) with
      ⟨-, first⟩ | aliased
    · exact absurd first (Nat.ne_of_gt low)
    · obtain ⟨-, same⟩ := Option.ite_none_right_eq_some.1 aliased
      exact (Option.some.inj same).symm
  have kind : t.kindAt i = s.kindAt i := by
    refine recased.kindAt fun other => recased.token i fun touched => ?_
    rcases mem_keywordsAt_block.1 (placed i (Nat.le_refl i) start touched) with ⟨known, -⟩ | aliased
    · rw [show (s.blockAt i opening closing).kind = s.kindAt i from rfl, other] at known
      cases known
    · exact absurd (aliasWord?_bounds aliased).1 (Nat.lt_irrefl i)
  have header : t.header (s.kindAt i) ⟨i + 1, opening⟩ = s.header (s.kindAt i) ⟨i + 1, opening⟩ :=
    recased.alike.header reveals_lowered _ fun k low high other =>
      recased.token k fun touched => other (behind k low high touched)
  refine ⟨by rw [Source.blockAt, kind, header, Source.blockAt], ?_⟩
  show SettingsCopied s t id ((s.header (s.kindAt i) ⟨i + 1, opening⟩).settings.elim [] s.settings)
    ((s.header (s.kindAt i) ⟨i + 1, opening⟩).settings.elim [] t.settings)
  cases given : (s.header (s.kindAt i) ⟨i + 1, opening⟩).settings with
  | none => exact .nil
  | some settings =>
    obtain ⟨low, high⟩ := header_settings_bounds given
    have first := nameEnd_ge (s := s) (s.kindAt i) ⟨i + 1, opening⟩
    simp only at high first
    refine (recased.copied (Nat.le_trans high bound) fun k first last touched => ?_).settings
    have := behind k (by omega) (by omega) touched
    omega

/-- Keywords in other letters do not change how a range is cut. -/
theorem scanFrom (recased : Recased s t changed) (around : Option Block) (bound : stop ≤ s.size)
    (scanned : s.scanFrom limit depth i stop = .ok segments)
    (placed : ∀ k, i ≤ k → k < stop → changed k → k ∈ s.keywordsIn around segments) :
    t.scanFrom limit depth i stop = .ok segments ∧ ∀ x ∈ segments, Kept s t around x := by
  -- Every step leaves fewer tokens, those of a block's body included.
  induction size : stop - i using Nat.strongRecOn generalizing depth i stop around segments with
  | ind n ih =>
  rcases scanFrom_cases scanned with ⟨done, rfl⟩ | ⟨inside, newline, rest⟩ |
    ⟨inside, line, rest, later, rfl⟩ |
    ⟨inside, line, opening, closing, children, rest, opens, closes, within, later, rfl⟩
  · exact ⟨scanFrom_end done, by simp⟩
  · rw [recased.alike.scanFrom_newline reveals_lowered inside newline]
    exact ih _ (by omega) around bound rest (fun k low => placed k (by omega)) rfl
  · have first : ¬ s.holds i (· == .newline) = true := fun here => line (holds_newline.1 here)
    have ahead := lineEnd_gt inside first
    have opens := openingBrace_of_line inside line scanned
    have sections (k : Nat) (low : i ≤ k) (high : k < stop) (touched : changed k) :=
      keyword_of_line bound ahead later (placed k low high touched)
    obtain ⟨later', kept⟩ := ih _ (by omega) around bound later
      (fun k low high touched => (sections k (by omega) high touched).2 low) rfl
    refine ⟨?_, List.forall_mem_cons.2 ⟨?_, kept⟩⟩
    · rw [recased.alike.scanFrom_line reveals_lowered inside first opens, later']
      rfl
    · exact recased.kept_line ahead (Nat.le_trans lineEnd_le bound) fun k low high touched =>
        mem_keywordsAt_line.1 ((sections k low (Nat.lt_of_lt_of_le high lineEnd_le) touched).1 high)
  · obtain ⟨framed, ends⟩ := framed_blockAt inside bound line opens closes
    have start : i ≤ opening := framed.start_le
    have order : opening < closing := framed.opening_lt
    have sections (k : Nat) (low : i ≤ k) (high : k < stop) (touched : changed k) :=
      keyword_of_block bound start order ends within later (placed k low high touched)
    obtain ⟨same, settings⟩ := recased.blockAt start (by omega) fun k low high touched =>
      (sections k low (by omega) touched).1 high
    obtain ⟨later', kept⟩ := ih _ (by omega) around bound later
      (fun k low high touched => (sections k (by omega) high touched).2.2 low) rfl
    have inner : t.blockChildren limit depth i opening closing = .ok children ∧
        ∀ x ∈ children, Kept s t (some (s.blockAt i opening closing)) x := by
      rw [blockChildren_eq_ok, recased.alike.isOther_kindAt reveals_lowered]
      rcases blockChildren_eq_ok.1 within with ⟨unknown, rfl⟩ | ⟨known, shallow, scanned⟩
      · exact ⟨.inl ⟨unknown, rfl⟩, by simp⟩
      · obtain ⟨scanned', kept⟩ := ih _ (by omega) (some (s.blockAt i opening closing)) (by omega)
          scanned (fun k low high touched =>
            (sections k (by omega) (by omega) touched).2.1 low high) rfl
        exact ⟨.inr ⟨known, shallow, scanned'⟩, kept⟩
    refine ⟨?_, List.forall_mem_cons.2 ⟨.block settings inner.2, kept⟩⟩
    rw [recased.alike.scanFrom_block reveals_lowered inside (fun here => line (holds_newline.1 here))
      opens closes, inner.1, later', same]
    rfl

/-- Keywords in other letters leave a source that falls into the same segments. -/
theorem scan (recased : Recased s t changed) (scanned : s.scan = .ok segments)
    (placed : ∀ k, changed k → k ∈ s.keywords segments) :
    t.scan = .ok segments ∧ ∀ x ∈ segments, Kept s t none x := by
  rw [scan_eq_ok, scanWithin, recased.alike.size]
  exact recased.scanFrom none (Nat.le_refl s.size) (scan_eq_ok.1 scanned) fun k _ _ => placed k

end Recased

end Dbml
