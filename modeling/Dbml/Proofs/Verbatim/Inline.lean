import Dbml.Proofs.Checked.Tables
import Dbml.Proofs.Respacing.Segments

/-!
# What stands on one line

Lines hold no line ends, nor do the settings of a header, even when the brace stands on a line of
its own; so a setting and its value stand on one line. Main statement: `inline_of_scanFrom`.
-/

namespace Dbml

namespace Source

/-- No token of the range is a line end. -/
def Inline (s : Source) (range : TokenRange) : Prop :=
  ∀ i, range.start ≤ i → i < range.stop → s.token? i ≠ some .newline

variable {s : Source} {range part : TokenRange} {i stop opening : Nat}

theorem Inline.restrict (inline : s.Inline range) (low : range.start ≤ part.start)
    (high : part.stop ≤ range.stop) : s.Inline part :=
  fun i first last => inline i (Nat.le_trans low first) (Nat.lt_of_lt_of_le last high)

theorem Inline.between {i j : Nat} (inline : s.Inline range) (low : range.start ≤ i)
    (high : j ≤ range.stop) : s.Inline ⟨i, j⟩ :=
  inline.restrict low high

theorem Inline.drop (inline : s.Inline range) (n : Nat) : s.Inline (range.drop n) :=
  inline.restrict (Nat.le_add_right _ _) (Nat.le_refl _)

theorem inline_lineEnd (i stop : Nat) : s.Inline ⟨i, s.lineEnd i stop⟩ :=
  fun _ low high => token?_ne_newline_of_lt_lineEnd low high

end Source

/-- The setting begins with a token that is no line end, and its value holds none. -/
def Setting.Inline (s : Source) : Setting → Prop
  | .pair _ value position => s.token? position ≠ some .newline ∧ s.Inline value
  | .flag _ position | .invalid position => s.token? position ≠ some .newline

/-- A line that holds no line end; or a block with braces whose settings hold none, and such
segments inside it. -/
inductive Segment.Inline (s : Source) : Segment → Prop
  | line {range : TokenRange} (some_token : range.start < range.stop) (inline : s.Inline range) :
    Inline s (.line range)
  | block {block : Block} {children : List Segment} (start : s.token? block.start ≠ some .newline)
    (opening : s.token? block.opening ≠ some .newline)
    (closing : s.token? block.closing ≠ some .newline)
    (settings : ∀ range, block.header.settings = some range → s.Inline range)
    (inner : ∀ x ∈ children, Inline s x) : Inline s (.block block children)

namespace Source

variable {s : Source} {range : TokenRange} {limit : Option Nat} {depth i stop opening closing : Nat}
  {segments : List Segment}

/-! ## Settings -/

theorem inline_settingOf (inline : s.Inline range) (some_token : range.isEmpty = false) :
    (s.settingOf range).Inline s := by
  have inside : range.start < range.stop := by simpa [TokenRange.isEmpty] using some_token
  have first := inline _ (Nat.le_refl _) inside
  have words : Setting.Inline s (((s.tokens range).mapM word?).elim (.invalid range.start)
      fun ws => .flag (" ".intercalate ws) range.start) := by
    cases (s.tokens range).mapM word? <;> exact first
  rw [settingOf]
  split
  · split
    · exact ⟨first, inline.drop 2⟩
    · exact words
  · exact words

/-- The settings on a line stand on it. -/
theorem inline_settings (inline : s.Inline range) : ∀ x ∈ s.settings range, x.Inline s := by
  intro x listed
  obtain ⟨item, member, rfl⟩ := List.mem_map.1 listed
  obtain ⟨part, solid⟩ := List.mem_filter.1 member
  obtain ⟨low, high⟩ := splitCommas_bounds item part
  have within := inline.restrict low high
  exact inline_settingOf within (by simpa using solid)

/-! ## Segments -/

/-- The settings of a header stand behind its beginning and hold no line end. -/
theorem header_settings_inline (kind : BlockKind) (inline : s.Inline range) {settings : TokenRange}
    (given : (s.header kind range).settings = some settings) : s.Inline settings := by
  have bounds := header_settings_bounds given
  exact inline.restrict (Nat.le_of_lt (Nat.lt_of_le_of_lt (nameEnd_ge kind range) bounds.1)) bounds.2

/-- The settings of a block that a scan takes stand on the first line of the block. -/
theorem blockAt_settings_inline
    (opens : s.openingBrace ⟨i, s.lineEnd i stop⟩ stop = some opening) {settings : TokenRange}
    (given : (s.blockAt i opening closing).header.settings = some settings) : s.Inline settings := by
  have line : s.Inline ⟨i, s.lineEnd i stop⟩ := inline_lineEnd i stop
  rcases Option.or_eq_some_iff.1 opens with found | ⟨-, next⟩
  · -- The brace stands on the line.
    have bounds := findOutside?_bounds found
    exact header_settings_inline _ (line.between (Nat.le_succ i) (Nat.le_of_lt bounds.2.1)) given
  · -- Between the line and the brace stand only line ends, which the header does not look at.
    unfold braceOnNextLine at next
    split at next
    · cases next
    · have found := (Option.filter_eq_some_iff.1 next).1
      have bounds := find?_bounds found
      simp only at bounds
      rw [blockAt, header_newlines (newlines_of_find? found) bounds.1] at given
      exact header_settings_inline _ (line.between (Nat.le_succ i) (Nat.le_refl _)) given

/-- The segments that a scan finds hold no line ends where they should not. -/
theorem inline_of_scanFrom (scanned : s.scanFrom limit depth i stop = .ok segments) :
    ∀ x ∈ segments, x.Inline s := by
  induction depth, i, stop using s.scan_induction generalizing segments with
  | done depth i stop done =>
    rw [scanFrom_end done] at scanned
    cases scanned
    exact fun x listed => absurd listed List.not_mem_nil
  | newline depth i stop inside newline ih =>
    rw [scanFrom_newline inside newline] at scanned
    exact ih scanned
  | line depth i stop inside line opens ahead ih =>
    rw [scanFrom_line inside line opens] at scanned
    cases later : s.scanFrom limit depth (s.lineEnd i stop) stop with
    | error fault =>
      rw [later] at scanned
      cases scanned
    | ok rest =>
      rw [later] at scanned
      cases scanned
      exact List.forall_mem_cons.2 ⟨.line ahead (inline_lineEnd i stop), ih later⟩
  | unclosed depth i stop opening inside line opens open_ =>
    rw [scanFrom_unterminated inside line opens open_] at scanned
    cases scanned
  | block depth i stop opening closing inside line opens closes start order final inner ih =>
    have brace := isMark_iff_token?.1 (openingBrace_isMark opens)
    have closer := isMark_iff_token?.1 (matching_bounds closes).2.2
    rw [scanFrom_block inside line opens closes] at scanned
    cases within : s.blockChildren limit depth i opening closing with
    | error fault =>
      rw [within] at scanned
      cases scanned
    | ok children =>
      cases later : s.scanFrom limit depth (closing + 1) stop with
      | error fault =>
        rw [within, later] at scanned
        cases scanned
      | ok rest =>
        rw [within, later] at scanned
        cases scanned
        refine List.forall_mem_cons.2 ⟨.block ?_ ?_ ?_ ?_ ?_, ih later⟩
        · exact fun newline => line (holds_newline.2 newline)
        · show s.token? opening ≠ some .newline
          rw [brace]
          nofun
        · show s.token? closing ≠ some .newline
          rw [closer]
          nofun
        · exact fun range given => blockAt_settings_inline opens given
        · rcases blockChildren_eq_ok.1 within with ⟨-, rfl⟩ | ⟨-, -, found⟩
          · exact fun x listed => absurd listed List.not_mem_nil
          · exact inner found

theorem inline_of_scan (scanned : s.scan = .ok segments) : ∀ x ∈ segments, x.Inline s :=
  inline_of_scanFrom (scan_eq_ok.1 scanned)

end Source

end Dbml
