import Dbml.Proofs.Source.Bracket
import Dbml.Segment.Scan

/-!
# The steps of a scan

What a scan does at one token: it passes over a line end, takes a line, or takes a block with its
children and goes on behind it. Each step is an equation under the conditions that lead to it, and
`scan_induction` follows all of them.
-/

namespace Dbml.Source

variable {s : Source} {limit : Option Nat} {depth i stop : Nat}

/-! ## One step -/

theorem holds_newline : s.holds i (· == .newline) = true ↔ s.token? i = some .newline := by
  cases here : s.token? i with
  | none => simp [holds, here]
  | some t => simp [holds, here]

theorem scanFrom_end (done : ¬ i < stop) : s.scanFrom limit depth i stop = .ok [] := by
  rw [scanFrom, dif_neg done]

theorem scanFrom_newline (inside : i < stop) (newline : s.token? i = some .newline) :
    s.scanFrom limit depth i stop = s.scanFrom limit depth (i + 1) stop := by
  rw [scanFrom, dif_pos inside, dif_pos (by simp [holds_of_token? newline])]

/-- A line without an opening brace is a segment of its own. -/
theorem scanFrom_line (inside : i < stop) (line : ¬ s.holds i (· == .newline) = true)
    (opens : s.openingBrace ⟨i, s.lineEnd i stop⟩ stop = none) :
    s.scanFrom limit depth i stop =
      (s.scanFrom limit depth (s.lineEnd i stop) stop).map
        (.line ⟨i, s.lineEnd i stop⟩ :: ·) := by
  rw [scanFrom, dif_pos inside, dif_neg line]
  split
  · cases s.scanFrom limit depth (s.lineEnd i stop) stop <;> rfl
  next found => rw [opens] at found; cases found

theorem scanFrom_unterminated {opening : Nat} (inside : i < stop)
    (line : ¬ s.holds i (· == .newline) = true)
    (opens : s.openingBrace ⟨i, s.lineEnd i stop⟩ stop = some opening)
    (open_ : s.matching opening stop .openBrace .closeBrace = none) :
    s.scanFrom limit depth i stop = .error (.unterminated i) := by
  rw [scanFrom, dif_pos inside, dif_neg line]
  split
  next found => rw [opens] at found; cases found
  next other found =>
    rw [opens] at found
    cases found
    split
    · rfl
    next found => rw [open_] at found; cases found

/-- The children of a block that begins at token `i`: the segments of its body if it is of a known
kind and not too deep. -/
def blockChildren (s : Source) (limit : Option Nat) (depth i opening closing : Nat) :
    Except ScanFault (List Segment) :=
  if (s.kindAt i).isOther then .ok []
  else if limit.any (· < depth + 1) then .error (.tooDeep i)
  else s.scanFrom limit (depth + 1) (opening + 1) closing

theorem blockChildren_eq_ok {opening closing : Nat} {children : List Segment} :
    s.blockChildren limit depth i opening closing = .ok children ↔
      (s.kindAt i).isOther = true ∧ children = [] ∨
      (s.kindAt i).isOther = false ∧ limit.any (· < depth + 1) = false ∧
        s.scanFrom limit (depth + 1) (opening + 1) closing = .ok children := by
  unfold blockChildren
  cases (s.kindAt i).isOther with
  | true => simp [@eq_comm _ [] children]
  | false => cases limit.any (· < depth + 1) <;> simp

/-- The block that begins at token `i` with the two braces. -/
def blockAt (s : Source) (i opening closing : Nat) : Block :=
  { kind := s.kindAt i, start := i, header := s.header (s.kindAt i) ⟨i + 1, opening⟩, opening, closing }

/-- A line with an opening brace begins a block, and the scan goes on behind its closing brace. -/
theorem scanFrom_block {opening closing : Nat} (inside : i < stop)
    (line : ¬ s.holds i (· == .newline) = true)
    (opens : s.openingBrace ⟨i, s.lineEnd i stop⟩ stop = some opening)
    (closes : s.matching opening stop .openBrace .closeBrace = some closing) :
    s.scanFrom limit depth i stop = do
      let children ← s.blockChildren limit depth i opening closing
      let rest ← s.scanFrom limit depth (closing + 1) stop
      return .block (s.blockAt i opening closing) children :: rest := by
  rw [scanFrom, dif_pos inside, dif_neg line]
  split
  next found => rw [opens] at found; cases found
  next other found =>
    rw [opens] at found
    cases found
    split
    next found => rw [closes] at found; cases found
    next other found =>
      rw [closes] at found
      cases found
      unfold blockChildren
      by_cases other : (s.kindAt i).isOther = true
      · simp only [other, if_true]
        rfl
      by_cases deep : limit.any (· < depth + 1) = true
      · simp only [other, deep, if_true]
        rfl
      · simp only [other, deep]
        rfl

/-! ## What a successful scan has done -/

/-- The ways in which a scan succeeds: at the end, over a line end, over a line or over a block. -/
theorem scanFrom_cases {segments : List Segment}
    (scanned : s.scanFrom limit depth i stop = .ok segments) :
    (¬ i < stop ∧ segments = []) ∨
    (i < stop ∧ s.token? i = some .newline ∧
      s.scanFrom limit depth (i + 1) stop = .ok segments) ∨
    (i < stop ∧ s.token? i ≠ some .newline ∧ ∃ rest,
      s.scanFrom limit depth (s.lineEnd i stop) stop = .ok rest ∧
      segments = .line ⟨i, s.lineEnd i stop⟩ :: rest) ∨
    (i < stop ∧ s.token? i ≠ some .newline ∧ ∃ opening closing children rest,
      s.openingBrace ⟨i, s.lineEnd i stop⟩ stop = some opening ∧
      s.matching opening stop .openBrace .closeBrace = some closing ∧
      s.blockChildren limit depth i opening closing = .ok children ∧
      s.scanFrom limit depth (closing + 1) stop = .ok rest ∧
      segments = .block (s.blockAt i opening closing) children :: rest) := by
  by_cases done : ¬ i < stop
  · rw [scanFrom_end done] at scanned
    cases scanned
    exact .inl ⟨done, rfl⟩
  have inside := Decidable.not_not.1 done
  right
  by_cases newline : s.token? i = some .newline
  · rw [scanFrom_newline inside newline] at scanned
    exact .inl ⟨inside, newline, scanned⟩
  right
  have line : ¬ s.holds i (· == .newline) = true := fun here => newline (holds_newline.1 here)
  cases opens : s.openingBrace ⟨i, s.lineEnd i stop⟩ stop with
  | none =>
    rw [scanFrom_line inside line opens] at scanned
    cases later : s.scanFrom limit depth (s.lineEnd i stop) stop with
    | error fault => rw [later] at scanned; cases scanned
    | ok rest =>
      rw [later] at scanned
      cases scanned
      exact .inl ⟨inside, newline, rest, rfl, rfl⟩
  | some opening =>
    cases closes : s.matching opening stop .openBrace .closeBrace with
    | none => rw [scanFrom_unterminated inside line opens closes] at scanned; cases scanned
    | some closing =>
      rw [scanFrom_block inside line opens closes] at scanned
      cases within : s.blockChildren limit depth i opening closing with
      | error fault => rw [within] at scanned; cases scanned
      | ok children =>
        cases later : s.scanFrom limit depth (closing + 1) stop with
        | error fault => rw [within, later] at scanned; cases scanned
        | ok rest =>
          rw [within, later] at scanned
          cases scanned
          exact .inr ⟨inside, newline, opening, closing, children, rest, rfl, closes, within, later, rfl⟩

/-- The ways in which a scan fails: behind a line end or a line, at a block without a closing brace,
in the children of a block or behind it. -/
theorem scanFrom_fails {fault : ScanFault}
    (failed : s.scanFrom limit depth i stop = .error fault) :
    i < stop ∧ (s.token? i = some .newline ∧ s.scanFrom limit depth (i + 1) stop = .error fault ∨
    s.token? i ≠ some .newline ∧ (
      s.openingBrace ⟨i, s.lineEnd i stop⟩ stop = none ∧
        s.scanFrom limit depth (s.lineEnd i stop) stop = .error fault ∨
      ∃ opening, s.openingBrace ⟨i, s.lineEnd i stop⟩ stop = some opening ∧ (
        s.matching opening stop .openBrace .closeBrace = none ∧ fault = .unterminated i ∨
        ∃ closing, s.matching opening stop .openBrace .closeBrace = some closing ∧ (
          s.blockChildren limit depth i opening closing = .error fault ∨
          s.scanFrom limit depth (closing + 1) stop = .error fault)))) := by
  have inside : i < stop := by
    refine Decidable.not_not.1 fun done => ?_
    rw [scanFrom_end done] at failed
    cases failed
  refine ⟨inside, ?_⟩
  by_cases newline : s.token? i = some .newline
  · rw [scanFrom_newline inside newline] at failed
    exact .inl ⟨newline, failed⟩
  have line : ¬ s.holds i (· == .newline) = true := fun here => newline (holds_newline.1 here)
  refine .inr ⟨newline, ?_⟩
  cases opens : s.openingBrace ⟨i, s.lineEnd i stop⟩ stop with
  | none =>
    rw [scanFrom_line inside line opens] at failed
    cases later : s.scanFrom limit depth (s.lineEnd i stop) stop with
    | ok rest => rw [later] at failed; cases failed
    | error other => rw [later] at failed; cases failed; exact .inl ⟨rfl, rfl⟩
  | some opening =>
    refine .inr ⟨opening, rfl, ?_⟩
    cases closes : s.matching opening stop .openBrace .closeBrace with
    | none =>
      rw [scanFrom_unterminated inside line opens closes] at failed
      cases failed
      exact .inl ⟨rfl, rfl⟩
    | some closing =>
      refine .inr ⟨closing, rfl, ?_⟩
      rw [scanFrom_block inside line opens closes] at failed
      cases within : s.blockChildren limit depth i opening closing with
      | error other => rw [within] at failed; cases failed; exact .inl rfl
      | ok children =>
        cases later : s.scanFrom limit depth (closing + 1) stop with
        | error other => rw [within, later] at failed; cases failed; exact .inr rfl
        | ok rest => rw [within, later] at failed; cases failed

/-- The depth limit holds for whole sources. -/
theorem scan_eq_ok {segments : List Segment} :
    s.scan = .ok segments ↔ s.scanWithin (some depthLimit) = .ok segments := by
  unfold scan
  cases s.scanWithin (some depthLimit) with
  | error fault =>
    show Except.error (s.scanError fault) = Except.ok segments ↔ _
    simp
  | ok found =>
    show (Except.ok found : Except ScanError _) = Except.ok segments ↔ _
    simp

/-! ## Where lines end and blocks open -/

theorem lineEnd_le : s.lineEnd i stop ≤ stop := by
  unfold lineEnd
  cases found : s.find? ⟨i, stop⟩ (· == .newline) with
  | none => exact Nat.le_refl stop
  | some j => exact Nat.le_of_lt (find?_bounds found).2.1

theorem openingBrace_isMark {line : TokenRange} {opening : Nat}
    (opens : s.openingBrace line stop = some opening) : s.isMark opening .openBrace = true := by
  unfold openingBrace at opens
  rcases Option.or_eq_some_iff.1 opens with found | ⟨_, found⟩
  · have hit := (findOutside?_bounds found).2.2
    simpa [holds, isMark, Option.any_eq_true] using hit
  · unfold braceOnNextLine at found
    split at found
    · cases found
    · exact (Option.filter_eq_some_iff.1 found).2

/-! ## Following a scan -/

/-- Follows the steps of a scan that goes through the bodies of all blocks: over a line end, over a
line, to a block that is not closed, or over a block and through its body. -/
@[elab_as_elim]
theorem scan_induction (s : Source) {motive : Nat → Nat → Nat → Prop}
    (done : ∀ depth i stop, ¬ i < stop → motive depth i stop)
    (newline : ∀ depth i stop, i < stop → s.token? i = some .newline → motive depth (i + 1) stop →
      motive depth i stop)
    (line : ∀ depth i stop, i < stop → ¬ s.holds i (· == .newline) = true →
      s.openingBrace ⟨i, s.lineEnd i stop⟩ stop = none → i < s.lineEnd i stop →
      motive depth (s.lineEnd i stop) stop → motive depth i stop)
    (unclosed : ∀ depth i stop opening, i < stop → ¬ s.holds i (· == .newline) = true →
      s.openingBrace ⟨i, s.lineEnd i stop⟩ stop = some opening →
      s.matching opening stop .openBrace .closeBrace = none → motive depth i stop)
    (block : ∀ depth i stop opening closing, i < stop → ¬ s.holds i (· == .newline) = true →
      s.openingBrace ⟨i, s.lineEnd i stop⟩ stop = some opening →
      s.matching opening stop .openBrace .closeBrace = some closing →
      i ≤ opening → opening < closing → closing < stop →
      motive (depth + 1) (opening + 1) closing → motive depth (closing + 1) stop →
      motive depth i stop)
    (depth i stop : Nat) : motive depth i stop := by
  induction size : stop - i using Nat.strongRecOn generalizing depth i stop with
  | ind n ih =>
  by_cases inside : i < stop
  · by_cases ends : s.holds i (· == .newline) = true
    · exact newline depth i stop inside (holds_newline.1 ends) (ih _ (by omega) _ _ _ rfl)
    have ahead := lineEnd_gt inside ends
    cases opens : s.openingBrace ⟨i, s.lineEnd i stop⟩ stop with
    | none => exact line depth i stop inside ends opens ahead (ih _ (by omega) _ _ _ rfl)
    | some opening =>
      cases closes : s.matching opening stop .openBrace .closeBrace with
      | none => exact unclosed depth i stop opening inside ends opens closes
      | some closing =>
        have start := openingBrace_ge (Nat.le_of_lt ahead) opens
        have bounds := matching_bounds closes
        have apart : opening ≠ closing := by
          rintro rfl
          cases eq_of_isMark (openingBrace_isMark opens) bounds.2.2
        simp only at start
        exact block depth i stop opening closing inside ends opens closes start (by omega)
          (by omega) (ih _ (by omega) _ _ _ rfl) (ih _ (by omega) _ _ _ rfl)
  · exact done depth i stop inside

end Dbml.Source
