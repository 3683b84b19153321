import Dbml.Proofs.Segment.Partition
import Dbml.Proofs.Source.Counting

/-!
# Blocks that are not closed

A scan that comes to an opening brace without a closing one reports the block, and only at the top
level: the braces in a body close each other. Main statement: `unclosed_reported`.
-/

namespace Dbml

namespace Source

variable {s : Source} {limit : Option Nat} {depth i j stop opening closing position : Nat}

/-! ## Among closed braces -/

/-- Every opening brace among the tokens is closed among them. -/
def AllClosed (s : Source) (i stop : Nat) : Prop :=
  ∀ j, i ≤ j → j < stop → s.isMark j .openBrace = true →
    s.IsClosed .openBrace .closeBrace j stop

theorem AllClosed.later (closed : s.AllClosed i stop) (order : i ≤ j) : s.AllClosed j stop :=
  fun k low => closed k (Nat.le_trans order low)

theorem allClosed_of_balanced (bound : stop ≤ s.size)
    (body : Balanced .openBrace .closeBrace (s.tokens ⟨i, stop⟩)) : s.AllClosed i stop :=
  fun _ low high opens => isClosed_of_balanced (by decide) bound body low high opens

/-- A block is taken with its closing brace when the brace is closed by counting. -/
theorem matching_ne_none (bound : stop ≤ s.size) (closed : s.AllClosed i stop)
    (order : i ≤ opening) (inside : opening < stop) (opens : s.isMark opening .openBrace = true) :
    s.matching opening stop .openBrace .closeBrace ≠ none := fun none =>
  (matching_eq_none_iff (by decide) bound opens).1 none (closed opening order inside opens)

theorem openingBrace_lt {line : TokenRange} (opens : s.openingBrace line stop = some opening)
    (inside : line.stop ≤ stop) : opening < stop := by
  rcases Option.or_eq_some_iff.1 opens with found | ⟨-, found⟩
  · exact Nat.lt_of_lt_of_le (findOutside?_bounds found).2.1 inside
  · unfold braceOnNextLine at found
    split at found
    · cases found
    · exact (find?_bounds (Option.filter_eq_some_iff.1 found).1).2.1

/-- Among braces that are all closed, a scan reports no block as unclosed, nor do the scans of the
bodies in it. -/
theorem scanFrom_ne_unterminated (bound : stop ≤ s.size) (closed : s.AllClosed i stop) :
    s.scanFrom limit depth i stop ≠ .error (.unterminated position) := by
  induction size : stop - i using Nat.strongRecOn generalizing depth i stop with
  | ind n ih =>
  intro failed
  obtain ⟨inside, ⟨newline, later⟩ | ⟨solid, step⟩⟩ := scanFrom_fails failed
  · exact ih _ (by omega) bound (closed.later (Nat.le_succ i)) rfl later
  have ahead := lineEnd_gt inside fun here => solid (holds_newline.1 here)
  rcases step with ⟨-, later⟩ | ⟨opening, opens, step⟩
  · exact ih _ (by omega) bound (closed.later (Nat.le_of_lt ahead)) rfl later
  have brace := openingBrace_isMark opens
  have start := openingBrace_ge (Nat.le_of_lt ahead) opens
  rcases step with ⟨none, -⟩ | ⟨closing, closes, inner | later⟩
  · exact matching_ne_none bound closed start (openingBrace_lt opens lineEnd_le) brace none
  · -- The body of a block is balanced, so that its braces are closed in it.
    obtain ⟨framed, ends⟩ := framed_blockAt inside bound solid opens closes
    have order := framed.opening_lt
    simp only [blockAt] at order start
    have body : s.AllClosed (opening + 1) closing :=
      allClosed_of_balanced (by omega) framed.balanced
    rw [blockChildren] at inner
    split at inner
    · cases inner
    split at inner
    · cases inner
    · exact ih _ (by omega) (by omega) body rfl inner
  · obtain ⟨framed, ends⟩ := framed_blockAt inside bound solid opens closes
    have order := framed.opening_lt
    simp only [blockAt] at order start
    exact ih _ (by omega) bound (closed.later (by omega)) rfl later

theorem blockChildren_ne_unterminated (bound : closing ≤ s.size)
    (body : Balanced .openBrace .closeBrace (s.tokens ⟨opening + 1, closing⟩)) :
    s.blockChildren limit depth i opening closing ≠ .error (.unterminated position) := by
  unfold blockChildren
  split
  · nofun
  split
  · nofun
  · exact scanFrom_ne_unterminated bound (allClosed_of_balanced bound body)

/-! ## Segments at the top level -/

/-- A scan from token `i` up to `stop` passes over line ends, lines and blocks and comes to a line
or block that begins at token `j`. -/
inductive ComesTo (s : Source) (stop : Nat) : Nat → Nat → Prop
  | here {i : Nat} (inside : i < stop) (solid : s.token? i ≠ some .newline) : s.ComesTo stop i i
  | newline {i j : Nat} (inside : i < stop) (newline : s.token? i = some .newline)
    (rest : s.ComesTo stop (i + 1) j) : s.ComesTo stop i j
  | line {i j : Nat} (inside : i < stop) (solid : s.token? i ≠ some .newline)
    (opens : s.openingBrace ⟨i, s.lineEnd i stop⟩ stop = none)
    (rest : s.ComesTo stop (s.lineEnd i stop) j) : s.ComesTo stop i j
  | block {i j opening closing : Nat} (inside : i < stop) (solid : s.token? i ≠ some .newline)
    (opens : s.openingBrace ⟨i, s.lineEnd i stop⟩ stop = some opening)
    (closes : s.matching opening stop .openBrace .closeBrace = some closing)
    (rest : s.ComesTo stop (closing + 1) j) : s.ComesTo stop i j

/-- The header of a block begins at token `i` in what is scanned up to `stop`, and has its brace at
token `opening`. -/
structure Heads (s : Source) (stop i opening : Nat) : Prop where
  inside : i < stop
  solid : s.token? i ≠ some .newline
  opens : s.openingBrace ⟨i, s.lineEnd i stop⟩ stop = some opening

/-- A block that a scan reports as unclosed begins where the scan comes to, on the level where it
begins, and its brace has no partner. -/
theorem comesTo_of_unterminated (bound : stop ≤ s.size)
    (failed : s.scanFrom limit depth i stop = .error (.unterminated position)) :
    s.ComesTo stop i position ∧ ∃ opening, s.Heads stop position opening ∧
      s.matching opening stop .openBrace .closeBrace = none := by
  induction size : stop - i using Nat.strongRecOn generalizing i with
  | ind n ih =>
  obtain ⟨inside, ⟨newline, later⟩ | ⟨solid, step⟩⟩ := scanFrom_fails failed
  · obtain ⟨comes, header⟩ := ih _ (by omega) later rfl
    exact ⟨.newline inside newline comes, header⟩
  have ahead := lineEnd_gt inside fun here => solid (holds_newline.1 here)
  rcases step with ⟨none, later⟩ | ⟨opening, opens, ⟨open_, same⟩ | ⟨closing, closes, step⟩⟩
  · obtain ⟨comes, header⟩ := ih _ (by omega) later rfl
    exact ⟨.line inside solid none comes, header⟩
  · cases same
    exact ⟨.here inside solid, opening, ⟨inside, solid, opens⟩, open_⟩
  obtain ⟨framed, ends⟩ := framed_blockAt inside bound solid opens closes
  have first := framed.start_le
  have order := framed.opening_lt
  simp only [blockAt] at first order
  rcases step with inner | later
  · exact absurd inner (blockChildren_ne_unterminated (by omega) framed.balanced)
  · obtain ⟨comes, header⟩ := ih _ (by omega) later rfl
    exact ⟨.block inside solid opens closes comes, header⟩

/-- A scan that comes to a block without a closing brace reports it, if it has not come to a block
that is too deep. -/
theorem ComesTo.scanFrom (comes : s.ComesTo stop i j) (bound : stop ≤ s.size)
    (header : s.Heads stop j opening)
    (open_ : s.matching opening stop .openBrace .closeBrace = none) :
    s.scanFrom limit depth i stop = .error (.unterminated j) ∨
      ∃ position, s.scanFrom limit depth i stop = .error (.tooDeep position) := by
  have line {i : Nat} (solid : s.token? i ≠ some .newline) :
      ¬ s.holds i (· == .newline) = true := fun here => solid (holds_newline.1 here)
  induction comes with
  | here inside solid => exact .inl (scanFrom_unterminated inside (line solid) header.opens open_)
  | newline inside newline _ ih =>
    rw [scanFrom_newline inside newline]
    exact ih header
  | line inside solid opens _ ih =>
    rw [scanFrom_line inside (line solid) opens]
    rcases ih header with later | ⟨position, later⟩
    · exact .inl (by rw [later]; rfl)
    · exact .inr ⟨position, by rw [later]; rfl⟩
  | @block i _ opening closing inside solid opens closes _ ih =>
    obtain ⟨framed, ends⟩ := framed_blockAt inside bound solid opens closes
    rw [scanFrom_block inside (line solid) opens closes]
    cases within : s.blockChildren limit depth i opening closing with
    | error fault =>
      cases fault with
      | unterminated position =>
        exact absurd within (blockChildren_ne_unterminated (by omega) framed.balanced)
      | tooDeep position => exact .inr ⟨position, rfl⟩
    | ok children =>
      rcases ih header with later | ⟨position, later⟩
      · exact .inl (by rw [later]; rfl)
      · exact .inr ⟨position, by rw [later]; rfl⟩

/-! ## What is reported -/

/-- The word that tells a block: the first token when it is a word. -/
def keywordAt (s : Source) (i : Nat) : String :=
  match s.token? i with
  | some (.ident word) => word
  | _ => "anonymous"

theorem scan_eq_error {error : ScanError} : s.scan = .error error ↔
    ∃ fault, s.scanWithin (some depthLimit) = .error fault ∧ s.scanError fault = error := by
  unfold scan
  cases s.scanWithin (some depthLimit) with
  | error fault =>
    show Except.error (s.scanError fault) = Except.error error ↔ _
    simp
  | ok segments =>
    show (Except.ok segments : Except ScanError _) = Except.error error ↔ _
    simp

/-- A block is reported as unclosed by its first token when its header stands at the top level and
its brace is closed nowhere in the document. No block is reported when all braces are closed, and
none in a body between braces that close each other. -/
theorem unclosed_reported (s : Source) :
    (s.AllClosed 0 s.size → ∀ keyword location,
      s.scan ≠ .error (.unterminatedBlock keyword location)) ∧
    (∀ keyword location, s.scan = .error (.unterminatedBlock keyword location) →
      ∃ i opening, s.ComesTo s.size 0 i ∧ s.Heads s.size i opening ∧
        ¬ s.IsClosed .openBrace .closeBrace opening s.size ∧
        keyword = s.keywordAt i ∧ location = s.location i) ∧
    (∀ i opening, s.ComesTo s.size 0 i → s.Heads s.size i opening →
      ¬ s.IsClosed .openBrace .closeBrace opening s.size →
      s.scan = .error (.unterminatedBlock (s.keywordAt i) (s.location i)) ∨
        ∃ location, s.scan = .error (.tooDeep location)) ∧
    ∀ opening closing, closing ≤ s.size →
      Balanced .openBrace .closeBrace (s.tokens ⟨opening + 1, closing⟩) →
      ∀ limit depth position,
        s.scanFrom limit depth (opening + 1) closing ≠ .error (.unterminated position) := by
  have whole : s.size ≤ s.size := Nat.le_refl _
  have partner {i opening : Nat} (header : s.Heads s.size i opening) :
      s.matching opening s.size .openBrace .closeBrace = none ↔
        ¬ s.IsClosed .openBrace .closeBrace opening s.size :=
    matching_eq_none_iff (by decide) whole (openingBrace_isMark header.opens)
  refine ⟨fun closed keyword location failed => ?_, fun keyword location failed => ?_,
    fun i opening comes header open_ => ?_,
    fun opening closing bound body limit depth position => ?_⟩
  · obtain ⟨fault, scanned, same⟩ := scan_eq_error.1 failed
    cases fault with
    | unterminated position => exact scanFrom_ne_unterminated whole closed scanned
    | tooDeep position => cases same
  · obtain ⟨fault, scanned, same⟩ := scan_eq_error.1 failed
    cases fault with
    | tooDeep position => cases same
    | unterminated position =>
      cases same
      obtain ⟨comes, opening, header, none⟩ := comesTo_of_unterminated whole scanned
      exact ⟨position, opening, comes, header, (partner header).1 none, rfl, rfl⟩
  · have fails : s.scanFrom (some depthLimit) 0 0 s.size = .error (.unterminated i) ∨
        ∃ position, s.scanFrom (some depthLimit) 0 0 s.size = .error (.tooDeep position) :=
      comes.scanFrom whole header ((partner header).2 open_)
    rcases fails with reported | ⟨position, deep⟩
    · exact .inl (scan_eq_error.2 ⟨_, reported, rfl⟩)
    · exact .inr ⟨_, scan_eq_error.2 ⟨_, deep, rfl⟩⟩
  · exact scanFrom_ne_unterminated bound (allClosed_of_balanced bound body)

/-- A table with a brace in its settings, a closing brace that closes nothing, and a group that is
not closed around a table that is not either. -/
def unclosedText : String :=
  "Table a [x: \x7b] \x7b\n \x7d\n\x7d\nTableGroup g \x7b\n Table t \x7b\n"

theorem unclosed_reported_group : ∃ s, ofString unclosedText = .ok s ∧
    s.scan = .error (.unterminatedBlock "TableGroup" ⟨4, 1⟩) ∧
    ∃ i opening, s.ComesTo s.size 0 i ∧ s.Heads s.size i opening ∧
      ¬ s.IsClosed .openBrace .closeBrace opening s.size ∧
      "TableGroup" = s.keywordAt i ∧ ⟨4, 1⟩ = s.location i := by
  have evaluated : (ofString unclosedText).toOption.bind (fun s =>
      match s.scan with
      | .error error => some error
      | .ok _ => none) = some (.unterminatedBlock "TableGroup" ⟨4, 1⟩) := by decide +kernel
  obtain ⟨s, read, reported⟩ := Option.bind_eq_some_iff.1 evaluated
  have failed : s.scan = .error (.unterminatedBlock "TableGroup" ⟨4, 1⟩) := by
    cases scanned : s.scan with
    | ok segments => rw [scanned] at reported; cases reported
    | error error => rw [scanned] at reported; cases reported; rfl
  exact ⟨s, eq_ok_of_toOption read, failed, (unclosed_reported s).2.1 _ _ failed⟩

end Source

end Dbml
