import Dbml.Note
import Dbml.Proofs.Respacing.Headers
import Dbml.Proofs.Respacing.Parts

/-!
# Segments that move

With more line ends at places where they may be added, a source falls into the same segments, each
of them at its new place. Main statement: `Respaced.scan`.
-/

namespace Dbml

open Segment Source

/-- A block at the place of another one, with the same header; what is read off its body as a whole
is the same. -/
structure SameBlock (s s' : Source) (place : Nat → Nat) (b b' : Block) : Prop where
  kind : b'.kind = b.kind
  start : b'.start = place b.start
  header : b.header.Copied s s' place b'.header
  note : s'.blockNote b' = s.blockNote b
  empty : s'.hasEmptyBody b' = s.hasEmptyBody b

/-- A line that is copied, and has no colon behind it; or a block with the same header and children
that move with it. -/
inductive Relocated (s s' : Source) (place : Nat → Nat) : Segment → Segment → Prop
  | line {range : TokenRange} {d : Nat} (copied : Copied s s' place d range)
    (nonempty : range.start < range.stop) (behind : s.isMark range.stop .colon = false)
    (behind' : s'.isMark (range.stop + d) .colon = false) :
    Relocated s s' place (.line range) (.line (range.shift d))
  | block {b b' : Block} {children children' : List Segment} (same : SameBlock s s' place b b')
    (inner : List.Forall₂ (Relocated s s' place) children children') :
    Relocated s s' place (.block b children) (.block b' children')

/-! ## What a scan has found -/

namespace Source

variable {s : Source} {limit : Option Nat} {depth i stop opening closing : Nat}
  {segments children rest : List Segment}

theorem openingBrace_of_line {line : TokenRange} (inside : i < stop)
    (solid : s.token? i ≠ some .newline)
    (scanned : s.scanFrom limit depth i stop = .ok (.line line :: rest)) :
    s.openingBrace ⟨i, s.lineEnd i stop⟩ stop = none := by
  have first : ¬ s.holds i (· == .newline) = true := fun here => solid (holds_newline.1 here)
  cases opens : s.openingBrace ⟨i, s.lineEnd i stop⟩ stop with
  | none => rfl
  | some opening =>
    exfalso
    cases closes : s.matching opening stop .openBrace .closeBrace with
    | none => rw [scanFrom_unterminated inside first opens closes] at scanned; cases scanned
    | some closing =>
      rw [scanFrom_block inside first opens closes] at scanned
      cases within : s.blockChildren limit depth i opening closing with
      | error fault => rw [within] at scanned; cases scanned
      | ok children =>
        cases later : s.scanFrom limit depth (closing + 1) stop with
        | error fault => rw [within, later] at scanned; cases scanned
        | ok behind => rw [within, later] at scanned; cases scanned

/-- The braces of the blocks in the body of a block. -/
theorem blockChildren_braces {x : Block} {around : Option Block} (bound : closing ≤ s.size)
    (within : s.blockChildren limit depth i opening closing = .ok children)
    (listed : HasBlock (places around children) x) :
    opening + 1 ≤ x.opening ∧ x.opening < x.closing ∧ x.closing < closing := by
  rcases blockChildren_eq_ok.1 within with ⟨-, rfl⟩ | ⟨-, -, scanned⟩
  · obtain ⟨place, there, -⟩ := listed
    cases there
  · exact (partition_of_scanFrom bound scanned).braces around listed

theorem newlines_of_find? {a : Nat} (found : s.find? ⟨i, stop⟩ (· != .newline) = some a) :
    s.Newlines i a := by
  induction size : stop - i generalizing i with
  | zero =>
    have bounds := find?_bounds found
    simp only at bounds
    omega
  | succ n ih =>
    rw [find?_of_lt (by omega)] at found
    split at found
    next here =>
      cases found
      exact fun k low high => absurd high (Nat.not_lt.2 low)
    next here =>
      intro k low high
      rcases Nat.lt_or_eq_of_le low with later | rfl
      · exact ih found (by omega) k later high
      · have bounds := find?_bounds found
        simp only at bounds
        obtain ⟨u, there, -⟩ := (Option.any_eq_true _ _).1 bounds.2.2
        obtain ⟨t, token⟩ := exists_token? (Nat.lt_trans high (lt_size_of_token? there))
        rw [holds_of_token? token, bne_iff_ne, ne_eq, Decidable.not_not] at here
        rw [token, here]

end Source

namespace Respaced

variable {s s' : Source} {shift : Nat → Nat} {i j stop opening closing : Nat}

/-- Tokens of which none is parted from the next are moved by the same number. -/
theorem whole_of_unparted (unparted : ∀ k, i ≤ k → k + 1 < stop → shift k = shift (k + 1)) :
    ∀ k, i ≤ k → k < stop → shift k = shift i := by
  intro k low high
  induction low with
  | refl => rfl
  | @step k low ih => rw [← unparted k low high, ih (Nat.lt_of_succ_lt high)]

variable (respaced : Respaced s s' shift)

include respaced

/-! ## Lines -/

/-- A line that is copied ends at its new place, if something does end it. -/
theorem lineEnd (nonempty : i < j) (bound : j ≤ stop) (inside : stop ≤ s.size)
    (whole : ∀ k, i ≤ k → k < j → shift k = shift i)
    (line : ∀ k, i ≤ k → k < j → s.token? k ≠ some .newline)
    (ends : j = stop ∨ s.token? j = some .newline ∨ shift j ≠ shift i) :
    s'.lineEnd (i + shift i) (stop + shift stop) = j + shift i := by
  have order := respaced.shift_le (Nat.le_of_lt nonempty)
  have later := respaced.shift_le bound
  have line' : ∀ k, i + shift i ≤ k → k < j + shift i → s'.token? k ≠ some .newline := by
    intro k low high
    obtain ⟨m, rfl⟩ : ∃ m, k = m + shift i := ⟨k - shift i, by omega⟩
    rw [← whole m (by omega) (by omega), respaced.token]
    exact line m (by omega) (by omega)
  by_cases last : j + shift i = stop + shift stop
  · rw [last] at line' ⊢
    exact Nat.le_antisymm lineEnd_le (le_lineEnd (by omega) (Nat.le_refl _) line')
  · refine lineEnd_eq_of_newline (by omega) (by omega) line' ?_
    by_cases parted : shift j = shift i
    · rcases ends with rfl | newline | differ
      · exact absurd (by rw [parted]) last
      · rw [← parted, respaced.token, newline]
      · exact absurd parted differ
    · exact respaced.newlines_behind nonempty whole _ (Nat.le_refl _) (by omega)

/-- The brace that opens a block behind a line without one is found at its new place. -/
theorem openingBrace_nextLine (nonempty : i < j) (bound : j ≤ s.size) (order : j ≤ stop)
    (whole : ∀ k, i ≤ k → k < j → shift k = shift i)
    (absent : s.outsideSettings ⟨i, j⟩ .openBrace = none) :
    s'.openingBrace ⟨i + shift i, j + shift i⟩ (stop + shift stop) =
      (s.openingBrace ⟨i, j⟩ stop).map fun k => k + shift k := by
  have copied := respaced.copied bound whole
  have absent' := copied.outsideSettings .openBrace
  rw [absent] at absent'
  have next := respaced.braceOnNextLine nonempty bound order whole
  rw [openingBrace, openingBrace, next, absent]
  rw [show s'.outsideSettings ⟨i + shift i, j + shift i⟩ .openBrace = none from absent']
  rfl

/-- So is one on the line, even when line ends are added before it. -/
theorem openingBrace_sameLine (bound : stop ≤ s.size)
    (found : s.outsideSettings ⟨i, s.lineEnd i stop⟩ .openBrace = some opening)
    (whole : ∀ k, i ≤ k → k < opening → shift k = shift i)
    (parted : shift opening ≠ shift i →
      (s.kindAt i).isOther = false ∧ s.outsideSettings ⟨i, opening⟩ .colon = none) :
    s'.openingBrace ⟨i + shift i, s'.lineEnd (i + shift i) (stop + shift stop)⟩
      (stop + shift stop) = some (opening + shift opening) := by
  have bounds := findOutside?_bounds found
  simp only at bounds
  have ends : s.lineEnd i stop ≤ stop := lineEnd_le
  have line : ∀ k, i ≤ k → k < opening + 1 → s.token? k ≠ some .newline :=
    fun k low high => @token?_ne_newline_of_lt_lineEnd s i stop k low (by omega)
  obtain ⟨absent, only⟩ := outsideSettings_shorter found
  by_cases unbroken : shift opening = shift i
  · have whole' : ∀ k, i ≤ k → k < opening + 1 → shift k = shift i := by
      intro k low high
      rcases Nat.lt_or_eq_of_le (Nat.le_of_lt_succ high) with before | rfl
      · exact whole k low before
      · exact unbroken
    have copied := respaced.copied (by omega) whole'
    have only' := copied.outsideSettings .openBrace
    rw [only] at only'
    have long : opening + 1 + shift i ≤ s'.lineEnd (i + shift i) (stop + shift stop) := by
      have := respaced.shift_le (i := i) (j := stop) (by omega)
      refine le_lineEnd (by omega) (by omega) fun k low high => ?_
      obtain ⟨m, rfl⟩ : ∃ m, k = m + shift i := ⟨k - shift i, by omega⟩
      rw [← whole' m (by omega) (by omega), respaced.token]
      exact line m (by omega) (by omega)
    rw [Source.openingBrace, outsideSettings_longer long only', unbroken]
    rfl
  · have some_token : i < opening := by
      refine Nat.lt_of_le_of_ne bounds.1 fun same => unbroken ?_
      rw [same]
    obtain ⟨known, plain⟩ := parted unbroken
    have here : s.openingBrace ⟨i, opening⟩ stop = some opening := by
      have opens : s.openingBrace ⟨i, s.lineEnd i stop⟩ stop = some opening := by
        rw [Source.openingBrace, found]
        rfl
      have brace := openingBrace_isMark opens
      have first : s.find? ⟨opening, stop⟩ (· != .newline) = some opening := by
        rw [find?_of_lt (by omega), holds_of_token? (isMark_iff_token?.1 brace)]
        rfl
      rw [Source.openingBrace, absent, Source.braceOnNextLine, known, plain]
      simp [first, brace]
    have line' := respaced.lineEnd some_token (by omega) bound whole
      (fun k low high => line k low (Nat.lt_succ_of_lt high)) (.inr (.inr unbroken))
    rw [line', respaced.openingBrace_nextLine some_token (by omega) (by omega) whole absent, here]
    rfl

/-- The tokens of a block's header on its first line are copied, behind them stand line ends, and
the brace is found at its new place. -/
theorem exists_header (inside : i < stop) (bound : stop ≤ s.size)
    (line : s.token? i ≠ some .newline)
    (opens : s.openingBrace ⟨i, s.lineEnd i stop⟩ stop = some opening) (before : opening < stop)
    (unparted : ∀ k, i ≤ k → k + 1 < opening → s.token? k ≠ some .newline →
      shift k = shift (k + 1))
    (parted : ∀ k, i ≤ k → k + 1 = opening → s.token? k ≠ some .newline →
      shift k ≠ shift (k + 1) →
      (s.kindAt i).isOther = false ∧ s.outsideSettings ⟨i, opening⟩ .colon = none) :
    ∃ j, i ≤ j ∧ j ≤ opening ∧ (i < j ∨ j = opening) ∧
      (∀ k, i ≤ k → k < j → shift k = shift i) ∧ s.Newlines j opening ∧
      s'.openingBrace ⟨i + shift i, s'.lineEnd (i + shift i) (stop + shift stop)⟩
        (stop + shift stop) = some (opening + shift opening) := by
  have ahead := lineEnd_gt inside fun here => line (holds_newline.1 here)
  have ends : s.lineEnd i stop ≤ stop := lineEnd_le
  have solid (k : Nat) (low : i ≤ k) (high : k < s.lineEnd i stop) :=
    token?_ne_newline_of_lt_lineEnd low high
  rcases Option.or_eq_some_iff.1 opens with found | ⟨absent, next⟩
  · -- The brace stands on the first line.
    have bounds := findOutside?_bounds found
    simp only at bounds
    have whole : ∀ k, i ≤ k → k < opening → shift k = shift i :=
      whole_of_unparted fun k low high => unparted k low high (solid k low (by omega))
    refine ⟨opening, bounds.1, Nat.le_refl _, .inr rfl, whole,
      fun k low high => absurd high (Nat.not_lt.2 low),
      respaced.openingBrace_sameLine bound found whole fun differ => ?_⟩
    rcases Nat.lt_or_eq_of_le bounds.1 with some_token | rfl
    · refine parted (opening - 1) (by omega) (by omega) (solid _ (by omega) (by omega)) ?_
      rw [whole (opening - 1) (by omega) (by omega), Nat.sub_add_cancel (by omega)]
      exact Ne.symm differ
    · exact absurd rfl differ
  · -- Only line ends stand between the first line and the brace.
    have found : s.find? ⟨s.lineEnd i stop, stop⟩ (· != .newline) = some opening := by
      unfold Source.braceOnNextLine at next
      split at next
      · cases next
      · exact (Option.filter_eq_some_iff.1 next).1
    have bounds := find?_bounds found
    simp only at bounds
    have whole : ∀ k, i ≤ k → k < s.lineEnd i stop → shift k = shift i :=
      whole_of_unparted fun k low high => unparted k low (by omega) (solid k low (by omega))
    have newline : s.token? (s.lineEnd i stop) = some .newline := token?_lineEnd (by omega)
    have line' := respaced.lineEnd ahead ends bound whole solid (.inr (.inl newline))
    refine ⟨_, Nat.le_of_lt ahead, bounds.1, .inl ahead, whole, newlines_of_find? found, ?_⟩
    rw [line', respaced.openingBrace_nextLine ahead (Nat.le_trans ends bound) ends whole absent,
      opens]
    rfl

/-! ## Blocks -/

/-- The header of a block whose first line, as far as the brace, is copied. -/
theorem header (order : i ≤ j) (before : j ≤ opening) (bound : opening ≤ s.size)
    (some_token : i < j ∨ j = opening)
    (whole : ∀ k, i ≤ k → k < j → shift k = shift i) (newlines : s.Newlines j opening)
    (kind : BlockKind) :
    Header.Copied s s' (fun k => k + shift k) (s.header kind ⟨i + 1, opening⟩)
      (s'.header kind ⟨i + shift i + 1, opening + shift opening⟩) := by
  have copied := respaced.copied (Nat.le_trans before bound) whole
  have part := copied.between (i := i + 1) (Nat.le_succ i) (Nat.le_refl _)
  have newlines' : s'.Newlines (j + shift i) (opening + shift opening) := by
    by_cases nonempty : i < j
    · exact (respaced.newlines_behind nonempty whole).append (respaced.newlines_of newlines before)
    · rcases some_token with less | rfl
      · exact absurd less nonempty
      · rw [show i = j by omega]
        exact fun k low high => absurd high (Nat.not_lt.2 low)
  have order' : j + shift i ≤ opening + shift opening :=
    Nat.add_le_add before (respaced.shift_le (Nat.le_trans order before))
  rw [header_newlines newlines before, header_newlines newlines' order', Nat.add_right_comm]
  exact part.header kind

theorem blockNote {b b' : Block} (order : b.opening < b.closing) (inside : b.closing ≤ s.size)
    (opens : b'.opening = b.opening + shift b.opening)
    (closes : b'.closing = b.closing + shift b.closing) : s'.blockNote b' = s.blockNote b := by
  have later := respaced.shift_le (i := b.opening + 1) order
  have mono := respaced.mono b.opening
  rw [Source.blockNote, Source.blockNote, Block.body, Block.body, opens, closes,
    findSome?_tokens_newlines (respaced.newlines b.opening) (by omega) (by omega) rfl,
    respaced.findSome?_tokens order inside rfl]

/-- A body without a byte stays so when its braces are not parted. -/
theorem hasEmptyBody {b b' : Block} (order : b.opening < b.closing) (inside : b.closing < s.size)
    (opens : b'.opening = b.opening + shift b.opening)
    (closes : b'.closing = b.closing + shift b.closing)
    (unparted : s.hasEmptyBody b = true → b.closing = b.opening + 1 →
      shift b.closing = shift b.opening) : s'.hasEmptyBody b' = s.hasEmptyBody b := by
  obtain ⟨a, first⟩ := exists_span? (s := s) (i := b.opening) (by omega)
  obtain ⟨c, last⟩ := exists_span? inside
  have apart := respaced.apart _ _ a c order first last
  have more := respaced.shift_le (Nat.le_of_lt order)
  have here : s.hasEmptyBody b = (a.stop == c.start) := by
    simp only [Source.hasEmptyBody, first, last]
  have there : s'.hasEmptyBody b' =
      (a.stop + shift b.opening == c.start + shift b.closing) := by
    simp only [Source.hasEmptyBody, opens, closes, respaced.span? first, respaced.span? last]
  rw [there, here, Bool.eq_iff_iff, beq_iff_eq, beq_iff_eq]
  refine ⟨fun same => by omega, fun same => ?_⟩
  -- No token stands between the braces.
  have next : b.closing = b.opening + 1 := by
    refine Nat.le_antisymm (Nat.not_lt.1 fun later => ?_) order
    obtain ⟨m, between⟩ := exists_span? (s := s) (i := b.opening + 1) (by omega)
    have low := respaced.apart _ _ a m (Nat.lt_succ_self _) first between
    have high := respaced.apart _ _ m c later between last
    have wide := respaced.solid _ m between
    omega
  rw [same, unparted (by rw [here, same]; exact beq_self_eq_true _) next]

end Respaced

/-! ## A whole scan -/

/-- Where the first source is cut into the segments, the second one is cut into the same ones at
their new places. -/
def ScanMoves (s s' : Source) (shift : Nat → Nat) (limit : Option Nat) (depth i stop : Nat)
    (segments : List Segment) : Prop :=
  ∃ segments', s'.scanFrom limit depth (i + shift i) (stop + shift stop) = .ok segments' ∧
    List.Forall₂ (Relocated s s' fun k => k + shift k) segments segments'

namespace Respaced

variable {s s' : Source} {shift : Nat → Nat} {limit : Option Nat}
  {depth i j stop opening closing : Nat} {children rest : List Segment}

variable (respaced : Respaced s s' shift)

include respaced

/-- Line ends in front are passed over. -/
theorem scanMoves_behind {segments : List Segment} (inside : i < stop)
    (moves : ScanMoves s s' shift limit depth (i + 1) stop segments) :
    ∃ segments', s'.scanFrom limit depth (i + shift i + 1) (stop + shift stop) = .ok segments' ∧
      List.Forall₂ (Relocated s s' fun k => k + shift k) segments segments' := by
  have mono := respaced.mono i
  have later := respaced.shift_le (i := i + 1) inside
  rwa [scanFrom_newlines (respaced.newlines i) (by omega) (by omega)]

theorem scanMoves_line (inside : i < stop) (bound : stop ≤ s.size)
    (line : s.token? i ≠ some .newline)
    (opens : s.openingBrace ⟨i, s.lineEnd i stop⟩ stop = none)
    (whole : ∀ k, i ≤ k → k < s.lineEnd i stop → shift k = shift i)
    (closed : s.isMark stop .colon = false)
    (later : ScanMoves s s' shift limit depth (s.lineEnd i stop) stop rest) :
    ScanMoves s s' shift limit depth i stop (.line ⟨i, s.lineEnd i stop⟩ :: rest) := by
  have ahead := lineEnd_gt inside fun here => line (holds_newline.1 here)
  have ends : s.lineEnd i stop ≤ stop := lineEnd_le
  have last : s.lineEnd i stop = stop ∨ s.token? (s.lineEnd i stop) = some .newline := by
    rcases Nat.lt_or_eq_of_le ends with less | same
    · exact .inr (token?_lineEnd less)
    · exact .inl same
  have line' := respaced.lineEnd ahead ends bound whole
    (fun k low high => token?_ne_newline_of_lt_lineEnd low high) (last.imp_right .inl)
  have first : ¬ s'.holds (i + shift i) (· == .newline) = true := by
    rw [holds_newline, respaced.token]
    exact line
  have absent := (Option.or_eq_none_iff.1 opens).1
  have opens' := respaced.openingBrace_nextLine ahead (Nat.le_trans ends bound) ends whole absent
  rw [opens] at opens'
  obtain ⟨rest', scanned, moved⟩ := later
  have order := respaced.shift_le (Nat.le_of_lt ahead)
  have order' := respaced.shift_le ends
  have behind : s.isMark (s.lineEnd i stop) .colon = false := by
    rcases last with same | newline
    · rw [same, closed]
    · rw [isMark_of_token? newline]
      rfl
  have behind' : s'.isMark (s.lineEnd i stop + shift i) .colon = false := by
    rcases Nat.lt_or_eq_of_le order with less | same
    · exact (respaced.newlines_behind ahead whole).isMark (Nat.le_refl _) (by omega) _
    · rw [same, respaced.isMark, behind]
  refine ⟨.line ⟨i + shift i, s.lineEnd i stop + shift i⟩ :: rest', ?_, .cons ?_ moved⟩
  · rw [scanFrom_line (respaced.place_lt inside) first (by rw [line']; exact opens'), line',
      scanFrom_newlines (respaced.newlines_behind ahead whole) (by omega) (by omega), scanned]
    rfl
  · exact .line (respaced.copied (Nat.le_trans ends bound) whole)
      ahead behind behind'

/-- What the second source has of a block, if its braces and its header are where they should be. -/
theorem sameBlock (framed : Framed s (s.blockAt i opening closing)) (inside : closing < s.size)
    (header : Header.Copied s s' (fun k => k + shift k)
      (s.header (s.kindAt i) ⟨i + 1, opening⟩)
      (s'.header (s.kindAt i) ⟨i + shift i + 1, opening + shift opening⟩))
    (unparted : s.hasEmptyBody (s.blockAt i opening closing) = true → closing = opening + 1 →
      shift closing = shift opening) :
    SameBlock s s' (fun k => k + shift k) (s.blockAt i opening closing)
      (s'.blockAt (i + shift i) (opening + shift opening) (closing + shift closing)) where
  kind := respaced.kindAt i
  start := rfl
  header := by
    simp only [blockAt, respaced.kindAt]
    exact header
  note := respaced.blockNote framed.opening_lt (Nat.le_of_lt inside) rfl rfl
  empty := respaced.hasEmptyBody framed.opening_lt inside rfl rfl unparted

theorem scanMoves_block (inside : i < stop)
    (line : s.token? i ≠ some .newline)
    (closes : s.matching opening stop .openBrace .closeBrace = some closing)
    (order : opening < closing)
    (opens' : s'.openingBrace ⟨i + shift i, s'.lineEnd (i + shift i) (stop + shift stop)⟩
      (stop + shift stop) = some (opening + shift opening))
    (same : SameBlock s s' (fun k => k + shift k) (s.blockAt i opening closing)
      (s'.blockAt (i + shift i) (opening + shift opening) (closing + shift closing)))
    (within : (s.kindAt i).isOther = true ∧ children = [] ∨
      (s.kindAt i).isOther = false ∧ limit.any (· < depth + 1) = false ∧
        ScanMoves s s' shift limit (depth + 1) (opening + 1) closing children)
    (later : ScanMoves s s' shift limit depth (closing + 1) stop rest) :
    ScanMoves s s' shift limit depth i stop
      (.block (s.blockAt i opening closing) children :: rest) := by
  have first : ¬ s'.holds (i + shift i) (· == .newline) = true := by
    rw [holds_newline, respaced.token]
    exact line
  obtain ⟨children', within', inner⟩ : ∃ children',
      s'.blockChildren limit depth (i + shift i) (opening + shift opening)
        (closing + shift closing) = .ok children' ∧
      List.Forall₂ (Relocated s s' fun k => k + shift k) children children' := by
    simp only [blockChildren_eq_ok, respaced.kindAt]
    rcases within with ⟨other, rfl⟩ | ⟨known, shallow, moves⟩
    · exact ⟨[], .inl ⟨other, rfl⟩, .nil⟩
    · obtain ⟨children', scanned, moved⟩ := respaced.scanMoves_behind order moves
      exact ⟨children', .inr ⟨known, shallow, scanned⟩, moved⟩
  obtain ⟨rest', scanned, moved⟩ := respaced.scanMoves_behind (matching_bounds closes).2.1 later
  refine ⟨_, ?_, .cons (.block same inner) moved⟩
  rw [scanFrom_block (respaced.place_lt inside) first opens' (respaced.matching closes), within',
    scanned]
  rfl

/-- A block at whose braces line ends are added only where they may be is found at its new place. -/
theorem sameBlock_of_near {around : Option Block} (inside : i < stop) (bound : stop ≤ s.size)
    (line : s.token? i ≠ some .newline)
    (opens : s.openingBrace ⟨i, s.lineEnd i stop⟩ stop = some opening)
    (framed : Framed s (s.blockAt i opening closing)) (ends : closing < stop)
    (near : ∀ k, i ≤ k → k + 1 < stop → shift k ≠ shift (k + 1) →
      NearBlock s around (s.blockAt i opening closing) children rest k) :
    s'.openingBrace ⟨i + shift i, s'.lineEnd (i + shift i) (stop + shift stop)⟩
        (stop + shift stop) = some (opening + shift opening) ∧
      SameBlock s s' (fun k => k + shift k) (s.blockAt i opening closing)
        (s'.blockAt (i + shift i) (opening + shift opening) (closing + shift closing)) := by
  have start : i ≤ opening := framed.start_le
  have order : opening < closing := framed.opening_lt
  -- In the header line ends are added behind others, and before the brace of a known block.
  have unparted : ∀ k, i ≤ k → k + 1 < opening → s.token? k ≠ some .newline →
      shift k = shift (k + 1) := fun k low high solid =>
    Decidable.not_not.1 fun differ => by
      cases near k low (by omega) differ with
      | line newline => exact solid newline
      | header known plain next => simp only [blockAt] at next; omega
      | body filled touching => simp only [blockAt] at touching; omega
      | inside low => simp only [blockAt] at low; omega
      | behind low => simp only [blockAt] at low; omega
  have parted : ∀ k, i ≤ k → k + 1 = opening → s.token? k ≠ some .newline →
      shift k ≠ shift (k + 1) →
      (s.kindAt i).isOther = false ∧ s.outsideSettings ⟨i, opening⟩ .colon = none :=
    fun k low next solid differ => by
      cases near k low (by omega) differ with
      | line newline => exact absurd newline solid
      | header known plain _ => exact ⟨known, plain⟩
      | body filled touching => simp only [blockAt] at touching; omega
      | inside low => simp only [blockAt] at low; omega
      | behind low => simp only [blockAt] at low; omega
  -- A body without a byte gets no line ends.
  have empty : s.hasEmptyBody (s.blockAt i opening closing) = true → closing = opening + 1 →
      shift closing = shift opening := fun none next =>
    Decidable.not_not.1 fun differ => by
      subst next
      cases near opening (by omega) (by omega) (Ne.symm differ) with
      | line newline => rw [show s.token? opening = _ from framed.opens] at newline; cases newline
      | header known plain next => simp only [blockAt] at next; omega
      | body filled touching => rw [filled] at none; cases none
      | inside low high => simp only [blockAt] at high; omega
      | behind low => simp only [blockAt] at low; omega
  obtain ⟨j, first, before, some_token, whole, newlines, opens'⟩ :=
    respaced.exists_header inside bound line opens (Nat.lt_trans order ends) unparted parted
  have header := respaced.header first before (by omega) some_token whole newlines (s.kindAt i)
  exact ⟨opens', respaced.sameBlock framed (by omega) header empty⟩

/-- Line ends where they may be added do not change how a range is cut. -/
theorem scanMoves (around : Option Block) {segments : List Segment} (bound : stop ≤ s.size)
    (scanned : s.scanFrom limit depth i stop = .ok segments)
    (parted : ∀ k, i ≤ k → k + 1 < stop → shift k ≠ shift (k + 1) →
      s.MayPart (places around segments) k)
    (closed : s.isMark stop .colon = false) :
    ScanMoves s s' shift limit depth i stop segments := by
  -- Every step leaves fewer tokens, those of a block's body included.
  induction size : stop - i using Nat.strongRecOn generalizing depth i stop around segments with
  | ind n ih =>
  rcases scanFrom_cases scanned with ⟨done, rfl⟩ | ⟨inside, newline, rest⟩ |
    ⟨inside, line, rest, later, rfl⟩ |
    ⟨inside, line, opening, closing, children, rest, opens, closes, within, later, rfl⟩
  · have := respaced.shift_le (Nat.not_lt.1 done)
    exact ⟨[], scanFrom_end (by omega), .nil⟩
  · have moves := ih _ (by omega) around bound rest
      (fun k low high => parted k (by omega) high) closed rfl
    rw [ScanMoves, scanFrom_newline (respaced.place_lt inside) (by rw [respaced.token, newline])]
    exact respaced.scanMoves_behind inside moves
  · have ahead := lineEnd_gt inside fun here => line (holds_newline.1 here)
    have behind := partition_of_scanFrom bound later
    have whole : ∀ k, i ≤ k → k < s.lineEnd i stop → shift k = shift i :=
      whole_of_unparted fun k low high => Decidable.not_not.1 fun differ =>
        token?_ne_newline_of_lt_lineEnd low (Nat.lt_of_succ_lt high)
          ((parted k low (Nat.lt_of_lt_of_le high lineEnd_le) differ).newline fun x listed => by
            have := behind.braces around (hasBlock_line.1 listed)
            simp only at this
            omega)
    refine respaced.scanMoves_line inside bound line (openingBrace_of_line inside line scanned)
      whole closed (ih _ (by omega) around bound later (fun k low high differ => ?_) closed rfl)
    exact (parted k (by omega) high differ).restrict fun x listed _ => hasBlock_line.1 listed
  · obtain ⟨framed, ends⟩ := framed_blockAt inside bound line opens closes
    have start : i ≤ opening := framed.start_le
    have order : opening < closing := framed.opening_lt
    have body : closing ≤ s.size := by omega
    have near (k : Nat) (low : i ≤ k) (high : k + 1 < stop) (differ : shift k ≠ shift (k + 1)) :
        NearBlock s around (s.blockAt i opening closing) children rest k :=
      (parted k low high differ).near
        (fun x listed => blockChildren_braces body within listed)
        (fun x listed => by
          have := (partition_of_scanFrom bound later).braces around listed
          exact ⟨this.1, this.2.1⟩)
    obtain ⟨opens', same⟩ :=
      respaced.sameBlock_of_near inside bound line opens framed ends near
    refine respaced.scanMoves_block inside line closes order opens' same ?_
      (ih _ (by omega) around bound later (fun k low high differ => ?_) closed rfl)
    · refine (blockChildren_eq_ok.1 within).imp_right fun ⟨known, shallow, scanned⟩ =>
        ⟨known, shallow, ih _ (by omega) (some (s.blockAt i opening closing)) (by omega) scanned
          (fun k low high differ => ?_) ((isMark_of_token? framed.closes _).trans rfl) rfl⟩
      cases near k (by omega) (by omega) differ with
      | line newline => exact .line newline
      | header known plain next => simp only [blockAt] at next; omega
      | body filled touching => simp only [blockAt] at touching; omega
      | inside _ _ may => exact may
      | behind low => simp only [blockAt] at low; omega
    · cases near k (by omega) high differ with
      | line newline => exact .line newline
      | header known plain next => simp only [blockAt] at next; omega
      | body filled touching => simp only [blockAt] at touching; omega
      | inside _ high => simp only [blockAt] at high; omega
      | behind _ may => exact may

/-- The second source has as many tokens more as there are line ends added. -/
theorem size : s'.size = s.size + shift s.size := by
  refine Nat.le_antisymm ?_ (Nat.not_lt.1 fun less => ?_)
  · have none : s.lexemes[s.size]? = none := Array.getElem?_eq_none (Nat.le_refl _)
    exact Array.getElem?_eq_none_iff.1 ((respaced.lexeme s.size).trans (by rw [none]; rfl))
  · -- The last of them all is the last token, or a line end that was added.
    have last : ∃ t, s'.token? (s.size + shift s.size - 1) = some t := by
      cases size : s.size with
      | zero =>
        rw [size] at less
        exact ⟨_, respaced.before _ (by omega)⟩
      | succ n =>
        by_cases parted : shift (n + 1) = shift n
        · obtain ⟨t, here⟩ := exists_token? (s := s) (i := n) (by omega)
          refine ⟨t, ?_⟩
          rw [parted, Nat.add_right_comm, Nat.add_sub_cancel, respaced.token, here]
        · have := respaced.mono n
          exact ⟨_, respaced.between n _ (by omega) (by omega)⟩
    obtain ⟨t, here⟩ := last
    have := lt_size_of_token? here
    omega

/-- Line ends where they may be added leave a source that falls into the same segments. -/
theorem scan {segments : List Segment} (scanned : s.scan = .ok segments)
    (parted : ∀ k, shift k ≠ shift (k + 1) → s.MayPart (places none segments) k) :
    ∃ segments', s'.scan = .ok segments' ∧
      List.Forall₂ (Relocated s s' fun k => k + shift k) segments segments' := by
  have closed : s.isMark s.size .colon = false := by
    rw [Source.isMark, Option.not_isSome_iff_eq_none.1 fun there =>
      Nat.lt_irrefl _ (token?_isSome.1 there)]
    rfl
  obtain ⟨segments', moves, moved⟩ := respaced.scanMoves none (Nat.le_refl s.size)
    (scan_eq_ok.1 scanned) (fun k _ _ => parted k) closed
  have front : s'.Newlines 0 (0 + shift 0) := fun k _ high => respaced.before k (by omega)
  have order := respaced.shift_le (Nat.zero_le s.size)
  refine ⟨segments', scan_eq_ok.2 ?_, moved⟩
  rw [scanWithin, respaced.size, scanFrom_newlines front (by omega) (by omega), moves]

end Respaced

end Dbml
