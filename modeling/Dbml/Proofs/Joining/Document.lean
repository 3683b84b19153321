import Dbml.Proofs.Joining.Scanning
import Dbml.Proofs.Joining.Sources
import Dbml.Proofs.Respacing.Segments

/-!
# Documents on successive lines

A scan does not look over the end of a text on whose last line no block opens, unless the next line
begins with a brace. Main statement: `joined_on_lines`, what is read and scanned of two texts with a
line end between them.
-/

namespace Dbml

open Text
open Token (behindLast)

namespace ScanError

/-- The error a number of lines further down. -/
def below (lines : Nat) : ScanError → ScanError
  | .unterminatedBlock keyword location => .unterminatedBlock keyword (location.below lines)
  | .tooDeep location => .tooDeep (location.below lines)

end ScanError

namespace Source

variable {s a b : Source} {i j stop depth : Nat} {limit : Option Nat} {range : TokenRange}

/-- The first token that is no line end is an opening brace. -/
def BeginsWithBrace (s : Source) : Prop :=
  ∃ i, s.Newlines 0 i ∧ s.token? i = some (.mark .openBrace)

/-! ## Searches that find something do not look behind it -/

theorem find?_longer {p : Token → Bool} (order : range.stop ≤ stop)
    (found : s.find? range p = some j) : s.find? ⟨range.start, stop⟩ p = some j := by
  obtain ⟨start, behind⟩ := range
  induction size : behind - start generalizing start with
  | zero =>
    have bounds := find?_bounds found
    simp only at bounds
    omega
  | succ n ih =>
    simp only at order ⊢
    rw [find?_of_lt (by omega)] at found ⊢
    split at found
    next here => rw [if_pos here]; exact found
    next others => rw [if_neg others]; exact ih (start + 1) order found (by omega)

theorem newlines_of_find?_eq_none (bound : stop ≤ s.size)
    (none : s.find? ⟨i, stop⟩ (· != .newline) = none) : s.Newlines i stop := by
  induction size : stop - i generalizing i with
  | zero => exact fun k low high => absurd high (by omega)
  | succ n ih =>
    rw [find?_of_lt (by omega)] at none
    split at none
    · cases none
    next here =>
      intro k low high
      rcases Nat.lt_or_eq_of_le low with later | rfl
      · exact ih none (by omega) k later high
      · obtain ⟨t, token⟩ := exists_token? (Nat.lt_of_lt_of_le high bound)
        rw [holds_of_token? token, bne_iff_ne, ne_eq, Decidable.not_not] at here
        rw [token, here]

namespace Joined

/-! ## Scans of the first source -/

theorem copied_first (joined : Joined a b s) : Copied a s (· + 0) 0 a.all :=
  joined.embedded_first.copied

theorem token?_first (joined : Joined a b s) (inside : i < a.size) : s.token? i = a.token? i :=
  joined.embedded_first.token? inside

theorem lineEnd_first (joined : Joined a b s) (inside : i < a.size) :
    s.lineEnd i s.size = a.lineEnd i a.size := by
  have last : a.lineEnd i a.size ≤ a.size := lineEnd_le
  have order : i ≤ a.lineEnd i a.size := le_lineEnd_self (Nat.le_of_lt inside)
  have newline : s.token? (a.lineEnd i a.size) = some .newline := by
    rcases Nat.lt_or_eq_of_le last with before | same
    · rw [joined.token?_first before, token?_lineEnd before]
    · rw [same, joined.token?_between]
  refine lineEnd_eq_of_newline order (by rw [joined.size]; omega) (fun k low high => ?_) newline
  rw [joined.token?_first (Nat.lt_of_lt_of_le high last)]
  exact token?_ne_newline_of_lt_lineEnd low high

/-- The next line has a brace in the joined source only where it has one in the first. -/
theorem nextBrace_first (joined : Joined a b s) (apart : ¬ b.BeginsWithBrace)
    (inside : i ≤ a.size) :
    (s.find? ⟨i, s.size⟩ (· != .newline)).filter (s.isMark · .openBrace) =
      (a.find? ⟨i, a.size⟩ (· != .newline)).filter (a.isMark · .openBrace) := by
  have part : Copied a s (· + 0) 0 ⟨i, a.size⟩ :=
    joined.copied_first.between (Nat.zero_le i) (Nat.le_refl _)
  cases found : a.find? ⟨i, a.size⟩ (· != .newline) with
  | some k =>
    have bound : a.size ≤ s.size := by rw [joined.size]; omega
    have there : s.find? ⟨i, a.size⟩ (· != .newline) = some k :=
      (part.find? (· != .newline)).trans (by rw [found]; rfl)
    have brace : s.isMark k .openBrace = a.isMark k .openBrace :=
      part.isMark .openBrace (find?_bounds found).1 (find?_bounds found).2.1
    rw [find?_longer bound there, Option.filter_some, Option.filter_some, brace]
  | none =>
    have newlines : s.Newlines i (a.size + 1) := by
      intro k low high
      rcases Nat.lt_or_eq_of_le (Nat.le_of_lt_succ high) with before | rfl
      · rw [joined.token?_first before]
        exact newlines_of_find?_eq_none (Nat.le_refl _) found k low before
      · exact joined.token?_between
    have behind := joined.embedded_second.copied.find? (· != .newline)
    simp only [TokenRange.shift, all, Nat.zero_add] at behind
    rw [find?_newlines newlines (by omega) (by rw [joined.size]; omega) rfl, joined.size,
      Nat.add_comm _ b.size, behind]
    cases first : b.find? ⟨0, b.size⟩ (· != .newline) with
    | none => rfl
    | some k =>
      have noBrace : ¬ s.isMark (k + (a.size + 1)) .openBrace = true := fun brace =>
        apart ⟨k, newlines_of_find? first, by rw [← joined.token?]; exact isMark_iff_token?.1 brace⟩
      rw [Option.map_some, Option.filter_some, if_neg noBrace]
      rfl

theorem openingBrace_first (joined : Joined a b s) (apart : ¬ b.BeginsWithBrace) (nonempty : i < j)
    (inside : j ≤ a.size) :
    s.openingBrace ⟨i, j⟩ s.size = a.openingBrace ⟨i, j⟩ a.size := by
  have line : Copied a s (· + 0) 0 ⟨i, j⟩ := joined.copied_first.between (Nat.zero_le i) inside
  have outside (mark : Mark) : s.outsideSettings ⟨i, j⟩ mark = a.outsideSettings ⟨i, j⟩ mark :=
    (line.outsideSettings mark).trans Option.map_id'
  have kind : s.kindAt i = a.kindAt i := line.kindAt (Nat.le_refl i) nonempty
  rw [openingBrace, openingBrace, braceOnNextLine, braceOnNextLine, outside, outside, kind,
    joined.nextBrace_first apart inside]

/-- Children in the first source are children in the joined one. -/
theorem blockChildren_first (joined : Joined a b s) {opening closing : Nat} (inside : i < a.size)
    (bound : closing ≤ a.size) : s.blockChildren limit depth i opening closing =
      a.blockChildren limit depth i opening closing := by
  have body : Copied a s (· + 0) 0 ⟨opening + 1, closing⟩ :=
    joined.copied_first.between (Nat.zero_le _) bound
  have kind : s.kindAt i = a.kindAt i := joined.copied_first.kindAt (Nat.zero_le i) inside
  have scanned : s.scanFrom limit (depth + 1) (opening + 1) closing =
      a.scanFrom limit (depth + 1) (opening + 1) closing :=
    (body.scanFrom limit (depth + 1)).trans movedScan_zero
  rw [blockChildren, blockChildren, kind, scanned]

theorem blockAt_first (joined : Joined a b s) {opening closing : Nat} (inside : i < a.size)
    (bound : opening ≤ a.size) : s.blockAt i opening closing = a.blockAt i opening closing :=
  (joined.copied_first.blockAt (Nat.zero_le i) inside bound).trans (Block.shift_zero _)

/-- Behind the segments of the first source, the scan goes on with the second. -/
theorem scanFrom_first (joined : Joined a b s) (apart : ¬ b.BeginsWithBrace)
    {segments : List Segment} (bound : i ≤ a.size)
    (scanned : a.scanFrom limit depth i a.size = .ok segments) :
    s.scanFrom limit depth i s.size =
      (s.scanFrom limit depth (a.size + 1) s.size).map (segments ++ ·) := by
  have longer : a.size < s.size := by rw [joined.size]; omega
  induction size : a.size - i using Nat.strongRecOn generalizing i segments with
  | ind n ih =>
  have line (inside : i < a.size) (solid : a.token? i ≠ some .newline) :
      ¬ s.holds i (· == .newline) = true ∧ i < a.lineEnd i a.size ∧
        s.lineEnd i s.size = a.lineEnd i a.size := by
    refine ⟨fun here => solid ?_, lineEnd_gt inside fun here => solid (holds_newline.1 here),
      joined.lineEnd_first inside⟩
    rw [← joined.token?_first inside]
    exact holds_newline.1 here
  rcases scanFrom_cases scanned with ⟨done, rfl⟩ | ⟨inside, newline, rest⟩ |
    ⟨inside, solid, rest, later, rfl⟩ |
    ⟨inside, solid, opening, closing, children, rest, opens, closes, within, later, rfl⟩
  · obtain rfl : i = a.size := by omega
    rw [scanFrom_newline longer joined.token?_between]
    cases s.scanFrom limit depth (a.size + 1) s.size <;> rfl
  · rw [scanFrom_newline (by omega) ((joined.token?_first inside).trans newline)]
    exact ih _ (by omega) inside rest rfl
  · obtain ⟨first, ahead, ends⟩ := line inside solid
    have opens := joined.openingBrace_first apart ahead lineEnd_le
    rw [openingBrace_of_line inside solid scanned, ← ends] at opens
    rw [scanFrom_line (by omega) first opens, ends, ih _ (by omega) lineEnd_le later rfl]
    cases s.scanFrom limit depth (a.size + 1) s.size <;> rfl
  · obtain ⟨first, ahead, ends⟩ := line inside solid
    have start := openingBrace_ge (Nat.le_of_lt ahead) opens
    obtain ⟨order, high, -⟩ := matching_bounds closes
    have opens' := joined.openingBrace_first apart ahead lineEnd_le
    rw [opens, ← ends] at opens'
    have partner : s.matching opening a.size .openBrace .closeBrace = some closing :=
      (joined.copied_first.matching .openBrace .closeBrace (Nat.zero_le opening)).trans
        (by rw [show a.all.stop = a.size from rfl, closes]; rfl)
    have closes' : s.matching opening s.size .openBrace .closeBrace = some closing :=
      matchingFrom_longer (by omega) partner
    simp only at start
    rw [scanFrom_block (by omega) first opens' closes',
      joined.blockChildren_first inside (Nat.le_of_lt high), within,
      joined.blockAt_first inside (by omega), ih _ (by omega) high later rfl]
    cases s.scanFrom limit depth (a.size + 1) s.size <;> rfl

/-! ## Scans of the second source -/

theorem scanFrom_second (joined : Joined a b s) :
    s.scanFrom limit depth (a.size + 1) s.size =
      movedScan (a.size + 1) (b.scanFrom limit depth 0 b.size) := by
  have moved : s.scanFrom limit depth (0 + (a.size + 1)) (b.size + (a.size + 1)) =
      movedScan (a.size + 1) (b.scanFrom limit depth 0 b.size) :=
    joined.embedded_second.copied.scanFrom limit depth
  rwa [Nat.zero_add, Nat.add_comm b.size, ← joined.size] at moved

theorem scanError_second (joined : Joined a b s) (fault : ScanFault) :
    s.scanError (fault.shift (a.size + 1)) =
      (b.scanError fault).below (a.chars.count '\n' + 1) := by
  cases fault with
  | unterminated position =>
    rw [ScanFault.shift, scanError, joined.token?, joined.location]
    rfl
  | tooDeep position =>
    rw [ScanFault.shift, scanError, joined.location]
    rfl

theorem scan_eq (joined : Joined a b s) (apart : ¬ b.BeginsWithBrace) {segments : List Segment}
    (scanned : a.scan = .ok segments) :
    s.scan = match b.scan with
      | .ok more => .ok (segments ++ Segment.shiftAll (a.size + 1) more)
      | .error error => .error (error.below (a.chars.count '\n' + 1)) := by
  rw [scan, scanWithin,
    joined.scanFrom_first apart (Nat.zero_le _) (scan_eq_ok.1 scanned), joined.scanFrom_second,
    scan, scanWithin]
  cases b.scanFrom (some depthLimit) 0 0 b.size with
  | ok more => rfl
  | error fault => exact congrArg Except.error (joined.scanError_second fault)

end Joined

/-- The tokens of a text, a line end and another text are those of the first, a line end, and those
of the second moved by the bytes before it. The segments are those of the first and, moved by the
tokens before it, those of the second, unless it begins with a brace; an error in the second is
reported below the lines of the first, in the same column. -/
theorem joined_on_lines {first second : String} (readFirst : ofString first = .ok a)
    (readSecond : ofString second = .ok b) (closed : ¬ a.EndsInComment) :
    ∃ s, ofString (first ++ "\n" ++ second) = .ok s ∧
      s.lexemes.toList = a.lexemes.toList ++ .newlineAt (byteSize first.toList) ::
        b.lexemes.toList.map (·.shift (byteSize first.toList + 1)) ∧
      ∀ segments, a.scan = .ok segments → ¬ b.BeginsWithBrace →
        s.scan = match b.scan with
          | .ok more => .ok (segments ++ Segment.shiftAll (a.size + 1) more)
          | .error error => .error (error.below (first.toList.count '\n' + 1)) := by
  obtain ⟨s, read, joined⟩ := joined_ofString readFirst readSecond closed
  obtain ⟨chars, -⟩ := ofString_eq_ok.1 readFirst
  rw [← chars]
  exact ⟨s, read, joined.lexemes, fun segments scanned apart => joined.scan_eq apart scanned⟩

/-- A table with a comment behind it that goes on up to the end. -/
def closedText : String :=
  "Table a \x7b\n id int\n\x7d\n// end"

/-- A line and a table that is not closed. -/
def openText : String :=
  "x\nTable b \x7b"

theorem joined_on_lines_open : ∃ a b s, ofString closedText = .ok a ∧ ofString openText = .ok b ∧
    b.scan = .error (.unterminatedBlock "Table" ⟨2, 1⟩) ∧
    ofString (closedText ++ "\n" ++ openText) = .ok s ∧
    s.scan = .error (.unterminatedBlock "Table" ⟨6, 1⟩) := by
  have evaluated : (ofString closedText).toOption.bind (fun a => a.scan.toOption.map fun _ =>
      behindLast 0 a.lexemes.toList a.chars) = some "// end".toList := by decide +kernel
  have evaluated' : (ofString openText).toOption.bind (fun b => match b.scan with
      | .error error => some (error, b.token? 0)
      | .ok _ => none) =
      some (.unterminatedBlock "Table" ⟨2, 1⟩, some (.ident "x")) := by decide +kernel
  obtain ⟨a, readFirst, whole⟩ := Option.bind_eq_some_iff.1 evaluated
  obtain ⟨segments, scanned, last⟩ := Option.map_eq_some_iff.1 whole
  obtain ⟨b, readSecond, reported⟩ := Option.bind_eq_some_iff.1 evaluated'
  have closed : ¬ a.EndsInComment := by
    rintro ⟨gap, body, parts, -, -⟩
    have star : '*' ∈ "// end".toList := by rw [← last, parts]; simp
    exact absurd star (by decide)
  obtain ⟨failed, word⟩ : b.scan = .error (.unterminatedBlock "Table" ⟨2, 1⟩) ∧
      b.token? 0 = some (.ident "x") := by
    cases found : b.scan with
    | ok more => rw [found] at reported; cases reported
    | error error =>
      rw [found] at reported
      obtain ⟨rfl, word⟩ := Prod.mk.inj (Option.some.inj reported)
      exact ⟨rfl, word⟩
  have apart : ¬ b.BeginsWithBrace := by
    rintro ⟨i, newlines, brace⟩
    cases i with
    | zero => rw [word] at brace; cases brace
    | succ i =>
      have here := newlines 0 (Nat.le_refl 0) (Nat.succ_pos i)
      rw [word] at here
      cases here
  obtain ⟨s, read, -, scan⟩ :=
    joined_on_lines (eq_ok_of_toOption readFirst) (eq_ok_of_toOption readSecond) closed
  have joined := scan segments (eq_ok_of_toOption scanned) apart
  rw [failed] at joined
  exact ⟨a, b, s, eq_ok_of_toOption readFirst, eq_ok_of_toOption readSecond, failed, read, joined⟩

end Source

end Dbml
