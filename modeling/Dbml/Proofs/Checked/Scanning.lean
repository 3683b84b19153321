import Dbml.Proofs.Checked.Tokens
import Dbml.Proofs.Segment.Unclosed

/-!
# Segments found inside bounds

A scan takes the tokens of lines, headers and bodies by their numbers. Main statement: `scan_eq`, no
number is behind the last token, in blocks at any depth, and the scan always moves on.
-/

namespace Dbml

open Token (Run)

variable {s : Source} {limit : Option Nat} {depth i stop : Nat} {line range : TokenRange}

namespace Checked

/-! ## Headers -/

def nameAt? (s : Source) (i stop : Nat) : Option (Option String) :=
  if i < stop then do
    let token ← s.token? i
    return token.name?
  else some none

/-- Whether the token stands before `stop` and has the property. -/
def holdsBefore (s : Source) (p : Token → Bool) (i stop : Nat) : Option Bool :=
  if i < stop then do
    let token ← s.token? i
    return p token
  else some false

def dottedName (s : Source) (i stop : Nat) : Option (List String × Nat) :=
  match nameAt? s i stop with
  | none => none
  | some none => some ([], i)
  | some (some name) =>
    if i + 1 < stop then do
      let token ← s.token? (i + 1)
      if token = .mark .dot then
        let (names, next) ← dottedName s (i + 2) stop
        return (name :: names, next)
      else return ([name], i + 1)
    else some ([name], i + 1)
termination_by stop - i

/-- The header of a block, as `Source.header` gives it. -/
def header (s : Source) (kind : BlockKind) (range : TokenRange) : Option Header := do
  let (names, i) ←
    (if kind = .other "" then some ([], range.start) else dottedName s range.start range.stop)
  let aliased ← holdsBefore s (·.isKeyword "as") i (range.stop - 1)
  let aliasName ← (if aliased then nameAt? s (i + 1) range.stop else some none)
  let j := if aliased then i + 2 else i
  let opens ← holdsBefore s (· == .mark .openBracket) j range.stop
  let closing ← (if opens then matching s j range.stop .openBracket .closeBracket else some none)
  return { nameParts := names, aliasName, settings := closing.map fun close => ⟨j + 1, close⟩ }

theorem nameAt?_eq (bound : stop ≤ s.size) : nameAt? s i stop = some (s.nameAt? i stop) := by
  rw [nameAt?, Source.nameAt?]
  split
  next inside =>
    obtain ⟨t, here⟩ := Source.exists_token? (Nat.lt_of_lt_of_le inside bound)
    rw [here]
    rfl
  · rfl

theorem holdsBefore_eq {p : Token → Bool} (bound : stop ≤ s.size) :
    holdsBefore s p i stop = some (decide (i < stop ∧ s.holds i p = true)) := by
  rw [holdsBefore]
  by_cases inside : i < stop
  · obtain ⟨t, here⟩ := Source.exists_token? (Nat.lt_of_lt_of_le inside bound)
    simp [inside, here, Source.holds_of_token? here]
  · simp [inside]

theorem dottedName_eq (bound : stop ≤ s.size) :
    dottedName s i stop = some (s.dottedName i stop) := by
  induction size : stop - i using Nat.strongRecOn generalizing i with
  | ind n ih =>
  rw [dottedName, Source.dottedName, nameAt?_eq bound]
  cases s.nameAt? i stop with
  | none => rfl
  | some name =>
    by_cases inside : i + 1 < stop
    · obtain ⟨t, here⟩ := Source.exists_token? (Nat.lt_of_lt_of_le inside bound)
      simp only [inside, if_true, true_and, here, Source.isMark_iff_token?, Option.some.injEq,
        Option.bind_eq_bind, Option.bind_some, ih _ (by omega) (i := i + 2) rfl]
      split <;> rfl
    · simp only [inside, if_false, false_and]

theorem header_eq (bound : range.stop ≤ s.size) (kind : BlockKind) :
    header s kind range = some (s.header kind range) := by
  have names : (if kind = .other "" then some ([], range.start)
      else dottedName s range.start range.stop) =
      some (if kind = .other "" then ([], range.start)
        else s.dottedName range.start range.stop) := by
    rw [dottedName_eq bound]
    split <;> rfl
  rw [header, names, Source.header]
  generalize (if kind = .other "" then ([], range.start)
    else s.dottedName range.start range.stop) = found
  obtain ⟨parts, i⟩ := found
  have aliased : holdsBefore s (·.isKeyword "as") i (range.stop - 1) =
      some (decide (i + 1 < range.stop ∧ s.isKeyword i "as" = true)) := by
    rw [holdsBefore_eq (Nat.le_trans (Nat.sub_le _ _) bound), Option.some.injEq,
      decide_eq_decide, Nat.lt_sub_iff_add_lt]
    rfl
  simp only [Option.bind_eq_bind, Option.bind_some, aliased, decide_eq_true_eq,
    nameAt?_eq bound]
  generalize (if i + 1 < range.stop ∧ s.isKeyword i "as" = true then i + 2 else i) = j
  have opens : holdsBefore s (· == .mark .openBracket) j range.stop =
      some (decide (j < range.stop ∧ s.isMark j .openBracket = true)) := by
    rw [holdsBefore_eq bound, ← Source.holds_isMark]
    rfl
  simp only [opens, matching_eq bound, Option.bind_some, decide_eq_true_eq]
  split <;> split <;> rfl

/-! ## Where a block opens -/

def lineEnd (s : Source) (i stop : Nat) : Option Nat := do
  let newline ← find? s ⟨i, stop⟩ (· == .newline)
  return newline.getD stop

def outsideSettings (s : Source) (line : TokenRange) (mark : Mark) : Option (Option Nat) :=
  findOutside? s .openBracket .closeBracket line (·.isMark mark)

def braceOnNextLine (s : Source) (line : TokenRange) (stop : Nat) : Option (Option Nat) := do
  let first ← s.token? line.start
  if (BlockKind.ofToken first).isOther then return none
  let colon ← outsideSettings s line .colon
  if colon.isSome then return none
  match ← find? s ⟨line.stop, stop⟩ (· != .newline) with
  | none => return none
  | some next =>
    let token ← s.token? next
    return if token = .mark .openBrace then some next else none

/-- The brace that opens a block which begins with the line, as `Source.openingBrace` gives it. -/
def openingBrace (s : Source) (line : TokenRange) (stop : Nat) : Option (Option Nat) := do
  match ← outsideSettings s line .openBrace with
  | some opening => return some opening
  | none => braceOnNextLine s line stop

theorem lineEnd_eq (bound : stop ≤ s.size) : lineEnd s i stop = some (s.lineEnd i stop) := by
  rw [lineEnd, find?_eq bound]
  rfl

theorem outsideSettings_eq (bound : line.stop ≤ s.size) (mark : Mark) :
    outsideSettings s line mark = some (s.outsideSettings line mark) :=
  findOutside?_eq bound

theorem braceOnNextLine_eq (nonempty : line.start < line.stop) (inside : line.stop ≤ stop)
    (bound : stop ≤ s.size) :
    braceOnNextLine s line stop = some (s.braceOnNextLine line stop) := by
  obtain ⟨t, here⟩ := Source.exists_token? (s := s) (i := line.start) (by omega)
  have kind : s.kindAt line.start = .ofToken t := by rw [Source.kindAt, here]; rfl
  rw [braceOnNextLine, Source.braceOnNextLine, here, kind,
    outsideSettings_eq (Nat.le_trans inside bound), find?_eq bound]
  simp only [Option.bind_eq_bind, Option.bind_some]
  by_cases other : (BlockKind.ofToken t).isOther = true
  · rw [if_pos other, if_pos (.inl other)]
    rfl
  by_cases colon : (s.outsideSettings line .colon).isSome = true
  · rw [if_neg other, if_pos colon, if_pos (.inr colon)]
    rfl
  rw [if_neg other, if_neg colon, if_neg fun either => either.elim other colon]
  cases next : s.find? ⟨line.stop, stop⟩ (· != .newline) with
  | none => rfl
  | some k =>
    have high : k < stop := (Source.find?_bounds next).2.1
    obtain ⟨u, there⟩ := Source.exists_token? (Nat.lt_of_lt_of_le high bound)
    simp only [there, Option.bind_some, Option.filter_some, Source.isMark_iff_token?,
      Option.some.injEq]
    split <;> rfl

theorem openingBrace_eq (nonempty : line.start < line.stop) (inside : line.stop ≤ stop)
    (bound : stop ≤ s.size) : openingBrace s line stop = some (s.openingBrace line stop) := by
  rw [openingBrace, Source.openingBrace, outsideSettings_eq (Nat.le_trans inside bound),
    braceOnNextLine_eq nonempty inside bound]
  cases s.outsideSettings line .openBrace <;> rfl

/-! ## Scans -/

/-- The segments of the tokens, as `Source.scanFrom` gives them; none as well when the scan does not
move on. -/
def scanFrom (s : Source) (limit : Option Nat) (depth i stop : Nat) :
    Option (Except ScanFault (List Segment)) :=
  if i < stop then do
    let first ← s.token? i
    if first = .newline then scanFrom s limit depth (i + 1) stop
    else
      let last ← lineEnd s i stop
      match ← openingBrace s ⟨i, last⟩ stop with
      | none =>
        if i < last then
          let rest ← scanFrom s limit depth last stop
          return rest.map (.line ⟨i, last⟩ :: ·)
        else none
      | some opening =>
        match ← matching s opening stop .openBrace .closeBrace with
        | none => return .error (.unterminated i)
        | some closing =>
          if i ≤ opening ∧ opening ≤ closing ∧ closing < stop then
            let kind := BlockKind.ofToken first
            let header ← header s kind ⟨i + 1, opening⟩
            let within ← (
              if kind.isOther then some (.ok [])
              else if limit.any (· < depth + 1) then some (.error (.tooDeep i))
              else scanFrom s limit (depth + 1) (opening + 1) closing)
            match within with
            | .error fault => return .error fault
            | .ok children =>
              let rest ← scanFrom s limit depth (closing + 1) stop
              return rest.map (.block { kind, start := i, header, opening, closing } children :: ·)
          else none
  else some (.ok [])
termination_by stop - i

def scanError (s : Source) : ScanFault → Option ScanError
  | .unterminated position => do
    let token ← s.token? position
    let location ← location s position
    return .unterminatedBlock
      (match token with
        | .ident word => word
        | _ => "anonymous")
      location
  | .tooDeep position => do
    let location ← location s position
    return .tooDeep location

/-- The segments of a source, as `Source.scan` gives them. -/
def scan (s : Source) : Option (Except ScanError (List Segment)) := do
  match ← scanFrom s (some depthLimit) 0 0 s.size with
  | .ok segments => return .ok segments
  | .error fault =>
    let error ← scanError s fault
    return .error error

theorem scanFrom_eq (bound : stop ≤ s.size) :
    scanFrom s limit depth i stop = some (s.scanFrom limit depth i stop) := by
  induction size : stop - i using Nat.strongRecOn generalizing depth i stop with
  | ind n ih =>
  by_cases done : ¬ i < stop
  · rw [scanFrom, if_neg done, Source.scanFrom_end done]
  have inside := Decidable.not_not.1 done
  have later {j : Nat} (ahead : i < j) :
      scanFrom s limit depth j stop = some (s.scanFrom limit depth j stop) :=
    ih _ (by omega) bound rfl
  obtain ⟨t, here⟩ := Source.exists_token? (Nat.lt_of_lt_of_le inside bound)
  rw [scanFrom, if_pos inside, here, Option.bind_eq_bind, Option.bind_some]
  by_cases newline : t = .newline
  · rw [if_pos newline, Source.scanFrom_newline inside (by rw [here, newline]),
      later (Nat.lt_succ_self i)]
  have line : ¬ s.holds i (· == .newline) = true := by
    rw [Source.holds_of_token? here]
    simpa using newline
  have ahead := Source.lineEnd_gt inside line
  have last : s.lineEnd i stop ≤ stop := Source.lineEnd_le
  have brace : openingBrace s ⟨i, s.lineEnd i stop⟩ stop =
      some (s.openingBrace ⟨i, s.lineEnd i stop⟩ stop) := openingBrace_eq ahead last bound
  rw [if_neg newline, lineEnd_eq bound]
  simp only [Option.bind_eq_bind, Option.bind_some, brace]
  cases opens : s.openingBrace ⟨i, s.lineEnd i stop⟩ stop with
  | none =>
    simp only [if_pos ahead, later ahead, Option.bind_some]
    rw [Source.scanFrom_line inside line opens]
    rfl
  | some opening =>
    simp only [matching_eq bound, Option.bind_some]
    have start : i ≤ opening := Source.openingBrace_ge (Nat.le_of_lt ahead) opens
    cases closes : s.matching opening stop .openBrace .closeBrace with
    | none =>
      rw [Source.scanFrom_unterminated inside line opens closes]
      rfl
    | some closing =>
      obtain ⟨order, high, -⟩ := Source.matching_bounds closes
      have head : (⟨i + 1, opening⟩ : TokenRange).stop ≤ s.size := by simp only; omega
      have kind : s.kindAt i = .ofToken t := by rw [Source.kindAt, here]; rfl
      have body : scanFrom s limit (depth + 1) (opening + 1) closing =
          some (s.scanFrom limit (depth + 1) (opening + 1) closing) :=
        ih _ (by omega) (by omega) rfl
      have within : (if (BlockKind.ofToken t).isOther then some (.ok [])
          else if limit.any (· < depth + 1) then some (.error (.tooDeep i))
          else scanFrom s limit (depth + 1) (opening + 1) closing) =
          some (s.blockChildren limit depth i opening closing) := by
        rw [body, Source.blockChildren, kind]
        split
        · rfl
        split <;> rfl
      simp only [if_pos (show i ≤ opening ∧ opening ≤ closing ∧ closing < stop from
        ⟨start, order, high⟩), header_eq head, within, later (show i < closing + 1 by omega),
        Option.bind_some]
      rw [Source.scanFrom_block inside line opens closes, Source.blockAt, kind]
      cases s.blockChildren limit depth i opening closing with
      | error fault => rfl
      | ok children => cases s.scanFrom limit depth (closing + 1) stop <;> rfl

theorem scan_eq (run : Run 0 s.chars s.lexemes.toList) : scan s = some s.scan := by
  have whole : s.size ≤ s.size := Nat.le_refl _
  rw [scan, scanFrom_eq whole, Source.scan, Source.scanWithin]
  cases scanned : s.scanFrom (some depthLimit) 0 0 s.size with
  | ok segments => rfl
  | error fault =>
    have error : scanError s fault = some (s.scanError fault) := by
      cases fault with
      | tooDeep position => rw [scanError, location_eq run]; rfl
      | unterminated position =>
        obtain ⟨-, opening, header, -⟩ := Source.comesTo_of_unterminated whole scanned
        obtain ⟨t, here⟩ := Source.exists_token? header.inside
        rw [scanError, location_eq run, Source.scanError, here]
        cases t <;> rfl
    simp only [Option.bind_eq_bind, Option.bind_some, error]
    rfl

end Checked

end Dbml
