import Dbml.Segment

/-!
# Finding the segments

The tokens of a source are cut into lines and blocks. A block is found by its opening brace, on its
first line or behind it, and reaches to the brace that closes it. Known blocks may be nested up to
a limit.
-/

namespace Dbml

set_option linter.unusedVariables false

/-- Why a source has no segments, told by the number of a token. -/
inductive ScanFault
  /-- The block that begins at the token is not closed. -/
  | unterminated (position : Nat)
  /-- The block that begins at the token is nested too deep. -/
  | tooDeep (position : Nat)
  deriving DecidableEq, Repr

/-- The number of levels that known blocks may be nested. -/
def depthLimit : Nat := 64

inductive ScanError
  | unterminatedBlock (keyword : String) (location : Location)
  | tooDeep (location : Location)
  deriving DecidableEq, Repr

def ScanError.message : ScanError → String
  | .unterminatedBlock keyword location =>
    s!"Unterminated {keyword} block starting at {location.text}"
  | .tooDeep location => s!"Blocks nested deeper than {depthLimit} levels at {location.text}"

namespace Source

/-! ## Headers -/

def nameAt? (s : Source) (i stop : Nat) : Option String :=
  if i < stop then (s.token? i).bind Token.name? else none

/-- The segments of the dotted name that begins at token `i`, and the number of the token behind
it; a dot at the end is taken too. -/
def dottedName (s : Source) (i stop : Nat) : List String × Nat :=
  match s.nameAt? i stop with
  | none => ([], i)
  | some name =>
    if i + 1 < stop ∧ s.isMark (i + 1) .dot then
      let (names, next) := s.dottedName (i + 2) stop
      (name :: names, next)
    else ([name], i + 1)
termination_by stop - i

/-- The header of a block of the kind, in the tokens behind its first. -/
def header (s : Source) (kind : BlockKind) (range : TokenRange) : Header :=
  let (names, i) :=
    if kind = .other "" then ([], range.start) else s.dottedName range.start range.stop
  let aliased := i + 1 < range.stop ∧ s.isKeyword i "as"
  let j := if aliased then i + 2 else i
  { nameParts := names
    aliasName := if aliased then s.nameAt? (i + 1) range.stop else none
    settings :=
      if j < range.stop ∧ s.isMark j .openBracket then
        (s.matching j range.stop .openBracket .closeBracket).map fun close => ⟨j + 1, close⟩
      else none }

/-! ## Where a block opens -/

def lineEnd (s : Source) (i stop : Nat) : Nat :=
  (s.find? ⟨i, stop⟩ (· == .newline)).getD stop

/-- The first of the marks on the line that is not inside brackets. -/
def outsideSettings (s : Source) (line : TokenRange) (mark : Mark) : Option Nat :=
  s.findOutside? .openBracket .closeBracket line (·.isMark mark)

def kindAt (s : Source) (i : Nat) : BlockKind :=
  (s.token? i).elim (.other "") BlockKind.ofToken

/-- The brace that opens the next line, when the line is the header of a known block. A colon
outside brackets makes the line a statement. -/
def braceOnNextLine (s : Source) (line : TokenRange) (stop : Nat) : Option Nat :=
  if (s.kindAt line.start).isOther ∨ (s.outsideSettings line .colon).isSome then none
  else
    (s.find? ⟨line.stop, stop⟩ (· != .newline)).filter fun next => s.isMark next .openBrace

/-- The brace that opens a block which begins with the line. -/
def openingBrace (s : Source) (line : TokenRange) (stop : Nat) : Option Nat :=
  (s.outsideSettings line .openBrace).or (s.braceOnNextLine line stop)

theorem lineEnd_gt {s : Source} {i stop : Nat} (inside : i < stop)
    (line : ¬ s.holds i (· == .newline) = true) : i < s.lineEnd i stop := by
  unfold lineEnd
  cases found : s.find? ⟨i, stop⟩ (· == .newline) with
  | none => exact inside
  | some j =>
    have bounds := find?_bounds found
    have : i ≠ j := by rintro rfl; exact line bounds.2.2
    simp only [Option.getD_some] at bounds ⊢
    omega

theorem openingBrace_ge {s : Source} {line : TokenRange} {stop j : Nat}
    (ordered : line.start ≤ line.stop) (h : s.openingBrace line stop = some j) :
    line.start ≤ j := by
  unfold openingBrace at h
  rcases Option.or_eq_some_iff.1 h with found | ⟨_, found⟩
  · exact (findOutside?_bounds found).1
  · unfold braceOnNextLine at found
    split at found
    · cases found
    · have := find?_bounds (Option.filter_eq_some_iff.1 found).1
      exact Nat.le_trans ordered this.1

/-! ## The segments -/

/-- The segments of the tokens from `i` up to `stop`, which stand `depth` levels deep; known blocks
beyond the limit, if there is one, are refused. -/
def scanFrom (s : Source) (limit : Option Nat) (depth i stop : Nat) :
    Except ScanFault (List Segment) :=
  if inside : i < stop then
    if line : s.holds i (· == .newline) then s.scanFrom limit depth (i + 1) stop
    else
      match opens : s.openingBrace ⟨i, s.lineEnd i stop⟩ stop with
      | none => do
        let rest ← s.scanFrom limit depth (s.lineEnd i stop) stop
        return .line ⟨i, s.lineEnd i stop⟩ :: rest
      | some opening =>
        match closes : s.matching opening stop .openBrace .closeBrace with
        | none => .error (.unterminated i)
        | some closing => do
          let kind := s.kindAt i
          let children ←
            if kind.isOther then pure []
            else if limit.any (· < depth + 1) then .error (.tooDeep i)
            else s.scanFrom limit (depth + 1) (opening + 1) closing
          let rest ← s.scanFrom limit depth (closing + 1) stop
          let block : Block :=
            { kind, start := i, header := s.header kind ⟨i + 1, opening⟩, opening, closing }
          return .block block children :: rest
  else .ok []
termination_by stop - i
decreasing_by
  · omega
  · have := lineEnd_gt inside line; omega
  · have := lineEnd_gt inside line
    have := openingBrace_ge (Nat.le_of_lt this) opens
    have := matching_bounds closes
    simp only at *; omega
  · have := lineEnd_gt inside line
    have := openingBrace_ge (Nat.le_of_lt this) opens
    have := matching_bounds closes
    simp only at *; omega

def scanWithin (s : Source) (limit : Option Nat) : Except ScanFault (List Segment) :=
  s.scanFrom limit 0 0 s.size

def scanError (s : Source) : ScanFault → ScanError
  | .unterminated position =>
    .unterminatedBlock
      (match s.token? position with
        | some (.ident word) => word
        | _ => "anonymous")
      (s.location position)
  | .tooDeep position => .tooDeep (s.location position)

def scan (s : Source) : Except ScanError (List Segment) :=
  (s.scanWithin (some depthLimit)).mapError s.scanError

end Source

end Dbml
