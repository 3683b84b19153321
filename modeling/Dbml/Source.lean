import Dbml.Diagnostic
import Dbml.Token.Lexer
import Dbml.TokenRange

/-!
# Tokenized sources

A source is a text together with its tokens. Its parts are found by token numbers: the first token
of a kind, the partner of a bracket, the text that a range of tokens covers.
-/

namespace Dbml

/-- Why a text has no tokens. -/
inductive LexError
  /-- Three quotes are not closed. -/
  | unterminatedString (location : Location)
  deriving DecidableEq, Repr

def LexError.message : LexError → String
  | .unterminatedString location => s!"Unterminated multi-line string starting at {location.text}"

/-- A text and its tokens. -/
structure Source where
  chars : List Char
  lexemes : Array Lexeme

namespace Source

def ofString (text : String) : Except LexError Source :=
  match Token.tokenize text.toList with
  | .ok lexemes => .ok ⟨text.toList, lexemes⟩
  | .error offset => .error (.unterminatedString (Location.ofOffset text.toList offset))

/-! ## Tokens by number -/

def size (s : Source) : Nat :=
  s.lexemes.size

def all (s : Source) : TokenRange :=
  ⟨0, s.size⟩

def token? (s : Source) (i : Nat) : Option Token :=
  s.lexemes[i]?.map (·.token)

def span? (s : Source) (i : Nat) : Option Span :=
  s.lexemes[i]?.map (·.span)

/-- Whether the token with the number has the property. -/
def holds (s : Source) (i : Nat) (p : Token → Bool) : Bool :=
  (s.token? i).any p

def isMark (s : Source) (i : Nat) (mark : Mark) : Bool :=
  s.token? i == some (.mark mark)

def isKeyword (s : Source) (i : Nat) (keyword : String) : Bool :=
  s.holds i (·.isKeyword keyword)

/-- The tokens of a range. -/
def tokens (s : Source) (range : TokenRange) : List Token :=
  (s.lexemes.extract range.start range.stop).toList.map (·.token)

/-- Whether the token with the number begins right where the one before it ends. -/
def isAdjacent (s : Source) (i : Nat) : Bool :=
  match i with
  | 0 => false
  | j + 1 =>
    match s.span? j, s.span? (j + 1) with
    | some a, some b => a.stop == b.start
    | _, _ => false

/-- The text from the beginning of a range's first token to the end of its last. -/
def text (s : Source) (range : TokenRange) : String :=
  if range.isEmpty then ""
  else match s.span? range.start, s.span? (range.stop - 1) with
    | some first, some last => String.ofList (Text.slice s.chars first.start last.stop)
    | _, _ => ""

/-! ## Places -/

/-- The location of a token, or of the end when there is no token with the number. -/
def location (s : Source) (i : Nat) : Location :=
  Location.ofOffset s.chars ((s.span? i).elim (Text.byteSize s.chars) (·.start))

/-- A diagnostic at a token. -/
def diagnostic (s : Source) (i : Nat) (reason : String) : Diagnostic :=
  ⟨s.location i, reason⟩

/-! ## Finding tokens -/

/-- The first of `count` tokens from number `i` on that has the property. -/
def findFrom (s : Source) (p : Token → Bool) (i : Nat) : Nat → Option Nat
  | 0 => none
  | count + 1 => if s.holds i p then some i else s.findFrom p (i + 1) count

/-- The first token of the range that has the property. -/
def find? (s : Source) (range : TokenRange) (p : Token → Bool) : Option Nat :=
  s.findFrom p range.start range.size

/-- The first of `count` tokens from number `i` on that has the property and stands outside the
brackets, of which `depth` are open. -/
def findOutsideFrom (s : Source) (left right : Mark) (p : Token → Bool) (depth i : Nat) :
    Nat → Option Nat
  | 0 => none
  | count + 1 =>
    if s.isMark i left then s.findOutsideFrom left right p (depth + 1) (i + 1) count
    else if s.isMark i right then s.findOutsideFrom left right p (depth - 1) (i + 1) count
    else if depth = 0 ∧ s.holds i p then some i
    else s.findOutsideFrom left right p depth (i + 1) count

/-- The first token of the range that has the property and stands outside the brackets `left` and
`right`. -/
def findOutside? (s : Source) (left right : Mark) (range : TokenRange) (p : Token → Bool) :
    Option Nat :=
  s.findOutsideFrom left right p 0 range.start range.size

/-- Where the brackets of which `depth` are open are closed, in `count` tokens from `i` on. -/
def matchingFrom (s : Source) (left right : Mark) (depth i : Nat) : Nat → Option Nat
  | 0 => none
  | count + 1 =>
    if s.isMark i left then s.matchingFrom left right (depth + 1) (i + 1) count
    else if s.isMark i right then
      if depth ≤ 1 then some i else s.matchingFrom left right (depth - 1) (i + 1) count
    else s.matchingFrom left right depth (i + 1) count

/-- The token before number `stop` that closes the bracket with number `start`. -/
def matching (s : Source) (start stop : Nat) (left right : Mark) : Option Nat :=
  s.matchingFrom left right 0 start (stop - start)

/-! ## What is found lies in the range -/

theorem findFrom_bounds {s : Source} {p : Token → Bool} {i count j : Nat}
    (h : s.findFrom p i count = some j) : i ≤ j ∧ j < i + count ∧ s.holds j p = true := by
  induction count generalizing i with
  | zero => cases h
  | succ count ih =>
    unfold findFrom at h
    split at h
    next here => cases h; exact ⟨Nat.le_refl _, by omega, here⟩
    · have := ih h
      exact ⟨by omega, by omega, this.2.2⟩

theorem findOutsideFrom_bounds {s : Source} {left right : Mark} {p : Token → Bool}
    {depth i count j : Nat} (h : s.findOutsideFrom left right p depth i count = some j) :
    i ≤ j ∧ j < i + count ∧ s.holds j p = true := by
  induction count generalizing i depth with
  | zero => cases h
  | succ count ih =>
    unfold findOutsideFrom at h
    split at h
    · have := ih h; exact ⟨by omega, by omega, this.2.2⟩
    split at h
    · have := ih h; exact ⟨by omega, by omega, this.2.2⟩
    split at h
    next here => cases h; exact ⟨Nat.le_refl _, by omega, here.2⟩
    · have := ih h; exact ⟨by omega, by omega, this.2.2⟩

theorem matchingFrom_bounds {s : Source} {left right : Mark} {depth i count j : Nat}
    (h : s.matchingFrom left right depth i count = some j) :
    i ≤ j ∧ j < i + count ∧ s.isMark j right = true := by
  induction count generalizing i depth with
  | zero => cases h
  | succ count ih =>
    unfold matchingFrom at h
    split at h
    · have := ih h; exact ⟨by omega, by omega, this.2.2⟩
    split at h
    next here =>
      split at h
      · cases h; exact ⟨Nat.le_refl _, by omega, here⟩
      · have := ih h; exact ⟨by omega, by omega, this.2.2⟩
    · have := ih h; exact ⟨by omega, by omega, this.2.2⟩

theorem find?_bounds {s : Source} {range : TokenRange} {p : Token → Bool} {j : Nat}
    (h : s.find? range p = some j) :
    range.start ≤ j ∧ j < range.stop ∧ s.holds j p = true := by
  have := findFrom_bounds h
  unfold TokenRange.size at this
  exact ⟨by omega, by omega, this.2.2⟩

theorem findOutside?_bounds {s : Source} {left right : Mark} {range : TokenRange}
    {p : Token → Bool} {j : Nat} (h : s.findOutside? left right range p = some j) :
    range.start ≤ j ∧ j < range.stop ∧ s.holds j p = true := by
  have := findOutsideFrom_bounds h
  unfold TokenRange.size at this
  exact ⟨by omega, by omega, this.2.2⟩

theorem matching_bounds {s : Source} {start stop : Nat} {left right : Mark} {j : Nat}
    (h : s.matching start stop left right = some j) :
    start ≤ j ∧ j < stop ∧ s.isMark j right = true := by
  have := matchingFrom_bounds h
  exact ⟨by omega, by omega, this.2.2⟩

end Source

end Dbml
