import Dbml.Proofs.Checked.Text
import Dbml.Proofs.Source.Contents
import Dbml.Setting

/-!
# Tokens found inside bounds

Searches take the tokens of a source by their numbers, one after another, and ranges are cut out of
them; a number that no token has makes the whole reading fail. Main statements: one lemma for each
way to look into a range, that it does not fail up to the last token.
-/

namespace Dbml

open Text
open Token (Run)

variable {s : Source} {i count stop : Nat} {range : TokenRange} {p : Token → Bool}
  {left right : Mark}

namespace Checked

/-! ## Ranges -/

/-- The tokens of a range, of which the bounds must be in order and none behind the last token. -/
def tokens (s : Source) (range : TokenRange) : Option (List Token) :=
  if range.start ≤ range.stop ∧ range.stop ≤ s.size then some (s.tokens range) else none

theorem tokens_eq (order : range.start ≤ range.stop) (bound : range.stop ≤ s.size) :
    tokens s range = some (s.tokens range) :=
  if_pos ⟨order, bound⟩

/-- The text that a range covers, cut out of the source, as `Source.text` gives it. -/
def text (s : Source) (range : TokenRange) : Option String :=
  if range.isEmpty then some ""
  else do
    let first ← s.span? range.start
    let last ← s.span? (range.stop - 1)
    let part ← cut? s.chars first.start last.stop
    return String.ofList part

theorem text_eq (run : Run 0 s.chars s.lexemes.toList) (bound : range.stop ≤ s.size) :
    text s range = some (s.text range) := by
  by_cases empty : range.isEmpty = true
  · rw [text, Source.text, if_pos empty, if_pos empty]
  have order : range.start < range.stop := by
    simpa only [TokenRange.isEmpty, decide_eq_true_eq, Nat.not_le] using empty
  obtain ⟨a, first⟩ := exists_span? (Nat.lt_of_lt_of_le order bound)
  obtain ⟨b, last⟩ := exists_span? (show range.stop - 1 < s.size by omega)
  obtain ⟨front, middle, c, tail, behind, parts, start, -, stop⟩ :=
    exists_spellings run (Nat.le_sub_one_of_lt order) first last
  have size : b.stop = byteSize front + byteSize (middle ++ c :: tail) := by
    rw [stop, byteSize_append, Nat.add_assoc]
  have whole : s.chars = front ++ (middle ++ c :: tail) ++ behind := by rw [parts]; simp
  have cut : cut? s.chars a.start b.stop = some (slice s.chars a.start b.stop) := by
    rw [start, size, whole, cut?_append, slice_append]
  rw [text, if_neg empty, text_of_span? order first last, first, last]
  simp only [Option.bind_eq_bind, Option.bind_some, cut, Option.pure_def]

/-- Whether there is no gap before a token, as `Source.isAdjacent` tells. -/
def isAdjacent (s : Source) (i : Nat) : Option Bool :=
  if 0 < i ∧ i < s.size then do
    let before ← s.span? (i - 1)
    let here ← s.span? i
    return before.stop == here.start
  else some false

theorem isAdjacent_eq : isAdjacent s i = some (s.isAdjacent i) := by
  cases i with
  | zero => rfl
  | succ j =>
    by_cases inside : j + 1 < s.size
    · obtain ⟨a, before⟩ := exists_span? (Nat.lt_of_succ_lt inside)
      obtain ⟨b, here⟩ := exists_span? inside
      rw [isAdjacent, if_pos ⟨Nat.succ_pos j, inside⟩, Nat.add_sub_cancel, Source.isAdjacent,
        before, here]
      rfl
    · have none : s.span? (j + 1) = none := by
        rw [Source.span?, Array.getElem?_eq_none (Nat.not_lt.1 inside)]
        rfl
      rw [isAdjacent, if_neg fun both => inside both.2, Source.isAdjacent, none]
      cases s.span? j <;> rfl

/-! ## Searches -/

def findFrom (s : Source) (p : Token → Bool) (i : Nat) : Nat → Option (Option Nat)
  | 0 => some none
  | count + 1 => do
    let token ← s.token? i
    if p token then return some i else findFrom s p (i + 1) count

/-- The first token of the range that has the property, as `Source.find?` gives it. -/
def find? (s : Source) (range : TokenRange) (p : Token → Bool) : Option (Option Nat) :=
  findFrom s p range.start range.size

def findOutsideFrom (s : Source) (left right : Mark) (p : Token → Bool) (depth i : Nat) :
    Nat → Option (Option Nat)
  | 0 => some none
  | count + 1 => do
    let token ← s.token? i
    if token = .mark left then findOutsideFrom s left right p (depth + 1) (i + 1) count
    else if token = .mark right then findOutsideFrom s left right p (depth - 1) (i + 1) count
    else if depth = 0 ∧ p token then return some i
    else findOutsideFrom s left right p depth (i + 1) count

/-- The first token of the range outside brackets that has the property, as `Source.findOutside?`
gives it. -/
def findOutside? (s : Source) (left right : Mark) (range : TokenRange) (p : Token → Bool) :
    Option (Option Nat) :=
  findOutsideFrom s left right p 0 range.start range.size

def matchingFrom (s : Source) (left right : Mark) (depth i : Nat) : Nat → Option (Option Nat)
  | 0 => some none
  | count + 1 => do
    let token ← s.token? i
    if token = .mark left then matchingFrom s left right (depth + 1) (i + 1) count
    else if token = .mark right then
      if depth ≤ 1 then return some i else matchingFrom s left right (depth - 1) (i + 1) count
    else matchingFrom s left right depth (i + 1) count

/-- The partner of a bracket, as `Source.matching` gives it. -/
def matching (s : Source) (start stop : Nat) (left right : Mark) : Option (Option Nat) :=
  matchingFrom s left right 0 start (stop - start)

theorem findFrom_eq (bound : i + count ≤ s.size) :
    findFrom s p i count = some (s.findFrom p i count) := by
  induction count generalizing i with
  | zero => rfl
  | succ count ih =>
    obtain ⟨t, here⟩ := Source.exists_token? (s := s) (i := i) (by omega)
    rw [findFrom, Source.findFrom, here, Source.holds_of_token? here, ih (by omega),
      Option.bind_eq_bind, Option.bind_some]
    split <;> rfl

theorem find?_eq (bound : range.stop ≤ s.size) : find? s range p = some (s.find? range p) := by
  rw [find?, Source.find?]
  by_cases order : range.start ≤ range.stop
  · exact findFrom_eq (by rw [TokenRange.size]; omega)
  · rw [show range.size = 0 by rw [TokenRange.size]; omega]
    rfl

theorem findOutsideFrom_eq {depth : Nat} (bound : i + count ≤ s.size) :
    findOutsideFrom s left right p depth i count =
      some (s.findOutsideFrom left right p depth i count) := by
  induction count generalizing i depth with
  | zero => rfl
  | succ count ih =>
    obtain ⟨t, here⟩ := Source.exists_token? (s := s) (i := i) (by omega)
    have rest {depth : Nat} : findOutsideFrom s left right p depth (i + 1) count =
        some (s.findOutsideFrom left right p depth (i + 1) count) := ih (by omega)
    simp only [findOutsideFrom, Source.findOutsideFrom, here, Source.holds_of_token? here,
      Source.isMark_iff_token?, Option.some.injEq, rest, Option.bind_eq_bind, Option.bind_some]
    split
    · rfl
    split
    · rfl
    split <;> rfl

theorem findOutside?_eq (bound : range.stop ≤ s.size) :
    findOutside? s left right range p = some (s.findOutside? left right range p) := by
  rw [findOutside?, Source.findOutside?]
  by_cases order : range.start ≤ range.stop
  · exact findOutsideFrom_eq (by rw [TokenRange.size]; omega)
  · rw [show range.size = 0 by rw [TokenRange.size]; omega]
    rfl

theorem matchingFrom_eq {depth : Nat} (bound : i + count ≤ s.size) :
    matchingFrom s left right depth i count = some (s.matchingFrom left right depth i count) := by
  induction count generalizing i depth with
  | zero => rfl
  | succ count ih =>
    obtain ⟨t, here⟩ := Source.exists_token? (s := s) (i := i) (by omega)
    have rest {depth : Nat} : matchingFrom s left right depth (i + 1) count =
        some (s.matchingFrom left right depth (i + 1) count) := ih (by omega)
    simp only [matchingFrom, Source.matchingFrom, here, Source.isMark_iff_token?,
      Option.some.injEq, rest, Option.bind_eq_bind, Option.bind_some]
    split
    · rfl
    split
    · split <;> rfl
    · rfl

theorem matching_eq (bound : stop ≤ s.size) :
    matching s i stop left right = some (s.matching i stop left right) := by
  rw [matching, Source.matching]
  by_cases order : i ≤ stop
  · exact matchingFrom_eq (by omega)
  · rw [show stop - i = 0 by omega]
    rfl

/-! ## Places -/

/-- The location of a token, or of the end, as `Source.location` gives it. -/
def location (s : Source) (i : Nat) : Option Location :=
  locate? s.chars ((s.span? i).elim (byteSize s.chars) (·.start))

theorem location_eq (run : Run 0 s.chars s.lexemes.toList) :
    location s i = some (s.location i) := by
  rw [location, Source.location]
  cases here : s.span? i with
  | none =>
    have whole := Location.locate?_append s.chars []
    rwa [List.append_nil] at whole
  | some span =>
    obtain ⟨front, middle, c, tail, behind, parts, start, -, -⟩ :=
      exists_spellings run (Nat.le_refl i) here here
    rw [Option.elim_some, start, parts]
    exact Location.locate?_append _ _

end Checked

end Dbml
