import Dbml.Proofs.Joining.Tokens
import Dbml.Proofs.Respacing.Copied
import Dbml.Proofs.Respacing.Locations

/-!
# Two sources on successive lines

The source of two texts with a line end between them holds the sources of both, the second one moved
by the tokens and the lines before it. Main statements: `joined_ofString`, `Embedded.copied` and
`Joined.location`.
-/

namespace Dbml

open Text
open Token (Run behindLast)

namespace Location

variable {here : Location} {lines bytes : Nat} {cs : List Char}

/-- The location a number of lines further down. -/
def below (here : Location) (lines : Nat) : Location :=
  ⟨here.line + lines, here.column⟩

theorem next_below (c : Char) : (here.below lines).next c = (here.next c).below lines := by
  rw [next, next]
  split
  · simp only [below, Nat.add_right_comm]
  · rfl

theorem advance_below :
    (here.below lines).advance bytes cs = (here.advance bytes cs).below lines := by
  induction cs generalizing here bytes with
  | nil => rfl
  | cons c cs ih =>
    by_cases done : bytes = 0
    · rw [done, advance_zero, advance_zero]
    by_cases inside : bytes < c.utf8Size
    · rw [advance, advance, if_neg done, if_neg done, if_pos inside, if_pos inside]
      rfl
    · obtain ⟨more, rfl⟩ := Nat.exists_eq_add_of_le (Nat.not_lt.1 inside)
      rw [advance_cons, advance_cons, next_below, ih]

/-- Behind some characters, the line is counted on by the line ends among them. -/
theorem advance_line : (here.advance (byteSize cs) cs).line = here.line + cs.count '\n' := by
  induction cs generalizing here with
  | nil => rfl
  | cons c cs ih =>
    rw [byteSize_cons, advance_cons, ih, next, List.count_cons]
    by_cases newline : c = '\n'
    · simp only [newline, if_true, beq_self_eq_true]
      omega
    · simp [newline]

/-- The first place of a line is reached behind the line end before it. -/
theorem advance_newline :
    (⟨1, 1⟩ : Location).advance (byteSize (cs ++ ['\n'])) (cs ++ ['\n']) =
      (⟨1, 1⟩ : Location).below (cs.count '\n' + 1) := by
  rw [byteSize_append, advance_append, byteSize_cons, advance_cons, byteSize_nil, advance_zero,
    next, if_pos rfl, advance_line, below, Nat.add_assoc]

end Location

namespace Source

/-- The text ends inside a comment that is not closed. -/
def EndsInComment (s : Source) : Prop :=
  Token.LeavesOpen (behindLast 0 s.lexemes.toList s.chars)

/-- The text and the tokens of the first source stand in the second behind some characters and `d`
tokens. -/
structure Embedded (t s : Source) (before : List Char) (d : Nat) : Prop where
  run : Run 0 t.chars t.lexemes.toList
  chars : ∃ after, s.chars = before ++ (t.chars ++ after)
  lexeme : ∀ i < t.size, s.lexemes[i + d]? = t.lexemes[i]?.map (·.shift (byteSize before))

namespace Embedded

variable {t s : Source} {before : List Char} {d i : Nat} {span : Span}

/-- The tokens of the first source are those of the second between some others. -/
theorem of_lexemes {after : List Char} {front back : List Lexeme}
    (run : Run 0 t.chars t.lexemes.toList) (chars : s.chars = before ++ (t.chars ++ after))
    (lexemes : s.lexemes.toList =
      front ++ (t.lexemes.toList.map (·.shift (byteSize before)) ++ back)) :
    Embedded t s before front.length := by
  refine ⟨run, ⟨after, chars⟩, fun i inside => ?_⟩
  have behind : front.length ≤ i + front.length := Nat.le_add_left _ _
  have within : i < (t.lexemes.toList.map (·.shift (byteSize before))).length := by
    simpa [Source.size] using inside
  rw [← Array.getElem?_toList, lexemes, List.getElem?_append_right behind, Nat.add_sub_cancel,
    List.getElem?_append_left within, List.getElem?_map, Array.getElem?_toList]

theorem token? (embedded : Embedded t s before d) (inside : i < t.size) :
    s.token? (i + d) = t.token? i := by
  rw [Source.token?, embedded.lexeme i inside, Option.map_map]
  rfl

theorem span? (embedded : Embedded t s before d) (here : t.span? i = some span) :
    s.span? (i + d) = some ⟨span.start + byteSize before, span.stop + byteSize before⟩ := by
  have inside := lt_size_of_span? here
  obtain ⟨lexeme, found, rfl⟩ := Option.map_eq_some_iff.1 here
  rw [Source.span?, embedded.lexeme i inside, found]
  rfl

theorem isAdjacent (embedded : Embedded t s before d) (behind : 0 < i) (inside : i < t.size) :
    s.isAdjacent (i + d) = t.isAdjacent i := by
  obtain ⟨j, rfl⟩ := Nat.exists_eq_add_of_lt behind
  rw [Nat.zero_add] at inside ⊢
  obtain ⟨a, first⟩ := exists_span? (Nat.lt_of_succ_lt inside)
  obtain ⟨b, second⟩ := exists_span? inside
  have second' := embedded.span? second
  rw [Nat.add_right_comm] at second' ⊢
  rw [Source.isAdjacent, Source.isAdjacent, first, second, embedded.span? first, second']
  simp [Bool.beq_eq_decide_eq]

theorem text (embedded : Embedded t s before d) {part : TokenRange} (bound : part.stop ≤ t.size) :
    s.text (part.shift d) = t.text part := by
  by_cases empty : part.isEmpty = true
  · rw [Source.text, Source.text, TokenRange.shift_isEmpty, empty]
    rfl
  have order : part.start < part.stop := by
    simpa only [TokenRange.isEmpty, decide_eq_true_eq, Nat.not_le] using empty
  obtain ⟨a, first⟩ := exists_span? (Nat.lt_of_lt_of_le order bound)
  obtain ⟨b, last⟩ := exists_span? (show part.stop - 1 < t.size by omega)
  obtain ⟨front, middle, c, tail, behind, parts, start, -, stop⟩ :=
    exists_spellings embedded.run (Nat.le_sub_one_of_lt order) first last
  obtain ⟨after, whole⟩ := embedded.chars
  have last' := embedded.span? last
  rw [show part.stop - 1 + d = part.stop + d - 1 by omega] at last'
  rw [text_of_span? (by simpa using order) (embedded.span? first) last',
    text_of_span? order first last, whole, parts, start, stop]
  have size : byteSize front + byteSize middle + byteSize (c :: tail) =
      byteSize front + byteSize (middle ++ c :: tail) := by
    rw [byteSize_append, Nat.add_assoc]
  have here := slice_append (before ++ front) (middle ++ c :: tail) (behind ++ after)
  have there := slice_append front (middle ++ c :: tail) behind
  rw [byteSize_append, Nat.add_comm (byteSize before), Nat.add_right_comm] at here
  simp only [List.append_assoc] at here there ⊢
  rw [size, here, there]

/-- A source stands in itself. -/
theorem refl {text : String} (read : ofString text = .ok t) :
    Embedded t t [] 0 := by
  obtain ⟨chars, run⟩ := ofString_eq_ok.1 read
  rw [← chars] at run
  refine ⟨run, ⟨[], by simp⟩, fun i inside => ?_⟩
  cases t.lexemes[i]? <;> rfl

/-- A source has no more tokens than another one at whose beginning it stands. -/
theorem size_le (embedded : Embedded t s before 0) : t.size ≤ s.size := by
  refine Nat.le_of_not_lt fun more => ?_
  obtain ⟨token, here⟩ := exists_token? more
  have there : s.token? s.size = some token := (embedded.token? more).trans here
  exact Nat.lt_irrefl _ (lt_size_of_token? there)

/-- All tokens of the first source are copied. -/
theorem copied (embedded : Embedded t s before d) : Copied t s (· + d) d t.all where
  bound := Nat.le_refl _
  place _ _ _ := rfl
  token _ _ := embedded.token?
  adjacent _ := embedded.isAdjacent
  text _ _ := embedded.text

end Embedded

/-! ## Joined sources -/

/-- The third source is the first two with a line end between them. -/
structure Joined (a b s : Source) : Prop where
  first : Run 0 a.chars a.lexemes.toList
  second : Run 0 b.chars b.lexemes.toList
  chars : s.chars = a.chars ++ '\n' :: b.chars
  lexemes : s.lexemes.toList = a.lexemes.toList ++ .newlineAt (byteSize a.chars) ::
    b.lexemes.toList.map (·.shift (byteSize a.chars + 1))

/-- The texts of two sources with a line end between them are read as the joined source, if the
first does not end inside a comment. -/
theorem joined_ofString {a b : Source} {first second : String} (readFirst : ofString first = .ok a)
    (readSecond : ofString second = .ok b) (closed : ¬ a.EndsInComment) :
    ∃ s, ofString (first ++ "\n" ++ second) = .ok s ∧ Joined a b s := by
  obtain ⟨charsA, runA⟩ := ofString_eq_ok.1 readFirst
  obtain ⟨charsB, runB⟩ := ofString_eq_ok.1 readSecond
  have chars : (first ++ "\n" ++ second).toList = a.chars ++ '\n' :: b.chars := by
    rw [charsA, charsB]
    simp
  rw [← charsA] at runA
  rw [← charsB] at runB
  have run := runA.join closed (by simpa [Nat.add_assoc] using runB.shift (byteSize a.chars + 1))
  rw [Nat.zero_add] at run
  exact ⟨⟨_, (a.lexemes.toList ++ .newlineAt (byteSize a.chars) ::
    b.lexemes.toList.map (·.shift (byteSize a.chars + 1))).toArray⟩,
    ofString_eq_ok.2 ⟨rfl, by rwa [chars]⟩, runA, runB, chars, rfl⟩

namespace Joined

variable {a b s : Source} {i : Nat}

theorem size (joined : Joined a b s) : s.size = a.size + 1 + b.size := by
  have length := congrArg List.length joined.lexemes
  simp only [Array.length_toList, List.length_append, List.length_cons, List.length_map] at length
  simp only [Source.size]
  omega

theorem embedded_first (joined : Joined a b s) : Embedded a s [] 0 := by
  have same : (fun l : Lexeme => l.shift (byteSize [])) = id := rfl
  have parts : s.lexemes.toList = [] ++ (a.lexemes.toList.map (·.shift (byteSize [])) ++
      .newlineAt (byteSize a.chars) :: b.lexemes.toList.map (·.shift (byteSize a.chars + 1))) := by
    rw [same, List.map_id]
    exact joined.lexemes
  exact .of_lexemes joined.first joined.chars parts

/-- The tokens of the second source stand behind those of the first and the line end. -/
theorem lexeme (joined : Joined a b s) (i : Nat) : s.lexemes[i + (a.size + 1)]? =
    b.lexemes[i]?.map (·.shift (byteSize (a.chars ++ ['\n']))) := by
  have behind : a.lexemes.toList.length ≤ i + (a.size + 1) :=
    Nat.le_trans (Nat.le_succ a.size) (Nat.le_add_left _ _)
  have place : i + (a.size + 1) - a.lexemes.toList.length = i + 1 := by
    rw [Array.length_toList, ← Source.size]
    omega
  rw [← Array.getElem?_toList, joined.lexemes, List.getElem?_append_right behind, place,
    List.getElem?_cons_succ, List.getElem?_map, Array.getElem?_toList, byteSize_append]
  rfl

theorem embedded_second (joined : Joined a b s) :
    Embedded b s (a.chars ++ ['\n']) (a.size + 1) :=
  ⟨joined.second, ⟨[], by rw [joined.chars]; simp⟩, fun i _ => joined.lexeme i⟩

theorem token? (joined : Joined a b s) (i : Nat) : s.token? (i + (a.size + 1)) = b.token? i := by
  rw [Source.token?, joined.lexeme, Option.map_map]
  rfl

/-- Behind the tokens of the first source comes a line end. -/
theorem token?_between (joined : Joined a b s) : s.token? a.size = some .newline := by
  have last : a.lexemes.toList.length ≤ a.size := Nat.le_refl _
  rw [Source.token?, ← Array.getElem?_toList, joined.lexemes, List.getElem?_append_right last,
    Array.length_toList, ← Source.size, Nat.sub_self]
  rfl

/-- The tokens of the second source stand below all lines of the first, in the same columns. -/
theorem location (joined : Joined a b s) (i : Nat) :
    s.location (i + (a.size + 1)) = (b.location i).below (a.chars.count '\n' + 1) := by
  have chars : s.chars = (a.chars ++ ['\n']) ++ b.chars := by
    rw [joined.chars]
    simp
  have start : (s.span? (i + (a.size + 1))).elim (byteSize s.chars) (·.start) =
      byteSize (a.chars ++ ['\n']) + (b.span? i).elim (byteSize b.chars) (·.start) := by
    rw [span?, joined.lexeme, span?, chars]
    cases b.lexemes[i]? with
    | none => simp only [Option.map_none, Option.elim_none, byteSize_append]
    | some lexeme => exact Nat.add_comm _ _
  rw [Source.location, start, Source.location, chars, Location.ofOffset, Location.advance_append,
    Location.advance_newline, Location.advance_below, Location.ofOffset]

end Joined

end Source

end Dbml
