import Dbml.Proofs.Source.Lossless

/-!
# Line breaks before and behind tokens

Line breaks may be put into a text wherever a token begins or ends. The tokens of the new text are
those of the old one, moved by the breaks before them, and a line end for each break. Main
statement: `exists_run_insertBreaks`.
-/

namespace Dbml

open Text
open Token (Run Gap EndsGap ReadsAs Curtailed)

variable {breaks : Nat → Nat} {offset : Nat} {cs ds : List Char}

/-! ## Breaks in a text -/

/-- The characters, which begin at byte `offset`, with `breaks p` line breaks at each byte
position `p`. -/
def insertBreaks (breaks : Nat → Nat) (offset : Nat) : List Char → List Char
  | [] => List.replicate (breaks offset) '\n'
  | c :: cs =>
    List.replicate (breaks offset) '\n' ++ c :: insertBreaks breaks (offset + c.utf8Size) cs

/-- The number of breaks before the characters, each of them with its position. -/
def breaksIn (breaks : Nat → Nat) (offset : Nat) : List Char → Nat
  | [] => 0
  | c :: cs => breaks offset + breaksIn breaks (offset + c.utf8Size) cs

/-- The number of breaks up to and at a byte position. -/
def breaksUpTo (breaks : Nat → Nat) (cs : List Char) (position : Nat) : Nat :=
  breaksIn breaks 0 (takeBytes position cs) + breaks position

theorem breaksIn_append : breaksIn breaks offset (cs ++ ds) =
    breaksIn breaks offset cs + breaksIn breaks (offset + byteSize cs) ds := by
  induction cs generalizing offset with
  | nil => simp [breaksIn]
  | cons c cs ih =>
    rw [List.cons_append, breaksIn, breaksIn, ih, byteSize_cons, Nat.add_assoc, Nat.add_assoc]

@[simp] theorem breaksUpTo_append : breaksUpTo breaks (cs ++ ds) (byteSize cs) =
    breaksIn breaks 0 cs + breaks (byteSize cs) := by
  rw [breaksUpTo, takeBytes_byteSize_append]

@[simp] theorem breaksUpTo_all : breaksUpTo breaks cs (byteSize cs) =
    breaksIn breaks 0 cs + breaks (byteSize cs) := by
  have whole : breaksUpTo breaks (cs ++ []) (byteSize cs) = _ := breaksUpTo_append
  rwa [List.append_nil] at whole

theorem breaksIn_eq_zero (none : ∀ p, offset ≤ p → p < offset + byteSize cs → breaks p = 0) :
    breaksIn breaks offset cs = 0 := by
  induction cs generalizing offset with
  | nil => rfl
  | cons c cs ih =>
    have size := c.utf8Size_pos
    rw [byteSize_cons] at none
    rw [breaksIn, none offset (Nat.le_refl _) (by omega), Nat.zero_add]
    exact ih fun p low high => none p (by omega) (by omega)

/-- Characters before which there is no break stay as they are. -/
theorem insertBreaks_append (none : breaksIn breaks offset cs = 0) :
    insertBreaks breaks offset (cs ++ ds) =
      cs ++ insertBreaks breaks (offset + byteSize cs) ds := by
  induction cs generalizing offset with
  | nil => simp
  | cons c cs ih =>
    rw [breaksIn, Nat.add_eq_zero_iff] at none
    rw [List.cons_append, insertBreaks, none.1, List.replicate_zero, List.nil_append, ih none.2,
      byteSize_cons, Nat.add_assoc, List.cons_append]

/-- What stands before a character is treated by itself. -/
theorem insertBreaks_append_cons (c : Char) :
    insertBreaks breaks offset (cs ++ c :: ds) = insertBreaks breaks offset cs ++
      c :: insertBreaks breaks (offset + byteSize cs + c.utf8Size) ds := by
  induction cs generalizing offset with
  | nil => simp [insertBreaks]
  | cons d cs ih =>
    rw [List.cons_append, insertBreaks, insertBreaks, ih, byteSize_cons, List.append_assoc,
      List.cons_append, Nat.add_assoc offset]

theorem byteSize_insertBreaks : byteSize (insertBreaks breaks offset cs) =
    byteSize cs + (breaksIn breaks offset cs + breaks (offset + byteSize cs)) := by
  have lines (n : Nat) : byteSize (List.replicate n '\n') = n := by
    induction n with
    | zero => rfl
    | succ n ih =>
      rw [List.replicate_succ, byteSize_cons, ih]
      exact Nat.add_comm 1 n
  induction cs generalizing offset with
  | nil => simp [insertBreaks, breaksIn, lines]
  | cons c cs ih =>
    rw [insertBreaks, byteSize_append, lines, byteSize_cons, ih, byteSize_cons, breaksIn,
      Nat.add_assoc offset]
    omega

/-! ## Tokens of breaks -/

/-- Line ends from byte `offset` on. -/
def lineEnds (offset : Nat) : Nat → List Lexeme
  | 0 => []
  | n + 1 => ⟨.newline, offset, offset + 1⟩ :: lineEnds (offset + 1) n

theorem length_lineEnds (offset n : Nat) : (lineEnds offset n).length = n := by
  induction n generalizing offset with
  | zero => rfl
  | succ n ih => rw [lineEnds, List.length_cons, ih]

theorem token_of_mem_lineEnds {n : Nat} : ∀ l ∈ lineEnds offset n, l.token = .newline := by
  induction n generalizing offset with
  | zero => exact fun l listed => absurd listed List.not_mem_nil
  | succ n ih =>
    intro l listed
    rcases List.mem_cons.1 listed with rfl | later
    · rfl
    · exact ih l later

theorem run_lineEnds {n : Nat} {lexemes : List Lexeme} (run : Run (offset + n) cs lexemes) :
    Run offset (List.replicate n '\n' ++ cs) (lineEnds offset n ++ lexemes) := by
  induction n generalizing offset with
  | zero => exact run
  | succ n ih =>
    have rest :
        Run (offset + 1) (List.replicate n '\n' ++ cs) (lineEnds (offset + 1) n ++ lexemes) :=
      ih (by rwa [Nat.add_assoc, Nat.add_comm 1])
    exact @Run.token offset [] '\n' [] _ .newline _ (.nil _) (.inl rfl) (.newline _) rest

/-- Line ends between a gap and the token behind it. -/
theorem run_gap_lineEnds {gap tail rest : List Char} {c : Char} {token : Token} {n : Nat}
    {lexemes : List Lexeme} (between : Gap gap (c :: (tail ++ rest)))
    (ends : EndsGap (c :: (tail ++ rest))) (reads : ReadsAs c tail rest token)
    (others : Run (offset + byteSize gap + n + byteSize (c :: tail)) rest lexemes) :
    Run offset (gap ++ (List.replicate n '\n' ++ c :: (tail ++ rest)))
      (lineEnds (offset + byteSize gap) n ++
        ⟨token, offset + byteSize gap + n, offset + byteSize gap + n + byteSize (c :: tail)⟩
          :: lexemes) := by
  cases n with
  | zero => exact .token between ends reads others
  | succ n =>
    -- The first line end is the one with the gap before it.
    have first : Gap gap ('\n' :: ([] ++ (List.replicate n '\n' ++ c :: (tail ++ rest)))) :=
      between.replace (by simp) fun _ => .inr rfl
    have place : offset + byteSize gap + 1 + n = offset + byteSize gap + (n + 1) := by omega
    have last : Run (offset + byteSize gap + 1 + n) (c :: (tail ++ rest))
        (⟨token, offset + byteSize gap + (n + 1),
          offset + byteSize gap + (n + 1) + byteSize (c :: tail)⟩ :: lexemes) := by
      rw [place]
      exact .token (.nil _) ends reads others
    exact .token first (.inl rfl) (.newline _) (run_lineEnds last)

/-! ## The tokens of the new text -/

/-- The token moved by a number of bytes. -/
def Lexeme.shift (lexeme : Lexeme) (n : Nat) : Lexeme :=
  ⟨lexeme.token, lexeme.span.start + n, lexeme.span.stop + n⟩

/-- The second tokens are the first ones with line ends between them; `before` line ends come
before all of them, and `total` is the number of all. A token is moved by the line ends before
it, and `moved` says how many they are. -/
inductive Spread (moved : Lexeme → Nat) (total : Nat) : Nat → List Lexeme → List Lexeme → Prop
  | last {before : Nat} {ends : List Lexeme} (newlines : ∀ l ∈ ends, l.token = .newline)
    (count : before + ends.length = total) : Spread moved total before [] ends
  | token {before : Nat} {lexeme : Lexeme} {ends lexemes lexemes' : List Lexeme}
    (newlines : ∀ l ∈ ends, l.token = .newline) (count : before + ends.length = moved lexeme)
    (others : Spread moved total (moved lexeme) lexemes lexemes') :
    Spread moved total before (lexeme :: lexemes)
      (ends ++ lexeme.shift (moved lexeme) :: lexemes')

/-- The new text goes on like the old one up to the first break. -/
theorem curtailed_insertBreaks : Curtailed cs (insertBreaks breaks offset cs) := by
  induction cs generalizing offset with
  | nil =>
    rw [insertBreaks]
    cases breaks offset with
    | zero => exact .nil []
    | succ n => exact .newline _ _
  | cons c cs ih =>
    rw [insertBreaks]
    cases breaks offset with
    | zero => exact .cons c ih
    | succ n => exact .newline _ _

/-- Without breaks inside a gap and the token behind it, there are some before the gap and some
between the two. -/
theorem insertBreaks_token {gap tail rest : List Char} {c : Char}
    (apart : ∀ p, offset < p → p < offset + byteSize gap → breaks p = 0)
    (whole : ∀ p, offset + byteSize gap < p → p < offset + byteSize gap + byteSize (c :: tail) →
      breaks p = 0) :
    insertBreaks breaks offset (gap ++ c :: (tail ++ rest)) =
      List.replicate (breaksIn breaks offset gap) '\n' ++
        (gap ++ (List.replicate (breaks (offset + byteSize gap)) '\n' ++ c :: (tail ++
          insertBreaks breaks (offset + byteSize gap + byteSize (c :: tail)) rest))) := by
  have token : insertBreaks breaks (offset + byteSize gap) (c :: (tail ++ rest)) =
      List.replicate (breaks (offset + byteSize gap)) '\n' ++ c :: (tail ++
        insertBreaks breaks (offset + byteSize gap + byteSize (c :: tail)) rest) := by
    have size := c.utf8Size_pos
    rw [byteSize_cons] at whole
    rw [insertBreaks, insertBreaks_append, byteSize_cons, Nat.add_assoc]
    exact breaksIn_eq_zero fun p low high => whole p (by omega) (by omega)
  cases gap with
  | nil => exact token
  | cons g gap =>
    have size := g.utf8Size_pos
    rw [byteSize_cons] at apart
    have none : breaksIn breaks (offset + g.utf8Size) gap = 0 :=
      breaksIn_eq_zero fun p low high => apart p (by omega) (by omega)
    rw [List.cons_append, insertBreaks, insertBreaks_append none, breaksIn, none, Nat.add_zero,
      Nat.add_assoc, ← byteSize_cons, token, List.cons_append]

/-- Without breaks behind it, a text only gets those in front. -/
theorem insertBreaks_front (none : ∀ p, offset < p → breaks p = 0) :
    insertBreaks breaks offset cs = List.replicate (breaks offset) '\n' ++ cs ∧
      breaksIn breaks offset cs + breaks (offset + byteSize cs) = breaks offset := by
  cases cs with
  | nil => simp [insertBreaks, breaksIn]
  | cons c cs =>
    have size := c.utf8Size_pos
    have rest : breaksIn breaks (offset + c.utf8Size) cs = 0 :=
      breaksIn_eq_zero fun p low _ => none p (by omega)
    have kept : insertBreaks breaks (offset + c.utf8Size) (cs ++ []) = _ :=
      insertBreaks_append rest
    rw [List.append_nil, insertBreaks, none _ (by omega), List.replicate_zero, List.append_nil]
      at kept
    have last : breaks (offset + byteSize (c :: cs)) = 0 := none _ (by rw [byteSize_cons]; omega)
    rw [insertBreaks, kept, breaksIn, rest, last]
    exact ⟨rfl, rfl⟩

/-- The breaks before the text behind a token are those up to the token. -/
theorem breaksIn_token {front gap tail : List Char} {c : Char} (here : offset = byteSize front)
    (whole : ∀ p, offset + byteSize gap < p → p < offset + byteSize gap + byteSize (c :: tail) →
      breaks p = 0) :
    breaksIn breaks 0 (front ++ (gap ++ c :: tail)) =
      breaksIn breaks 0 front + breaksIn breaks offset gap + breaks (offset + byteSize gap) := by
  have size := c.utf8Size_pos
  have none : breaksIn breaks (offset + byteSize gap + c.utf8Size) tail = 0 :=
    breaksIn_eq_zero fun p low high => whole p (by omega) (by rw [byteSize_cons]; omega)
  rw [breaksIn_append, breaksIn_append, breaksIn, Nat.zero_add, ← here, none, Nat.add_zero,
    Nat.add_assoc]

/-- A gap and the token behind it are read as before, with breaks in front of either. -/
theorem run_insertBreaks_token {gap tail rest : List Char} {c : Char} {token : Token}
    {place : Nat} {lexemes : List Lexeme}
    (apart : ∀ p, offset < p → p < offset + byteSize gap → breaks p = 0)
    (whole : ∀ p, offset + byteSize gap < p → p < offset + byteSize gap + byteSize (c :: tail) →
      breaks p = 0)
    (between : Gap gap (c :: (tail ++ rest))) (ends : EndsGap (c :: (tail ++ rest)))
    (reads : ReadsAs c tail rest token)
    (others : Run (place + breaksIn breaks offset gap + byteSize gap +
        breaks (offset + byteSize gap) + byteSize (c :: tail))
      (insertBreaks breaks (offset + byteSize gap + byteSize (c :: tail)) rest) lexemes) :
    Run place (insertBreaks breaks offset (gap ++ c :: (tail ++ rest)))
      (lineEnds place (breaksIn breaks offset gap) ++
        (lineEnds (place + breaksIn breaks offset gap + byteSize gap)
            (breaks (offset + byteSize gap)) ++
          ⟨token,
            place + breaksIn breaks offset gap + byteSize gap + breaks (offset + byteSize gap),
            place + breaksIn breaks offset gap + byteSize gap + breaks (offset + byteSize gap) +
              byteSize (c :: tail)⟩ :: lexemes)) := by
  have curtailed : Curtailed (tail ++ rest) (tail ++ insertBreaks breaks
      (offset + byteSize gap + byteSize (c :: tail)) rest) := curtailed_insertBreaks.append tail
  have short : Gap gap (c :: (tail ++ insertBreaks breaks
      (offset + byteSize gap + byteSize (c :: tail)) rest)) :=
    between.replace (List.cons_ne_nil _ _) fun head => .inr head
  rw [insertBreaks_token apart whole]
  exact run_lineEnds (run_gap_lineEnds short (ends.curtailed curtailed)
    (reads.curtailed curtailed_insertBreaks) others)

/-- Behind byte `offset`, breaks stand only where one of the tokens begins or ends. -/
def AtTokens (breaks : Nat → Nat) (offset : Nat) (lexemes : List Lexeme) : Prop :=
  ∀ p, offset < p → breaks p ≠ 0 → ∃ l ∈ lexemes, p = l.span.start ∨ p = l.span.stop

section AtTokens

variable {lexemes : List Lexeme}

theorem AtTokens.eq_zero (placed : AtTokens breaks offset lexemes) {p : Nat} (low : offset < p)
    (apart : ∀ l ∈ lexemes, p ≠ l.span.start ∧ p ≠ l.span.stop) : breaks p = 0 := by
  refine Decidable.not_not.1 fun broken => ?_
  obtain ⟨l, listed, same⟩ := placed p low broken
  exact same.elim (apart l listed).1 (apart l listed).2

/-- Behind the first token, breaks stand only where the others begin or end. -/
theorem AtTokens.tail {first : Lexeme} (placed : AtTokens breaks offset (first :: lexemes))
    (order : first.span.start ≤ first.span.stop) (behind : offset ≤ first.span.stop) :
    AtTokens breaks first.span.stop lexemes := by
  intro p low broken
  obtain ⟨l, listed, same⟩ := placed p (by omega) broken
  rcases List.mem_cons.1 listed with rfl | listed
  · omega
  · exact ⟨l, listed, same⟩

end AtTokens

/-- Breaks where tokens begin or end, and nowhere else behind the place where the text begins, leave
the tokens as they are but for their places. -/
theorem exists_run_insertBreaks {front : List Char} {lexemes : List Lexeme}
    (run : Run offset cs lexemes) (here : offset = byteSize front)
    (placed : AtTokens breaks offset lexemes) :
    ∃ lexemes', Run (offset + breaksIn breaks 0 front) (insertBreaks breaks offset cs) lexemes' ∧
      Spread (fun l => breaksUpTo breaks (front ++ cs) l.span.start)
        (breaksUpTo breaks (front ++ cs) (byteSize (front ++ cs)))
        (breaksIn breaks 0 front) lexemes lexemes' := by
  induction run generalizing front with
  | @last offset gap last =>
    obtain ⟨text, count⟩ := @insertBreaks_front breaks offset gap fun p behind =>
      placed.eq_zero behind fun l listed => absurd listed List.not_mem_nil
    refine ⟨lineEnds (offset + breaksIn breaks 0 front) (breaks offset), ?_,
      .last token_of_mem_lineEnds ?_⟩
    · rw [text, ← List.append_nil (lineEnds _ _)]
      exact run_lineEnds (.last last)
    · rw [length_lineEnds, breaksUpTo_all, breaksIn_append, Nat.zero_add, byteSize_append, ← here,
        Nat.add_assoc, count]
  | @token offset gap c tail rest token lexemes between ends reads others ih =>
    have later := others.bounds
    have apart : ∀ p, offset < p → p < offset + byteSize gap → breaks p = 0 := fun p low high =>
      placed.eq_zero low (List.forall_mem_cons.2 ⟨by simp only; omega, fun l listed => by
        have := later l listed
        omega⟩)
    have whole : ∀ p, offset + byteSize gap < p →
        p < offset + byteSize gap + byteSize (c :: tail) → breaks p = 0 := fun p low high =>
      placed.eq_zero (by omega) (List.forall_mem_cons.2 ⟨by simp only; omega, fun l listed => by
        have := later l listed
        omega⟩)
    have place : offset + byteSize gap + byteSize (c :: tail) =
        byteSize (front ++ (gap ++ c :: tail)) := by
      simp only [byteSize_append, here]
      omega
    obtain ⟨lexemes', run, spread⟩ :=
      ih place (placed.tail (Nat.le_add_right _ _) (by simp only; omega))
    have text : front ++ (gap ++ c :: tail) ++ rest = front ++ (gap ++ c :: (tail ++ rest)) := by
      simp
    have before := @breaksIn_token breaks offset front gap tail c here whole
    have moved : breaksUpTo breaks (front ++ (gap ++ c :: (tail ++ rest)))
        (offset + byteSize gap) = breaksIn breaks 0 front + breaksIn breaks offset gap +
          breaks (offset + byteSize gap) := by
      rw [here, ← byteSize_append, ← List.append_assoc, breaksUpTo_append, breaksIn_append,
        Nat.zero_add]
    have after : offset + byteSize gap + byteSize (c :: tail) +
        breaksIn breaks 0 (front ++ (gap ++ c :: tail)) =
        offset + breaksIn breaks 0 front + breaksIn breaks offset gap + byteSize gap +
          breaks (offset + byteSize gap) + byteSize (c :: tail) := by
      rw [before]
      omega
    have same : (⟨token, offset + breaksIn breaks 0 front + breaksIn breaks offset gap +
          byteSize gap + breaks (offset + byteSize gap),
        offset + breaksIn breaks 0 front + breaksIn breaks offset gap +
          byteSize gap + breaks (offset + byteSize gap) + byteSize (c :: tail)⟩ : Lexeme) =
        Lexeme.shift ⟨token, offset + byteSize gap, offset + byteSize gap + byteSize (c :: tail)⟩
          (breaksUpTo breaks (front ++ (gap ++ c :: (tail ++ rest))) (offset + byteSize gap)) := by
      rw [moved, Lexeme.shift]
      congr 2 <;> simp only <;> omega
    rw [after] at run
    rw [text, before, ← moved] at spread
    have respaced := run_insertBreaks_token apart whole between ends reads run
    rw [← List.append_assoc, same] at respaced
    refine ⟨_, respaced, .token (fun l listed => ?_) ?_ spread⟩
    · rcases List.mem_append.1 listed with first | second
      · exact token_of_mem_lineEnds l first
      · exact token_of_mem_lineEnds l second
    · rw [List.length_append, length_lineEnds, length_lineEnds, moved, Nat.add_assoc]

end Dbml
