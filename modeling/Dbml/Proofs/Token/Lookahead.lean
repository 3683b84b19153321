import Dbml.Proofs.Token.Ahead

/-!
# What a reader looks ahead to

A token is read by what it is written with and a look at what follows. A text that goes on like
another, up to a place where it ends or a line end begins, is read as the same token. Main
statement: `splitQuoted_none_curtailed`.
-/

namespace Dbml.Token

open Text

/-- The second text goes on like the first, up to a place where it ends or a line end begins. -/
inductive Curtailed : List Char → List Char → Prop
  | nil (cs : List Char) : Curtailed cs []
  | newline (cs more : List Char) : Curtailed cs ('\n' :: more)
  | cons (c : Char) {cs ds : List Char} (rest : Curtailed cs ds) : Curtailed (c :: cs) (c :: ds)

namespace Curtailed

variable {cs ds : List Char} {c : Char}

theorem append (before : List Char) (curtailed : Curtailed cs ds) :
    Curtailed (before ++ cs) (before ++ ds) := by
  induction before with
  | nil => exact curtailed
  | cons c before ih => exact .cons c ih

theorem cut (before after : List Char) : Curtailed (before ++ after) before := by
  simpa using (Curtailed.nil after).append before

theorem eq_nil (curtailed : Curtailed [] ds) : ds = [] ∨ ds.head? = some '\n' := by
  cases curtailed with
  | nil => exact .inl rfl
  | newline => exact .inr rfl

/-- What begins with `c` is followed by a text that begins with `c`, ends or begins with a line
end. -/
theorem of_cons (curtailed : Curtailed (c :: cs) ds) :
    ds = [] ∨ ds.head? = some '\n' ∨ ∃ rest, ds = c :: rest ∧ Curtailed cs rest := by
  cases curtailed with
  | nil => exact .inl rfl
  | newline => exact .inr (.inl rfl)
  | cons _ rest => exact .inr (.inr ⟨_, rfl, rest⟩)

theorem noFurther (curtailed : Curtailed cs ds) : NoFurther cs ds := by
  induction curtailed with
  | nil cs => exact .nil cs
  | newline cs more => exact .separated (separates_of_isBlank (by decide)) cs more
  | cons c _ ih => exact .cons (.refl c) ih

end Curtailed

/-! ## Runs of characters of a class -/

theorem takeWhile_append_stop {p : Char → Bool} {cs rest : List Char} (run : ∀ c ∈ cs, p c = true)
    (stops : ∀ c ∈ rest.head?, p c = false) :
    (cs ++ rest).takeWhile p = cs ∧ (cs ++ rest).dropWhile p = rest := by
  rw [List.takeWhile_append_of_pos run, List.dropWhile_append_of_pos run]
  cases rest with
  | nil => simp
  | cons c rest => simp [stops c rfl]

/-- Characters are those in front that belong to the class, and others. -/
theorem exists_run (p : Char → Bool) (cs : List Char) :
    ∃ run rest, cs = run ++ rest ∧ (∀ c ∈ run, p c = true) ∧ ∀ c ∈ rest.head?, p c = false := by
  refine ⟨cs.takeWhile p, cs.dropWhile p, List.takeWhile_append_dropWhile.symm,
    List.all_eq_true.1 List.all_takeWhile, fun c here => ?_⟩
  have stops := List.head?_dropWhile_not p cs
  rw [here] at stops
  simpa using stops

/-! ## Numbers -/

/-- What follows the first digit of a number: digits, and perhaps a point and more of them. -/
inductive NumberTail : List Char → Prop
  | whole {digits : List Char} (whole : ∀ c ∈ digits, c.isDigit = true) : NumberTail digits
  | fraction {digits decimals : List Char} (whole : ∀ c ∈ digits, c.isDigit = true)
    (some_digit : decimals ≠ []) (fraction : ∀ c ∈ decimals, c.isDigit = true) :
    NumberTail (digits ++ '.' :: decimals)

/-- No number with this tail goes on with these characters: neither with a digit, nor, if it has no
point yet, with a point and a digit. -/
structure NumberStops (tail rest : List Char) : Prop where
  digit : ∀ c ∈ rest.head?, c.isDigit = false
  fraction : '.' ∉ tail → ∀ d more, rest = '.' :: d :: more → d.isDigit = false

theorem not_isDigit_dot : '.'.isDigit = false := by decide

theorem dot_notMem_digits {digits : List Char} (whole : ∀ c ∈ digits, c.isDigit = true) :
    '.' ∉ digits := by
  intro listed
  have digit := whole _ listed
  rw [not_isDigit_dot] at digit
  cases digit

/-- No character of a number is white space. -/
theorem NumberTail.solid {tail : List Char} (number : NumberTail tail) :
    ∀ d ∈ tail, isBlank d = false := by
  cases number with
  | whole whole => exact fun d listed => isBlank_digit (whole d listed)
  | fraction whole some_digit fraction =>
    intro d listed
    rcases List.mem_append.1 listed with before | behind
    · exact isBlank_digit (whole d before)
    · rcases List.mem_cons.1 behind with rfl | later
      · decide
      · exact isBlank_digit (fraction d later)

/-- The tail of a number is split off in front of what does not continue it. -/
theorem splitNumber_append_stop {tail rest : List Char} (number : NumberTail tail)
    (stops : NumberStops tail rest) : splitNumber (tail ++ rest) = (tail, rest) := by
  cases number with
  | whole whole =>
    obtain ⟨taken, left⟩ := takeWhile_append_stop whole stops.digit
    have noFraction := stops.fraction (dot_notMem_digits whole)
    rw [splitNumber]
    simp only [taken, left]
    split
    next d more => rw [if_neg (by simp [noFraction d more rfl])]
    · rfl
  | @fraction digits decimals whole some_digit fraction =>
    obtain ⟨d, decimals, rfl⟩ := List.exists_cons_of_ne_nil some_digit
    have stop : ∀ c ∈ ('.' :: d :: decimals ++ rest).head?, c.isDigit = false := by
      simp [not_isDigit_dot]
    obtain ⟨taken, left⟩ := takeWhile_append_stop whole stop
    obtain ⟨taken', left'⟩ :=
      takeWhile_append_stop (fun c listed => fraction c (List.mem_cons_of_mem d listed)) stops.digit
    have first := fraction d (by simp)
    rw [List.append_assoc, splitNumber]
    simp only [taken, left]
    simp only [List.cons_append, first, if_true, taken', left']

/-- Whatever is split off as the tail of a number is one, and what is left does not continue it. -/
theorem splitNumber_spec (cs : List Char) :
    NumberTail (splitNumber cs).1 ∧ NumberStops (splitNumber cs).1 (splitNumber cs).2 := by
  obtain ⟨digits, rest, rfl, whole, stop⟩ := exists_run Char.isDigit cs
  by_cases fraction : ∃ d more, rest = '.' :: d :: more ∧ d.isDigit = true
  · obtain ⟨d, more, rfl, digit⟩ := fraction
    obtain ⟨decimals, rest, rfl, more, ends⟩ := exists_run Char.isDigit more
    have number : NumberTail (digits ++ '.' :: d :: decimals) := by
      refine .fraction whole (by simp) fun c listed => ?_
      rcases List.mem_cons.1 listed with rfl | later
      · exact digit
      · exact more c later
    have stops : NumberStops (digits ++ '.' :: d :: decimals) rest :=
      ⟨ends, fun noPoint => absurd (by simp) noPoint⟩
    have split := splitNumber_append_stop number stops
    rw [List.append_assoc, List.cons_append, List.cons_append] at split
    rw [split]
    exact ⟨number, stops⟩
  · have stops : NumberStops digits rest := by
      refine ⟨stop, fun _ d more same => ?_⟩
      cases digit : d.isDigit with
      | false => rfl
      | true => exact absurd ⟨d, more, same, digit⟩ fraction
    rw [splitNumber_append_stop (.whole whole) stops]
    exact ⟨.whole whole, stops⟩

theorem NumberStops.noFurther {tail rest rest' : List Char} (stops : NumberStops tail rest)
    (further : NoFurther rest rest') : NumberStops tail rest' := by
  refine ⟨further.not_head (·.digit) (·.isDigit_eq) stops.digit, fun noPoint d more same => ?_⟩
  subst same
  obtain ⟨behind, rfl, later⟩ := further.of_cons (by decide)
  refine later.not_head (·.digit) (·.isDigit_eq) (fun e here => ?_) d rfl
  obtain ⟨behind, rfl⟩ := List.head?_eq_some_iff.1 here
  exact stops.fraction noPoint e behind rfl

/-! ## Quotes -/

theorem splitQuoted_none_curtailed {quote : Char} (inline : quote ≠ '\n') {rest rest' : List Char}
    (open_ : splitQuoted quote rest = none) (curtailed : Curtailed rest rest') :
    splitQuoted quote rest' = none := by
  -- A text that ends or breaks before the quote leaves it open.
  have ended : ∀ ds : List Char, ds = [] ∨ ds.head? = some '\n' → splitQuoted quote ds = none := by
    rintro ds (rfl | head)
    · rw [splitQuoted]
    · obtain ⟨more, rfl⟩ := List.head?_eq_some_iff.1 head
      rw [splitQuoted.eq_def]
      simp [Ne.symm inline]
  induction size : rest.length using Nat.strongRecOn generalizing rest rest' with
  | ind n ih =>
  cases rest with
  | nil => exact ended rest' curtailed.eq_nil
  | cons c rest =>
    rcases curtailed.of_cons with nil | newline | ⟨later, rfl, behind⟩
    · exact ended _ (.inl nil)
    · exact ended _ (.inr newline)
    rw [splitQuoted.eq_def] at open_ ⊢
    dsimp only at open_ ⊢
    by_cases closes : c = quote
    · rw [if_pos closes] at open_
      cases open_
    rw [if_neg closes] at open_ ⊢
    by_cases newline : c = '\n'
    · rw [if_pos newline]
    rw [if_neg newline] at open_ ⊢
    by_cases escapes : (decide (c = '\\') && quote != '\x60') = true
    · rw [if_pos escapes] at open_ ⊢
      cases rest with
      | nil =>
        rcases behind.eq_nil with rfl | head
        · rfl
        · obtain ⟨more, rfl⟩ := List.head?_eq_some_iff.1 head
          rfl
      | cons e rest =>
        rcases behind.of_cons with rfl | head | ⟨later, rfl, after⟩
        · rfl
        · obtain ⟨more, rfl⟩ := List.head?_eq_some_iff.1 head
          rfl
        · dsimp only at open_ ⊢
          by_cases break_ : e = '\n'
          · rw [if_pos break_]
          · rw [if_neg break_, Option.map_eq_none_iff] at open_ ⊢
            exact ih rest.length (by rw [← size]; simp only [List.length_cons]; omega) open_ after rfl
    · rw [if_neg escapes, Option.map_eq_none_iff] at open_ ⊢
      exact ih rest.length (by simp [← size]) open_ behind rfl

end Dbml.Token
