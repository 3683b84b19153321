import Dbml.Proofs.Token.Gap
import Dbml.Proofs.Token.Spelling

/-!
# Texts before which no token goes further

What follows a token matters only as far as the token could go on there: a text with other letters,
which ends or is separated earlier, begins with no character and no pair that the first text does
not begin with. Main statements: `NoFurther.not_head`, `NoFurther.head?_eq` and
`NoFurther.take_two_eq`.
-/

namespace Dbml.Token

open Text

/-! ## Letters -/

/-- What holds of 26 capital and 26 small letters holds of all. -/
theorem of_isAlpha {p : Char → Bool}
    (all : ∀ n < 26, p (Char.ofNat (65 + n)) = true ∧ p (Char.ofNat (97 + n)) = true) {c : Char}
    (letter : c.isAlpha = true) : p c = true := by
  rcases (Bool.or_eq_true_iff.1 letter : c.isUpper = true ∨ c.isLower = true) with upper | lower
  · obtain ⟨low, high⟩ : 65 ≤ c.toNat ∧ c.toNat ≤ 90 := of_decide_eq_true upper
    have here := (all (c.toNat - 65) (by omega)).1
    rwa [show 65 + (c.toNat - 65) = c.toNat by omega, Char.ofNat_toNat] at here
  · have low : 97 ≤ c.toNat := of_decide_eq_true (Bool.and_eq_true_iff.1 lower).1
    have high : c.toNat ≤ 122 := of_decide_eq_true (Bool.and_eq_true_iff.1 lower).2
    have here := (all (c.toNat - 97) (by omega)).2
    rwa [show 97 + (c.toNat - 97) = c.toNat by omega, Char.ofNat_toNat] at here

theorem continuesWord_alpha {c : Char} (letter : c.isAlpha = true) : continuesWord c = true :=
  of_isAlpha (by decide +kernel) letter

theorem isAlphanum_alpha {c : Char} (letter : c.isAlpha = true) : c.isAlphanum = true :=
  Bool.or_eq_true_iff.2 (.inl letter)

theorem isDigit_alpha {c : Char} (letter : c.isAlpha = true) : c.isDigit = false := by
  simpa using of_isAlpha (p := fun d => !d.isDigit) (by decide) letter

/-- The same character, or a letter for a letter. -/
def Alike (c d : Char) : Prop :=
  c = d ∨ c.isAlpha = true ∧ d.isAlpha = true

namespace Alike

variable {c d : Char}

theorem refl (c : Char) : Alike c c :=
  .inl rfl

/-- A class with all letters in it, or none, does not tell such characters apart. -/
theorem class_eq {p : Char → Bool} (alike : Alike c d)
    (all : ∀ {c d : Char}, c.isAlpha = true → d.isAlpha = true → p c = p d) : p c = p d := by
  rcases alike with rfl | ⟨letter, letter'⟩
  · rfl
  · exact all letter letter'

theorem isDigit_eq (alike : Alike c d) : c.isDigit = d.isDigit :=
  alike.class_eq fun letter letter' => (isDigit_alpha letter).trans (isDigit_alpha letter').symm

theorem isAlphanum_eq (alike : Alike c d) : c.isAlphanum = d.isAlphanum :=
  alike.class_eq fun letter letter' =>
    (isAlphanum_alpha letter).trans (isAlphanum_alpha letter').symm

theorem continuesWord_eq (alike : Alike c d) : continuesWord c = continuesWord d :=
  alike.class_eq fun letter letter' =>
    (continuesWord_alpha letter).trans (continuesWord_alpha letter').symm

/-- Only a letter can stand in place of another character. -/
theorem eq_of_not_alpha (alike : Alike c d) (other : d.isAlpha = false) : c = d :=
  alike.resolve_right fun letters => by rw [letters.2] at other; cases other

end Alike

/-! ## Characters that end a token -/

/-- No token goes on with the character, and no pair of characters that tells tokens apart has it
in the second place. -/
structure Separates (d : Char) : Prop where
  word : continuesWord d = false
  alphanum : d.isAlphanum = false
  digit : d.isDigit = false
  other : d ∉ ['\'', '<', '>', '.', '/', '*']

theorem separates_of_isBlank {c : Char} (blank : isBlank c = true) : Separates c := by
  have outside {p : Char → Bool} (solid : p c = true → isBlank c = false) : p c = false := by
    cases here : p c with
    | false => rfl
    | true =>
      rw [solid here] at blank
      cases blank
  have solid : ['\'', '<', '>', '.', '/', '*'].all (fun d => !isBlank d) = true := by decide
  refine ⟨outside isBlank_continuesWord, outside isBlank_alphanum, outside isBlank_digit, ?_⟩
  intro listed
  have here := List.all_eq_true.1 solid c listed
  rw [blank] at here
  cases here

/-- The second text goes on like the first, with other letters perhaps, up to a place where it ends
or is separated. -/
inductive NoFurther : List Char → List Char → Prop
  | nil (cs : List Char) : NoFurther cs []
  | separated {d : Char} (separates : Separates d) (cs ds : List Char) : NoFurther cs (d :: ds)
  | cons {c d : Char} {cs ds : List Char} (alike : Alike c d) (rest : NoFurther cs ds) :
    NoFurther (c :: cs) (d :: ds)

namespace NoFurther

variable {cs ds : List Char}

theorem append (before : List Char) (further : NoFurther cs ds) :
    NoFurther (before ++ cs) (before ++ ds) := by
  induction before with
  | nil => exact further
  | cons c before ih => exact .cons (.refl c) ih

/-- What cannot be continued with the one text cannot be with the other. -/
theorem not_head (further : NoFurther cs ds) {p : Char → Bool}
    (separated : ∀ {d}, Separates d → p d = false) (alike : ∀ {c d}, Alike c d → p c = p d)
    (stops : ∀ c ∈ cs.head?, p c = false) : ∀ d ∈ ds.head?, p d = false := by
  intro d here
  cases further with
  | nil => cases here
  | separated separates =>
    cases here
    exact separated separates
  | @cons c _ cs ds same =>
    cases here
    rw [← alike same]
    exact stops c rfl

/-- A character that tells tokens apart stands in front of the first text, too. -/
theorem head?_eq (further : NoFurther cs ds) {d : Char}
    (pairing : d ∈ ['\'', '<', '>', '.', '/', '*']) (here : ds.head? = some d) :
    cs.head? = some d := by
  have all : ['\'', '<', '>', '.', '/', '*'].all (fun e => !e.isAlpha) = true := by decide
  have other : d.isAlpha = false := by simpa using List.all_eq_true.1 all d pairing
  cases further with
  | nil => cases here
  | separated separates =>
    cases here
    exact absurd pairing separates.other
  | cons alike =>
    cases here
    rw [alike.eq_of_not_alpha other]
    rfl

/-- Behind a character that tells tokens apart, the texts go on alike. -/
theorem of_cons {d : Char} (further : NoFurther cs (d :: ds))
    (pairing : d ∈ ['\'', '<', '>', '.', '/', '*']) : ∃ rest, cs = d :: rest ∧ NoFurther rest ds := by
  have first := further.head?_eq pairing rfl
  cases further with
  | separated separates => exact absurd pairing separates.other
  | @cons c _ cs _ _ rest =>
    cases first
    exact ⟨cs, rfl, rest⟩

/-- Two quotes in front stand in front of the first text, too. -/
theorem take_two_eq (further : NoFurther cs ds) (here : ds.take 2 = ['\'', '\'']) :
    cs.take 2 = ['\'', '\''] := by
  obtain ⟨more, rfl⟩ : ∃ more, ds = '\'' :: '\'' :: more := by
    refine ⟨ds.drop 2, ?_⟩
    rw [← List.take_append_drop 2 ds, here]
    rfl
  obtain ⟨rest, rfl, later⟩ := further.of_cons (by decide)
  obtain ⟨rest, rfl, -⟩ := later.of_cons (by decide)
  rfl

end NoFurther

theorem EndsGap.noFurther {c : Char} {cs ds : List Char} (ends : EndsGap (c :: cs)) (further : NoFurther cs ds) :
    EndsGap (c :: ds) := by
  refine ends.imp_right fun ⟨solid, noComment⟩ => ⟨solid, fun slash => ?_⟩
  exact ⟨fun head => (noComment slash).1 (further.head?_eq (by decide) head),
    fun head => (noComment slash).2 (further.head?_eq (by decide) head)⟩

end Dbml.Token
