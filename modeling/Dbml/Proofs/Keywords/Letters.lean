import Dbml.Proofs.Source.Blanked

/-!
# Words in other letters

A word stays a word when some of its letters change between capital and small ones, and all tokens
around it are read as before. Main statement: `Run.recase`.
-/

namespace Dbml

open Text

/-! ## Letters -/

namespace Text

/-- A letter in the other case. Characters that are no ASCII letters stay as they are. -/
def swapCase (c : Char) : Char :=
  if c.isUpper then c.toLower else if c.isLower then c.toUpper else c

/-- The characters from byte `offset` on, with those that begin at the given bytes in the other
case. -/
def recase (flips : Nat → Bool) (offset : Nat) : List Char → List Char
  | [] => []
  | c :: cs => (if flips offset then swapCase c else c) :: recase flips (offset + c.utf8Size) cs

theorem swapCase_of_not_alpha (c : Char) (other : c.isAlpha = false) : swapCase c = c := by
  obtain ⟨upper, lower⟩ : c.isUpper = false ∧ c.isLower = false := Bool.or_eq_false_iff.1 other
  rw [swapCase, upper, lower]
  rfl

/-- What is the same for each letter and the letter in its place is the same for all characters,
when other characters stay. -/
theorem blind_letters {α : Type} [BEq α] [LawfulBEq α] {g : Char → Char}
    (others : ∀ c, c.isAlpha = false → g c = c) (f : Char → α)
    (all : ∀ n < 26, (f (g (Char.ofNat (65 + n))) == f (Char.ofNat (65 + n))) = true ∧
      (f (g (Char.ofNat (97 + n))) == f (Char.ofNat (97 + n))) = true) (c : Char) :
    f (g c) = f c := by
  cases letter : c.isAlpha with
  | false => rw [others c letter]
  | true => exact eq_of_beq (Token.of_isAlpha (p := fun d => f (g d) == f d) all letter)

theorem utf8Size_swapCase (c : Char) : (swapCase c).utf8Size = c.utf8Size :=
  blind_letters swapCase_of_not_alpha Char.utf8Size (by decide +kernel) c

theorem toLower_swapCase (c : Char) : (swapCase c).toLower = c.toLower :=
  blind_letters swapCase_of_not_alpha Char.toLower (by decide +kernel) c

theorem toLower_toLower (c : Char) : c.toLower.toLower = c.toLower := by
  refine blind_letters (fun c other => ?_) Char.toLower (by decide +kernel) c
  exact dif_neg (of_decide_eq_false (Bool.or_eq_false_iff.1 other).1)

theorem beginsWord_swapCase (c : Char) : Token.beginsWord (swapCase c) = Token.beginsWord c :=
  blind_letters swapCase_of_not_alpha Token.beginsWord (by decide +kernel) c

theorem isAlpha_swapCase (c : Char) : (swapCase c).isAlpha = c.isAlpha :=
  blind_letters swapCase_of_not_alpha Char.isAlpha (by decide +kernel) c

theorem alike_swapCase (c : Char) : Token.Alike c (swapCase c) := by
  cases letter : c.isAlpha with
  | false => exact .inl (swapCase_of_not_alpha c letter).symm
  | true => exact .inr ⟨letter, by rw [isAlpha_swapCase, letter]⟩

/-! ## Texts -/

variable {flips : Nat → Bool} {offset : Nat} {cs ds : List Char}

theorem recase_append (cs ds : List Char) : recase flips offset (cs ++ ds) =
    recase flips offset cs ++ recase flips (offset + byteSize cs) ds := by
  induction cs generalizing offset with
  | nil => rfl
  | cons c cs ih => rw [List.cons_append, recase, recase, ih, byteSize_cons, Nat.add_assoc]; rfl

theorem byteSize_recase (flips : Nat → Bool) (offset : Nat) (cs : List Char) :
    byteSize (recase flips offset cs) = byteSize cs := by
  induction cs generalizing offset with
  | nil => rfl
  | cons c cs ih =>
    rw [recase, byteSize_cons, byteSize_cons, ih]
    split
    · rw [utf8Size_swapCase]
    · rfl

theorem recase_eq_self (none : ∀ p, offset ≤ p → p < offset + byteSize cs → flips p = false) :
    recase flips offset cs = cs := by
  induction cs generalizing offset with
  | nil => rfl
  | cons c cs ih =>
    have size := c.utf8Size_pos
    rw [byteSize_cons] at none
    rw [recase, none offset (Nat.le_refl _) (by omega),
      ih fun p low high => none p (by omega) (by omega)]
    rfl

theorem map_toLower_recase (flips : Nat → Bool) (offset : Nat) (cs : List Char) :
    (recase flips offset cs).map Char.toLower = cs.map Char.toLower := by
  induction cs generalizing offset with
  | nil => rfl
  | cons c cs ih =>
    rw [recase, List.map_cons, List.map_cons, ih]
    split
    · rw [toLower_swapCase]
    · rfl

theorem alike_recase (flips : Nat → Bool) (offset : Nat) (cs : List Char) :
    List.Forall₂ Token.Alike cs (recase flips offset cs) := by
  induction cs generalizing offset with
  | nil => exact .nil
  | cons c cs ih =>
    refine .cons ?_ (ih _)
    split
    · exact alike_swapCase c
    · exact .refl c

end Text

namespace Token

/-! ## Tokens before other letters -/

variable {offset : Nat} {c : Char} {cs ds tail rest rest' : List Char} {token : Token}
  {lexemes : List Lexeme} {flips : Nat → Bool}

theorem noFurther_of_alike (alike : List.Forall₂ Alike cs ds) : NoFurther cs ds := by
  induction alike with
  | nil => exact .nil []
  | cons same _ ih => exact .cons same ih

/-- Only a letter may stand in place of a letter. -/
theorem Alike.eq_iff {d e : Char} (alike : Alike c d) (other : e.isAlpha = false) :
    d = e ↔ c = e := by
  rcases alike with rfl | ⟨letter, letter'⟩
  · exact Iff.rfl
  · constructor <;> rintro rfl
    · rw [letter'] at other
      cases other
    · rw [letter] at other
      cases other

/-- A quote that is not closed on its line is not closed by other letters. -/
theorem splitQuoted_none_alike {quote : Char} (solid : quote.isAlpha = false)
    (alike : List.Forall₂ Alike cs ds) (open_ : splitQuoted quote cs = none) :
    splitQuoted quote ds = none := by
  have newline : '\n'.isAlpha = false := by decide
  have backslash : '\\'.isAlpha = false := by decide
  fun_induction splitQuoted quote cs generalizing ds with
  | case1 => cases alike; rfl
  | case2 => cases open_
  | case3 cs other =>
    cases alike with
    | cons first _ =>
      rw [(first.eq_iff newline).2 rfl, splitQuoted.eq_def]
      simp [other]
  | case4 c other inline escapes =>
    cases alike with
    | cons first rest =>
      cases rest
      rw [splitQuoted.eq_def]
      simp [first.eq_iff solid, first.eq_iff newline, first.eq_iff backslash, other, inline, escapes]
  | case5 c other inline escapes cs =>
    cases alike with
    | cons first rest =>
      cases rest with
      | cons second _ =>
        rw [splitQuoted.eq_def]
        simp [first.eq_iff solid, first.eq_iff newline, first.eq_iff backslash,
          second.eq_iff newline, other, inline, escapes]
  | case6 c other inline escapes e cs break_ ih =>
    rw [Option.map_eq_none_iff] at open_
    cases alike with
    | cons first rest =>
      cases rest with
      | cons second behind =>
        rw [splitQuoted.eq_def]
        simp [first.eq_iff solid, first.eq_iff newline, first.eq_iff backslash,
          second.eq_iff newline, other, inline, escapes, break_, ih behind open_]
  | case7 c cs other inline plain ih =>
    rw [Option.map_eq_none_iff] at open_
    cases alike with
    | cons first rest =>
      rw [splitQuoted.eq_def]
      simp [first.eq_iff solid, first.eq_iff newline, first.eq_iff backslash, other, inline, plain,
        ih rest open_]

theorem ReadsAs.before_alike (reads : ReadsAs c tail rest token)
    (alike : List.Forall₂ Alike rest rest') : ReadsAs c tail rest' token := by
  refine reads.noFurther (noFurther_of_alike alike) fun _ quotes unclosed => ?_
  have solid : c.isAlpha = false := by rcases quotes with rfl | rfl | rfl <;> decide
  exact splitQuoted_none_alike solid alike unclosed

end Token

/-- The token with the letters that begin at the given bytes in the other case, if it is a word. -/
def Lexeme.recase (flips : Nat → Bool) (lexeme : Lexeme) : Lexeme :=
  match lexeme.token with
  | .ident text =>
    ⟨.ident (String.ofList (Text.recase flips lexeme.span.start text.toList)), lexeme.span⟩
  | _ => lexeme

namespace Token

variable {offset : Nat} {c : Char} {cs tail rest rest' : List Char} {token : Token}
  {lexemes : List Lexeme} {flips : Nat → Bool}

theorem recase_ident (cs : List Char) (span : Span) :
    (⟨.ident (String.ofList cs), span⟩ : Lexeme).recase flips =
      ⟨.ident (String.ofList (Text.recase flips span.start cs)), span⟩ := by
  simp only [Lexeme.recase, String.toList_ofList]

theorem recase_of_not_ident {lexeme : Lexeme} (other : ¬ ∃ text, lexeme.token = .ident text) :
    lexeme.recase flips = lexeme := by
  unfold Lexeme.recase
  split
  next text same => exact absurd ⟨text, same⟩ other
  · rfl

/-- A word in other letters is read as a word. -/
theorem readsAs_recase_word (begins : beginsWord c = true)
    (run : ∀ d ∈ tail, continuesWord d = true) (stops : ∀ d ∈ rest'.head?, continuesWord d = false)
    (flips : Nat → Bool) (n : Nat) : ∃ d more, Text.recase flips n (c :: tail) = d :: more ∧
      beginsWord d = true ∧ ReadsAs d more rest' (.ident (String.ofList (d :: more))) := by
  have first : beginsWord (if flips n then swapCase c else c) = true := by
    split
    · rw [beginsWord_swapCase, begins]
    · exact begins
  refine ⟨_, _, rfl, first, .ident first ?_ stops⟩
  have alike := alike_recase flips (n + c.utf8Size) tail
  generalize Text.recase flips (n + c.utf8Size) tail = more at alike
  induction alike with
  | nil => simp
  | cons same _ ih =>
    rw [List.forall_mem_cons] at run ⊢
    exact ⟨by rw [← same.continuesWord_eq, run.1], ih run.2⟩

/-- With letters of words in the other case, the words are read with these letters, and all other
tokens as before. -/
theorem Run.recase (run : Run offset cs lexemes)
    (words : ∀ p, offset ≤ p → flips p = true →
      ∃ lexeme ∈ lexemes, lexeme.span.covers p = true ∧ ∃ text, lexeme.token = .ident text) :
    Run offset (Text.recase flips offset cs) (lexemes.map (·.recase flips)) := by
  induction run with
  | @last offset gap last =>
    rw [recase_eq_self fun p low _ => Bool.eq_false_iff.2 fun flipped => ?_]
    · exact .last last
    · obtain ⟨lexeme, listed, -⟩ := words p low flipped
      cases listed
  | @token offset gap c tail rest token lexemes between ends reads later ih =>
    -- A byte that is given stands in the first token or in a later one.
    have cases_ (p : Nat) (low : offset ≤ p) (flipped : flips p = true) :
        (offset + byteSize gap ≤ p ∧ p < offset + byteSize gap + byteSize (c :: tail) ∧
          ∃ text, token = .ident text) ∨
        offset + byteSize gap + byteSize (c :: tail) ≤ p ∧
          ∃ lexeme ∈ lexemes, lexeme.span.covers p = true ∧ ∃ text, lexeme.token = .ident text := by
      obtain ⟨lexeme, listed, inside, word⟩ := words p low flipped
      rcases List.mem_cons.1 listed with rfl | listed
      · exact .inl ⟨(covers_iff.1 inside).1, (covers_iff.1 inside).2, word⟩
      · have first := (later.bounds lexeme listed).1
        have := (covers_iff.1 inside).1
        exact .inr ⟨by omega, lexeme, listed, inside, word⟩
    have gap_same : Text.recase flips offset gap = gap := by
      refine recase_eq_self fun p low high => Bool.eq_false_iff.2 fun flipped => ?_
      rcases cases_ p low flipped with ⟨first, -⟩ | ⟨first, -⟩ <;> omega
    have others := ih fun p low flipped => by
      rcases cases_ p (by omega) flipped with ⟨-, last, -⟩ | ⟨-, found⟩
      · omega
      · exact found
    have alike := alike_recase flips (offset + byteSize gap + byteSize (c :: tail)) rest
    have size := byteSize_recase flips (offset + byteSize gap) (c :: tail)
    rw [recase_append, gap_same, ← List.cons_append, recase_append, List.map_cons]
    generalize Text.recase flips (offset + byteSize gap + byteSize (c :: tail)) rest = rest'
      at alike others ⊢
    by_cases word : ∃ text, token = .ident text
    · obtain ⟨text, rfl⟩ := word
      cases reads with
      | ident begins run stops =>
        have stops' := (noFurther_of_alike alike).not_head (·.word) (·.continuesWord_eq) stops
        obtain ⟨d, more, same, begins', reads'⟩ := readsAs_recase_word begins run stops' flips
          (offset + byteSize gap)
        obtain ⟨solid, noSlash⟩ := solid_of_beginsWord begins'
        have short : Gap gap (d :: (more ++ rest')) := between.replace (by simp) fun head => by
          have newline : c = '\n' := by simpa using head
          rw [newline] at begins
          cases begins
        rw [same] at size ⊢
        rw [recase_ident, same, ← size]
        rw [← size] at others
        exact .token short (endsGap_cons solid noSlash _) reads' others
    · have same : Text.recase flips (offset + byteSize gap) (c :: tail) = c :: tail := by
        refine recase_eq_self fun p low high => Bool.eq_false_iff.2 fun flipped => ?_
        rcases cases_ p (by omega) flipped with ⟨-, -, here⟩ | ⟨first, -⟩
        · exact word here
        · omega
      have short : Gap gap (c :: (tail ++ rest')) := between.replace (by simp) fun head => .inr head
      rw [same, recase_of_not_ident word, List.cons_append]
      exact .token short (ends.noFurther ((noFurther_of_alike alike).append tail))
        (reads.before_alike alike) others

end Token

end Dbml
