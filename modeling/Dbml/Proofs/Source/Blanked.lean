import Dbml.Proofs.Respacing.Tokens
import Dbml.Proofs.Source.Contents
import Dbml.Proofs.Token.Printing

/-!
# Spaces in place of gaps

White space and comments do no more than keep tokens apart: with spaces in place of their bytes, a
text has the tokens that it had, at the bytes where they were. Main statement: `ofString_blanked`.
-/

namespace Dbml

open Text

def Span.covers (span : Span) (p : Nat) : Bool :=
  decide (span.start ≤ p ∧ p < span.stop)

/-- The characters from byte `offset` on, with spaces for the bytes of those that are not covered. -/
def blankOutside (covered : Nat → Bool) (offset : Nat) : List Char → List Char
  | [] => []
  | c :: cs =>
    let others := blankOutside covered (offset + c.utf8Size) cs
    if covered offset then c :: others else List.replicate c.utf8Size ' ' ++ others

/-- The text of a source with spaces for all bytes outside its tokens. -/
def Source.blanked (s : Source) : List Char :=
  blankOutside (fun p => s.lexemes.toList.any (·.span.covers p)) 0 s.chars

section

variable {covered : Nat → Bool} {offset : Nat} {cs ds : List Char}

theorem blankOutside_append (cs ds : List Char) : blankOutside covered offset (cs ++ ds) =
    blankOutside covered offset cs ++ blankOutside covered (offset + byteSize cs) ds := by
  induction cs generalizing offset with
  | nil => rfl
  | cons c cs ih =>
    simp only [List.cons_append, blankOutside, ih, byteSize_cons, Nat.add_assoc]
    split <;> simp

theorem byteSize_spaces (n : Nat) : byteSize (List.replicate n ' ') = n := by
  induction n with
  | zero => rfl
  | succ n ih =>
    rw [List.replicate_succ, byteSize_cons, ih, Nat.add_comm]
    rfl

/-- What is covered stays. -/
theorem blankOutside_covered
    (all : ∀ p, offset ≤ p → p < offset + byteSize cs → covered p = true) :
    blankOutside covered offset cs = cs := by
  induction cs generalizing offset with
  | nil => rfl
  | cons c cs ih =>
    have size := c.utf8Size_pos
    rw [byteSize_cons] at all
    rw [blankOutside, if_pos (all offset (Nat.le_refl _) (by omega)),
      ih fun p low high => all p (by omega) (by omega)]

/-- Of what is not covered, only the number of bytes stays. -/
theorem blankOutside_uncovered
    (none : ∀ p, offset ≤ p → p < offset + byteSize cs → covered p = false) :
    blankOutside covered offset cs = List.replicate (byteSize cs) ' ' := by
  induction cs generalizing offset with
  | nil => rfl
  | cons c cs ih =>
    have size := c.utf8Size_pos
    rw [byteSize_cons] at none
    rw [blankOutside, if_neg (by rw [none offset (Nat.le_refl _) (by omega)]; decide),
      ih fun p low high => none p (by omega) (by omega), byteSize_cons, List.replicate_append_replicate]

end

namespace Token

variable {covered : Nat → Bool} {offset : Nat} {cs follow : List Char} {lexemes : List Lexeme}

theorem gap_spaces (n : Nat) (follow : List Char) : Gap (List.replicate n ' ') follow := by
  induction n with
  | zero => exact .nil follow
  | succ n ih => exact .blank (by decide) (by decide) ih

theorem noFurther_blankOutside (covered : Nat → Bool) (offset : Nat) (cs : List Char) :
    NoFurther cs (blankOutside covered offset cs) := by
  induction cs generalizing offset with
  | nil => exact .nil []
  | cons c cs ih =>
    rw [blankOutside]
    split
    · exact .cons (.refl c) (ih _)
    · obtain ⟨n, size⟩ := Nat.exists_eq_succ_of_ne_zero (Nat.ne_of_gt c.utf8Size_pos)
      rw [size, List.replicate_succ]
      exact .separated (separates_of_isBlank (by decide)) _ _

theorem covers_iff {span : Span} {p : Nat} : span.covers p = true ↔ span.start ≤ p ∧ p < span.stop :=
  decide_eq_true_iff

/-- A token behind a number of spaces. -/
theorem Run.behind_spaces {c : Char} {tail rest : List Char} {token : Token} {n : Nat}
    (ends : EndsGap (c :: (tail ++ rest))) (reads : ReadsAs c tail rest token)
    (others : Run (offset + n + byteSize (c :: tail)) rest lexemes) :
    Run offset (List.replicate n ' ' ++ c :: (tail ++ rest))
      (⟨token, offset + n, offset + n + byteSize (c :: tail)⟩ :: lexemes) := by
  have spaces := byteSize_spaces n
  rw [← spaces] at others
  have run := Run.token (gap_spaces n _) ends reads others
  rwa [spaces] at run

/-- No token of a run covers a byte before it. -/
theorem Run.not_covers (run : Run offset cs lexemes) {p : Nat} (low : p < offset) :
    lexemes.any (·.span.covers p) = false := by
  rw [List.any_eq_false]
  intro lexeme listed inside
  have order := (run.bounds lexeme listed).1
  have := (covers_iff.1 inside).1
  omega

/-- With spaces in place of its gaps, a run that leaves no quote open has the same tokens. -/
theorem Run.blanked (run : Run offset cs lexemes)
    (closed : ∀ lexeme ∈ lexemes, ¬ lexeme.token.IsOpenQuote)
    (covers : ∀ p, offset ≤ p → covered p = lexemes.any (·.span.covers p)) :
    Run offset (blankOutside covered offset cs) lexemes := by
  induction run with
  | @last offset gap last =>
    rw [blankOutside_uncovered fun p low _ => covers p low]
    exact .last (gap_spaces _ [])
  | @token offset gap c tail rest token lexemes between ends reads later ih =>
    obtain ⟨here, behind⟩ := List.forall_mem_cons.1 closed
    simp only [List.any_cons] at covers
    have before : blankOutside covered offset gap = List.replicate (byteSize gap) ' ' := by
      refine blankOutside_uncovered fun p low high => ?_
      have outside : ¬ offset + byteSize gap ≤ p := by omega
      rw [covers p low, later.not_covers (by omega), Bool.or_false]
      exact decide_eq_false fun inside => outside inside.1
    have inside : blankOutside covered (offset + byteSize gap) (c :: tail) = c :: tail := by
      refine blankOutside_covered fun p low high => ?_
      rw [covers p (by omega), covers_iff.2 ⟨low, high⟩, Bool.true_or]
    have others := ih behind fun p low => by
      have outside : ¬ p < offset + byteSize gap + byteSize (c :: tail) := by omega
      rw [covers p (by omega)]
      rw [show Span.covers ⟨_, _⟩ p = false from decide_eq_false fun inside => outside inside.2,
        Bool.false_or]
    have further := noFurther_blankOutside covered (offset + byteSize gap + byteSize (c :: tail)) rest
    rw [blankOutside_append, before, ← List.cons_append, blankOutside_append, inside,
      List.cons_append]
    exact .behind_spaces (ends.noFurther (further.append tail)) (reads.noFurther_of_closed here further)
      others

end Token

namespace Source

/-- White space and comments do not matter to the tokens of a text that leaves no quote open: with
spaces in place of their bytes, the text has the same tokens at the same bytes. -/
theorem ofString_blanked {text : String} {s : Source} (read : ofString text = .ok s)
    (closed : ∀ lexeme ∈ s.lexemes.toList, ¬ lexeme.token.IsOpenQuote) :
    ofString (String.ofList s.blanked) = .ok ⟨s.blanked, s.lexemes⟩ := by
  obtain ⟨chars, run⟩ := ofString_eq_ok.1 read
  refine ofString_eq_ok.2 ⟨by simp, ?_⟩
  rw [String.toList_ofList, blanked, chars]
  exact run.blanked closed fun p _ => rfl

/-- Comments with a line end and wide characters in them, before digits, points and marks. -/
def commentedText : String :=
  "Ref: a/* é\n*/1 // <\n.2\u3000</**/> '/*'"

def commentedTokens : List Token :=
  [.ident "Ref", .mark .colon, .ident "a", .num "1", .newline, .mark .dot, .num "2", .mark .less,
    .mark .greater, .str "/*"]

theorem ofString_blanked_comments : ∃ s, ofString commentedText = .ok s ∧
    s.lexemes.toList.map (·.token) = commentedTokens ∧
    String.ofList s.blanked = "Ref: a        1     \n.2   <    > '/*'" ∧
    ofString (String.ofList s.blanked) = .ok ⟨s.blanked, s.lexemes⟩ := by
  have evaluated : (ofString commentedText).toOption.map
      (fun s => (s.lexemes.toList.map (·.token), String.ofList s.blanked)) =
      some (commentedTokens, "Ref: a        1     \n.2   <    > '/*'") := by decide +kernel
  obtain ⟨s, read, same⟩ := Option.map_eq_some_iff.1 evaluated
  obtain ⟨tokens, text⟩ := Prod.mk.inj same
  have closed : ∀ token ∈ commentedTokens, ¬ token.IsOpenQuote := by
    simp [commentedTokens, Token.IsOpenQuote]
  rw [← tokens] at closed
  exact ⟨s, eq_ok_of_toOption read, tokens, text,
    ofString_blanked (eq_ok_of_toOption read) fun lexeme listed => closed _ (List.mem_map_of_mem listed)⟩

-- A comment with a line end in it keeps two quotes apart; with spaces in its place they are a pair.
example : (ofString "'/*\n*/'").toOption.map (fun s => s.lexemes.toList.map (·.token)) =
      some [.stray '\'', .stray '\''] ∧
    (ofString "'     '").toOption.map (fun s => s.lexemes.toList.map (·.token)) =
      some [.str "     "] := by
  decide +kernel

end Source

end Dbml
