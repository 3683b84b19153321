import Dbml.Proofs.Token.Run

/-!
# Carriage returns before line feeds

A text may end its lines with a carriage return and a line feed. Every token but a text between
three quotes is written as before and read as before, and the returns fall into the gaps. Main
statements: `Gap.crlf`, `Gap.crlf_newline` and `ReadsAs.crlf`.
-/

namespace Dbml

namespace Text

/-- The characters with a carriage return before every line feed. -/
def crlf (cs : List Char) : List Char :=
  cs.flatMap fun c => if c = '\n' then ['\r', '\n'] else [c]

variable {c : Char} {cs : List Char}

@[simp] theorem crlf_nil : crlf [] = [] := rfl

@[simp] theorem crlf_append (cs ds : List Char) : crlf (cs ++ ds) = crlf cs ++ crlf ds :=
  List.flatMap_append

@[simp] theorem crlf_newline (cs : List Char) : crlf ('\n' :: cs) = '\r' :: '\n' :: crlf cs := rfl

theorem crlf_cons (inline : c ≠ '\n') (cs : List Char) : crlf (c :: cs) = c :: crlf cs := by
  rw [crlf, List.flatMap_cons, if_neg inline, crlf, List.singleton_append]

theorem crlf_eq_self (inline : '\n' ∉ cs) : crlf cs = cs := by
  induction cs with
  | nil => rfl
  | cons c cs ih =>
    rw [List.mem_cons, not_or] at inline
    rw [crlf_cons (Ne.symm inline.1), ih inline.2]

/-! ## What is looked ahead to -/

theorem head?_of_crlf (solid : c ≠ '\r') (here : (crlf cs).head? = some c) : cs.head? = some c := by
  cases cs with
  | nil => cases here
  | cons d cs =>
    by_cases newline : d = '\n'
    · subst newline
      exact absurd (Option.some.inj here).symm solid
    · rwa [crlf_cons newline] at here

theorem pair_infix_of_crlf {a b : Char} (first : a ≠ '\r') (inline : a ≠ '\n') (second : b ≠ '\r')
    (occurs : [a, b] <:+: crlf cs) : [a, b] <:+: cs := by
  induction cs with
  | nil => exact occurs
  | cons c cs ih =>
    rw [Token.Cursor.pair_infix_cons]
    by_cases newline : c = '\n'
    · subst newline
      rw [crlf_newline, Token.Cursor.pair_infix_cons, Token.Cursor.pair_infix_cons] at occurs
      rcases occurs with ⟨same, -⟩ | ⟨same, -⟩ | later
      · exact absurd same.symm first
      · exact absurd same.symm inline
      · exact .inr (ih later)
    · rw [crlf_cons newline, Token.Cursor.pair_infix_cons] at occurs
      exact occurs.imp (fun ⟨same, head⟩ => ⟨same, head?_of_crlf second head⟩) ih

end Text

namespace Token

open Text

/-! ## Gaps -/

variable {gap follow cs rest tail : List Char} {c : Char} {token : Token}

theorem noFurther_crlf (cs : List Char) : NoFurther cs (Text.crlf cs) := by
  induction cs with
  | nil => exact .nil []
  | cons c cs ih =>
    by_cases newline : c = '\n'
    · subst newline
      exact .separated (separates_of_isBlank (by decide)) _ _
    · rw [crlf_cons newline]
      exact .cons (.refl c) ih

theorem EndsGap.crlf (ends : EndsGap (c :: cs)) : EndsGap (c :: crlf cs) :=
  ends.noFurther (noFurther_crlf cs)

theorem crlf_comment (body gap : List Char) :
    Text.crlf ('/' :: '*' :: (body ++ '*' :: '/' :: gap)) =
      '/' :: '*' :: (Text.crlf body ++ '*' :: '/' :: Text.crlf gap) := by
  rw [crlf_cons (by decide), crlf_cons (by decide), crlf_append, crlf_cons (by decide),
    crlf_cons (by decide)]

theorem not_closed_crlf {body : List Char} (closed : ¬ ['*', '/'] <:+: body) :
    ¬ ['*', '/'] <:+: Text.crlf body :=
  fun occurs => closed (pair_infix_of_crlf (by decide) (by decide) (by decide) occurs)

theorem newline_notMem_slashes {body : List Char} (inline : '\n' ∉ body) :
    '\n' ∉ '/' :: '/' :: body := by
  simp [inline]

/-- Before a token or the end a gap stays one. -/
theorem Gap.crlf (between : Gap gap follow) (solid : follow.head? ≠ some '\n') :
    Gap (Text.crlf gap) (Text.crlf follow) := by
  induction between with
  | nil => exact .nil _
  | blank blank inline _ ih =>
    rw [crlf_cons inline]
    exact .blank blank inline (ih solid)
  | comment closed _ ih =>
    rw [crlf_comment]
    exact .comment (not_closed_crlf closed) (ih solid)
  | line inline ends =>
    rw [crlf_eq_self (newline_notMem_slashes inline), ends.resolve_right solid]
    exact .line inline (.inl rfl)
  | unclosed unclosed =>
    rw [crlf_cons (by decide), crlf_cons (by decide)]
    exact .unclosed (not_closed_crlf unclosed)

/-- Before a line feed a gap takes the return. -/
theorem Gap.crlf_newline (between : Gap gap ('\n' :: rest)) :
    Gap (Text.crlf gap ++ ['\r']) ('\n' :: Text.crlf rest) := by
  generalize behind : '\n' :: rest = follow at between
  induction between with
  | nil => exact .blank (by decide) (by decide) (.nil _)
  | blank blank inline _ ih =>
    rw [crlf_cons inline]
    exact .blank blank inline (ih behind)
  | comment closed _ ih =>
    rw [crlf_comment]
    have later := Gap.comment (not_closed_crlf closed) (ih behind)
    simpa using later
  | @line body follow inline ends =>
    rw [crlf_eq_self (newline_notMem_slashes inline)]
    have longer : '\n' ∉ body ++ ['\r'] := by simp [inline]
    exact .line longer (.inr rfl)
  | unclosed => cases behind

/-! ## Tokens -/

/-- A quote that is not closed on its line is not closed before the return. -/
theorem splitQuoted_none_crlf {quote : Char} (inline : quote ≠ '\n') (solid : quote ≠ '\r')
    (open_ : splitQuoted quote rest = none) : splitQuoted quote (Text.crlf rest) = none := by
  have ended (cs : List Char) : splitQuoted quote ('\n' :: cs) = none := by
    rw [splitQuoted.eq_def]
    simp [Ne.symm inline]
  fun_induction splitQuoted quote rest with
  | case1 => rfl
  | case2 => cases open_
  | case3 cs _ =>
    rw [crlf_newline, splitQuoted.eq_def]
    simp [Ne.symm solid, ended]
  | case4 c other newline escapes =>
    rw [crlf_cons newline, splitQuoted.eq_def]
    simp [other, newline, escapes]
  | case5 c other newline escapes cs =>
    rw [crlf_cons newline, Text.crlf_newline, splitQuoted.eq_def]
    simp [other, newline, escapes, ended]
  | case6 c other newline escapes e cs break_ ih =>
    rw [Option.map_eq_none_iff] at open_
    rw [crlf_cons newline, crlf_cons break_, splitQuoted.eq_def]
    simp [other, newline, escapes, break_, ih open_]
  | case7 c cs other newline plain ih =>
    rw [Option.map_eq_none_iff] at open_
    rw [crlf_cons newline, splitQuoted.eq_def]
    simp [other, newline, plain, ih open_]

/-- Only line ends and texts between three quotes are written with line feeds. -/
theorem ReadsAs.inline (reads : ReadsAs c tail rest token) (solid : token ≠ .newline)
    (noTriple : ¬ tripleQuote <:+: c :: tail) : '\n' ∉ c :: tail := by
  have all {p : Char → Bool} {d : Char} {cs : List Char} (first : p '\n' = false) (here : d ≠ '\n')
      (run : ∀ e ∈ cs, p e = true) : '\n' ∉ d :: cs := by
    intro listed
    rcases List.mem_cons.1 listed with same | later
    · exact here same.symm
    · rw [run _ later] at first
      cases first
  cases reads with
  | newline => exact absurd rfl solid
  | @multiStr body =>
    exact absurd (List.IsPrefix.isInfix ⟨body ++ tripleQuote, by simp [tripleQuote]⟩) noTriple
  | str quotes closed inline => rcases quotes with rfl | rfl <;> simp [inline]
  | expr _ closed inline => simp [inline]
  | openQuote quotes => rcases quotes with rfl | rfl | rfl <;> simp
  | color some_digit run => exact all (by decide) (by decide) run
  | lessGreater => decide
  | mark spelled =>
    refine all (p := fun _ => false) rfl ?_ (by simp)
    rintro rfl
    cases spelled
  | num digit number =>
    refine all (p := fun d => !isBlank d) (by decide) ?_ (by simpa using number.solid)
    rintro rfl
    cases digit
  | ident begins run =>
    refine all (by decide) ?_ run
    rintro rfl
    exact absurd begins (by decide)
  | stray other => simpa using Ne.symm other.inline

/-- A token is read as before when the lines behind it end with returns. -/
theorem ReadsAs.crlf (reads : ReadsAs c tail rest token) :
    ReadsAs c tail (Text.crlf rest) token := by
  refine reads.noFurther (noFurther_crlf rest) fun _ quotes unclosed => ?_
  have solid : c ≠ '\n' ∧ c ≠ '\r' := by rcases quotes with rfl | rfl | rfl <;> decide
  exact splitQuoted_none_crlf solid.1 solid.2 unclosed

end Token

end Dbml
