import Dbml.Text.Slice
import Dbml.Token.Cursor

/-!
# What stands between tokens

A gap is white space without line ends, comments that are closed, and at its end perhaps a comment
that goes on up to a line end or the end of the text. Main statements: a reader passes over a gap
and nothing else (`exists_gap`), and over all of it (`skipGap_append`).
-/

namespace Dbml.Token

open Text

/-- What may stand before a token, or before the end, when `follow` comes next in the text. A line
comment goes on up to a line end, and only at the end of the text a comment may stay open. -/
inductive Gap : List Char → List Char → Prop
  | nil (follow : List Char) : Gap [] follow
  | blank {c : Char} {gap follow : List Char} (blank : isBlank c = true) (inline : c ≠ '\n')
    (rest : Gap gap follow) : Gap (c :: gap) follow
  | comment {body gap follow : List Char} (closed : ¬ ['*', '/'] <:+: body)
    (rest : Gap gap follow) : Gap ('/' :: '*' :: (body ++ '*' :: '/' :: gap)) follow
  | line {body follow : List Char} (inline : '\n' ∉ body)
    (ends : follow = [] ∨ follow.head? = some '\n') : Gap ('/' :: '/' :: body) follow
  | unclosed {body : List Char} (unclosed : ¬ ['*', '/'] <:+: body) : Gap ('/' :: '*' :: body) []

/-- No gap goes on with these characters. -/
def EndsGap : List Char → Prop
  | [] => True
  | c :: cs =>
    c = '\n' ∨ isBlank c = false ∧ (c = '/' → cs.head? ≠ some '/' ∧ cs.head? ≠ some '*')

theorem not_isBlank_slash : isBlank '/' = false := by decide

/-- A gap between tokens is one as well before another text, if that one ends a line comment where
the first one does. -/
theorem Gap.replace {gap follow follow' : List Char} (between : Gap gap follow)
    (inside : follow ≠ [])
    (ends : follow.head? = some '\n' → follow' = [] ∨ follow'.head? = some '\n') :
    Gap gap follow' := by
  induction between with
  | nil => exact .nil follow'
  | blank blank inline _ ih => exact .blank blank inline (ih inside ends)
  | comment closed _ ih => exact .comment closed (ih inside ends)
  | line inline stops => exact .line inline (ends (stops.resolve_left inside))
  | unclosed => exact absurd rfl inside

namespace Cursor

/-! ## Comments -/

theorem exists_line (cs : List Char) :
    ∃ body follow, cs = body ++ follow ∧ '\n' ∉ body ∧
      (follow = [] ∨ follow.head? = some '\n') := by
  induction cs with
  | nil => exact ⟨[], [], rfl, by simp, .inl rfl⟩
  | cons c cs ih =>
    by_cases newline : c = '\n'
    · exact ⟨[], c :: cs, rfl, by simp, .inr (by rw [newline]; rfl)⟩
    · obtain ⟨body, follow, rfl, inline, ends⟩ := ih
      exact ⟨c :: body, follow, rfl, by simp [inline, Ne.symm newline], ends⟩

theorem skipLine_append {body follow : List Char} (inline : '\n' ∉ body)
    (ends : follow = [] ∨ follow.head? = some '\n') (offset : Nat) :
    skipLine offset (body ++ follow) = ⟨offset + byteSize body, follow⟩ := by
  induction body generalizing offset with
  | nil =>
    cases follow with
    | nil => rfl
    | cons c cs =>
      have newline : c = '\n' := by simpa using ends
      rw [List.nil_append, skipLine, if_pos newline]
      rfl
  | cons c body ih =>
    rw [List.mem_cons, not_or] at inline
    rw [List.cons_append, skipLine, if_neg (Ne.symm inline.1), ih inline.2, byteSize_cons,
      Nat.add_assoc]

/-- A pair of characters stands at the front of some others, or behind the first of them. -/
theorem pair_infix_cons {a b c : Char} {cs : List Char} :
    [a, b] <:+: c :: cs ↔ (c = a ∧ cs.head? = some b) ∨ [a, b] <:+: cs := by
  rw [List.infix_cons_iff, List.cons_prefix_cons]
  cases cs with
  | nil => simp
  | cons d ds => simp [List.cons_prefix_cons, eq_comm]

theorem skipComment_cons {c : Char} {cs : List Char} (here : ¬ (c = '*' ∧ cs.head? = some '/'))
    (offset : Nat) : skipComment offset (c :: cs) = skipComment (offset + c.utf8Size) cs := by
  rw [skipComment]
  rintro ds rfl rfl
  exact here ⟨rfl, rfl⟩

/-- A comment that is closed ends with the first pair that closes it. -/
theorem skipComment_append {body : List Char} (closed : ¬ ['*', '/'] <:+: body)
    (follow : List Char) (offset : Nat) :
    skipComment offset (body ++ '*' :: '/' :: follow) = ⟨offset + byteSize body + 2, follow⟩ := by
  induction body generalizing offset with
  | nil => rw [List.nil_append, skipComment]; rfl
  | cons c body ih =>
    rw [pair_infix_cons, not_or] at closed
    have here : ¬ (c = '*' ∧ (body ++ '*' :: '/' :: follow).head? = some '/') := by
      rintro ⟨star, slash⟩
      cases body with
      | nil => cases slash
      | cons d body => exact closed.1 ⟨star, slash⟩
    rw [List.cons_append, skipComment_cons here, ih closed.2, byteSize_cons, Nat.add_assoc offset]

theorem skipComment_eq_end {cs : List Char} (unclosed : ¬ ['*', '/'] <:+: cs) (offset : Nat) :
    skipComment offset cs = ⟨offset + byteSize cs, []⟩ := by
  induction cs generalizing offset with
  | nil => rfl
  | cons c cs ih =>
    rw [pair_infix_cons, not_or] at unclosed
    rw [skipComment_cons unclosed.1, ih unclosed.2, byteSize_cons, Nat.add_assoc]

/-- Characters with a pair in them are those before its first occurrence, the pair, and others. -/
theorem exists_first_pair {a b : Char} {cs : List Char} (occurs : [a, b] <:+: cs) :
    ∃ body follow, cs = body ++ a :: b :: follow ∧ ¬ [a, b] <:+: body := by
  induction cs with
  | nil => simp at occurs
  | cons c cs ih =>
    by_cases here : c = a ∧ cs.head? = some b
    · obtain ⟨rfl, head⟩ := here
      obtain ⟨follow, rfl⟩ := List.head?_eq_some_iff.1 head
      exact ⟨[], follow, rfl, by simp⟩
    · obtain ⟨body, follow, rfl, first⟩ := ih ((pair_infix_cons.1 occurs).resolve_left here)
      refine ⟨c :: body, follow, rfl, ?_⟩
      rw [pair_infix_cons, not_or]
      refine ⟨?_, first⟩
      rintro ⟨same, head⟩
      obtain ⟨more, rfl⟩ := List.head?_eq_some_iff.1 head
      exact here ⟨same, rfl⟩

/-! ## Gaps -/

theorem skipGap_of_endsGap {follow : List Char} (ends : EndsGap follow) (offset : Nat) :
    skipGap offset follow = ⟨offset, follow⟩ := by
  cases follow with
  | nil => rw [skipGap]
  | cons c cs =>
    have kept : ¬ (c ≠ '\n' ∧ isBlank c = true) := by
      rintro ⟨inline, blank⟩
      rcases ends with newline | ⟨solid, _⟩
      · exact inline newline
      · rw [solid] at blank
        cases blank
    have noComment : c = '/' → cs.head? ≠ some '/' ∧ cs.head? ≠ some '*' := by
      rintro rfl
      rcases ends with newline | ⟨_, apart⟩
      · cases newline
      · exact apart rfl
    rw [skipGap, if_neg kept]
    · rintro ds slash rfl
      exact (noComment slash).1 rfl
    · rintro ds slash rfl
      exact (noComment slash).2 rfl

theorem skipGap_blank {c : Char} (blank : isBlank c = true) (inline : c ≠ '\n') (offset : Nat)
    (cs : List Char) : skipGap offset (c :: cs) = skipGap (offset + c.utf8Size) cs := by
  have solid : c ≠ '/' := by
    rintro rfl
    rw [not_isBlank_slash] at blank
    cases blank
  rw [skipGap, if_pos ⟨inline, blank⟩]
  · rintro ds slash
    exact absurd slash solid
  · rintro ds slash
    exact absurd slash solid

/-- A gap is passed over up to what follows it. -/
theorem skipGap_append {gap follow : List Char} (between : Gap gap follow) (ends : EndsGap follow)
    (offset : Nat) : skipGap offset (gap ++ follow) = ⟨offset + byteSize gap, follow⟩ := by
  induction between generalizing offset with
  | nil => exact skipGap_of_endsGap ends offset
  | blank blank inline _ ih =>
    rw [List.cons_append, skipGap_blank blank inline, ih ends, byteSize_cons, Nat.add_assoc]
  | @comment body gap follow closed _ ih =>
    have size : byteSize ('/' :: '*' :: (body ++ '*' :: '/' :: gap)) =
        2 + byteSize body + 2 + byteSize gap := by
      simp only [byteSize_cons, byteSize_append, show '/'.utf8Size = 1 from rfl,
        show '*'.utf8Size = 1 from rfl]
      omega
    have skipped := skipComment_append closed (gap ++ follow) (offset + 2)
    rw [size, List.cons_append, List.cons_append, List.append_assoc, List.cons_append,
      List.cons_append, skipGap, skipped]
    simp only [ih ends, Nat.add_assoc]
  | @line body follow inline stops =>
    have size : byteSize ('/' :: '/' :: body) = 2 + byteSize body := by
      simp only [byteSize_cons, show '/'.utf8Size = 1 from rfl]
      omega
    rw [size, List.cons_append, List.cons_append, skipGap, skipLine_append inline stops]
    simp only [skipGap_of_endsGap ends, Nat.add_assoc]
  | @unclosed body unclosed =>
    have size : byteSize ('/' :: '*' :: body) = 2 + byteSize body := by
      simp only [byteSize_cons, show '/'.utf8Size = 1 from rfl, show '*'.utf8Size = 1 from rfl]
      omega
    rw [size, List.append_nil, skipGap, skipComment_eq_end unclosed]
    simp only [skipGap, Nat.add_assoc]

/-- What is passed over is a gap, and what comes next begins no other one. -/
theorem exists_gap (offset : Nat) (cs : List Char) :
    ∃ gap follow, cs = gap ++ follow ∧ Gap gap follow ∧ EndsGap follow ∧
      skipGap offset cs = ⟨offset + byteSize gap, follow⟩ := by
  -- It is enough to find the gap, for `skipGap_append` says where a reader stops.
  suffices found : ∃ gap follow, cs = gap ++ follow ∧ Gap gap follow ∧ EndsGap follow by
    obtain ⟨gap, follow, rfl, between, ends⟩ := found
    exact ⟨gap, follow, rfl, between, ends, skipGap_append between ends offset⟩
  induction size : cs.length using Nat.strongRecOn generalizing cs with
  | ind n ih =>
  match cs with
  | [] => exact ⟨[], [], rfl, .nil [], trivial⟩
  | c :: cs =>
    by_cases newline : c = '\n'
    · exact ⟨[], c :: cs, rfl, .nil _, .inl newline⟩
    by_cases blank : isBlank c = true
    · obtain ⟨gap, follow, rfl, between, ends⟩ := ih cs.length (by simp [← size]) cs rfl
      exact ⟨c :: gap, follow, rfl, .blank blank newline between, ends⟩
    have solid : isBlank c = false := by simpa using blank
    by_cases line : c = '/' ∧ cs.head? = some '/'
    · obtain ⟨rfl, head⟩ := line
      obtain ⟨more, rfl⟩ := List.head?_eq_some_iff.1 head
      obtain ⟨body, follow, rfl, inline, stops⟩ := exists_line more
      refine ⟨'/' :: '/' :: body, follow, rfl, .line inline stops, ?_⟩
      rcases stops with rfl | stops
      · trivial
      · obtain ⟨rest, rfl⟩ := List.head?_eq_some_iff.1 stops
        exact .inl rfl
    by_cases comment : c = '/' ∧ cs.head? = some '*'
    · obtain ⟨rfl, head⟩ := comment
      obtain ⟨more, rfl⟩ := List.head?_eq_some_iff.1 head
      by_cases occurs : ['*', '/'] <:+: more
      · obtain ⟨body, rest, rfl, first⟩ := exists_first_pair occurs
        have shorter : rest.length < n := by
          rw [← size]
          simp only [List.length_cons, List.length_append]
          omega
        obtain ⟨gap, follow, rfl, between, ends⟩ := ih rest.length shorter rest rfl
        exact ⟨'/' :: '*' :: (body ++ '*' :: '/' :: gap), follow, by simp, .comment first between,
          ends⟩
      · exact ⟨'/' :: '*' :: more, [], by simp, .unclosed occurs, trivial⟩
    · refine ⟨[], c :: cs, rfl, .nil _, .inr ⟨solid, ?_⟩⟩
      rintro rfl
      exact ⟨fun head => line ⟨rfl, head⟩, fun head => comment ⟨rfl, head⟩⟩

end Cursor

end Dbml.Token
