import Dbml.Proofs.Reference.Identifiers
import Dbml.Proofs.Respacing.Headers
import Dbml.Proofs.Segment.Layout
import Dbml.Proofs.Source.Counting
import Mathlib.Order.Bounds.Basic

/-!
# Dotted names

A name of several segments is written with dots between them. It is read in two ways: in references
and groups the tokens are a dotted name and nothing else, and a header begins with one, which is
read as far as it goes. Main statements: `nameParts_eq_some_iff` and `nameParts_eq_none_iff` for the
first, `readsName_header` for the second.
-/

namespace Dbml

variable {tokens rest : List Token} {texts : List String} {t : Token} {text : String}

/-! ## The grammar -/

/-- The tokens are a name and any number of pairs of a dot and a name; the texts are those of the
names. -/
def DottedName (tokens : List Token) (texts : List String) : Prop :=
  ∃ first others, tokens = first :: others.flatMap (fun name => [.mark .dot, name]) ∧
    (first :: others).map Token.name? = texts.map some

/-- What keeps tokens from being a dotted name. -/
inductive BreaksName : List Token → Prop
  | empty : BreaksName []
  | leading (rest : List Token) : BreaksName (.mark .dot :: rest)
  | trailing (front : List Token) : BreaksName (front ++ [.mark .dot])
  | doubled (front rest : List Token) : BreaksName (front ++ .mark .dot :: .mark .dot :: rest)
  | unseparated (front rest : List Token) {a b : Token} (first : a.name?.isSome)
    (second : b.name?.isSome) : BreaksName (front ++ a :: b :: rest)
  | other {tokens : List Token} {t : Token} (listed : t ∈ tokens) (noName : t.name? = none)
    (noDot : t ≠ .mark .dot) : BreaksName tokens

theorem dottedName_single (named : t.name? = some text) : DottedName [t] [text] :=
  ⟨t, [], rfl, by simp [named]⟩

theorem DottedName.cons (later : DottedName rest texts) (named : t.name? = some text) :
    DottedName (t :: .mark .dot :: rest) (text :: texts) := by
  obtain ⟨first, others, rfl, same⟩ := later
  refine ⟨t, first :: others, rfl, ?_⟩
  rw [List.map_cons, named, same, List.map_cons]

/-- A dotted name has names with dots between them. -/
theorem DottedName.exists_names (spells : DottedName tokens texts) :
    ∃ names, names ≠ [] ∧ tokens = names.intersperse (.mark .dot) ∧
      names.map Token.name? = texts.map some := by
  obtain ⟨first, others, rfl, same⟩ := spells
  exact ⟨first :: others, by simp, Source.cons_flatMap_pair _ _ _, same⟩

/-- Names and dots alternate. -/
theorem DottedName.alternates (spells : DottedName tokens texts) {i : Nat}
    (here : tokens[i]? = some t) :
    i % 2 = 0 ∧ t.name?.isSome ∨ i % 2 = 1 ∧ t = .mark .dot := by
  obtain ⟨names, -, rfl, same⟩ := spells.exists_names
  obtain ⟨k, rfl | rfl⟩ : ∃ k, i = 2 * k ∨ i = 2 * k + 1 := ⟨i / 2, by omega⟩
  · rw [List.getElem?_intersperse_two_mul] at here
    refine .inl ⟨Nat.mul_mod_right 2 k, ?_⟩
    have listed : t.name? ∈ texts.map some := by
      rw [← same]
      exact List.mem_map_of_mem (List.mem_of_getElem? here)
    obtain ⟨text, -, named⟩ := List.mem_map.1 listed
    rw [← named]
    rfl
  · have inside : k + 1 < names.length := by
      have bound := (List.getElem?_eq_some_iff.1 here).1
      rw [List.length_intersperse] at bound
      omega
    rw [List.getElem?_intersperse_two_mul_add_one inside] at here
    exact .inr ⟨Nat.mul_add_mod_self_left 2 k 1, (Option.some.inj here).symm⟩

/-- A dotted name has one dot fewer than names. -/
theorem DottedName.length_odd (spells : DottedName tokens texts) : tokens.length % 2 = 1 := by
  obtain ⟨names, nonempty, rfl, -⟩ := spells.exists_names
  have := List.length_pos_iff.2 nonempty
  rw [List.length_intersperse]
  omega

theorem DottedName.not_breaksName (spells : DottedName tokens texts) : ¬ BreaksName tokens := by
  intro breaks
  have odd := spells.length_odd
  cases breaks with
  | empty => cases odd
  | leading rest =>
    rcases spells.alternates (i := 0) rfl with ⟨-, named⟩ | ⟨other, -⟩
    · cases named
    · cases other
  | trailing front =>
    rw [List.length_append, List.length_singleton] at odd
    rcases spells.alternates (List.getElem?_concat_length) with ⟨-, named⟩ | ⟨other, -⟩
    · cases named
    · omega
  | doubled front rest =>
    -- One of the two dots stands where a name should.
    have first := spells.alternates (t := .mark .dot) (i := front.length) (by simp)
    have second := spells.alternates (t := .mark .dot) (i := front.length + 1) (by simp)
    rcases first with ⟨-, named⟩ | ⟨place, -⟩
    · cases named
    · rcases second with ⟨-, named⟩ | ⟨place', -⟩
      · cases named
      · omega
  | @unseparated front rest a b named named' =>
    -- One of the two names stands where a dot should.
    have first := spells.alternates (t := a) (i := front.length) (by simp)
    have second := spells.alternates (t := b) (i := front.length + 1) (by simp)
    rcases first with ⟨place, -⟩ | ⟨-, rfl⟩
    · rcases second with ⟨place', -⟩ | ⟨-, rfl⟩
      · omega
      · cases named'
    · cases named
  | other listed noName noDot =>
    obtain ⟨i, here⟩ := List.mem_iff_getElem?.1 listed
    rcases spells.alternates here with ⟨-, named⟩ | ⟨-, dot⟩
    · rw [noName] at named
      cases named
    · exact noDot dot

/-! ## Reading a name -/

theorem breaksName_of_head (unnamed : t.name? = none) (rest : List Token) :
    BreaksName (t :: rest) := by
  by_cases dot : t = .mark .dot
  · rw [dot]
    exact .leading rest
  · exact .other List.mem_cons_self unnamed dot

/-- What breaks the name behind a dot breaks the whole name; what is empty or begins with a dot
makes the dot before it one too many. -/
theorem BreaksName.behind (breaks : BreaksName rest) (t : Token) :
    BreaksName (t :: .mark .dot :: rest) := by
  cases breaks with
  | empty => exact .trailing [t]
  | leading rest => exact .doubled [t] rest
  | trailing front => exact .trailing (t :: .mark .dot :: front)
  | doubled front rest => exact .doubled (t :: .mark .dot :: front) rest
  | unseparated front rest first second =>
    exact .unseparated (t :: .mark .dot :: front) rest first second
  | other listed noName noDot =>
    exact .other (List.mem_cons_of_mem _ (List.mem_cons_of_mem _ listed)) noName noDot

theorem dottedName_of_nameParts (read : nameParts tokens = some texts) :
    DottedName tokens texts := by
  fun_induction nameParts tokens generalizing texts with
  | case1 => cases read
  | case2 t =>
    obtain ⟨text, named, rfl⟩ := Option.map_eq_some_iff.1 read
    exact dottedName_single named
  | case3 t rest ih =>
    obtain ⟨text, named, read⟩ := Option.bind_eq_some_iff.1 read
    obtain ⟨others, later, same⟩ := Option.bind_eq_some_iff.1 read
    cases same
    exact (ih later).cons named
  | case4 t dot rest noDot => cases read

theorem breaksName_of_nameParts (refused : nameParts tokens = none) : BreaksName tokens := by
  fun_induction nameParts tokens with
  | case1 => exact .empty
  | case2 t => exact breaksName_of_head (Option.map_eq_none_iff.1 refused) []
  | case3 t rest ih =>
    cases named : t.name? with
    | none => exact breaksName_of_head named _
    | some text =>
      have later : nameParts rest = none := by
        cases read : nameParts rest with
        | none => rfl
        | some others =>
          rw [named, read] at refused
          cases refused
      exact (ih later).behind t
  | case4 t other rest noDot =>
    cases named : t.name? with
    | none => exact breaksName_of_head named _
    | some text =>
      cases named' : other.name? with
      | none => exact .other (List.mem_cons_of_mem _ List.mem_cons_self) named' noDot
      | some text' => exact .unseparated [] rest (by rw [named]; rfl) (by rw [named']; rfl)

theorem nameParts_eq_some_iff : nameParts tokens = some texts ↔ DottedName tokens texts := by
  refine ⟨dottedName_of_nameParts, fun spells => ?_⟩
  obtain ⟨names, nonempty, rfl, named⟩ := spells.exists_names
  exact nameParts_intersperse nonempty named

theorem nameParts_eq_none_iff : nameParts tokens = none ↔ BreaksName tokens := by
  refine ⟨breaksName_of_nameParts, fun breaks => ?_⟩
  cases read : nameParts tokens with
  | none => rfl
  | some texts => exact absurd breaks (dottedName_of_nameParts read).not_breaksName

namespace Source

variable {s : Source} {i k stop behind last : Nat} {range : TokenRange} {kind : BlockKind}
  {name : String}

/-! ## Names in ranges -/

theorem getElem?_tokens (low : i ≤ k) (high : k < stop) :
    (s.tokens ⟨i, stop⟩)[k - i]? = s.token? k := by
  have place : i + (k - i) = k := by omega
  simp only [tokens, List.getElem?_map, Array.getElem?_toList, Array.getElem?_extract, place, token?]
  by_cases inside : k < s.lexemes.size
  · rw [if_pos (by omega)]
  · rw [if_neg (by omega), Array.getElem?_eq_none (by omega)]

theorem start_lt_of_dottedName (spells : DottedName (s.tokens ⟨i, stop⟩) texts) : i < stop := by
  refine Decidable.not_not.1 fun empty => ?_
  have odd := spells.length_odd
  rw [tokens_of_not_lt empty] at odd
  cases odd

theorem odd_of_dottedName (bound : stop ≤ s.size)
    (spells : DottedName (s.tokens ⟨i, stop⟩) texts) : (stop - i) % 2 = 1 := by
  rw [← length_tokens bound]
  exact spells.length_odd

/-- A token of a range that is a dotted name is a name, or a dot that a name follows. -/
theorem name_or_dot (bound : behind ≤ s.size) (order : stop ≤ behind)
    (spells : DottedName (s.tokens ⟨i, stop⟩) texts) (low : i ≤ k) (high : k < stop) :
    (k - i) % 2 = 0 ∧ s.nameAt? k behind ≠ none ∨
      (k - i) % 2 = 1 ∧ s.isMark k .dot = true ∧ k + 1 < stop := by
  obtain ⟨t, here⟩ := exists_token? (s := s) (i := k) (by omega)
  rcases spells.alternates ((getElem?_tokens low high).trans here) with ⟨even, named⟩ | ⟨odd, rfl⟩
  · rw [nameAt?_of_token? here (by omega)]
    exact .inl ⟨even, Option.isSome_iff_ne_none.1 named⟩
  · have := odd_of_dottedName (Nat.le_trans order bound) spells
    exact .inr ⟨odd, isMark_iff_token?.2 here, by omega⟩

theorem exists_token_of_nameAt? (named : s.nameAt? i stop = some name) :
    i < stop ∧ ∃ t, s.token? i = some t ∧ t.name? = some name := by
  obtain ⟨inside, named⟩ := Option.ite_none_right_eq_some.1 named
  obtain ⟨t, here, named⟩ := Option.bind_eq_some_iff.1 named
  exact ⟨inside, t, here, named⟩

/-! ## Names of headers -/

/-- The longest dotted name that the range begins with ends before token `stop`. A dot behind it
that no name follows is no part of it. -/
def EndsName (s : Source) (range : TokenRange) (stop : Nat) : Prop :=
  IsGreatest {j | j ≤ range.stop ∧ ∃ texts, DottedName (s.tokens ⟨range.start, j⟩) texts} stop

/-- What is read of a dotted name: nothing where no name begins, or else all names up to where no
further one follows. -/
theorem dottedName_cases (s : Source) (i stop : Nat) :
    (s.nameAt? i stop = none ∧ (s.dottedName i stop).1 = [] ∧ (s.dottedName i stop).2 = i) ∨
    ∃ last, last ≤ stop ∧ DottedName (s.tokens ⟨i, last⟩) (s.dottedName i stop).1 ∧
      ((s.dottedName i stop).2 = last ∧ ¬ (last < stop ∧ s.isMark last .dot = true) ∨
        (s.dottedName i stop).2 = last + 1 ∧ s.isMark last .dot = true ∧
          s.nameAt? (last + 1) stop = none) := by
  induction size : stop - i using Nat.strongRecOn generalizing i with
  | ind n ih =>
  rw [dottedName]
  cases named : s.nameAt? i stop with
  | none => exact .inl ⟨rfl, rfl, rfl⟩
  | some name =>
    obtain ⟨inside, t, here, same⟩ := exists_token_of_nameAt? named
    have first : s.tokens ⟨i, i + 1⟩ = [t] := by
      rw [tokens_of_lt (Nat.lt_succ_self i) here, tokens_of_not_lt (Nat.lt_irrefl _)]
    refine .inr ?_
    by_cases dot : i + 1 < stop ∧ s.isMark (i + 1) .dot = true
    · simp only [if_pos dot]
      rcases ih _ (by omega) (i + 2) rfl with ⟨none, names, next⟩ | ⟨last, bound, spells, ends⟩
      · refine ⟨i + 1, inside, ?_, .inr ⟨next, dot.2, none⟩⟩
        rw [first, names]
        exact dottedName_single same
      · have later := start_lt_of_dottedName spells
        refine ⟨last, bound, ?_, ends⟩
        rw [tokens_of_lt (by omega) here, tokens_of_lt (by omega) (isMark_iff_token?.1 dot.2)]
        exact spells.cons same
    · simp only [if_neg dot]
      refine ⟨i + 1, inside, ?_, .inl ⟨rfl, dot⟩⟩
      rw [first]
      exact dottedName_single same

/-- A name that no further one follows is the longest. -/
theorem endsName_of_dottedName (bound : range.stop ≤ s.size) (inside : last ≤ range.stop)
    (spells : DottedName (s.tokens ⟨range.start, last⟩) texts)
    (ends : ¬ (last < range.stop ∧ s.isMark last .dot = true) ∨
      s.nameAt? (last + 1) range.stop = none) : s.EndsName range last := by
  refine ⟨⟨inside, texts, spells⟩, fun j ⟨high, others, longer⟩ => Nat.not_lt.1 fun before => ?_⟩
  have low := start_lt_of_dottedName spells
  have odd := odd_of_dottedName (Nat.le_trans inside bound) spells
  -- In the longer name a dot and a name stand behind this one.
  rcases name_or_dot bound high longer (Nat.le_of_lt low) before with ⟨even, -⟩ | ⟨-, dot, more⟩
  · omega
  rcases name_or_dot bound high longer (by omega) more with ⟨-, named⟩ | ⟨other, -⟩
  · exact ends.elim (fun none => none ⟨by omega, dot⟩) named
  · omega

theorem nameParts_header (keyword : kind ≠ .other "") :
    (s.header kind range).nameParts = (s.dottedName range.start range.stop).1 := by
  rw [header_eq, if_neg keyword, headerBehind]
  split <;> rfl

/-- The names are those of the longest dotted name that the range begins with, and there are none
when it begins with no name. -/
structure ReadsName (s : Source) (range : TokenRange) (names : List String) : Prop where
  parts : ∀ stop, s.EndsName range stop →
    nameParts (s.tokens ⟨range.start, stop⟩) = some names
  unnamed_iff : names = [] ↔ ∀ stop, ¬ s.EndsName range stop

/-- A header is named by the longest dotted name it begins with, and goes on right behind it, or
behind a dot there. -/
theorem readsName_header (keyword : kind ≠ .other "") (bound : range.stop ≤ s.size) :
    s.ReadsName range (s.header kind range).nameParts ∧
      ∀ stop, s.EndsName range stop →
        s.nameEnd kind range = stop ∨
          s.isMark stop .dot = true ∧ s.nameEnd kind range = stop + 1 := by
  rw [nameParts_header keyword, nameEnd, if_neg keyword]
  rcases dottedName_cases s range.start range.stop with
    ⟨none, unnamed, -⟩ | ⟨last, inside, spells, ends⟩
  · have never : ∀ stop, ¬ s.EndsName range stop := by
      rintro stop ⟨⟨high, texts, spells⟩, -⟩
      have low := start_lt_of_dottedName spells
      rcases name_or_dot bound high spells (Nat.le_refl _) low with ⟨-, named⟩ | ⟨odd, -⟩
      · exact named none
      · omega
    refine ⟨⟨fun stop ends => absurd ends (never stop), ?_⟩, fun stop ends =>
      absurd ends (never stop)⟩
    rw [unnamed]
    exact ⟨fun _ => never, fun _ => rfl⟩
  · have longest : s.EndsName range last :=
      endsName_of_dottedName bound inside spells (ends.imp And.right fun dot => dot.2.2)
    refine ⟨⟨fun stop ends => ?_, ?_⟩, fun stop other => ?_⟩
    · rw [ends.unique longest]
      exact nameParts_eq_some_iff.2 spells
    · refine ⟨fun none => ?_, fun never => absurd longest (never last)⟩
      obtain ⟨names, nonempty, -, named⟩ := spells.exists_names
      rw [none, List.map_nil, List.map_eq_nil_iff] at named
      exact absurd named nonempty
    · rw [other.unique longest]
      exact ends.imp And.left fun dot => ⟨dot.2.1, dot.1⟩

end Source

end Dbml
