import Dbml.DeclaredColumn
import Dbml.Proofs.Respacing.Tokens
import Dbml.Proofs.Source.Partners

/-!
# The tokens of a type

A type that is not quoted goes on as long as there is no gap before the next token. What stands in
parentheses belongs to it with gaps too, and a bracket does only when it is closed at once. Main
statement: `columnType?_run`.
-/

namespace Dbml.Source

variable {s : Source} {start stop i j k closing : Nat}

/-- The token stands in parentheses that open without a gap behind the first token; parentheses that
are not closed reach to the end of the line. -/
def InGroup (s : Source) (start stop k : Nat) : Prop :=
  ∃ opening, start < opening ∧ opening < k ∧ s.isAdjacent opening = true ∧
    s.isMark opening .openParen = true ∧
    ∀ closing, s.matching opening stop .openParen .closeParen = some closing → k ≤ closing

/-- The token is the second one of two brackets, the first of which stands without a gap. -/
def ClosesPair (s : Source) (start k : Nat) : Prop :=
  ∃ opening, start < opening ∧ k = opening + 1 ∧ s.isAdjacent opening = true ∧
    s.isMark opening .openBracket = true ∧ s.isMark k .closeBracket = true

/-- From the token `start` up to but not including `j`, the tokens hang together: no parentheses are
cut, and no bracket is among them that opens a list of settings. -/
structure HangsTogether (s : Source) (start stop j : Nat) : Prop where
  nonempty : start < j
  inside : j ≤ stop
  joined : ∀ k, start < k → k < j →
    s.isAdjacent k = true ∨ s.InGroup start stop k ∨ s.ClosesPair start k
  whole : ∀ k, start < k → k < j → s.isMark k .openParen = true → ∀ closing,
    s.matching k stop .openParen .closeParen = some closing → closing < j
  unclosed : ∀ k, start < k → k < j → s.isMark k .openParen = true →
    s.matching k stop .openParen .closeParen = none → j = stop
  brackets : ∀ k, start < k → k < j → s.isMark k .openBracket = true →
    s.InGroup start stop k ∨ k + 1 < j ∧ s.isMark (k + 1) .closeBracket = true

/-- The tokens that hang together with the token `start` end before token `j`. -/
structure TypeRun (s : Source) (start stop j : Nat) : Prop
    extends HangsTogether s start stop j where
  ends : j = stop ∨ s.isAdjacent j = false ∨
    s.isMark j .openBracket = true ∧ ¬ (j + 1 < stop ∧ s.isMark (j + 1) .closeBracket = true)

namespace HangsTogether

/-! ## One more part -/

theorem first (inside : start < stop) : s.HangsTogether start stop (start + 1) where
  nonempty := Nat.lt_succ_self start
  inside := inside
  joined k low high := by omega
  whole k low high := by omega
  unclosed k low high := by omega
  brackets k low high := by omega

/-- Behind the tokens that hang together no parentheses of theirs go on. -/
theorem not_inGroup (before : s.HangsTogether start stop i) (inside : i < stop) :
    ¬ s.InGroup start stop i := by
  rintro ⟨opening, low, high, -, opens, upTo⟩
  cases closes : s.matching opening stop .openParen .closeParen with
  | none => exact Nat.ne_of_lt inside (before.unclosed opening low high opens closes)
  | some closing =>
    have := before.whole opening low high opens closing closes
    have := upTo closing closes
    omega

/-- Nor is the last of them a bracket that opens. -/
theorem not_closesPair (before : s.HangsTogether start stop i) (inside : i < stop) :
    ¬ s.ClosesPair start i := by
  rintro ⟨opening, low, rfl, -, opens, -⟩
  rcases before.brackets opening low (Nat.lt_succ_self opening) opens with grouped | ⟨more, -⟩
  · obtain ⟨outer, low, high, adjacent, outerOpens, upTo⟩ := grouped
    -- The bracket does not close the group, so that the group goes on behind it.
    refine before.not_inGroup inside
      ⟨outer, low, Nat.lt_succ_of_lt high, adjacent, outerOpens, fun closing closes => ?_⟩
    refine Nat.lt_of_le_of_ne (upTo closing closes) ?_
    rintro rfl
    cases eq_of_isMark opens (matching_bounds closes).2.2
  · exact Nat.lt_irrefl _ more

/-- Tokens that hang together with more tokens, when these are taken whole. -/
theorem extend (before : s.HangsTogether start stop i) (inside : i < stop) (later : i < j)
    (bound : j ≤ stop)
    (joined : ∀ k, i ≤ k → k < j → s.isAdjacent k = true ∨ s.InGroup start stop k ∨
      s.ClosesPair start k)
    (whole : ∀ k, i ≤ k → k < j → s.isMark k .openParen = true → ∀ closing,
      s.matching k stop .openParen .closeParen = some closing → closing < j)
    (unclosed : ∀ k, i ≤ k → k < j → s.isMark k .openParen = true →
      s.matching k stop .openParen .closeParen = none → j = stop)
    (brackets : ∀ k, i ≤ k → k < j → s.isMark k .openBracket = true →
      s.InGroup start stop k ∨ k + 1 < j ∧ s.isMark (k + 1) .closeBracket = true) :
    s.HangsTogether start stop j where
  nonempty := Nat.lt_trans before.nonempty later
  inside := bound
  joined k low high := by
    rcases Nat.lt_or_ge k i with early | late
    · exact before.joined k low early
    · exact joined k late high
  whole k low high opens closing closes := by
    rcases Nat.lt_or_ge k i with early | late
    · exact Nat.lt_trans (before.whole k low early opens closing closes) later
    · exact whole k late high opens closing closes
  unclosed k low high opens none := by
    rcases Nat.lt_or_ge k i with early | late
    · exact absurd (before.unclosed k low early opens none) (Nat.ne_of_lt inside)
    · exact unclosed k late high opens none
  brackets k low high opens := by
    rcases Nat.lt_or_ge k i with early | late
    · refine (before.brackets k low early opens).imp_right fun ⟨more, closes⟩ => ⟨?_, closes⟩
      exact Nat.lt_trans more later
    · exact brackets k late high opens

theorem token (before : s.HangsTogether start stop i) (inside : i < stop)
    (adjacent : s.isAdjacent i = true) (noParen : ¬ s.isMark i .openParen = true)
    (noBracket : ¬ s.isMark i .openBracket = true) : s.HangsTogether start stop (i + 1) := by
  have only {k : Nat} (low : i ≤ k) (high : k < i + 1) : k = i := by omega
  refine before.extend inside (Nat.lt_succ_self i) inside (fun k low high => ?_)
    (fun k low high opens => ?_) (fun k low high opens => ?_) (fun k low high opens => ?_)
  all_goals cases only low high
  · exact .inl adjacent
  · exact absurd opens noParen
  · exact absurd opens noParen
  · exact absurd opens noBracket

theorem pair (before : s.HangsTogether start stop i) (adjacent : s.isAdjacent i = true)
    (opens : s.isMark i .openBracket = true) (closes : s.isMark (i + 1) .closeBracket = true)
    (inside : i + 1 < stop) : s.HangsTogether start stop (i + 2) := by
  have both {k : Nat} (low : i ≤ k) (high : k < i + 2) : k = i ∨ k = i + 1 := by omega
  have noParen {k : Nat} (low : i ≤ k) (high : k < i + 2) : ¬ s.isMark k .openParen = true := by
    intro paren
    rcases both low high with rfl | rfl
    · cases eq_of_isMark opens paren
    · cases eq_of_isMark closes paren
  refine before.extend (Nat.lt_of_succ_lt inside) (by omega) inside (fun k low high => ?_)
    (fun k low high opens => absurd opens (noParen low high))
    (fun k low high opens => absurd opens (noParen low high)) (fun k low high opens' => ?_)
  · rcases both low high with rfl | rfl
    · exact .inl adjacent
    · exact .inr (.inr ⟨i, before.nonempty, rfl, adjacent, opens, closes⟩)
  · rcases both low high with rfl | rfl
    · exact .inr ⟨Nat.lt_succ_self _, closes⟩
    · cases eq_of_isMark closes opens'

/-- Everything up to `j` in a group that reaches there. -/
theorem group (before : s.HangsTogether start stop i) (inside : i < stop) (later : i < j)
    (bound : j ≤ stop) (adjacent : s.isAdjacent i = true) (opens : s.isMark i .openParen = true)
    (reaches : ∀ closing, s.matching i stop .openParen .closeParen = some closing → j = closing + 1)
    (whole : ∀ k, i ≤ k → k < j → s.isMark k .openParen = true → ∀ closing,
      s.matching k stop .openParen .closeParen = some closing → closing < j)
    (unclosed : ∀ k, i ≤ k → k < j → s.isMark k .openParen = true →
      s.matching k stop .openParen .closeParen = none → j = stop) :
    s.HangsTogether start stop j := by
  have grouped {k : Nat} (low : i < k) (high : k < j) : s.InGroup start stop k := by
    refine ⟨i, before.nonempty, low, adjacent, opens, fun closing closes => ?_⟩
    have := reaches closing closes
    omega
  refine before.extend inside later bound (fun k low high => ?_) whole unclosed
    (fun k low high bracket => ?_)
  · rcases Nat.lt_or_eq_of_le low with inner | rfl
    · exact .inr (.inl (grouped inner high))
    · exact .inl adjacent
  · rcases Nat.lt_or_eq_of_le low with inner | rfl
    · exact .inl (grouped inner high)
    · cases eq_of_isMark opens bracket

theorem closedGroup (before : s.HangsTogether start stop i) (size : stop ≤ s.size)
    (adjacent : s.isAdjacent i = true) (opens : s.isMark i .openParen = true)
    (closes : s.matching i stop .openParen .closeParen = some closing) :
    s.HangsTogether start stop (closing + 1) := by
  obtain ⟨low, high, closer⟩ := matching_bounds closes
  -- Parentheses in the group are closed in it.
  have inner {k : Nat} (later : i ≤ k) (upTo : k < closing + 1)
      (opens' : s.isMark k .openParen = true) :
      ∃ closing' < closing + 1, s.matching k stop .openParen .closeParen = some closing' := by
    rcases Nat.lt_or_eq_of_le later with behind | rfl
    · have apart : k ≠ closing := by
        rintro rfl
        cases eq_of_isMark closer opens'
      obtain ⟨closing', before, closes'⟩ :=
        exists_matching_between (by decide) size opens closes opens' behind (by omega)
      exact ⟨closing', Nat.lt_succ_of_lt before, closes'⟩
    · exact ⟨closing, Nat.lt_succ_self closing, closes⟩
  refine before.group (Nat.lt_of_le_of_lt low high) (Nat.lt_succ_of_le low) high adjacent opens
    (fun closing' closes' => ?_) (fun k later upTo opens' closing' closes' => ?_)
    (fun k later upTo opens' none => ?_)
  · rw [closes] at closes'
    cases closes'
    rfl
  · obtain ⟨found, within, closes''⟩ := inner later upTo opens'
    rw [closes'] at closes''
    cases closes''
    exact within
  · obtain ⟨found, -, closes''⟩ := inner later upTo opens'
    rw [none] at closes''
    cases closes''

theorem openGroup (before : s.HangsTogether start stop i) (inside : i < stop)
    (adjacent : s.isAdjacent i = true) (opens : s.isMark i .openParen = true)
    (none : s.matching i stop .openParen .closeParen = none) :
    s.HangsTogether start stop stop := by
  refine before.group inside inside (Nat.le_refl stop) adjacent opens (fun closing closes => ?_)
    (fun k _ _ _ closing closes => (matching_bounds closes).2.1) fun _ _ _ _ _ => rfl
  rw [none] at closes
  cases closes

end HangsTogether

/-! ## The whole run -/

/-- Reading on from where tokens hang together gives the whole run. -/
theorem typeRun_typeEnd (size : stop ≤ s.size) (before : s.HangsTogether start stop i) :
    s.TypeRun start stop (s.typeEnd i stop) := by
  fun_induction typeEnd s i stop with
  | case1 i inside opens closing closes ih =>
    exact ih (before.closedGroup size inside.2 opens closes)
  | case2 i inside opens none =>
    exact ⟨before.openGroup inside.1 inside.2 opens none, .inl rfl⟩
  | case3 i inside noParen opens closes ih =>
    exact ih (before.pair inside.2 opens closes.1 closes.2)
  | case4 i inside noParen opens settings =>
    exact ⟨before, .inr (.inr ⟨opens, fun ⟨more, closes⟩ => settings ⟨closes, more⟩⟩)⟩
  | case5 i inside noParen noBracket ih =>
    exact ih (before.token inside.1 inside.2 noParen noBracket)
  | case6 i apart =>
    refine ⟨before, ?_⟩
    rcases Nat.lt_or_eq_of_le before.inside with inside | last
    · exact .inr (.inl (Bool.eq_false_iff.2 fun adjacent => apart ⟨inside, adjacent⟩))
    · exact .inl last

namespace TypeRun

/-- A run does not end where a token follows without a gap, unless a list of settings opens. -/
theorem lt_of_adjacent (run : s.TypeRun start stop j) (order : i ≤ j) (inside : i < stop)
    (adjacent : s.isAdjacent i = true) (goesOn : s.isMark i .openBracket = true →
      s.isMark (i + 1) .closeBracket = true ∧ i + 1 < stop) : i < j := by
  refine Nat.lt_of_le_of_ne order ?_
  rintro rfl
  rcases run.ends with last | gap | ⟨opens, settings⟩
  · exact Nat.ne_of_lt inside last
  · rw [adjacent] at gap
    cases gap
  · exact settings (goesOn opens).symm

theorem lt_of_openParen (run : s.TypeRun start stop j) (order : i ≤ j) (inside : i < stop)
    (adjacent : s.isAdjacent i = true) (opens : s.isMark i .openParen = true) : i < j :=
  run.lt_of_adjacent order inside adjacent fun bracket => by cases eq_of_isMark opens bracket

/-- The token behind tokens that hang together is in the run only when it follows without a gap, and
when it is a bracket, only when this is closed at once. -/
theorem adjacent_of_lt (run : s.TypeRun start stop j) (before : s.HangsTogether start stop i)
    (more : i < j) : s.isAdjacent i = true ∧ (s.isMark i .openBracket = true →
      i + 1 < j ∧ s.isMark (i + 1) .closeBracket = true) := by
  have inside : i < stop := Nat.lt_of_lt_of_le more run.inside
  constructor
  · rcases run.joined i before.nonempty more with adjacent | grouped | closes
    · exact adjacent
    · exact absurd grouped (before.not_inGroup inside)
    · exact absurd closes (before.not_closesPair inside)
  · intro opens
    exact (run.brackets i before.nonempty more opens).resolve_left (before.not_inGroup inside)

/-- A run ends where reading stops. -/
theorem typeEnd_eq (run : s.TypeRun start stop j) (size : stop ≤ s.size)
    (before : s.HangsTogether start stop i) (order : i ≤ j) : s.typeEnd i stop = j := by
  fun_induction typeEnd s i stop with
  | case1 i inside opens closing closes ih =>
    have more := run.lt_of_openParen order inside.1 inside.2 opens
    exact ih (before.closedGroup size inside.2 opens closes)
      (run.whole i before.nonempty more opens closing closes)
  | case2 i inside opens none =>
    have more := run.lt_of_openParen order inside.1 inside.2 opens
    exact (run.unclosed i before.nonempty more opens none).symm
  | case3 i inside noParen opens closes ih =>
    have more := run.lt_of_adjacent order inside.1 inside.2 fun _ => closes
    exact ih (before.pair inside.2 opens closes.1 closes.2)
      ((run.adjacent_of_lt before more).2 opens).1
  | case4 i inside noParen opens settings =>
    refine Nat.le_antisymm order (Nat.not_lt.1 fun more => ?_)
    obtain ⟨more, closes⟩ := (run.adjacent_of_lt before more).2 opens
    exact settings ⟨closes, Nat.lt_of_lt_of_le more run.inside⟩
  | case5 i inside noParen noBracket ih =>
    have more := run.lt_of_adjacent order inside.1 inside.2 fun bracket => absurd bracket noBracket
    exact ih (before.token inside.1 inside.2 noParen noBracket) more
  | case6 i apart =>
    refine Nat.le_antisymm order (Nat.not_lt.1 fun more => ?_)
    exact apart ⟨Nat.lt_of_lt_of_le more run.inside, (run.adjacent_of_lt before more).1⟩

end TypeRun

theorem exists_spans (size : stop ≤ s.size) (nonempty : start < j) (inside : j ≤ stop) :
    ∃ a b, s.span? start = some a ∧ s.span? (j - 1) = some b ∧
      s.text ⟨start, j⟩ = String.ofList (Text.slice s.chars a.start b.stop) := by
  obtain ⟨a, opening⟩ := exists_span? (s := s) (i := start) (by omega)
  obtain ⟨b, closing⟩ := exists_span? (s := s) (i := j - 1) (by omega)
  exact ⟨a, b, opening, closing, text_of_span? nonempty opening closing⟩

/-- A type that begins with a word or a number is the run of tokens that hang together with the
first one. Its text reaches from the beginning of this one to the end of the last. -/
theorem columnType?_run {word text : String}
    (first : s.token? start = some (.ident word) ∨ s.token? start = some (.num word))
    (inside : start < stop) (size : stop ≤ s.size) :
    s.columnType? start stop = some (text, j) ↔ s.TypeRun start stop j ∧
      ∃ a b, s.span? start = some a ∧ s.span? (j - 1) = some b ∧
        text = String.ofList (Text.slice s.chars a.start b.stop) := by
  have front := HangsTogether.first (s := s) inside
  have run := typeRun_typeEnd size front
  have read : s.columnType? start stop =
      some (s.text ⟨start, s.typeEnd (start + 1) stop⟩, s.typeEnd (start + 1) stop) := by
    rw [columnType?, if_pos inside]
    rcases first with here | here <;> rw [here]
  rw [read, Option.some.injEq, Prod.mk.injEq]
  constructor
  · rintro ⟨rfl, rfl⟩
    exact ⟨run, exists_spans size run.nonempty run.inside⟩
  · rintro ⟨other, a, b, opening, closing, rfl⟩
    have same := other.typeEnd_eq size front other.nonempty
    exact ⟨by rw [same, text_of_span? other.nonempty opening closing], same⟩

/-- Parentheses in a group, with a gap in both, brackets that are closed at once, and settings. -/
def groupedTypeText : String :=
  "dec(1, f( 2))[ ][pk]"

theorem columnType?_run_grouped : ∃ s, ofString groupedTypeText = .ok s ∧
    s.token? 0 = some (.ident "dec") ∧ 0 < s.size ∧
    s.columnType? 0 s.size = some ("dec(1, f( 2))[ ]", 11) ∧ s.TypeRun 0 s.size 11 := by
  have evaluated : (ofString groupedTypeText).toOption.map
      (fun s => (s.token? 0, decide (0 < s.size), s.columnType? 0 s.size)) =
      some (some (.ident "dec"), true, some ("dec(1, f( 2))[ ]", 11)) := by decide +kernel
  obtain ⟨s, read, same⟩ := Option.map_eq_some_iff.1 evaluated
  simp only [Prod.mk.injEq, decide_eq_true_eq] at same
  obtain ⟨first, some_token, type⟩ := same
  have run := (columnType?_run (.inl first) some_token (Nat.le_refl _)).1 type
  exact ⟨s, eq_ok_of_toOption read, first, some_token, type, run.1⟩

end Dbml.Source
