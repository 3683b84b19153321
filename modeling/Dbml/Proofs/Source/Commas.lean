import Dbml.Proofs.Source.Counting
import Dbml.Setting

/-!
# Commas between settings

A list of settings is cut at each comma that stands in no parentheses, counted from the beginning of
the list. What stands before such a comma and what stands behind it are lists of their own. Main
statement: `settings_at_commas`.
-/

namespace Dbml

/-- How many brackets are open behind a token, of which `depth` were before it. A bracket that closes
none changes nothing. -/
def depthBehind (left right : Mark) (depth : Nat) (t : Token) : Nat :=
  if t = .mark left then depth + 1 else if t = .mark right then depth - 1 else depth

/-- The setting begins in the range, and a value that it has stands in it. -/
structure Setting.Within (range : TokenRange) (setting : Setting) : Prop where
  low : range.start ≤ setting.position
  high : setting.position < range.stop
  value : ∀ key value position, setting = .pair key value position →
    range.start ≤ value.start ∧ value.start ≤ value.stop ∧ value.stop ≤ range.stop

namespace Source

variable {s : Source} {range item : TokenRange} {depth count start stop i j k : Nat}

/-! ## Parentheses before a token -/

/-- How many parentheses are open before token `i` when `depth` are before token `start`. -/
def parensFrom (s : Source) (depth start i : Nat) : Nat :=
  (s.tokens ⟨start, i⟩).foldl (depthBehind .openParen .closeParen) depth

/-- The token is a comma that stands in no parentheses, counted from token `start` on. -/
def Separates (s : Source) (start i : Nat) : Prop :=
  s.isMark i .comma = true ∧ s.parensFrom 0 start i = 0

instance : Decidable (s.Separates start i) :=
  inferInstanceAs (Decidable (_ ∧ _))

theorem parensFrom_self : s.parensFrom depth i i = depth := by
  rw [parensFrom, tokens_of_not_lt (Nat.lt_irrefl i)]
  rfl

theorem parensFrom_cons {t : Token} (here : s.token? i = some t) (later : i < j) :
    s.parensFrom depth i j =
      s.parensFrom (depthBehind .openParen .closeParen depth t) (i + 1) j := by
  rw [parensFrom, tokens_of_lt later here, List.foldl_cons, parensFrom]

theorem parensFrom_split (low : start ≤ i) (high : i ≤ j) :
    s.parensFrom depth start j = s.parensFrom (s.parensFrom depth start i) i j := by
  rw [parensFrom, ← tokens_append low high, List.foldl_append, parensFrom, parensFrom]

/-- Behind a comma that separates, parentheses are counted anew. -/
theorem Separates.parensFrom_eq (comma : s.Separates start i) (low : start ≤ i) (later : i < j) :
    s.parensFrom 0 start j = s.parensFrom 0 (i + 1) j := by
  rw [parensFrom_split low (Nat.le_of_lt later), comma.2,
    parensFrom_cons (isMark_iff_token?.1 comma.1) later]
  rfl

theorem Separates.separates_iff (comma : s.Separates start i) (low : start ≤ i) (later : i < j) :
    s.Separates start j ↔ s.Separates (i + 1) j := by
  rw [Separates, Separates, comma.parensFrom_eq low later]

/-! ## The first comma -/

theorem findOutsideFrom_comma {t : Token} (here : s.token? i = some t) :
    s.findOutsideFrom .openParen .closeParen (·.isMark .comma) depth i (count + 1) =
      if depth = 0 ∧ t = .mark .comma then some i
      else s.findOutsideFrom .openParen .closeParen (·.isMark .comma)
        (depthBehind .openParen .closeParen depth t) (i + 1) count := by
  rw [findOutsideFrom, isMark_of_token? here, isMark_of_token? here, holds_of_token? here,
    depthBehind]
  by_cases opens : t = .mark .openParen
  · rw [opens]
    simp
  by_cases closes : t = .mark .closeParen
  · rw [closes]
    simp
  simp [opens, closes]

/-- A comma that is found stands in no parentheses. -/
theorem parensFrom_of_found
    (found : s.findOutsideFrom .openParen .closeParen (·.isMark .comma) depth i count = some j) :
    s.parensFrom depth i j = 0 := by
  induction count generalizing i depth with
  | zero => cases found
  | succ count ih =>
    obtain ⟨low, -, comma⟩ := findOutsideFrom_bounds found
    rw [holds_isMark] at comma
    obtain ⟨t, here⟩ := exists_token? (s := s) (i := i)
      (Nat.lt_of_le_of_lt low (lt_size_of_token? (isMark_iff_token?.1 comma)))
    rw [findOutsideFrom_comma here] at found
    split at found
    next first =>
      cases found
      rw [parensFrom_self, first.1]
    next passed =>
      have later := (findOutsideFrom_bounds found).1
      rw [parensFrom_cons here later, ih found]

/-- A comma that stands in no parentheses is not passed over. -/
theorem parensFrom_ne_zero (low : i ≤ k) (high : k < i + count) (comma : s.isMark k .comma = true)
    (passed : ∀ j, s.findOutsideFrom .openParen .closeParen (·.isMark .comma) depth i count = some j →
      k < j) : s.parensFrom depth i k ≠ 0 := by
  induction count generalizing i depth with
  | zero => omega
  | succ count ih =>
    obtain ⟨t, here⟩ := exists_token? (s := s) (i := i)
      (Nat.lt_of_le_of_lt low (lt_size_of_token? (isMark_iff_token?.1 comma)))
    rw [findOutsideFrom_comma here] at passed
    rcases Nat.lt_or_eq_of_le low with later | rfl
    · rw [parensFrom_cons here later]
      refine ih later (by omega) fun j found => ?_
      split at passed
      · exact absurd (passed i rfl) (Nat.not_lt.2 low)
      · exact passed j found
    · rw [parensFrom_self]
      intro outside
      rw [isMark_iff_token?.1 comma] at here
      cases here
      rw [if_pos ⟨outside, rfl⟩] at passed
      exact Nat.lt_irrefl i (passed i rfl)

theorem separates_of_found
    (found : s.findOutside? .openParen .closeParen range (·.isMark .comma) = some i) :
    range.start ≤ i ∧ i < range.stop ∧ s.Separates range.start i := by
  obtain ⟨low, high, comma⟩ := findOutside?_bounds found
  rw [holds_isMark] at comma
  exact ⟨low, high, comma, parensFrom_of_found found⟩

theorem not_separates_of_passed (low : range.start ≤ k) (high : k < range.stop)
    (passed : ∀ j, s.findOutside? .openParen .closeParen range (·.isMark .comma) = some j → k < j) :
    ¬ s.Separates range.start k := by
  rintro ⟨comma, outside⟩
  have inside : k < range.start + range.size := by
    rw [TokenRange.size]
    omega
  exact parensFrom_ne_zero low inside comma passed outside

/-- The first comma that separates is the one that is found. -/
theorem findOutside?_comma_iff :
    s.findOutside? .openParen .closeParen range (·.isMark .comma) = some i ↔
      range.start ≤ i ∧ i < range.stop ∧ s.Separates range.start i ∧
        ∀ k, range.start ≤ k → k < i → ¬ s.Separates range.start k := by
  constructor
  · intro found
    obtain ⟨low, high, separates⟩ := separates_of_found found
    refine ⟨low, high, separates, fun k below early => ?_⟩
    refine not_separates_of_passed below (by omega) fun j found' => ?_
    rw [found] at found'
    cases found'
    exact early
  · rintro ⟨low, high, separates, others⟩
    cases found : s.findOutside? .openParen .closeParen range (·.isMark .comma) with
    | none =>
      refine absurd separates (not_separates_of_passed low high fun j found' => ?_)
      rw [found] at found'
      cases found'
    | some j =>
      obtain ⟨below, -, earlier⟩ := separates_of_found found
      rcases Nat.lt_trichotomy i j with before | rfl | behind
      · refine absurd separates (not_separates_of_passed low high fun j' found' => ?_)
        rw [found] at found'
        cases found'
        exact before
      · rfl
      · exact absurd earlier (others j below behind)

theorem findOutside?_comma_eq_none :
    s.findOutside? .openParen .closeParen range (·.isMark .comma) = none ↔
      ∀ k, range.start ≤ k → k < range.stop → ¬ s.Separates range.start k := by
  constructor
  · intro none k low high
    refine not_separates_of_passed low high fun j found => ?_
    rw [none] at found
    cases found
  · intro others
    cases found : s.findOutside? .openParen .closeParen range (·.isMark .comma) with
    | none => rfl
    | some j =>
      obtain ⟨low, high, separates⟩ := separates_of_found found
      exact absurd separates (others j low high)

/-! ## Items -/

theorem splitCommas_of_none
    (none : s.findOutside? .openParen .closeParen range (·.isMark .comma) = none) :
    s.splitCommas range = [range] := by
  rw [splitCommas]
  split
  next found => rw [none] at found; cases found
  · rfl

theorem splitCommas_of_some
    (comma : s.findOutside? .openParen .closeParen range (·.isMark .comma) = some i) :
    s.splitCommas range = ⟨range.start, i⟩ :: s.splitCommas ⟨i + 1, range.stop⟩ := by
  rw [splitCommas]
  split
  next found => rw [comma] at found; cases found; rfl
  next none => rw [comma] at none; cases none

theorem splitCommas_bounds :
    ∀ item ∈ s.splitCommas range, range.start ≤ item.start ∧ item.stop ≤ range.stop := by
  fun_induction splitCommas s range with
  | case1 range i comma ih =>
    have bounds := findOutside?_bounds comma
    intro item listed
    rcases List.mem_cons.1 listed with rfl | later
    · exact ⟨Nat.le_refl _, Nat.le_of_lt bounds.2.1⟩
    · obtain ⟨low, high⟩ := ih item later
      exact ⟨Nat.le_trans (Nat.le_succ_of_le bounds.1) low, high⟩
  | case2 range none =>
    intro item listed
    rw [List.mem_singleton.1 listed]
    exact ⟨Nat.le_refl _, Nat.le_refl _⟩

/-- Each item ends before the next one begins. -/
theorem splitCommas_ordered :
    (s.splitCommas range).Pairwise fun a b => a.stop < b.start := by
  fun_induction splitCommas s range with
  | case1 range i comma ih =>
    exact List.pairwise_cons.2 ⟨fun item listed => (splitCommas_bounds item listed).1, ih⟩
  | case2 range none => exact List.pairwise_singleton _ _

/-! ## Settings -/

theorem settings_of_none
    (none : s.findOutside? .openParen .closeParen range (·.isMark .comma) = none)
    (some_token : range.isEmpty = false) : s.settings range = [s.settingOf range] := by
  rw [settings, splitCommas_of_none none, List.filter_cons_of_pos (by simp [some_token])]
  rfl

theorem settings_of_some
    (comma : s.findOutside? .openParen .closeParen range (·.isMark .comma) = some i)
    (some_token : range.start < i) :
    s.settings range = s.settingOf ⟨range.start, i⟩ :: s.settings ⟨i + 1, range.stop⟩ := by
  rw [settings, splitCommas_of_some comma,
    List.filter_cons_of_pos (by simp [TokenRange.isEmpty, some_token])]
  rfl

theorem settingOf_cases (s : Source) (item : TokenRange) :
    (∃ words, s.settingOf item = .flag words item.start) ∨
    s.settingOf item = .invalid item.start ∨
    1 < item.size ∧ ∃ key, s.settingOf item = .pair key (item.drop 2) item.start := by
  rw [settingOf]
  cases (s.tokens item).mapM word? with
  | none =>
    split
    · split
      next long => exact .inr (.inr ⟨long.1, _, rfl⟩)
      · exact .inr (.inl rfl)
    · exact .inr (.inl rfl)
  | some words =>
    split
    · split
      next long => exact .inr (.inr ⟨long.1, _, rfl⟩)
      · exact .inl ⟨_, rfl⟩
    · exact .inl ⟨_, rfl⟩

theorem position_settingOf (item : TokenRange) : (s.settingOf item).position = item.start := by
  rcases settingOf_cases s item with ⟨words, same⟩ | same | ⟨-, key, same⟩ <;> rw [same] <;> rfl

theorem within_settingOf (low : range.start ≤ item.start) (some_token : item.isEmpty = false)
    (high : item.stop ≤ range.stop) : (s.settingOf item).Within range := by
  have nonempty : item.start < item.stop := by simpa [TokenRange.isEmpty] using some_token
  refine ⟨?_, ?_, fun key value position pair => ?_⟩
  · rw [position_settingOf]
    exact low
  · rw [position_settingOf]
    exact Nat.lt_of_lt_of_le nonempty high
  · rcases settingOf_cases s item with ⟨words, same⟩ | same | ⟨long, word, same⟩ <;>
      rw [same] at pair <;> cases pair
    rw [TokenRange.size] at long
    simp only [TokenRange.drop]
    omega

theorem settings_of_unseparated
    (whole : ∀ k, range.start ≤ k → k < range.stop → ¬ s.Separates range.start k) :
    s.settings range = if range.start < range.stop then [s.settingOf range] else [] := by
  have none := findOutside?_comma_eq_none.2 whole
  by_cases nonempty : range.start < range.stop
  · rw [if_pos nonempty, settings_of_none none (decide_eq_false (Nat.not_le.2 nonempty))]
  · rw [if_neg nonempty, settings, splitCommas_of_none none,
      List.filter_cons_of_neg (by simpa [TokenRange.isEmpty] using nonempty)]
    rfl

/-- At the first comma a list is cut into the item before it and the list behind it. -/
theorem settings_first (low : range.start ≤ i) (high : i < range.stop)
    (comma : s.Separates range.start i)
    (others : ∀ k, range.start ≤ k → k < i → ¬ s.Separates range.start k) :
    s.settings range = s.settings ⟨range.start, i⟩ ++ s.settings ⟨i + 1, range.stop⟩ := by
  have found := findOutside?_comma_iff.2 ⟨low, high, comma, others⟩
  have none : s.findOutside? .openParen .closeParen ⟨range.start, i⟩ (·.isMark .comma) = none :=
    findOutside?_comma_eq_none.2 others
  rw [settings, settings, settings, splitCommas_of_some found, splitCommas_of_none none,
    ← List.map_append, ← List.filter_append]
  rfl

theorem settings_append (low : start ≤ i) (high : i < stop) (comma : s.Separates start i) :
    s.settings ⟨start, stop⟩ = s.settings ⟨start, i⟩ ++ s.settings ⟨i + 1, stop⟩ := by
  -- Behind the first comma a shorter list is cut at the same place.
  induction size : stop - start using Nat.strongRecOn generalizing start with
  | ind n ih =>
  cases found : s.findOutside? .openParen .closeParen ⟨start, i⟩ (·.isMark .comma) with
  | none => exact settings_first low high comma (findOutside?_comma_eq_none.1 found)
  | some j =>
    obtain ⟨below, before, first, others⟩ := findOutside?_comma_iff.1 found
    simp only at below before first others
    have rest := ih _ (by omega) before ((first.separates_iff below before).1 comma) rfl
    have front : s.settings ⟨start, i⟩ = _ := settings_first below before first others
    rw [settings_first below (Nat.lt_trans before high) first others, rest, front,
      List.append_assoc]

theorem within_of_mem_settings {setting : Setting} (listed : setting ∈ s.settings range) :
    setting.Within range := by
  obtain ⟨item, member, rfl⟩ := List.mem_map.1 listed
  obtain ⟨member, nonempty⟩ := List.mem_filter.1 member
  obtain ⟨low, high⟩ := splitCommas_bounds item member
  exact within_settingOf low (by simpa using nonempty) high

theorem settings_ordered (s : Source) (range : TokenRange) :
    (s.settings range).Pairwise fun a b => a.position < b.position := by
  rw [settings, List.pairwise_map, List.pairwise_filter]
  refine splitCommas_ordered.imp fun {a b} before some_token _ => ?_
  have nonempty : a.start < a.stop := by simpa [TokenRange.isEmpty] using some_token
  rw [position_settingOf, position_settingOf]
  exact Nat.lt_trans nonempty before

/-- A list of settings is the one before a comma that stands in no parentheses and the one behind it.
Without such a comma it is one setting, or none when it is empty. The settings stand in the list, one
behind the other. -/
theorem settings_at_commas (s : Source) (start stop : Nat) :
    (∀ i, start ≤ i → i < stop → s.Separates start i →
      s.settings ⟨start, stop⟩ = s.settings ⟨start, i⟩ ++ s.settings ⟨i + 1, stop⟩) ∧
    ((∀ i, start ≤ i → i < stop → ¬ s.Separates start i) →
      s.settings ⟨start, stop⟩ = if start < stop then [s.settingOf ⟨start, stop⟩] else []) ∧
    (∀ setting ∈ s.settings ⟨start, stop⟩, setting.Within ⟨start, stop⟩) ∧
    (s.settings ⟨start, stop⟩).Pairwise fun a b => a.position < b.position :=
  ⟨fun _ low high comma => settings_append low high comma,
    fun whole => settings_of_unseparated whole,
    fun _ listed => within_of_mem_settings listed, settings_ordered s _⟩

/-- A comma in parentheses, a parenthesis that closes none, and one that is not closed. -/
def oddParensText : String :=
  "a: f(x, y), ), b c, (d, e"

theorem settings_at_commas_oddParens : ∃ s, ofString oddParensText = .ok s ∧
    s.Separates 0 10 ∧ ¬ s.Separates 0 5 ∧ (∀ i, 14 ≤ i → i < 18 → ¬ s.Separates 14 i) ∧
    s.settings ⟨0, 18⟩ = s.settings ⟨0, 10⟩ ++ s.settings ⟨11, 18⟩ ∧
    s.settings ⟨0, 10⟩ = [.pair "a" ⟨2, 8⟩ 0, .invalid 9] ∧
    s.settings ⟨14, 18⟩ = [s.settingOf ⟨14, 18⟩] ∧
    Setting.Within ⟨0, 10⟩ (.pair "a" ⟨2, 8⟩ 0) := by
  have evaluated : (ofString oddParensText).toOption.map (fun s => (s.settings ⟨0, 10⟩,
      decide (s.Separates 0 10), decide (s.Separates 0 5),
      (List.range' 14 4).all fun i => decide (¬ s.Separates 14 i))) =
      some ([.pair "a" ⟨2, 8⟩ 0, .invalid 9], true, false, true) := by decide +kernel
  obtain ⟨s, read, same⟩ := Option.map_eq_some_iff.1 evaluated
  simp only [Prod.mk.injEq, decide_eq_true_eq, decide_eq_false_iff_not, List.all_eq_true] at same
  obtain ⟨front, comma, inner, last⟩ := same
  have none : ∀ i, 14 ≤ i → i < 18 → ¬ s.Separates 14 i := fun i low high =>
    last i (List.mem_range'_1.2 ⟨low, high⟩)
  refine ⟨s, eq_ok_of_toOption read, comma, inner, none,
    (settings_at_commas s 0 18).1 10 (by decide) (by decide) comma, front,
    (settings_at_commas s 14 18).2.1 none, ?_⟩
  exact (settings_at_commas s 0 10).2.2.1 _ (by rw [front]; exact List.mem_cons_self)

end Source

end Dbml
