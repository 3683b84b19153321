import Dbml.Proofs.Respacing.Newlines
import Dbml.Proofs.Respacing.Settings
import Dbml.Proofs.Segment.Partition

/-!
# Copied headers

The header of a block reads the same when its tokens are copied, whatever line ends stand between
them and the brace. Main statements: `Copied.header` and `header_newlines`, and
`Respaced.braceOnNextLine` for the brace.
-/

namespace Dbml

namespace Source

variable {s : Source} {i stop behind : Nat}

/-! ## Line ends behind a header -/

variable {behind : Nat}

/-- No partner of a bracket is found among line ends. -/
theorem matchingFrom_behind {left right : Mark} {open_ : Nat} (newlines : s.Newlines stop behind)
    (order : stop ≤ behind) (inside : i ≤ stop) :
    s.matchingFrom left right open_ i (behind - i) =
      s.matchingFrom left right open_ i (stop - i) := by
  induction size : stop - i generalizing i open_ with
  | zero =>
    rw [show i = stop by omega, matchingFrom_newlines newlines order (Nat.le_refl behind),
      Nat.sub_self]
    rfl
  | succ n ih =>
    have rest (open_ : Nat) : s.matchingFrom left right open_ (i + 1) (behind - (i + 1)) =
        s.matchingFrom left right open_ (i + 1) n := ih (by omega) (by omega)
    rw [show behind - i = behind - (i + 1) + 1 by omega, matchingFrom, matchingFrom, rest, rest,
      rest]

theorem nameAt?_behind (newlines : s.Newlines stop behind) (order : stop ≤ behind) (i : Nat) :
    s.nameAt? i behind = s.nameAt? i stop := by
  rw [nameAt?, nameAt?]
  by_cases inside : i < stop
  · rw [if_pos inside, if_pos (by omega)]
  · rw [if_neg inside]
    split
    next among => rw [newlines i (by omega) among]; rfl
    · rfl

theorem dottedName_behind (newlines : s.Newlines stop behind) (order : stop ≤ behind) (i : Nat) :
    s.dottedName i behind = s.dottedName i stop := by
  induction size : behind - i using Nat.strongRecOn generalizing i with
  | ind n ih =>
  rw [dottedName, dottedName.eq_def s i stop, nameAt?_behind newlines order]
  cases found : s.nameAt? i stop with
  | none => rfl
  | some name =>
    have dot : (i + 1 < behind ∧ s.isMark (i + 1) .dot = true) ↔
        (i + 1 < stop ∧ s.isMark (i + 1) .dot = true) := by
      refine ⟨fun ⟨among, dot⟩ => ⟨?_, dot⟩, fun ⟨among, dot⟩ => ⟨by omega, dot⟩⟩
      refine Decidable.not_not.1 fun beyond => ?_
      rw [newlines.isMark (by omega) among] at dot
      cases dot
    simp only [dot]
    split
    next inside => rw [ih _ (by omega) (i + 2) rfl]
    · rfl

/-- The tokens between the brackets that the token opens, if it does. -/
def bracketed? (s : Source) (i stop : Nat) : Option TokenRange :=
  if i < stop ∧ s.isMark i .openBracket then
    (s.matching i stop .openBracket .closeBracket).map fun close => ⟨i + 1, close⟩
  else none

/-- The header that follows a name which ends before token `i`. -/
def headerBehind (s : Source) (names : List String) (i stop : Nat) : Header :=
  if i + 1 < stop ∧ s.isKeyword i "as" then
    { nameParts := names
      aliasName := s.nameAt? (i + 1) stop
      settings := s.bracketed? (i + 2) stop }
  else { nameParts := names, aliasName := none, settings := s.bracketed? i stop }

theorem header_eq (kind : BlockKind) (i stop : Nat) :
    s.header kind ⟨i, stop⟩ =
      if kind = .other "" then s.headerBehind [] i stop
      else s.headerBehind (s.dottedName i stop).1 (s.dottedName i stop).2 stop := by
  rw [header]
  simp only [bracketed?, headerBehind]
  by_cases nameless : kind = .other ""
  · simp only [nameless, if_true]
    split <;> rfl
  · simp only [nameless, if_false]
    split <;> rfl

/-- The number of the token behind the name in a header of the kind. -/
def nameEnd (s : Source) (kind : BlockKind) (range : TokenRange) : Nat :=
  if kind = .other "" then range.start else (s.dottedName range.start range.stop).2

theorem bracketed?_bounds {range : TokenRange} (found : s.bracketed? i stop = some range) :
    i < range.start ∧ range.stop ≤ stop := by
  obtain ⟨-, found⟩ := Option.ite_none_right_eq_some.1 found
  obtain ⟨close, closes, rfl⟩ := Option.map_eq_some_iff.1 found
  exact ⟨Nat.lt_succ_self i, Nat.le_of_lt (matching_bounds closes).2.1⟩

/-- The settings stand behind the name. -/
theorem header_settings_bounds {kind : BlockKind} {range settings : TokenRange}
    (given : (s.header kind range).settings = some settings) :
    s.nameEnd kind range < settings.start ∧ settings.stop ≤ range.stop := by
  have behind (names : List String) (i : Nat)
      (given : (s.headerBehind names i range.stop).settings = some settings) :
      i < settings.start ∧ settings.stop ≤ range.stop := by
    rw [headerBehind] at given
    split at given
    · have := bracketed?_bounds given
      omega
    · exact bracketed?_bounds given
  obtain ⟨start, stop⟩ := range
  rw [header_eq] at given
  rw [nameEnd]
  split at given
  next nameless => rw [if_pos nameless]; exact behind _ _ given
  next named => rw [if_neg named]; exact behind _ _ given

theorem bracketed?_behind (newlines : s.Newlines stop behind) (order : stop ≤ behind) (i : Nat) :
    s.bracketed? i behind = s.bracketed? i stop := by
  rw [bracketed?, bracketed?]
  by_cases inside : i < stop
  · have partner : s.matching i behind .openBracket .closeBracket =
        s.matching i stop .openBracket .closeBracket :=
      matchingFrom_behind newlines order (Nat.le_of_lt inside)
    simp only [inside, Nat.lt_of_lt_of_le inside order, partner]
  · rw [if_neg (c := i < stop ∧ _) fun both => inside both.1, if_neg]
    rintro ⟨among, bracket⟩
    rw [newlines.isMark (by omega) among] at bracket
    cases bracket

theorem headerBehind_behind (newlines : s.Newlines stop behind) (order : stop ≤ behind)
    (names : List String) (i : Nat) :
    s.headerBehind names i behind = s.headerBehind names i stop := by
  rw [headerBehind, headerBehind, nameAt?_behind newlines order, bracketed?_behind newlines order,
    bracketed?_behind newlines order]
  by_cases aliased : i + 1 < stop ∧ s.isKeyword i "as" = true
  · rw [if_pos aliased, if_pos ⟨Nat.lt_of_lt_of_le aliased.1 order, aliased.2⟩]
  rw [if_neg aliased]
  split
  next last =>
    -- The word is the last one before the line ends, and names nothing.
    obtain ⟨t, here, keyword⟩ := (Option.any_eq_true _ _).1 last.2
    have ends : stop ≤ i + 1 := Nat.not_lt.1 fun inside => aliased ⟨inside, last.2⟩
    have bracket : s.isMark i .openBracket = false := by
      rw [isMark_of_token? here]
      cases t <;> simp_all [Token.isKeyword]
    rw [nameAt?, if_neg (Nat.not_lt.2 ends), bracketed?,
      if_neg fun both => Nat.not_lt.2 (Nat.le_succ_of_le ends) both.1, bracketed?, bracket]
    simp
  · rfl

/-- A header is the same with line ends behind it. -/
theorem header_newlines (newlines : s.Newlines stop behind) (order : stop ≤ behind) (i : Nat)
    (kind : BlockKind) : s.header kind ⟨i, behind⟩ = s.header kind ⟨i, stop⟩ := by
  simp only [header_eq, dottedName_behind newlines order, headerBehind_behind newlines order]

/-! ## Ends of lines -/

theorem le_lineEnd_self (inside : i ≤ stop) : i ≤ s.lineEnd i stop := by
  unfold lineEnd
  cases found : s.find? ⟨i, stop⟩ (· == .newline) with
  | none => exact inside
  | some j => exact (find?_bounds found).1

theorem token?_lineEnd (inside : s.lineEnd i stop < stop) :
    s.token? (s.lineEnd i stop) = some .newline := by
  unfold lineEnd at inside ⊢
  cases found : s.find? ⟨i, stop⟩ (· == .newline) with
  | none => rw [found] at inside; exact absurd inside (Nat.lt_irrefl _)
  | some j => exact holds_newline.1 (find?_bounds found).2.2

/-- A line goes on over tokens that are no line ends. -/
theorem le_lineEnd {j : Nat} (order : i ≤ j) (inside : j ≤ stop)
    (line : ∀ k, i ≤ k → k < j → s.token? k ≠ some .newline) : j ≤ s.lineEnd i stop := by
  refine Nat.not_lt.1 fun less => ?_
  exact line _ (le_lineEnd_self (Nat.le_trans order inside)) less
    (token?_lineEnd (Nat.lt_of_lt_of_le less inside))

theorem lineEnd_eq_of_newline {j : Nat} (order : i ≤ j) (inside : j < stop)
    (line : ∀ k, i ≤ k → k < j → s.token? k ≠ some .newline)
    (newline : s.token? j = some .newline) : s.lineEnd i stop = j := by
  refine Nat.le_antisymm (Nat.not_lt.1 fun less => ?_) (le_lineEnd order (Nat.le_of_lt inside) line)
  exact token?_ne_newline_of_lt_lineEnd order less newline

/-! ## Marks outside brackets -/

theorem findOutsideFrom_longer {left right : Mark} {p : Token → Bool} {depth count more j : Nat}
    (order : count ≤ more) (found : s.findOutsideFrom left right p depth i count = some j) :
    s.findOutsideFrom left right p depth i more = some j := by
  induction count generalizing i depth more with
  | zero => cases found
  | succ count ih =>
    obtain ⟨more, rfl⟩ : ∃ n, more = n + 1 := ⟨more - 1, by omega⟩
    have rest (depth : Nat) (found : s.findOutsideFrom left right p depth (i + 1) count = some j) :=
      ih (Nat.le_of_succ_le_succ order) found
    unfold findOutsideFrom at found ⊢
    split at found
    next opens => rw [if_pos opens]; exact rest _ found
    next notLeft =>
      rw [if_neg notLeft]
      split at found
      next closes => rw [if_pos closes]; exact rest _ found
      next notRight =>
        rw [if_neg notRight]
        split at found
        next here => rw [if_pos here]; exact found
        next others => rw [if_neg others]; exact rest _ found

/-- The search needs no tokens behind the one that it finds. -/
theorem findOutsideFrom_shorter {left right : Mark} {p : Token → Bool} {depth count j : Nat}
    (found : s.findOutsideFrom left right p depth i count = some j) :
    s.findOutsideFrom left right p depth i (j - i) = none ∧
      s.findOutsideFrom left right p depth i (j + 1 - i) = some j := by
  induction count generalizing i depth with
  | zero => cases found
  | succ count ih =>
    have later {depth : Nat} (found : s.findOutsideFrom left right p depth (i + 1) count = some j) :
        j - i = j - (i + 1) + 1 ∧ j + 1 - i = j + 1 - (i + 1) + 1 := by
      have := (findOutsideFrom_bounds found).1
      omega
    unfold findOutsideFrom at found
    split at found
    next opens =>
      rw [(later found).1, (later found).2, findOutsideFrom, findOutsideFrom, if_pos opens,
        if_pos opens]
      exact ih found
    next notLeft =>
      split at found
      next closes =>
        rw [(later found).1, (later found).2, findOutsideFrom, findOutsideFrom, if_neg notLeft,
          if_neg notLeft, if_pos closes, if_pos closes]
        exact ih found
      next notRight =>
        split at found
        next here =>
          cases found
          rw [Nat.sub_self, Nat.add_sub_cancel_left, findOutsideFrom, findOutsideFrom,
            if_neg notLeft, if_neg notRight, if_pos here]
          exact ⟨rfl, rfl⟩
        next others =>
          rw [(later found).1, (later found).2, findOutsideFrom, findOutsideFrom, if_neg notLeft,
            if_neg notLeft, if_neg notRight, if_neg notRight, if_neg others, if_neg others]
          exact ih found

variable {mark : Mark} {j : Nat}

theorem outsideSettings_shorter (found : s.outsideSettings ⟨i, stop⟩ mark = some j) :
    s.outsideSettings ⟨i, j⟩ mark = none ∧ s.outsideSettings ⟨i, j + 1⟩ mark = some j :=
  findOutsideFrom_shorter found

theorem outsideSettings_longer (order : stop ≤ behind)
    (found : s.outsideSettings ⟨i, stop⟩ mark = some j) :
    s.outsideSettings ⟨i, behind⟩ mark = some j :=
  findOutsideFrom_longer (Nat.sub_le_sub_right order i) found

theorem dottedName_ge (i stop : Nat) : i ≤ (s.dottedName i stop).2 := by
  induction size : stop - i using Nat.strongRecOn generalizing i with
  | ind n ih =>
  rw [dottedName]
  split
  · exact Nat.le_refl i
  · split
    next inside =>
      have := ih _ (by omega) (i + 2) rfl
      simp only
      omega
    · exact Nat.le_succ i

theorem nameEnd_ge (kind : BlockKind) (range : TokenRange) :
    range.start ≤ s.nameEnd kind range := by
  rw [nameEnd]
  split
  · exact Nat.le_refl _
  · exact dottedName_ge _ _

end Source

/-- The same names, and the same settings with copied values. -/
structure Header.Copied (s s' : Source) (place : Nat → Nat) (header header' : Header) : Prop where
  nameParts : header'.nameParts = header.nameParts
  aliasName : header'.aliasName = header.aliasName
  settings : SettingsCopied s s' place (header.settings.elim [] s.settings)
    (header'.settings.elim [] s'.settings)

namespace Copied

open Source

variable {s s' : Source} {place : Nat → Nat} {d : Nat} {range : TokenRange}

theorem outsideSettings (copied : Copied s s' place d range) (mark : Mark) :
    s'.outsideSettings (range.shift d) mark = (s.outsideSettings range mark).map (· + d) :=
  copied.findOutside? _ _ _

/-! ## Names -/

theorem nameAt? (copied : Copied s s' place d range) {i : Nat} (low : range.start ≤ i) :
    s'.nameAt? (i + d) (range.stop + d) = s.nameAt? i range.stop := by
  rw [Source.nameAt?, Source.nameAt?]
  simp only [Nat.add_lt_add_iff_right]
  split
  next inside => rw [copied.token i low inside]
  · rfl

theorem dottedName (copied : Copied s s' place d range) {i : Nat} (low : range.start ≤ i) :
    s'.dottedName (i + d) (range.stop + d) =
      ((s.dottedName i range.stop).1, (s.dottedName i range.stop).2 + d) := by
  induction size : range.stop - i using Nat.strongRecOn generalizing i with
  | ind n ih =>
  rw [Source.dottedName, Source.dottedName.eq_def s i, copied.nameAt? low]
  cases found : s.nameAt? i range.stop with
  | none => rfl
  | some name =>
    have dot : (i + d + 1 < range.stop + d ∧ s'.isMark (i + d + 1) .dot = true) ↔
        (i + 1 < range.stop ∧ s.isMark (i + 1) .dot = true) := by
      rw [Nat.add_right_comm, Nat.add_lt_add_iff_right]
      exact and_congr_right fun inside => by rw [copied.isMark .dot (by omega) inside]
    simp only [dot]
    split
    next inside => rw [Nat.add_right_comm, ih _ (by omega) (by omega) rfl]
    · simp only [Nat.add_right_comm]

theorem bracketed? (copied : Copied s s' place d range) {i : Nat} (low : range.start ≤ i) :
    SettingsCopied s s' place ((s.bracketed? i range.stop).elim [] s.settings)
      ((s'.bracketed? (i + d) (range.stop + d)).elim [] s'.settings) := by
  rw [Source.bracketed?, Source.bracketed?, copied.matching _ _ low]
  simp only [Nat.add_lt_add_iff_right]
  by_cases inside : i < range.stop
  · rw [copied.isMark _ low inside]
    split
    · cases closes : s.matching i range.stop .openBracket .closeBracket with
      | none => exact .nil
      | some closing =>
        exact copied.settings_behind low (Nat.le_of_lt (matching_bounds closes).2.1)
    · exact .nil
  · simp only [inside, false_and, if_false]
    exact .nil

theorem headerBehind (copied : Copied s s' place d range) (names : List String) {i : Nat}
    (low : range.start ≤ i) :
    Header.Copied s s' place (s.headerBehind names i range.stop)
      (s'.headerBehind names (i + d) (range.stop + d)) := by
  have aliased : (i + 1 + d < range.stop + d ∧ s'.isKeyword (i + d) "as" = true) ↔
      (i + 1 < range.stop ∧ s.isKeyword i "as" = true) := by
    rw [Nat.add_lt_add_iff_right]
    exact and_congr_right fun inside => by rw [copied.isKeyword _ low (by omega)]
  rw [Source.headerBehind, Source.headerBehind]
  simp only [Nat.add_right_comm _ d, aliased, copied.nameAt? (Nat.le_succ_of_le low)]
  split
  · exact ⟨rfl, rfl, copied.bracketed? (by omega)⟩
  · exact ⟨rfl, rfl, copied.bracketed? low⟩

/-- The same names, and the copied settings. -/
theorem header (copied : Copied s s' place d range) (kind : BlockKind) :
    Header.Copied s s' place (s.header kind range) (s'.header kind (range.shift d)) := by
  obtain ⟨start, stop⟩ := range
  simp only [TokenRange.shift, header_eq]
  split
  · exact copied.headerBehind [] (Nat.le_refl _)
  · rw [copied.dottedName (Nat.le_refl _)]
    exact copied.headerBehind _ (dottedName_ge _ _)

end Copied

/-! ## Braces behind a header -/

namespace Respaced

open Source

variable {s s' : Source} {shift : Nat → Nat} {i stop behind : Nat}

/-- Behind a line that is copied stand only line ends that were added. -/
theorem newlines_behind (respaced : Respaced s s' shift) (nonempty : i < stop)
    (whole : ∀ k, i ≤ k → k < stop → shift k = shift i) :
    s'.Newlines (stop + shift i) (stop + shift stop) := by
  obtain ⟨last, rfl⟩ : ∃ last, stop = last + 1 := ⟨stop - 1, by omega⟩
  have newlines := respaced.newlines last
  rwa [whole last (by omega) (by omega), Nat.add_right_comm] at newlines

theorem braceOnNextLine (respaced : Respaced s s' shift) (nonempty : i < stop)
    (bound : stop ≤ s.size) (order : stop ≤ behind)
    (whole : ∀ k, i ≤ k → k < stop → shift k = shift i) :
    s'.braceOnNextLine ⟨i + shift i, stop + shift i⟩ (behind + shift behind) =
      (s.braceOnNextLine ⟨i, stop⟩ behind).map fun k => k + shift k := by
  have copied := respaced.copied bound whole
  have colon : s'.outsideSettings ⟨i + shift i, stop + shift i⟩ .colon =
      (s.outsideSettings ⟨i, stop⟩ .colon).map (· + shift i) := copied.outsideSettings .colon
  have found : s'.find? ⟨stop + shift i, behind + shift behind⟩ (· != .newline) =
      (s.find? ⟨stop, behind⟩ (· != .newline)).map fun k => k + shift k := by
    rw [find?_newlines (respaced.newlines_behind nonempty whole)
      (Nat.add_le_add_left (respaced.shift_le (Nat.le_of_lt nonempty)) stop)
      (Nat.add_le_add order (respaced.shift_le order)) rfl, respaced.find? rfl order]
  rw [Source.braceOnNextLine, Source.braceOnNextLine, respaced.kindAt, colon, found,
    Option.isSome_map]
  split
  · rfl
  · cases s.find? ⟨stop, behind⟩ (· != .newline) with
    | none => rfl
    | some k =>
      simp only [Option.map_some, Option.filter_some, respaced.isMark]
      split <;> rfl

end Respaced

end Dbml
