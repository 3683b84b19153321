import Dbml.Proofs.Respacing.Headers

/-!
# Tokens under a mask

A mask hides a part of every token: what stands between its quotes, or the case of its letters. A
reading that does not see the hidden part takes the same course in sources that look alike. Main
statements: one lemma for each search and for each step of a scan, and `LooksAlike.header`.
-/

namespace Dbml

open Source

/-- The mask shows all that a scan looks at: marks, line ends, keywords, whether a token can be part
of a name, and whether it is the keyword of a known block. -/
structure Reveals (mask : Token → Token) : Prop where
  isMark : ∀ token mark, (mask token).isMark mark = token.isMark mark
  isNewline : ∀ token, (mask token == .newline) = (token == .newline)
  isKeyword : ∀ token keyword, (mask token).isKeyword keyword = token.isKeyword keyword
  isSome_name? : ∀ token, (mask token).name?.isSome = token.name?.isSome
  isOther : ∀ token, (BlockKind.ofToken (mask token)).isOther = (BlockKind.ofToken token).isOther

/-- The tokens of both sources are the same under the mask. -/
def LooksAlike (mask : Token → Token) (s t : Source) : Prop :=
  ∀ i, (t.token? i).map mask = (s.token? i).map mask

namespace LooksAlike

variable {mask : Token → Token} {s t : Source} (alike : LooksAlike mask s t)

include alike

/-! ## Tokens by number -/

theorem isSome (i : Nat) : (t.token? i).isSome = (s.token? i).isSome := by
  have both := congrArg Option.isSome (alike i)
  rwa [Option.isSome_map, Option.isSome_map] at both

theorem size : t.size = s.size := by
  have bound (u : Source) (i : Nat) : (u.token? i).isSome = true ↔ i < u.size := by
    simp [Source.token?, Source.size]
  have same (i : Nat) : i < t.size ↔ i < s.size := by
    rw [← bound, ← bound, alike.isSome]
  exact Nat.le_antisymm (Nat.not_lt.1 fun less => Nat.lt_irrefl _ ((same _).1 less))
    (Nat.not_lt.1 fun less => Nat.lt_irrefl _ ((same _).2 less))

/-- What is read off a token without its hidden part is read off both. -/
theorem read {α : Type} {f : Token → α} (blind : ∀ token, f (mask token) = f token) (i : Nat) :
    (t.token? i).map f = (s.token? i).map f := by
  have both := congrArg (Option.map f) (alike i)
  simpa only [Option.map_map, Function.comp_def, blind] using both

theorem holds {p : Token → Bool} (blind : ∀ token, p (mask token) = p token) (i : Nat) :
    t.holds i p = s.holds i p := by
  have both := congrArg (Option.any id) (alike.read blind i)
  simpa only [Source.holds, Option.any_map, Function.comp_def, id] using both

theorem map_tokens {α : Type} {f : Token → α} (blind : ∀ token, f (mask token) = f token)
    (range : TokenRange) : (t.tokens range).map f = (s.tokens range).map f := by
  have reads (u : Source) (i : Nat) : (u.tokens range)[i]? =
      if i < min range.stop u.size - range.start then u.token? (range.start + i) else none := by
    rw [tokens, List.getElem?_map, Array.getElem?_toList, Array.getElem?_extract, Source.size,
      Source.token?]
    split <;> rfl
  refine List.ext_getElem? fun i => ?_
  rw [List.getElem?_map, List.getElem?_map, reads, reads, alike.size]
  split
  · exact alike.read blind _
  · rfl

theorem find? {p : Token → Bool} (blind : ∀ token, p (mask token) = p token)
    (range : TokenRange) : t.find? range p = s.find? range p := by
  have search (i count : Nat) : t.findFrom p i count = s.findFrom p i count := by
    induction count generalizing i with
    | zero => rfl
    | succ count ih => rw [findFrom, findFrom, alike.holds blind, ih]
  exact search _ _

/-! ## Marks and line ends -/

variable (reveals : Reveals mask) {i start stop : Nat}

include reveals

theorem isMark (i : Nat) (mark : Mark) : t.isMark i mark = s.isMark i mark := by
  rw [← holds_isMark, ← holds_isMark]
  exact alike.holds (fun token => reveals.isMark token mark) i

theorem isNewline (i : Nat) : t.holds i (· == .newline) = s.holds i (· == .newline) :=
  alike.holds reveals.isNewline i

theorem isKeyword (i : Nat) (keyword : String) : t.isKeyword i keyword = s.isKeyword i keyword :=
  alike.holds (fun token => reveals.isKeyword token keyword) i

theorem findOutside? (left right : Mark) {p : Token → Bool}
    (blind : ∀ token, p (mask token) = p token) (range : TokenRange) :
    t.findOutside? left right range p = s.findOutside? left right range p := by
  have search (depth i count : Nat) : t.findOutsideFrom left right p depth i count =
      s.findOutsideFrom left right p depth i count := by
    induction count generalizing depth i with
    | zero => rfl
    | succ count ih =>
      rw [findOutsideFrom, findOutsideFrom, alike.isMark reveals, alike.isMark reveals,
        alike.holds blind, ih, ih, ih]
  exact search _ _ _

theorem matching (start stop : Nat) (left right : Mark) :
    t.matching start stop left right = s.matching start stop left right := by
  have search (depth i count : Nat) : t.matchingFrom left right depth i count =
      s.matchingFrom left right depth i count := by
    induction count generalizing depth i with
    | zero => rfl
    | succ count ih =>
      rw [matchingFrom, matchingFrom, alike.isMark reveals, alike.isMark reveals, ih, ih, ih]
  exact search _ _ _

/-! ## Headers and braces -/

theorem bracketed? (i stop : Nat) : t.bracketed? i stop = s.bracketed? i stop := by
  rw [Source.bracketed?, alike.isMark reveals, alike.matching reveals, Source.bracketed?]

theorem isSome_nameAt? (i stop : Nat) : (t.nameAt? i stop).isSome = (s.nameAt? i stop).isSome := by
  have both := congrArg (Option.getD · false)
    (alike.read (f := fun token => token.name?.isSome) reveals.isSome_name? i)
  have bind (u : Source) : ((u.token? i).bind Token.name?).isSome =
      ((u.token? i).map fun token => token.name?.isSome).getD false := by
    cases u.token? i <;> rfl
  rw [nameAt?, nameAt?]
  split
  · rw [bind, bind]
    exact both
  · rfl

/-- A dotted name is the same when its tokens are; the token behind it does not matter. -/
theorem dottedName
    (others : ∀ k, i ≤ k → k < stop → k ≠ (s.dottedName i stop).2 → t.token? k = s.token? k) :
    t.dottedName i stop = s.dottedName i stop := by
  induction size : stop - i using Nat.strongRecOn generalizing i with
  | ind n ih =>
  rw [Source.dottedName.eq_def s] at others
  rw [Source.dottedName, Source.dottedName.eq_def s]
  cases found : s.nameAt? i stop with
  | none =>
    have none := alike.isSome_nameAt? reveals i stop
    rw [found, Option.isSome_none, Option.isSome_eq_false_iff, Option.isNone_iff_eq_none] at none
    rw [none]
  | some name =>
    simp only [found] at others
    have inside : i < stop := by
      refine Decidable.not_not.1 fun beyond => ?_
      rw [nameAt?, if_neg beyond] at found
      cases found
    have first (here : t.token? i = s.token? i) : t.nameAt? i stop = some name := by
      rw [← found, nameAt?, nameAt?, here]
    by_cases dot : i + 1 < stop ∧ s.isMark (i + 1) .dot = true
    · simp only [if_pos dot] at others
      have later := dottedName_ge (s := s) (i + 2) stop
      simp only [first (others i (Nat.le_refl i) inside (by omega)), alike.isMark reveals,
        if_pos dot, ih _ (by omega) (fun k low => others k (by omega)) rfl]
    · simp only [if_neg dot] at others
      simp only [first (others i (Nat.le_refl i) inside (by omega)), alike.isMark reveals,
        if_neg dot]

theorem headerBehind (names : List String)
    (others : ∀ k, start < k → k < stop → t.token? k = s.token? k) :
    t.headerBehind names start stop = s.headerBehind names start stop := by
  have name : t.nameAt? (start + 1) stop = s.nameAt? (start + 1) stop := by
    rw [nameAt?, nameAt?]
    split
    next inside => rw [others _ (Nat.lt_succ_self start) inside]
    · rfl
  simp only [Source.headerBehind, alike.isKeyword reveals, name, alike.bracketed? reveals]

/-- A header is the same when its tokens are; the word before an alias does not matter. -/
theorem header {range : TokenRange} (kind : BlockKind)
    (others : ∀ k, range.start ≤ k → k < range.stop → k ≠ s.nameEnd kind range →
      t.token? k = s.token? k) : t.header kind range = s.header kind range := by
  obtain ⟨start, stop⟩ := range
  rw [header_eq, header_eq]
  rw [nameEnd] at others
  split
  next nameless =>
    rw [if_pos nameless] at others
    exact alike.headerBehind reveals [] fun k low high =>
      others k (Nat.le_of_lt low) high (Nat.ne_of_gt low)
  next named =>
    rw [if_neg named] at others
    rw [alike.dottedName reveals others]
    exact alike.headerBehind reveals _ fun k low high =>
      others k (Nat.le_of_lt (Nat.lt_of_le_of_lt (dottedName_ge _ _) low)) high (Nat.ne_of_gt low)

theorem lineEnd (i stop : Nat) : t.lineEnd i stop = s.lineEnd i stop := by
  rw [Source.lineEnd, alike.find? reveals.isNewline, Source.lineEnd]

theorem isOther_kindAt (i : Nat) : (t.kindAt i).isOther = (s.kindAt i).isOther := by
  have both := alike.read (f := fun token => (BlockKind.ofToken token).isOther) reveals.isOther i
  have elim (u : Source) : (u.kindAt i).isOther =
      ((u.token? i).map fun token => (BlockKind.ofToken token).isOther).getD true := by
    rw [Source.kindAt]
    cases u.token? i <;> rfl
  rw [elim, elim, both]

theorem openingBrace (line : TokenRange) (stop : Nat) :
    t.openingBrace line stop = s.openingBrace line stop := by
  have outside (mark : Mark) : t.outsideSettings line mark = s.outsideSettings line mark :=
    alike.findOutside? reveals _ _ (fun token => reveals.isMark token mark) _
  have next (range : TokenRange) : t.find? range (· != .newline) = s.find? range (· != .newline) :=
    alike.find? (fun token => congrArg not (reveals.isNewline token)) range
  simp only [Source.openingBrace, braceOnNextLine, outside, next, alike.isOther_kindAt reveals,
    alike.isMark reveals]

/-! ## The steps of a scan -/

variable {limit : Option Nat} {depth opening closing : Nat}

theorem scanFrom_newline (inside : i < stop) (newline : s.token? i = some .newline) :
    t.scanFrom limit depth i stop = t.scanFrom limit depth (i + 1) stop := by
  refine Source.scanFrom_newline inside ?_
  rwa [← holds_newline, alike.isNewline reveals, holds_newline]

theorem scanFrom_line (inside : i < stop) (line : ¬ s.holds i (· == .newline) = true)
    (opens : s.openingBrace ⟨i, s.lineEnd i stop⟩ stop = none) :
    t.scanFrom limit depth i stop =
      (t.scanFrom limit depth (s.lineEnd i stop) stop).map (.line ⟨i, s.lineEnd i stop⟩ :: ·) := by
  rw [Source.scanFrom_line inside (by rwa [alike.isNewline reveals])
    (by rwa [alike.lineEnd reveals, alike.openingBrace reveals]), alike.lineEnd reveals]

theorem scanFrom_unterminated (inside : i < stop) (line : ¬ s.holds i (· == .newline) = true)
    (opens : s.openingBrace ⟨i, s.lineEnd i stop⟩ stop = some opening)
    (open_ : s.matching opening stop .openBrace .closeBrace = none) :
    t.scanFrom limit depth i stop = .error (.unterminated i) :=
  Source.scanFrom_unterminated inside (by rwa [alike.isNewline reveals])
    (by rwa [alike.lineEnd reveals, alike.openingBrace reveals]) (by rwa [alike.matching reveals])

theorem scanFrom_block (inside : i < stop) (line : ¬ s.holds i (· == .newline) = true)
    (opens : s.openingBrace ⟨i, s.lineEnd i stop⟩ stop = some opening)
    (closes : s.matching opening stop .openBrace .closeBrace = some closing) :
    t.scanFrom limit depth i stop = do
      let children ← t.blockChildren limit depth i opening closing
      let rest ← t.scanFrom limit depth (closing + 1) stop
      return .block (t.blockAt i opening closing) children :: rest :=
  Source.scanFrom_block inside (by rwa [alike.isNewline reveals])
    (by rwa [alike.lineEnd reveals, alike.openingBrace reveals]) (by rwa [alike.matching reveals])

end LooksAlike

end Dbml
