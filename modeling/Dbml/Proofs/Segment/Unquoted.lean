import Dbml.Proofs.Source.Masks
import Mathlib.Data.List.Forall2

/-!
# Quoted texts do not steer the scan

Brackets, braces, line ends and keywords that stand between quotes are no tokens of their own. Main
statement: `scan_of_same_unquoted`, sources whose tokens differ at most in quoted texts fall into
segments of one shape, or are refused at the same token for the same reason.
-/

namespace Dbml

open Source

/-- The token without what stands between its quotes. -/
def Token.unquoted : Token → Token
  | .str _ => .str ""
  | .multiStr _ => .multiStr ""
  | .expr _ => .expr ""
  | token => token

/-- As many tokens, which differ at most in what stands between quotes. -/
def SameUnquoted (s t : Source) : Prop :=
  s.lexemes.map (·.token.unquoted) = t.lexemes.map (·.token.unquoted)

instance (s t : Source) : Decidable (SameUnquoted s t) :=
  inferInstanceAs (Decidable (_ = _))

/-! ## Shapes -/

/-- Headers with as many segments in the name, with or without an alias, and the same settings. -/
structure Header.SameShape (a b : Header) : Prop where
  nameParts : a.nameParts.length = b.nameParts.length
  aliasName : a.aliasName.isSome = b.aliasName.isSome
  settings : a.settings = b.settings

/-- The same lines and blocks at the same tokens; the headers may give other names. -/
inductive Segment.SameShape : Segment → Segment → Prop
  | line (range : TokenRange) : SameShape (.line range) (.line range)
  | block {a b : Block} {children others : List Segment} (kind : a.kind = b.kind)
    (start : a.start = b.start) (opening : a.opening = b.opening) (closing : a.closing = b.closing)
    (header : a.header.SameShape b.header) (inner : List.Forall₂ SameShape children others) :
    SameShape (.block a children) (.block b others)

/-- Two scans that are refused with the same fault, or find segments of the same shape. -/
inductive SameScan : Except ScanFault (List Segment) → Except ScanFault (List Segment) → Prop
  | refused (fault : ScanFault) : SameScan (.error fault) (.error fault)
  | scanned {segments others : List Segment}
    (shapes : List.Forall₂ Segment.SameShape segments others) : SameScan (.ok segments) (.ok others)

theorem SameScan.map {x y : Except ScanFault (List Segment)} {f g : List Segment → List Segment}
    (same : SameScan x y)
    (step : ∀ segments others, List.Forall₂ Segment.SameShape segments others →
      List.Forall₂ Segment.SameShape (f segments) (g others)) : SameScan (x.map f) (y.map g) := by
  cases same with
  | refused fault => exact .refused fault
  | scanned shapes => exact .scanned (step _ _ shapes)

/-- A block with its children, in front of what is found behind it. -/
theorem SameScan.block {x y later others : Except ScanFault (List Segment)} {a b : Block}
    (head : ∀ children inner, List.Forall₂ Segment.SameShape children inner →
      Segment.SameShape (.block a children) (.block b inner))
    (children : SameScan x y) (rest : SameScan later others) :
    SameScan (do let inner ← x; let after ← later; return .block a inner :: after)
      (do let inner ← y; let after ← others; return .block b inner :: after) := by
  cases children with
  | refused fault => exact .refused fault
  | scanned shapes =>
    cases rest with
    | refused fault => exact .refused fault
    | scanned after => exact .scanned (.cons (head _ _ shapes) after)

/-! ## What quoted texts do not change -/

theorem Token.ofToken_unquoted (token : Token) :
    BlockKind.ofToken token.unquoted = BlockKind.ofToken token := by
  cases token <;> rfl

theorem reveals_unquoted : Reveals Token.unquoted where
  isMark token mark := by cases token <;> rfl
  isNewline token := by cases token <;> rfl
  isKeyword token keyword := by cases token <;> rfl
  isSome_name? token := by cases token <;> rfl
  isOther token := by rw [token.ofToken_unquoted]

namespace SameUnquoted

variable {s t : Source} (same : SameUnquoted s t)

include same

theorem alike : LooksAlike Token.unquoted t s := by
  intro i
  have both := congrArg (·[i]?) same
  simp only [Array.getElem?_map] at both
  simpa only [Source.token?, Option.map_map, Function.comp_def] using both

theorem kindAt (i : Nat) : s.kindAt i = t.kindAt i := by
  have both := same.alike.read Token.ofToken_unquoted i
  have elim (u : Source) : u.kindAt i = ((u.token? i).map BlockKind.ofToken).getD (.other "") := by
    rw [Source.kindAt]
    cases u.token? i <;> rfl
  rw [elim, elim, both]

/-! ## Headers -/

/-- A dotted name may have other segments, but as many, and it ends at the same token. -/
theorem dottedName (i stop : Nat) :
    (s.dottedName i stop).1.length = (t.dottedName i stop).1.length ∧
      (s.dottedName i stop).2 = (t.dottedName i stop).2 := by
  induction size : stop - i using Nat.strongRecOn generalizing i with
  | ind n ih =>
  have named := same.alike.isSome_nameAt? reveals_unquoted i stop
  rw [Source.dottedName, Source.dottedName.eq_def t, same.alike.isMark reveals_unquoted]
  cases left : s.nameAt? i stop with
  | none =>
    cases right : t.nameAt? i stop with
    | none => exact ⟨rfl, rfl⟩
    | some other => simp [left, right] at named
  | some name =>
    cases right : t.nameAt? i stop with
    | none => simp [left, right] at named
    | some other =>
      by_cases dot : i + 1 < stop ∧ t.isMark (i + 1) .dot = true
      · obtain ⟨length, next⟩ := ih _ (by omega) (i + 2) rfl
        simp only [if_pos dot, List.length_cons, length, next, and_self]
      · simp only [if_neg dot, List.length_singleton, and_self]

theorem headerBehind {names others : List String} (length : names.length = others.length)
    (i stop : Nat) : (s.headerBehind names i stop).SameShape (t.headerBehind others i stop) := by
  have named := same.alike.isSome_nameAt? reveals_unquoted
  have settings := same.alike.bracketed? reveals_unquoted
  rw [Source.headerBehind, Source.headerBehind, same.alike.isKeyword reveals_unquoted]
  by_cases aliased : i + 1 < stop ∧ t.isKeyword i "as" = true
  · rw [if_pos aliased, if_pos aliased]
    exact ⟨length, named _ _, settings _ _⟩
  · rw [if_neg aliased, if_neg aliased]
    exact ⟨length, rfl, settings _ _⟩

theorem header (kind : BlockKind) (i stop : Nat) :
    (s.header kind ⟨i, stop⟩).SameShape (t.header kind ⟨i, stop⟩) := by
  obtain ⟨length, next⟩ := same.dottedName i stop
  rw [header_eq, header_eq]
  by_cases anonymous : kind = .other ""
  · rw [if_pos anonymous, if_pos anonymous]
    exact same.headerBehind rfl _ _
  · rw [if_neg anonymous, if_neg anonymous, next]
    exact same.headerBehind length _ _

/-! ## Segments -/

theorem scanFrom (limit : Option Nat) (depth i stop : Nat) :
    SameScan (s.scanFrom limit depth i stop) (t.scanFrom limit depth i stop) := by
  induction depth, i, stop using t.scan_induction with
  | done depth i stop done =>
    rw [scanFrom_end done, scanFrom_end done]
    exact .scanned .nil
  | newline depth i stop inside newline ih =>
    rw [scanFrom_newline inside newline,
      same.alike.scanFrom_newline reveals_unquoted inside newline]
    exact ih
  | line depth i stop inside line opens ahead ih =>
    rw [scanFrom_line inside line opens,
      same.alike.scanFrom_line reveals_unquoted inside line opens]
    exact ih.map fun _ _ shapes => .cons (.line _) shapes
  | unclosed depth i stop opening inside line opens open_ =>
    rw [scanFrom_unterminated inside line opens open_,
      same.alike.scanFrom_unterminated reveals_unquoted inside line opens open_]
    exact .refused _
  | block depth i stop opening closing inside line opens closes _ _ _ inner later =>
    have children : SameScan (s.blockChildren limit depth i opening closing)
        (t.blockChildren limit depth i opening closing) := by
      rw [blockChildren, blockChildren, same.kindAt]
      by_cases other : (t.kindAt i).isOther = true
      · rw [if_pos other, if_pos other]
        exact .scanned .nil
      by_cases deep : limit.any (· < depth + 1) = true
      · rw [if_neg other, if_neg other, if_pos deep, if_pos deep]
        exact .refused _
      · rw [if_neg other, if_neg other, if_neg deep, if_neg deep]
        exact inner
    rw [scanFrom_block inside line opens closes,
      same.alike.scanFrom_block reveals_unquoted inside line opens closes]
    refine SameScan.block (fun _ _ shapes => ?_) children later
    have header := same.header (t.kindAt i) (i + 1) opening
    exact .block (same.kindAt i) rfl rfl rfl (by rwa [blockAt, same.kindAt]) shapes

theorem scanWithin (limit : Option Nat) : SameScan (s.scanWithin limit) (t.scanWithin limit) := by
  rw [Source.scanWithin, same.alike.size, Source.scanWithin]
  exact same.scanFrom limit 0 0 t.size

end SameUnquoted

/-- Texts between quotes decide nothing about where lines and blocks begin and end. -/
theorem scan_of_same_unquoted {s t : Source} (same : SameUnquoted s t) :
    (∃ fault, s.scanWithin (some depthLimit) = .error fault ∧
      t.scanWithin (some depthLimit) = .error fault ∧
      s.scan = .error (s.scanError fault) ∧ t.scan = .error (t.scanError fault)) ∨
    ∃ segments others, s.scan = .ok segments ∧ t.scan = .ok others ∧
      List.Forall₂ Segment.SameShape segments others := by
  have scans := same.scanWithin (some depthLimit)
  unfold scan
  generalize s.scanWithin (some depthLimit) = x at scans
  generalize t.scanWithin (some depthLimit) = y at scans
  cases scans with
  | refused fault => exact .inl ⟨fault, rfl, rfl, rfl, rfl⟩
  | scanned shapes => exact .inr ⟨_, _, rfl, rfl, shapes⟩

/-- A table with the text quoted in each way, in its header and in its body. -/
def quotingText (text : String) : String :=
  "Table \"" ++ text ++ "\" as '" ++ text ++ "' [note: '" ++ text ++ "'] \x7b\n id `" ++ text ++
    "`\n Note \x7b '''" ++ text ++ "''' \x7d\n\x7d\n"

theorem scan_of_same_unquoted_braces :
    ∃ s t, ofString (quotingText "id") = .ok s ∧ ofString (quotingText "]\x7d\x7b[") = .ok t ∧
      SameUnquoted s t ∧ ∃ segments others, s.scan = .ok segments ∧ t.scan = .ok others ∧
        segments.length = 1 ∧ List.Forall₂ Segment.SameShape segments others := by
  have evaluated : (ofString (quotingText "id")).toOption.bind (fun s =>
      (ofString (quotingText "]\x7d\x7b[")).toOption.map fun t =>
        (decide (SameUnquoted s t), s.scan.toOption.map List.length)) = some (true, some 1) := by
    decide +kernel
  obtain ⟨s, first, evaluated⟩ := Option.bind_eq_some_iff.1 evaluated
  obtain ⟨t, second, evaluated⟩ := Option.map_eq_some_iff.1 evaluated
  obtain ⟨same, one⟩ := Prod.mk.inj evaluated
  obtain ⟨found, scanned, one⟩ := Option.map_eq_some_iff.1 one
  have same := of_decide_eq_true same
  refine ⟨s, t, eq_ok_of_toOption first, eq_ok_of_toOption second, same, ?_⟩
  rcases scan_of_same_unquoted same with
    ⟨fault, -, -, refused, -⟩ | ⟨segments, others, left, right, shapes⟩
  · rw [refused] at scanned
    cases scanned
  · rw [left] at scanned
    cases scanned
    exact ⟨found, others, left, right, one, shapes⟩

end Dbml
