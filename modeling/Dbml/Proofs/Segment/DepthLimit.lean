import Dbml.Proofs.Segment.Unclosed

/-!
# The depth limit

A scan with a limit does what a scan without one does until it comes to a known block on the level
behind the limit, and refuses this block. The known blocks that a scan without a limit comes to are
listed with their levels (`visits`), in the order of the document, and of a scan that succeeds they
are the known blocks of its segments. Main statements: `scanFrom_limit` for every limit and
`scan_refuses_first_deep` for the limit of the program.
-/

namespace Dbml

/-- A known block that a scan comes to: its first token, and its level, which is one for a block
that stands in no other. -/
structure Visit where
  position : Nat
  level : Nat
  deriving DecidableEq, Repr

/-- The known blocks of segments that stand `depth` levels deep, each before those inside it. -/
def Segment.visits (depth : Nat) : List Segment → List Visit
  | [] => []
  | .line _ :: rest => visits depth rest
  | .block b children :: rest =>
    (if b.kind.isOther then [] else ⟨b.start, depth + 1⟩ :: visits (depth + 1) children) ++
      visits depth rest

namespace Source

variable {s : Source} {depth limit i stop opening closing : Nat} {segments : List Segment}
  {visit : Visit}

set_option linter.unusedVariables false in
/-- The known blocks that a scan without a limit comes to, in the order in which it comes to them.
It stops at a block that is not closed, and behind a block whose body has no segments. -/
def visits (s : Source) (depth i stop : Nat) : List Visit :=
  if inside : i < stop then
    if line : s.holds i (· == .newline) then s.visits depth (i + 1) stop
    else
      match opens : s.openingBrace ⟨i, s.lineEnd i stop⟩ stop with
      | none => s.visits depth (s.lineEnd i stop) stop
      | some opening =>
        match closes : s.matching opening stop .openBrace .closeBrace with
        | none => []
        | some closing =>
          let inner :=
            if (s.kindAt i).isOther then []
            else ⟨i, depth + 1⟩ :: s.visits (depth + 1) (opening + 1) closing
          match s.blockChildren none depth i opening closing with
          | .error _ => inner
          | .ok _ => inner ++ s.visits depth (closing + 1) stop
  else []
termination_by stop - i
decreasing_by
  · omega
  · have := lineEnd_gt inside line; omega
  · have := lineEnd_gt inside line
    have := openingBrace_ge (Nat.le_of_lt this) opens
    have := matching_bounds closes
    simp only at *; omega
  · have := lineEnd_gt inside line
    have := openingBrace_ge (Nat.le_of_lt this) opens
    have := matching_bounds closes
    simp only at *; omega

/-! ## The visits of a scan, step by step -/

theorem visits_end (done : ¬ i < stop) : s.visits depth i stop = [] := by
  rw [visits, dif_neg done]

theorem visits_newline (inside : i < stop) (newline : s.token? i = some .newline) :
    s.visits depth i stop = s.visits depth (i + 1) stop := by
  rw [visits, dif_pos inside, dif_pos (by simp [holds_of_token? newline])]

theorem visits_line (inside : i < stop) (line : ¬ s.holds i (· == .newline) = true)
    (opens : s.openingBrace ⟨i, s.lineEnd i stop⟩ stop = none) :
    s.visits depth i stop = s.visits depth (s.lineEnd i stop) stop := by
  rw [visits, dif_pos inside, dif_neg line]
  split
  · rfl
  next found => rw [opens] at found; cases found

theorem visits_unclosed (inside : i < stop) (line : ¬ s.holds i (· == .newline) = true)
    (opens : s.openingBrace ⟨i, s.lineEnd i stop⟩ stop = some opening)
    (open_ : s.matching opening stop .openBrace .closeBrace = none) :
    s.visits depth i stop = [] := by
  rw [visits, dif_pos inside, dif_neg line]
  split
  next found => rw [opens] at found; cases found
  next other found =>
    rw [opens] at found
    cases found
    split
    · rfl
    next found => rw [open_] at found; cases found

/-- The visits that a block adds: itself and those in its body, if it is of a known kind. -/
def blockVisits (s : Source) (depth i opening closing : Nat) : List Visit :=
  if (s.kindAt i).isOther then []
  else ⟨i, depth + 1⟩ :: s.visits (depth + 1) (opening + 1) closing

theorem visits_block (inside : i < stop) (line : ¬ s.holds i (· == .newline) = true)
    (opens : s.openingBrace ⟨i, s.lineEnd i stop⟩ stop = some opening)
    (closes : s.matching opening stop .openBrace .closeBrace = some closing) :
    s.visits depth i stop = s.blockVisits depth i opening closing ++
      (s.blockChildren none depth i opening closing).toOption.elim []
        fun _ => s.visits depth (closing + 1) stop := by
  rw [visits, dif_pos inside, dif_neg line]
  split
  next found => rw [opens] at found; cases found
  next other found =>
    rw [opens] at found
    cases found
    split
    next found => rw [closes] at found; cases found
    next other found =>
      rw [closes] at found
      cases found
      unfold blockVisits
      cases s.blockChildren none depth i opening closing with
      | error fault => exact (List.append_nil _).symm
      | ok children => rfl

/-- What every visit of the parts of a scan has, every visit of the scan has. -/
theorem mem_visits_block (inside : i < stop) (line : ¬ s.holds i (· == .newline) = true)
    (opens : s.openingBrace ⟨i, s.lineEnd i stop⟩ stop = some opening)
    (closes : s.matching opening stop .openBrace .closeBrace = some closing)
    (listed : visit ∈ s.visits depth i stop) :
    ((s.kindAt i).isOther = false ∧ (visit = ⟨i, depth + 1⟩ ∨
      visit ∈ s.visits (depth + 1) (opening + 1) closing)) ∨
      visit ∈ s.visits depth (closing + 1) stop := by
  rw [visits_block inside line opens closes] at listed
  rcases List.mem_append.1 listed with own | behind
  · left
    rw [blockVisits] at own
    split at own
    · cases own
    · rename_i known
      exact ⟨Bool.eq_false_iff.2 known, List.mem_cons.1 own⟩
  · right
    cases within : s.blockChildren none depth i opening closing with
    | error fault =>
      rw [within] at behind
      cases behind
    | ok children =>
      rw [within] at behind
      exact behind

/-- Only known blocks are visited. -/
theorem isOther_of_mem_visits (listed : visit ∈ s.visits depth i stop) :
    (s.kindAt visit.position).isOther = false := by
  induction depth, i, stop using s.scan_induction with
  | done depth i stop done =>
    rw [visits_end done] at listed
    cases listed
  | newline depth i stop inside newline ih =>
    rw [visits_newline inside newline] at listed
    exact ih listed
  | line depth i stop inside line opens ahead ih =>
    rw [visits_line inside line opens] at listed
    exact ih listed
  | unclosed depth i stop opening inside line opens open_ =>
    rw [visits_unclosed inside line opens open_] at listed
    cases listed
  | block depth i stop opening closing inside line opens closes start order final inner later =>
    rcases mem_visits_block inside line opens closes listed with ⟨known, rfl | body⟩ | behind
    · exact known
    · exact inner body
    · exact later behind

theorem visits_bounds (listed : visit ∈ s.visits depth i stop) :
    i ≤ visit.position ∧ visit.position < stop := by
  induction depth, i, stop using s.scan_induction with
  | done depth i stop done =>
    rw [visits_end done] at listed
    cases listed
  | newline depth i stop inside newline ih =>
    rw [visits_newline inside newline] at listed
    have := ih listed
    omega
  | line depth i stop inside line opens ahead ih =>
    rw [visits_line inside line opens] at listed
    have := ih listed
    omega
  | unclosed depth i stop opening inside line opens open_ =>
    rw [visits_unclosed inside line opens open_] at listed
    cases listed
  | block depth i stop opening closing inside line opens closes start order final inner later =>
    rcases mem_visits_block inside line opens closes listed with ⟨-, rfl | body⟩ | behind
    · exact ⟨Nat.le_refl i, inside⟩
    · have := inner body
      omega
    · have := later behind
      omega

theorem pairwise_visits (s : Source) (depth i stop : Nat) :
    (s.visits depth i stop).Pairwise fun a b => a.position < b.position := by
  induction depth, i, stop using s.scan_induction with
  | done depth i stop done =>
    rw [visits_end done]
    exact .nil
  | newline depth i stop inside newline ih =>
    rw [visits_newline inside newline]
    exact ih
  | line depth i stop inside line opens ahead ih =>
    rw [visits_line inside line opens]
    exact ih
  | unclosed depth i stop opening inside line opens open_ =>
    rw [visits_unclosed inside line opens open_]
    exact .nil
  | block depth i stop opening closing inside line opens closes start order final inner later =>
    rw [visits_block inside line opens closes, blockVisits]
    refine List.pairwise_append.2 ⟨?_, ?_, ?_⟩
    · split
      · exact .nil
      · refine List.pairwise_cons.2 ⟨fun visit body => ?_, inner⟩
        have := visits_bounds body
        show i < visit.position
        omega
    · cases s.blockChildren none depth i opening closing with
      | error fault => exact .nil
      | ok children => exact later
    · intro visit own other behind
      have before : visit.position < closing := by
        split at own
        · cases own
        · rcases List.mem_cons.1 own with rfl | body
          · show i < closing
            omega
          · exact (visits_bounds body).2
      cases within : s.blockChildren none depth i opening closing with
      | error fault =>
        rw [within] at behind
        cases behind
      | ok children =>
        rw [within] at behind
        have := visits_bounds behind
        omega

/-- The visits of a scan that succeeds are the known blocks of its segments. -/
theorem visits_of_scanFrom (scanned : s.scanFrom none depth i stop = .ok segments) :
    s.visits depth i stop = Segment.visits depth segments := by
  induction depth, i, stop using s.scan_induction generalizing segments with
  | done depth i stop done =>
    rw [scanFrom_end done] at scanned
    cases scanned
    rw [visits_end done, Segment.visits]
  | newline depth i stop inside newline ih =>
    rw [scanFrom_newline inside newline] at scanned
    rw [visits_newline inside newline]
    exact ih scanned
  | line depth i stop inside line opens ahead ih =>
    rw [scanFrom_line inside line opens] at scanned
    cases later : s.scanFrom none depth (s.lineEnd i stop) stop with
    | error fault =>
      rw [later] at scanned
      cases scanned
    | ok rest =>
      rw [later] at scanned
      cases scanned
      rw [visits_line inside line opens, Segment.visits]
      exact ih later
  | unclosed depth i stop opening inside line opens open_ =>
    rw [scanFrom_unterminated inside line opens open_] at scanned
    cases scanned
  | block depth i stop opening closing inside line opens closes _ _ _ ihInner ihLater =>
    rw [scanFrom_block inside line opens closes] at scanned
    cases within : s.blockChildren none depth i opening closing with
    | error fault =>
      rw [within] at scanned
      cases scanned
    | ok children =>
      cases later : s.scanFrom none depth (closing + 1) stop with
      | error fault =>
        rw [within, later] at scanned
        cases scanned
      | ok rest =>
        rw [within, later] at scanned
        cases scanned
        rw [visits_block inside line opens closes, within, Segment.visits]
        show s.blockVisits depth i opening closing ++ s.visits depth (closing + 1) stop = _
        rw [ihLater later, blockVisits]
        by_cases other : (s.kindAt i).isOther = true
        · rw [if_pos other, if_pos (show (s.blockAt i opening closing).kind.isOther = true from other)]
        · rw [blockChildren, if_neg other] at within
          rw [if_neg other,
            if_neg (show ¬ (s.blockAt i opening closing).kind.isOther = true from other),
            ihInner within]
          rfl

/-! ## A scan with a limit -/

/-- The result of a scan with a limit, when the scan without one makes these visits and has this
result: the first block on the level behind the limit is refused. -/
def refuseDeep {α : Type} (limit : Nat) (visits : List Visit) (unlimited : Except ScanFault α) :
    Except ScanFault α :=
  match visits.find? (·.level == limit + 1) with
  | some visit => .error (.tooDeep visit.position)
  | none => unlimited

section RefuseDeep

variable {α β : Type} {first later : List Visit} {result : Except ScanFault α}

@[simp] theorem refuseDeep_nil : refuseDeep limit [] result = result := rfl

theorem refuseDeep_append :
    refuseDeep limit (first ++ later) result =
      refuseDeep limit first (refuseDeep limit later result) := by
  simp only [refuseDeep, List.find?_append]
  cases first.find? (·.level == limit + 1) <;> rfl

theorem refuseDeep_cons_deep {visit : Visit} (deep : visit.level = limit + 1) :
    refuseDeep limit (visit :: later) result = .error (.tooDeep visit.position) := by
  rw [refuseDeep, List.find?_cons_of_pos (by simpa using deep)]

theorem refuseDeep_cons_shallow {visit : Visit} (shallow : visit.level ≠ limit + 1) :
    refuseDeep limit (visit :: later) result = refuseDeep limit later result := by
  rw [refuseDeep, List.find?_cons_of_neg (by simpa using shallow)]
  rfl

theorem refuseDeep_bind (f : α → Except ScanFault β) :
    refuseDeep limit first result >>= f = refuseDeep limit first (result >>= f) := by
  simp only [refuseDeep]
  cases first.find? (·.level == limit + 1) <;> rfl

theorem refuseDeep_map (f : α → β) :
    (refuseDeep limit first result).map f = refuseDeep limit first (result.map f) := by
  simp only [refuseDeep]
  cases first.find? (·.level == limit + 1) <;> rfl

end RefuseDeep

/-- A limit does nothing but refuse the first known block on the level behind it. -/
theorem scanFrom_limit (within : depth ≤ limit) :
    s.scanFrom (some limit) depth i stop =
      refuseDeep limit (s.visits depth i stop) (s.scanFrom none depth i stop) := by
  induction depth, i, stop using s.scan_induction with
  | done depth i stop done =>
    rw [scanFrom_end done, scanFrom_end done, visits_end done]
    rfl
  | newline depth i stop inside newline ih =>
    rw [scanFrom_newline inside newline, scanFrom_newline inside newline,
      visits_newline inside newline]
    exact ih within
  | line depth i stop inside line opens ahead ih =>
    rw [scanFrom_line inside line opens, scanFrom_line inside line opens,
      visits_line inside line opens, ih within, refuseDeep_map]
  | unclosed depth i stop opening inside line opens open_ =>
    rw [scanFrom_unterminated inside line opens open_, scanFrom_unterminated inside line opens open_,
      visits_unclosed inside line opens open_]
    rfl
  | block depth i stop opening closing inside line opens closes start order final inner later =>
    have children : s.blockChildren (some limit) depth i opening closing =
        refuseDeep limit (s.blockVisits depth i opening closing)
          (s.blockChildren none depth i opening closing) := by
      simp only [blockChildren, blockVisits]
      by_cases other : (s.kindAt i).isOther = true
      · rw [if_pos other, if_pos other, if_pos other]
        rfl
      rw [if_neg other, if_neg other, if_neg other]
      by_cases deep : limit < depth + 1
      · rw [if_pos (by simpa using deep), refuseDeep_cons_deep (by show depth + 1 = limit + 1; omega)]
      · rw [if_neg (by simpa using deep), inner (by omega),
          refuseDeep_cons_shallow (by show depth + 1 ≠ limit + 1; omega)]
        rfl
    rw [scanFrom_block inside line opens closes, scanFrom_block inside line opens closes,
      visits_block inside line opens closes, children, refuseDeep_bind, refuseDeep_append]
    cases s.blockChildren none depth i opening closing with
    | error fault => rfl
    | ok children =>
      show refuseDeep limit _ (s.scanFrom (some limit) depth (closing + 1) stop >>= _) = _
      rw [later within, refuseDeep_bind]
      rfl

/-- Tables in each other behind a block of an unknown kind. -/
def stackedText : String :=
  "x \x7b\x7b\x7d\x7d\nTable a \x7b Table b \x7b Table c \x7b\x7d \x7d \x7d\n"

example : (ofString stackedText).toOption.map (fun s =>
      ((s.visits 0 0 s.size).map (·.level), s.scanWithin (some 2) matches .error (.tooDeep 12))) =
    some ([1, 2, 3], true) := by decide +kernel

/-- A block that is refused is a known one, and there is a limit that it is refused for. -/
theorem refused_of_scanFrom {limit : Option Nat} {position : Nat}
    (failed : s.scanFrom limit depth i stop = .error (.tooDeep position)) :
    limit.isSome = true ∧ (s.kindAt position).isOther = false := by
  induction depth, i, stop using s.scan_induction with
  | done depth i stop done =>
    rw [scanFrom_end done] at failed
    cases failed
  | newline depth i stop inside newline ih =>
    rw [scanFrom_newline inside newline] at failed
    exact ih failed
  | line depth i stop inside line opens ahead ih =>
    rw [scanFrom_line inside line opens] at failed
    cases later : s.scanFrom limit depth (s.lineEnd i stop) stop with
    | ok rest =>
      rw [later] at failed
      cases failed
    | error fault =>
      rw [later] at failed
      cases failed
      exact ih later
  | unclosed depth i stop opening inside line opens open_ =>
    rw [scanFrom_unterminated inside line opens open_] at failed
    cases failed
  | block depth i stop opening closing inside line opens closes start order final inner later =>
    rw [scanFrom_block inside line opens closes] at failed
    cases within : s.blockChildren limit depth i opening closing with
    | ok children =>
      rw [within] at failed
      cases behind : s.scanFrom limit depth (closing + 1) stop with
      | ok rest =>
        rw [behind] at failed
        cases failed
      | error fault =>
        rw [behind] at failed
        cases failed
        exact later behind
    | error fault =>
      rw [within] at failed
      cases failed
      rw [blockChildren] at within
      split at within
      · cases within
      · rename_i known
        split at within
        · rename_i deep
          cases within
          exact ⟨Option.isSome_of_any deep, Bool.eq_false_iff.2 known⟩
        · exact inner within

/-- A block of an unknown kind is taken as it is, whatever the limit, the level and its body. -/
theorem scanFrom_unknown {limit : Option Nat} (header : s.Heads stop i opening)
    (closes : s.matching opening stop .openBrace .closeBrace = some closing)
    (unknown : (s.kindAt i).isOther = true) :
    s.scanFrom limit depth i stop =
      (s.scanFrom limit depth (closing + 1) stop).map
        (.block (s.blockAt i opening closing) [] :: ·) := by
  have line : ¬ s.holds i (· == .newline) = true := fun here => header.solid (holds_newline.1 here)
  rw [scanFrom_block header.inside line header.opens closes, blockChildren, if_pos unknown]
  cases s.scanFrom limit depth (closing + 1) stop <;> rfl

/-! ## The limit of the program -/

/-- The scan without a limit. -/
def scanUnlimited (s : Source) : Except ScanError (List Segment) :=
  (s.scanWithin none).mapError s.scanError

/-- The scan refuses the first block that the scan without a limit visits on the level behind the
limit, and does what that scan does when it visits none. Visits are in the order of the document,
of known blocks only, and those of a scan that succeeds are the known blocks of its segments; a
block of another kind is taken as it is. -/
theorem scan_refuses_first_deep (s : Source) :
    (∀ visit, (s.visits 0 0 s.size).find? (·.level == depthLimit + 1) = some visit →
      s.scan = .error (.tooDeep (s.location visit.position))) ∧
    ((∀ visit ∈ s.visits 0 0 s.size, visit.level ≠ depthLimit + 1) →
      s.scan = s.scanUnlimited) ∧
    (∀ location, s.scanUnlimited ≠ .error (.tooDeep location)) ∧
    (s.visits 0 0 s.size).Pairwise (fun a b => a.position < b.position) ∧
    (∀ visit ∈ s.visits 0 0 s.size, (s.kindAt visit.position).isOther = false) ∧
    (∀ segments, s.scanUnlimited = .ok segments →
      s.visits 0 0 s.size = Segment.visits 0 segments) ∧
    (∀ limit depth i stop position,
      s.scanFrom limit depth i stop = .error (.tooDeep position) →
      (s.kindAt position).isOther = false) ∧
    ∀ limit depth i stop opening closing, s.Heads stop i opening →
      s.matching opening stop .openBrace .closeBrace = some closing →
      (s.kindAt i).isOther = true →
      s.scanFrom limit depth i stop =
        (s.scanFrom limit depth (closing + 1) stop).map
          (.block (s.blockAt i opening closing) [] :: ·) := by
  have limited : s.scanWithin (some depthLimit) =
      refuseDeep depthLimit (s.visits 0 0 s.size) (s.scanWithin none) :=
    scanFrom_limit (Nat.zero_le depthLimit)
  refine ⟨?_, ?_, ?_, pairwise_visits s 0 0 s.size, fun _ => isOther_of_mem_visits, ?_, ?_, ?_⟩
  · intro visit first
    rw [scan, limited, refuseDeep, first]
    rfl
  · intro shallow
    have none : (s.visits 0 0 s.size).find? (·.level == depthLimit + 1) = none :=
      List.find?_eq_none.2 fun visit listed => by simpa using shallow visit listed
    rw [scan, limited, refuseDeep, none]
    rfl
  · intro location failed
    rw [scanUnlimited] at failed
    cases scanned : s.scanWithin none with
    | ok segments =>
      rw [scanned] at failed
      cases failed
    | error fault =>
      rw [scanned] at failed
      cases fault with
      | unterminated position => cases failed
      | tooDeep position => cases (refused_of_scanFrom scanned).1
  · intro segments scanned
    rw [scanUnlimited] at scanned
    cases found : s.scanWithin none with
    | ok others =>
      rw [found] at scanned
      cases scanned
      exact visits_of_scanFrom found
    | error fault =>
      rw [found] at scanned
      cases scanned
  · intro limit depth i stop position failed
    exact (refused_of_scanFrom failed).2
  · intro limit depth i stop opening closing header closes unknown
    exact scanFrom_unknown header closes unknown

end Source

end Dbml
