import Dbml.Source

/-!
# What stands at which token numbers

`Reads` says which tokens stand from a number on. From it follows what the searches of a source
find: they pass over tokens they do not look for, and stop at the first one they do.
-/

namespace Dbml

theorem eq_ok_of_toOption {ε α : Type} {x : Except ε α} {a : α} (found : x.toOption = some a) :
    x = .ok a := by
  cases x with
  | error e => cases found
  | ok b => cases found; rfl

namespace Source

variable {s : Source} {i stop : Nat} {t : Token} {ts us : List Token}

/-! ## Tokens from a number on -/

/-- From number `i` on stand these tokens. -/
def Reads (s : Source) (i : Nat) : List Token → Prop
  | [] => True
  | t :: ts => s.token? i = some t ∧ s.Reads (i + 1) ts

@[simp] theorem reads_nil : s.Reads i [] := trivial

@[simp] theorem reads_cons :
    s.Reads i (t :: ts) ↔ s.token? i = some t ∧ s.Reads (i + 1) ts := Iff.rfl

theorem reads_append : s.Reads i (ts ++ us) ↔ s.Reads i ts ∧ s.Reads (i + ts.length) us := by
  induction ts generalizing i with
  | nil => simp
  | cons t ts ih =>
    rw [List.cons_append, reads_cons, reads_cons, ih, and_assoc, List.length_cons,
      Nat.add_right_comm, Nat.add_assoc]

theorem mem_of_reads {k : Nat} (reads : s.Reads i ts) (low : i ≤ k) (high : k < i + ts.length)
    (here : s.token? k = some t) : t ∈ ts := by
  induction ts generalizing i with
  | nil => exact absurd high (Nat.not_lt.2 low)
  | cons first ts ih =>
    rcases Nat.lt_or_eq_of_le low with later | rfl
    · exact List.mem_cons_of_mem first (ih reads.2 later (by rw [List.length_cons] at high; omega))
    · rw [reads.1] at here
      cases here
      exact List.mem_cons_self

theorem token?_isSome : (s.token? i).isSome = true ↔ i < s.size := by
  simp [token?, size]

theorem lt_size_of_token? (here : s.token? i = some t) : i < s.size :=
  token?_isSome.1 (by rw [here]; rfl)

theorem exists_token? (inside : i < s.size) : ∃ t, s.token? i = some t :=
  Option.isSome_iff_exists.1 (token?_isSome.2 inside)

theorem tokens_of_not_lt (empty : ¬ i < stop) : s.tokens ⟨i, stop⟩ = [] := by
  simp only [tokens, List.map_eq_nil_iff, Array.toList_eq_nil_iff]
  exact Array.extract_empty_of_stop_le_start (by omega)

theorem tokens_of_lt (inside : i < stop) (here : s.token? i = some t) :
    s.tokens ⟨i, stop⟩ = t :: s.tokens ⟨i + 1, stop⟩ := by
  have bound : i < s.lexemes.size := lt_size_of_token? here
  have read : (s.lexemes[i]).token = t := by
    simpa [token?, Array.getElem?_eq_getElem bound] using here
  simp only [tokens, Array.toList_extract, List.extract]
  rw [show stop - i = (stop - (i + 1)) + 1 by omega,
    List.drop_eq_getElem_cons (by simpa using bound), List.take_succ_cons, List.map_cons,
    Array.getElem_toList, read]

/-- The tokens of a range are those that stand there. -/
theorem tokens_of_reads (reads : s.Reads i ts) : s.tokens ⟨i, i + ts.length⟩ = ts := by
  induction ts generalizing i with
  | nil => exact tokens_of_not_lt (by simp)
  | cons t ts ih =>
    have rest := ih reads.2
    rw [tokens_of_lt (by simp) reads.1, List.length_cons,
      show i + (ts.length + 1) = i + 1 + ts.length by omega, rest]

theorem tokens_all (s : Source) : s.tokens s.all = s.lexemes.toList.map (·.token) := by
  simp [tokens, all, size]

/-- The tokens in the middle of a source stand from the number of those before them on. -/
theorem reads_of_lexemes {front here back : List Lexeme}
    (parts : s.lexemes.toList = front ++ (here ++ back)) :
    s.Reads front.length (here.map (·.token)) := by
  induction here generalizing front with
  | nil => exact reads_nil
  | cons lexeme here ih =>
    constructor
    · rw [token?, ← Array.getElem?_toList, parts, List.getElem?_append_right (Nat.le_refl _)]
      simp
    · have later := @ih (front ++ [lexeme]) (by simpa using parts)
      rwa [List.length_append] at later

/-- A range reads as its tokens. -/
theorem reads_tokens (s : Source) (i stop : Nat) : s.Reads i (s.tokens ⟨i, stop⟩) := by
  induction size : stop - i generalizing i with
  | zero =>
    rw [tokens_of_not_lt (by omega)]
    exact reads_nil
  | succ n ih =>
    cases here : s.token? i with
    | some token =>
      rw [tokens_of_lt (by omega) here]
      exact ⟨here, ih (i + 1) (by omega)⟩
    | none =>
      have outside : s.lexemes.size ≤ i := by
        simpa [token?] using here
      have empty : s.tokens ⟨i, stop⟩ = [] := by
        simp [tokens, Array.extract_empty_of_size_le_start outside]
      rw [empty]
      exact reads_nil

/-- All tokens of a source stand from its first on. -/
theorem reads_all (s : Source) : s.Reads 0 (s.tokens s.all) :=
  reads_tokens s 0 s.size

/-! ## Properties of the token with a number -/

theorem holds_of_token? (here : s.token? i = some t) (p : Token → Bool) : s.holds i p = p t := by
  simp [holds, here]

theorem isMark_of_token? (here : s.token? i = some t) (mark : Mark) :
    s.isMark i mark = decide (t = .mark mark) := by
  rw [isMark, here]
  by_cases same : t = .mark mark
  · simp [same]
  · simp [same]

theorem holds_isMark (s : Source) (i : Nat) (mark : Mark) :
    s.holds i (·.isMark mark) = s.isMark i mark := by
  rw [holds, isMark]
  cases s.token? i <;> rfl

theorem isMark_iff_token? {mark : Mark} :
    s.isMark i mark = true ↔ s.token? i = some (.mark mark) := by
  simp [isMark]

/-- A token is one mark only. -/
theorem eq_of_isMark {mark other : Mark} (here : s.isMark i mark = true)
    (there : s.isMark i other = true) : mark = other := by
  rw [isMark_iff_token?] at here there
  rw [here] at there
  exact Token.mark.inj (Option.some.inj there)

theorem isKeyword_of_token? (here : s.token? i = some t) (keyword : String) :
    s.isKeyword i keyword = t.isKeyword keyword :=
  holds_of_token? here _

/-! ## The first token of a kind -/

theorem findFrom_skip {p : Token → Bool} (reads : s.Reads i ts) (others : ∀ t ∈ ts, p t = false)
    (count : Nat) : s.findFrom p i (ts.length + count) = s.findFrom p (i + ts.length) count := by
  induction ts generalizing i with
  | nil => simp
  | cons t ts ih =>
    have rest := ih reads.2 (fun u listed => others u (List.mem_cons_of_mem _ listed))
    have here := holds_of_token? reads.1 p
    rw [others t (by simp)] at here
    rw [List.length_cons, Nat.add_right_comm, findFrom, if_neg (by simp [here]), rest,
      Nat.add_right_comm, Nat.add_assoc]

theorem find?_eq_none {p : Token → Bool} (reads : s.Reads i ts) (others : ∀ t ∈ ts, p t = false) :
    s.find? ⟨i, i + ts.length⟩ p = none := by
  have passed := findFrom_skip reads others 0
  simpa [find?, TokenRange.size, findFrom] using passed

theorem find?_eq_some {p : Token → Bool} (reads : s.Reads i (ts ++ [t]))
    (others : ∀ u ∈ ts, p u = false) (hit : p t = true) (inside : i + ts.length < stop) :
    s.find? ⟨i, stop⟩ p = some (i + ts.length) := by
  obtain ⟨before, here⟩ := reads_append.1 reads
  obtain ⟨count, size⟩ : ∃ count, stop - i = ts.length + (count + 1) :=
    ⟨stop - i - ts.length - 1, by omega⟩
  rw [find?, TokenRange.size, size, findFrom_skip before others, findFrom,
    if_pos (by rw [holds_of_token? here.1, hit])]

/-! ## The first token of a kind outside brackets -/

theorem findOutsideFrom_eq_none (left right : Mark) {p : Token → Bool} (reads : s.Reads i ts)
    (others : ∀ t ∈ ts, p t = false) (depth : Nat) :
    s.findOutsideFrom left right p depth i ts.length = none := by
  induction ts generalizing i depth with
  | nil => rfl
  | cons t ts ih =>
    have rest := fun depth => ih reads.2 (fun u listed => others u (List.mem_cons_of_mem _ listed)) depth
    have here := holds_of_token? reads.1 p
    rw [others t (by simp)] at here
    simp [findOutsideFrom, here, rest]

theorem findOutside?_eq_none (left right : Mark) {p : Token → Bool} (reads : s.Reads i ts)
    (others : ∀ t ∈ ts, p t = false) :
    s.findOutside? left right ⟨i, i + ts.length⟩ p = none := by
  have none := findOutsideFrom_eq_none left right reads others 0
  simpa [findOutside?, TokenRange.size] using none

theorem findOutsideFrom_skip {left right : Mark} {p : Token → Bool} (reads : s.Reads i ts)
    (others : ∀ t ∈ ts, t ≠ .mark left ∧ t ≠ .mark right ∧ p t = false) (depth count : Nat) :
    s.findOutsideFrom left right p depth i (ts.length + count) =
      s.findOutsideFrom left right p depth (i + ts.length) count := by
  induction ts generalizing i with
  | nil => simp
  | cons t ts ih =>
    have rest := ih reads.2 (fun u listed => others u (List.mem_cons_of_mem _ listed))
    obtain ⟨noLeft, noRight, other⟩ := others t (by simp)
    rw [List.length_cons, Nat.add_right_comm, findOutsideFrom,
      if_neg (by simp [isMark_of_token? reads.1, noLeft]),
      if_neg (by simp [isMark_of_token? reads.1, noRight]),
      if_neg (by simp [holds_of_token? reads.1, other]), rest, Nat.add_right_comm, Nat.add_assoc]

/-- A token that is no bracket and has the property is found where it stands. -/
theorem findOutsideFrom_here {left right : Mark} {p : Token → Bool} (here : s.token? i = some t)
    (noLeft : t ≠ .mark left) (noRight : t ≠ .mark right) (hit : p t = true) (count : Nat) :
    s.findOutsideFrom left right p 0 i (count + 1) = some i := by
  rw [findOutsideFrom, if_neg (by simp [isMark_of_token? here, noLeft]),
    if_neg (by simp [isMark_of_token? here, noRight]),
    if_pos ⟨rfl, by rw [holds_of_token? here, hit]⟩]

theorem findOutside?_eq_some (left right : Mark) {p : Token → Bool} (reads : s.Reads i (ts ++ [t]))
    (others : ∀ u ∈ ts, u ≠ .mark left ∧ u ≠ .mark right ∧ p u = false)
    (noLeft : t ≠ .mark left) (noRight : t ≠ .mark right) (hit : p t = true)
    (inside : i + ts.length < stop) :
    s.findOutside? left right ⟨i, stop⟩ p = some (i + ts.length) := by
  obtain ⟨before, here⟩ := reads_append.1 reads
  obtain ⟨count, size⟩ : ∃ count, stop - i = ts.length + (count + 1) :=
    ⟨stop - i - ts.length - 1, by omega⟩
  rw [findOutside?, TokenRange.size, size, findOutsideFrom_skip before others,
    findOutsideFrom_here here.1 noLeft noRight hit]

end Source

end Dbml
