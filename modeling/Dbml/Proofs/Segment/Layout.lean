import Dbml.Proofs.Segment.Steps
import Dbml.Proofs.Source.Written
import Mathlib.Data.List.Forall2

/-!
# Scanning statements on lines of their own

What a scan makes of a line without braces, of a block whose braces end their lines, and of many
such statements one after another.
-/

namespace Dbml.Source

variable {s : Source} {limit : Option Nat} {depth i stop : Nat} {ts : List Token}

/-! ## Names in headers -/

/-- The tokens of quoted names with dots between them. -/
def dottedTokens : List String → List Token
  | [] => []
  | name :: rest => .str name :: rest.flatMap fun next => [.mark .dot, .str next]

/-- What is put in front of each element but the first stands between the elements. -/
theorem cons_flatMap_pair {α : Type} (sep first : α) (others : List α) :
    first :: others.flatMap (fun x => [sep, x]) = (first :: others).intersperse sep := by
  induction others generalizing first with
  | nil => rfl
  | cons next others ih =>
    rw [List.flatMap_cons, List.intersperse_cons_cons, ← ih next]
    rfl

theorem dottedTokens_eq (names : List String) :
    dottedTokens names = (names.map Token.str).intersperse (.mark .dot) := by
  cases names with
  | nil => rfl
  | cons name rest =>
    rw [dottedTokens, List.map_cons, ← cons_flatMap_pair, List.flatMap_map]

theorem nameAt?_of_token? {t : Token} (here : s.token? i = some t) (inside : i < stop) :
    s.nameAt? i stop = t.name? := by
  rw [nameAt?, if_pos inside, here]
  rfl

/-- A dotted name is read to the first token behind a name that is no dot. -/
theorem dottedName_of_names {names : List Token} {texts : List String} (nonempty : names ≠ [])
    (named : names.map Token.name? = texts.map some)
    (reads : s.Reads i (names.intersperse (.mark .dot)))
    (inside : i + (names.intersperse (.mark .dot)).length ≤ stop)
    (ends : ¬ (i + (names.intersperse (.mark .dot)).length < stop ∧
      s.isMark (i + (names.intersperse (.mark .dot)).length) .dot = true)) :
    s.dottedName i stop = (texts, i + (names.intersperse (.mark .dot)).length) := by
  induction names generalizing i texts with
  | nil => exact absurd rfl nonempty
  | cons t rest ih =>
    obtain ⟨text, others, rfl⟩ : ∃ text others, texts = text :: others := by
      cases texts with
      | nil => cases named
      | cons text others => exact ⟨text, others, rfl⟩
    rw [List.map_cons, List.map_cons, List.cons_eq_cons] at named
    cases rest with
    | nil =>
      obtain rfl : others = [] := List.map_eq_nil_iff.1 named.2.symm
      have here : s.nameAt? i stop = some text := by
        rw [nameAt?_of_token? reads.1 inside, named.1]
      simp only [List.intersperse_singleton, List.length_singleton] at ends ⊢
      rw [dottedName]
      simp only [here]
      rw [if_neg ends]
    | cons next rest =>
      obtain ⟨first, dot, behind⟩ := reads
      have length : i + ((t :: next :: rest).intersperse (.mark .dot)).length =
          i + 2 + ((next :: rest).intersperse (.mark .dot)).length := by
        simp only [List.intersperse_cons_cons, List.length_cons]
        omega
      rw [length] at inside ends ⊢
      have here : s.nameAt? i stop = some text := by
        rw [nameAt?_of_token? first (by omega), named.1]
      have later := ih (by simp) named.2 behind inside ends
      rw [dottedName]
      simp only [here]
      rw [if_pos ⟨by omega, isMark_iff_token?.2 dot⟩]
      simp only [later]

theorem dottedName_of_reads {names : List String} (nonempty : names ≠ [])
    (reads : s.Reads i (dottedTokens names)) :
    s.dottedName i (i + (dottedTokens names).length) =
      (names, i + (dottedTokens names).length) := by
  rw [dottedTokens_eq] at reads ⊢
  have named : (names.map Token.str).map Token.name? = names.map some := by
    rw [List.map_map]
    rfl
  exact dottedName_of_names (by simpa using nonempty) named reads (Nat.le_refl _)
    fun both => Nat.lt_irrefl _ both.1

/-- A header that is a name and nothing else. -/
theorem header_of_reads {kind : BlockKind} (known : kind.isOther = false) {names : List String}
    (nonempty : names ≠ []) (reads : s.Reads i (dottedTokens names)) :
    s.header kind ⟨i, i + (dottedTokens names).length⟩ = ⟨names, none, none⟩ := by
  have other : ¬ kind = .other "" := by
    rintro rfl
    cases known
  have beyond : ¬ i + (dottedTokens names).length + 1 < i + (dottedTokens names).length := by omega
  simp [header, if_neg other, dottedName_of_reads nonempty reads, beyond]

theorem kindAt_of_token? {t : Token} (here : s.token? i = some t) :
    s.kindAt i = BlockKind.ofToken t := by
  rw [kindAt, here]
  rfl

/-! ## One statement -/

theorem lineEnd_eq (reads : s.Reads i (ts ++ [.newline])) (inline : .newline ∉ ts)
    (inside : i + ts.length < stop) : s.lineEnd i stop = i + ts.length := by
  have found := find?_eq_some reads (p := (· == .newline))
    (fun t listed => by simpa using ne_of_mem_of_not_mem listed inline) rfl inside
  rw [lineEnd, found]
  rfl

theorem not_holds_newline (reads : s.Reads i ts) (solid : ts ≠ []) (inline : .newline ∉ ts) :
    ¬ s.holds i (· == .newline) = true := by
  cases ts with
  | nil => exact absurd rfl solid
  | cons t ts =>
    intro here
    rw [holds_of_token? reads.1, beq_iff_eq] at here
    exact inline (by simp [here])

theorem isMark_eq_false {t : Token} {mark : Mark} (listed : t ∈ ts) (absent : .mark mark ∉ ts) :
    t.isMark mark = false := by
  simpa [Token.isMark] using ne_of_mem_of_not_mem listed absent

theorem outsideSettings_eq_none {mark : Mark} (reads : s.Reads i ts) (absent : .mark mark ∉ ts) :
    s.outsideSettings ⟨i, i + ts.length⟩ mark = none :=
  findOutside?_eq_none _ _ reads fun _ listed => isMark_eq_false listed absent

/-- A line that begins like no known block, or has a colon, is taken by itself. -/
theorem scanFrom_statement (reads : s.Reads i (ts ++ [.newline])) (solid : ts ≠ [])
    (inline : .newline ∉ ts) (noBrace : .mark .openBrace ∉ ts)
    (statement : (s.kindAt i).isOther = true ∨
      (s.outsideSettings ⟨i, i + ts.length⟩ .colon).isSome = true)
    (inside : i + ts.length < stop) :
    s.scanFrom limit depth i stop =
      (s.scanFrom limit depth (i + ts.length + 1) stop).map (.line ⟨i, i + ts.length⟩ :: ·) := by
  have ends := lineEnd_eq reads inline inside
  obtain ⟨line, newline⟩ := reads_append.1 reads
  have first := not_holds_newline line solid inline
  have opens : s.openingBrace ⟨i, s.lineEnd i stop⟩ stop = none := by
    rw [ends, openingBrace, outsideSettings_eq_none line noBrace, braceOnNextLine, if_pos statement]
    rfl
  rw [scanFrom_line (by omega) first opens, ends, scanFrom_newline inside newline.1]

/-- A known block with its opening brace at the end of its first line. -/
theorem scanFrom_braced {head body : List Token} {opening closing : Nat}
    {children : List Segment} (header : s.Reads i head)
    (opens : s.Reads opening [.mark .openBrace, .newline]) (inner : s.Reads (opening + 2) body)
    (closer : s.token? closing = some (.mark .closeBrace)) (openingAt : opening = i + head.length)
    (closingAt : closing = opening + 2 + body.length) (inside : closing < stop) (solid : head ≠ [])
    (plain : ∀ t ∈ head, t ≠ .newline ∧ t ≠ .mark .openBrace ∧ t ≠ .mark .openBracket ∧
      t ≠ .mark .closeBracket)
    (balanced : Balanced .openBrace .closeBrace body)
    (known : (s.kindAt i).isOther = false) (shallow : limit.any (· < depth + 1) = false)
    (within : s.scanFrom limit (depth + 1) (opening + 1) closing = .ok children) :
    s.scanFrom limit depth i stop =
      (s.scanFrom limit depth (closing + 1) stop).map
        (.block (s.blockAt i opening closing) children :: ·) := by
  obtain ⟨brace, newline, -⟩ := opens
  have headLine : s.Reads i (head ++ [.mark .openBrace]) :=
    reads_append.2 ⟨header, openingAt ▸ brace, trivial⟩
  have ends : s.lineEnd i stop = opening + 1 := by
    have inline : .newline ∉ head ++ [.mark .openBrace] := by
      simpa using fun listed => (plain _ listed).1 rfl
    have length : i + (head ++ [Token.mark .openBrace]).length = opening + 1 := by
      rw [List.length_append, openingAt]
      rfl
    rw [← length]
    refine lineEnd_eq (reads_append.2 ⟨headLine, ?_, trivial⟩) inline (by omega)
    rw [length]
    exact newline
  have first := not_holds_newline header solid fun listed => (plain _ listed).1 rfl
  have found : s.openingBrace ⟨i, s.lineEnd i stop⟩ stop = some opening := by
    have outside : s.outsideSettings ⟨i, s.lineEnd i stop⟩ .openBrace = some (i + head.length) := by
      refine findOutside?_eq_some _ _ headLine (fun t listed => ?_) (by decide) (by decide) (by decide)
        (by omega)
      obtain ⟨-, noBrace, noLeft, noRight⟩ := plain t listed
      exact ⟨noLeft, noRight, by simpa [Token.isMark] using noBrace⟩
    rw [openingBrace, outside, openingAt]
    rfl
  have partner : s.matching opening stop .openBrace .closeBrace = some closing := by
    have first : Balanced .openBrace .closeBrace [Token.newline] := balanced_of_others (by simp)
    have whole : Balanced .openBrace .closeBrace (.newline :: body) := balanced_append first balanced
    have length : opening + (Token.newline :: body).length + 1 = closing := by
      rw [List.length_cons, closingAt]
      omega
    rw [← length]
    refine matching_eq_some (by decide) ⟨brace, newline, ?_⟩ whole (by omega)
    refine reads_append.2 ⟨inner, ?_, trivial⟩
    rw [← closingAt]
    exact closer
  have children : s.blockChildren limit depth i opening closing = .ok children := by
    rw [blockChildren, if_neg (by rw [known]; decide), if_neg (by rw [shallow]; decide)]
    exact within
  rw [scanFrom_block (by omega) first found partner, children]
  cases s.scanFrom limit depth (closing + 1) stop <;> rfl

/-- A known block with its opening brace at the end of its first line, and its closing one on a line
of its own. -/
theorem scanFrom_framed {head body : List Token} {opening closing : Nat} {children : List Segment}
    (header : s.Reads i head) (opens : s.Reads opening [.mark .openBrace, .newline])
    (inner : s.Reads (opening + 2) body) (closes : s.Reads closing [.mark .closeBrace, .newline])
    (openingAt : opening = i + head.length) (closingAt : closing = opening + 2 + body.length)
    (inside : closing + 2 ≤ stop) (solid : head ≠ [])
    (plain : ∀ t ∈ head, t ≠ .newline ∧ t ≠ .mark .openBrace ∧ t ≠ .mark .openBracket ∧
      t ≠ .mark .closeBracket)
    (balanced : Balanced .openBrace .closeBrace body)
    (known : (s.kindAt i).isOther = false) (shallow : limit.any (· < depth + 1) = false)
    (within : s.scanFrom limit (depth + 1) (opening + 1) closing = .ok children) :
    s.scanFrom limit depth i stop =
      (s.scanFrom limit depth (closing + 2) stop).map
        (.block (s.blockAt i opening closing) children :: ·) := by
  obtain ⟨closer, last, -⟩ := closes
  rw [scanFrom_braced header opens inner closer openingAt closingAt (by omega) solid plain balanced
    known shallow within, scanFrom_newline (by omega) last]

/-! ## Many statements -/

/-- Statements of which each makes one segment make a list of segments. -/
theorem scanFrom_flatMap {α : Type} {xs : List α} {f : α → List Token.Written}
    {R : α → Segment → Prop} (writes : s.Writes i (xs.flatMap f))
    (statement : ∀ x ∈ xs, ∀ j, s.Writes j (f x) → j + (f x).length ≤ stop →
      ∃ segment, R x segment ∧ s.scanFrom limit depth j stop =
        (s.scanFrom limit depth (j + (f x).length) stop).map (segment :: ·))
    (whole : i + (xs.flatMap f).length = stop) :
    ∃ segments, List.Forall₂ R xs segments ∧ s.scanFrom limit depth i stop = .ok segments := by
  induction xs generalizing i with
  | nil => exact ⟨[], .nil, scanFrom_end (by simp at whole; omega)⟩
  | cons x xs ih =>
    rw [List.flatMap_cons] at writes whole
    obtain ⟨here, rest⟩ := writes_append writes
    rw [List.length_append] at whole
    obtain ⟨segment, related, step⟩ := statement x (by simp) i here (by omega)
    obtain ⟨segments, others, later⟩ :=
      ih rest (fun y listed => statement y (by simp [listed])) (by omega)
    exact ⟨segment :: segments, .cons related others, by rw [step, later]; rfl⟩

end Dbml.Source
