import Dbml.DeclaredIndex
import Dbml.DeclaredTable
import Dbml.Proofs.Checked.Tokens
import Dbml.Proofs.Source.Commas

/-!
# Lines read inside bounds

Settings, references, columns and indexes are read off ranges of tokens, whose texts are cut out of
the source. Main statements: one lemma for each of them, that a range that ends inside the source is
read without leaving it.
-/

namespace Dbml

open Token (Run)

/-! ## Computations that may leave the bounds -/

/-- A computation that notes findings, and fails when it leaves the bounds. -/
abbrev Trial := OptionT Noted

namespace Trial

variable {α β : Type}

/-- A reading that fails when it leaves the bounds. -/
def access (x : Option α) : Trial α :=
  OptionT.mk (pure x)

theorem access_bind (a : α) (k : α → Trial β) : (access (some a) >>= k) = k a := rfl

/-- Only the value that a computation gives matters for what comes behind it. -/
theorem lift_bind {x : Noted α} {k : α → Trial β} {f : α → Noted β}
    (same : k x.value = liftM (f x.value)) : (liftM x >>= k : Trial β) = liftM (x >>= f) := by
  have step : (liftM x >>= k : Trial β).run =
      ⟨(k x.value).run.value, x.findings ++ (k x.value).run.findings⟩ := by
    show (⟨_, _ ++ []⟩ >>= fun _ => _ : Noted (Option β)) = _
    rw [List.append_nil]
    rfl
  have whole : (liftM (x >>= f) : Trial β).run =
      ⟨(liftM (f x.value) : Trial β).run.value,
        x.findings ++ (liftM (f x.value) : Trial β).run.findings⟩ := by
    show (⟨_, (_ ++ _) ++ []⟩ : Noted (Option β)) = ⟨_, _ ++ (_ ++ [])⟩
    rw [List.append_assoc]
    rfl
  apply OptionT.ext
  rw [step, whole, same]

/-- A fold does not leave the bounds when no step does from where the steps before it lead. -/
theorem lift_foldlM {P : β → Prop} {f : β → α → Noted β} {g : β → α → Trial β} {xs : List α}
    {b : β} (start : P b)
    (step : ∀ b, P b → ∀ x ∈ xs, g b x = liftM (f b x) ∧ P (f b x).value) :
    xs.foldlM g b = liftM (xs.foldlM f b) := by
  induction xs generalizing b with
  | nil => rfl
  | cons x xs ih =>
    obtain ⟨here, holds⟩ := step b start x List.mem_cons_self
    rw [List.foldlM_cons, List.foldlM_cons, here]
    refine lift_bind (ih holds fun b holds y listed => ?_)
    exact step b holds y (List.mem_cons_of_mem _ listed)

theorem lift_foldlM_of_forall {f : β → α → Noted β} {g : β → α → Trial β} {xs : List α} {b : β}
    (step : ∀ b, ∀ x ∈ xs, g b x = liftM (f b x)) : xs.foldlM g b = liftM (xs.foldlM f b) :=
  lift_foldlM (P := fun _ => True) trivial fun b _ x listed => ⟨step b x listed, trivial⟩

end Trial

open Trial

variable {s : Source} {range : TokenRange}

namespace Checked

/-! ## Settings -/

def flagOf (s : Source) (item : TokenRange) : Option Setting := do
  let ts ← tokens s item
  return (ts.mapM Source.word?).elim (.invalid item.start) fun ws =>
    .flag (" ".intercalate ws) item.start

def settingOf (s : Source) (item : TokenRange) : Option Setting :=
  match s.token? item.start with
  | some (.ident key) =>
    if 1 < item.size ∧ s.isMark (item.start + 1) .colon then
      some (.pair key (item.drop 2) item.start)
    else flagOf s item
  | _ => flagOf s item

/-- The settings in the range, as `Source.settings` gives them. -/
def settings (s : Source) (range : TokenRange) : Option (List Setting) :=
  ((s.splitCommas range).filter fun item => !item.isEmpty).mapM (settingOf s)

end Checked

/-- The value of the setting ends inside the source. -/
def Setting.Fits (s : Source) : Setting → Prop
  | .pair _ value _ => value.stop ≤ s.size
  | _ => True

namespace Source

theorem fits_settingOf {item : TokenRange} (bound : item.stop ≤ s.size) :
    (s.settingOf item).Fits s := by
  unfold settingOf
  generalize (s.tokens item).mapM word? = words
  have flag : Setting.Fits s (words.elim (.invalid item.start)
      fun ws => .flag (" ".intercalate ws) item.start) := by cases words <;> exact trivial
  dsimp only
  split
  · split
    · exact bound
    · exact flag
  · exact flag

theorem fits_settings (bound : range.stop ≤ s.size) : ∀ setting ∈ s.settings range,
    setting.Fits s := by
  intro setting listed
  obtain ⟨item, member, rfl⟩ := List.mem_map.1 listed
  exact fits_settingOf
    (Nat.le_trans (splitCommas_bounds item (List.mem_filter.1 member).1).2 bound)

end Source

namespace Checked

theorem mapM_eq_map {α β : Type} {f : α → Option β} {g : α → β} {xs : List α}
    (same : ∀ x ∈ xs, f x = some (g x)) : xs.mapM f = some (xs.map g) := by
  induction xs with
  | nil => rfl
  | cons x xs ih =>
    rw [List.mapM_cons, same x List.mem_cons_self,
      ih fun y listed => same y (List.mem_cons_of_mem x listed)]
    rfl

theorem foldlM_eq_foldl {α β : Type} {f : β → α → Option β} {g : β → α → β} {xs : List α} {b : β}
    (same : ∀ b, ∀ x ∈ xs, f b x = some (g b x)) : xs.foldlM f b = some (xs.foldl g b) := by
  induction xs generalizing b with
  | nil => rfl
  | cons x xs ih =>
    rw [List.foldlM_cons, same b x List.mem_cons_self]
    exact ih fun b y listed => same b y (List.mem_cons_of_mem x listed)

theorem settingOf_eq {item : TokenRange} (order : item.start ≤ item.stop)
    (bound : item.stop ≤ s.size) : settingOf s item = some (s.settingOf item) := by
  have flag : flagOf s item = some (((s.tokens item).mapM Source.word?).elim (.invalid item.start)
      fun ws => .flag (" ".intercalate ws) item.start) := by
    rw [flagOf, tokens_eq order bound]
    rfl
  rw [settingOf, Source.settingOf, flag]
  cases s.token? item.start with
  | none => rfl
  | some t =>
    cases t with
    | ident key =>
      dsimp only
      split <;> rfl
    | _ => rfl

theorem settings_eq (bound : range.stop ≤ s.size) :
    settings s range = some (s.settings range) := by
  refine mapM_eq_map fun item listed => ?_
  obtain ⟨member, nonempty⟩ := List.mem_filter.1 listed
  have order : item.start < item.stop := by simpa [TokenRange.isEmpty] using nonempty
  have inside : item.stop ≤ s.size := Nat.le_trans (Source.splitCommas_bounds item member).2 bound
  exact settingOf_eq (Nat.le_of_lt order) inside

/-! ## Values -/

/-- The text of a value, as `Source.valueText` gives it. -/
def valueText (s : Source) (value : TokenRange) : Option (Option String) :=
  match s.quotedText value with
  | some quoted => some (some quoted)
  | none => do
    let raw ← text s value
    return if Text.trimmed raw = "" then none else some (Text.trimmed raw)

def colorText (s : Source) (value : TokenRange) : Option (Option String) := do
  let found ← valueText s value
  return found.bind fun raw =>
    let color := Text.trimmed raw
    if color = "" then none
    else if color.toList.head? = some '#' then some color
    else some ("#" ++ color)

/-- The endpoint that the tokens name, as `Source.endpoint` gives it. -/
def endpoint (s : Source) (range : TokenRange) : Option Endpoint := do
  let raw ← text s range
  let ts ← tokens s range
  return Endpoint.ofParts ((nameParts ts).getD []) (Text.trimmed raw)

/-- The note in the body of a block, as `Source.blockNote` gives it. -/
def blockNote (s : Source) (block : Block) : Option (Option String) := do
  let ts ← tokens s block.body
  return ts.findSome? Token.quoted?

section

variable (run : Run 0 s.chars s.lexemes.toList)
include run

theorem valueText_eq (bound : range.stop ≤ s.size) :
    valueText s range = some (s.valueText range) := by
  rw [valueText, Source.valueText, text_eq run bound]
  cases s.quotedText range <;> rfl

theorem colorText_eq (bound : range.stop ≤ s.size) :
    colorText s range = some (s.colorText range) := by
  rw [colorText, valueText_eq run bound]
  rfl

theorem endpoint_eq (order : range.start ≤ range.stop) (bound : range.stop ≤ s.size) :
    endpoint s range = some (s.endpoint range) := by
  rw [endpoint, text_eq run bound, tokens_eq order bound]
  rfl

end

theorem blockNote_eq {block : Block} (order : block.opening < block.closing)
    (inside : block.closing ≤ s.size) : blockNote s block = some (s.blockNote block) := by
  have body : tokens s block.body = some (s.tokens block.body) := tokens_eq order inside
  rw [blockNote, body]
  rfl

/-! ## References -/

def withActions (s : Source) (relationship : Relationship) : List Setting → Option Relationship
  | [] => some relationship
  | .pair "delete" value _ :: rest => do
    let onDelete ← valueText s value
    withActions s { relationship with onDelete } rest
  | .pair "update" value _ :: rest => do
    let onUpdate ← valueText s value
    withActions s { relationship with onUpdate } rest
  | _ :: rest => withActions s relationship rest

def actionSettings (s : Source) (bracket : Option Nat) (stop : Nat) : Option (List Setting) :=
  match bracket with
  | none => some []
  | some opening => do
    let closing ← matching s opening stop .openBracket .closeBracket
    settings s ⟨opening + 1, closing.getD stop⟩

/-- The reference that the tokens make, as `Source.reference` gives it. -/
def reference (s : Source) (range : TokenRange) (name : Option String) :
    Option (Except ReferenceFault Reference) :=
  let bracket := s.find? range (·.isMark .openBracket)
  let stop := bracket.getD range.stop
  match s.find? ⟨range.start, stop⟩ (·.relation?.isSome) with
  | none => some (.error .missingOperator)
  | some i =>
    match (s.token? i).bind Token.relation? with
    | none => some (.error .missingOperator)
    | some kind =>
      if i = range.start ∨ stop ≤ i + 1 then some (.error .missingEndpoint)
      else do
        let source ← endpoint s ⟨range.start, i⟩
        let target ← endpoint s ⟨i + 1, stop⟩
        let actions ← actionSettings s bracket range.stop
        let relationship ← withActions s
          { Relationship.inline source.table source.column kind target with name } actions
        return .ok ⟨relationship, source.malformed || target.malformed⟩

theorem closing_le {opening stop : Nat} {left right : Mark} (bound : stop ≤ s.size) :
    (s.matching opening stop left right).getD stop ≤ s.size := by
  cases closes : s.matching opening stop left right with
  | none => exact bound
  | some closing => exact Nat.le_trans (Nat.le_of_lt (Source.matching_bounds closes).2.1) bound

/-- The settings behind a reference, which end inside the source. -/
theorem exists_actionSettings {stop : Nat} (bound : stop ≤ s.size) (bracket : Option Nat) :
    ∃ given, actionSettings s bracket stop = some given ∧ (∀ setting ∈ given, setting.Fits s) ∧
      given = match bracket with
        | none => []
        | some opening =>
          let closing := s.matching opening stop .openBracket .closeBracket
          s.settings ⟨opening + 1, closing.getD stop⟩ := by
  cases bracket with
  | none => exact ⟨[], rfl, fun setting listed => absurd listed List.not_mem_nil, rfl⟩
  | some opening =>
    have inside : (s.matching opening stop .openBracket .closeBracket).getD stop ≤ s.size :=
      closing_le bound
    refine ⟨_, ?_, Source.fits_settings inside, rfl⟩
    rw [actionSettings, matching_eq bound]
    exact settings_eq inside

section

variable (run : Run 0 s.chars s.lexemes.toList)
include run

theorem withActions_eq (relationship : Relationship) (given : List Setting)
    (fits : ∀ setting ∈ given, setting.Fits s) :
    withActions s relationship given = some (s.withActions relationship given) := by
  fun_induction Source.withActions s relationship given with
  | case1 => rfl
  | case2 relationship value position rest ih =>
    have bound : value.stop ≤ s.size := fits _ List.mem_cons_self
    rw [withActions, valueText_eq run bound]
    exact ih fun setting listed => fits setting (List.mem_cons_of_mem _ listed)
  | case3 relationship value position rest ih =>
    have bound : value.stop ≤ s.size := fits _ List.mem_cons_self
    rw [withActions, valueText_eq run bound]
    exact ih fun setting listed => fits setting (List.mem_cons_of_mem _ listed)
  | case4 relationship setting rest noDelete noUpdate ih =>
    rw [withActions]
    · exact ih fun setting listed => fits setting (List.mem_cons_of_mem _ listed)
    · exact noDelete
    · exact noUpdate

theorem reference_eq (bound : range.stop ≤ s.size) (name : Option String) :
    reference s range name = some (s.reference range name) := by
  have stop : (s.find? range (·.isMark .openBracket)).getD range.stop ≤ s.size := by
    cases found : s.find? range (·.isMark .openBracket) with
    | none => exact bound
    | some j => exact Nat.le_trans (Nat.le_of_lt (Source.find?_bounds found).2.1) bound
  rw [reference, Source.reference]
  generalize s.find? range (·.isMark .openBracket) = bracket at stop ⊢
  dsimp only
  cases found : s.find? ⟨range.start, bracket.getD range.stop⟩ (·.relation?.isSome) with
  | none => rfl
  | some i =>
    dsimp only
    cases (s.token? i).bind Token.relation? with
    | none => rfl
    | some kind =>
      dsimp only
      by_cases missing : i = range.start ∨ bracket.getD range.stop ≤ i + 1
      · rw [if_pos missing, if_pos missing]
      obtain ⟨low, high, -⟩ := Source.find?_bounds found
      rw [not_or] at missing
      simp only at low high
      have left : endpoint s ⟨range.start, i⟩ = some (s.endpoint ⟨range.start, i⟩) :=
        endpoint_eq run low (by simp only; omega)
      have right : endpoint s ⟨i + 1, bracket.getD range.stop⟩ =
          some (s.endpoint ⟨i + 1, bracket.getD range.stop⟩) :=
        endpoint_eq run (by simp only; omega) stop
      rw [if_neg (not_or.2 missing), if_neg (not_or.2 missing), left, right]
      obtain ⟨given, read, fits, rfl⟩ := exists_actionSettings bound bracket
      simp only [Option.bind_eq_bind, Option.bind_some, read, withActions_eq run _ _ fits]
      cases bracket <;> rfl

end

end Checked

end Dbml
