import Dbml.Assembly

/-!
# Findings that skip something

Some causes say that a whole line or block is skipped. No setting is noted with such a cause, so
the computations that only read settings are silent about what is skipped.
-/

namespace Dbml

namespace Cause

/-- Whether the cause says that a line is skipped. -/
def skipsLine : Cause → Bool
  | .unknownStatement | .unknownTableLine | .unknownGroupLine | .rejectedIndex _
  | .rejectedReference _ => true
  | _ => false

/-- Whether the cause says that a block is skipped for its kind. -/
def skipsBlock : Cause → Bool
  | .unsupportedBlock _ | .unexpectedInTable _ _ | .unexpectedInGroup _
  | .unexpectedInReference => true
  | _ => false

def skips (cause : Cause) : Bool :=
  cause.skipsLine || cause.skipsBlock

theorem skips_of_skipsLine {cause : Cause} (skipsLine : cause.skipsLine = true) :
    cause.skips = true := by
  rw [skips, skipsLine, Bool.true_or]

theorem skips_of_skipsBlock {cause : Cause} (skipsBlock : cause.skipsBlock = true) :
    cause.skips = true := by
  rw [skips, skipsBlock, Bool.or_true]

end Cause

namespace Noted

variable {α β : Type}

/-- What is noted in a fold is noted in one of its steps. -/
theorem exists_of_mem_foldlM {f : β → α → Noted β} {xs : List α} {b : β} {finding : Finding}
    (noted : finding ∈ (xs.foldlM f b).findings) :
    ∃ b', ∃ x ∈ xs, finding ∈ (f b' x).findings := by
  induction xs generalizing b with
  | nil => cases noted
  | cons x xs ih =>
    rw [List.foldlM_cons, bind_findings] at noted
    rcases List.mem_append.1 noted with here | later
    · exact ⟨b, x, by simp, here⟩
    · obtain ⟨b', y, listed, found⟩ := ih later
      exact ⟨b', y, by simp [listed], found⟩

/-- What holds at the start and after every step holds of the value of a fold. -/
theorem foldlM_invariant {P : β → Prop} {f : β → α → Noted β} {xs : List α} {b : β} (start : P b)
    (step : ∀ b, P b → ∀ x ∈ xs, P (f b x).value) : P (xs.foldlM f b).value := by
  induction xs generalizing b with
  | nil => exact start
  | cons x xs ih =>
    rw [List.foldlM_cons, bind_value]
    exact ih (step b start x (by simp)) fun b holds y listed => step b holds y (by simp [listed])

/-- What no step changes, a fold does not change. -/
theorem view_foldlM {γ : Type} (view : β → γ) {f : β → α → Noted β}
    (same : ∀ b x, view (f b x).value = view b) (xs : List α) (b : β) :
    view (xs.foldlM f b).value = view b := by
  induction xs generalizing b with
  | nil => rfl
  | cons x xs ih => rw [List.foldlM_cons, bind_value, ih, same]

/-- Nothing is noted to be skipped. -/
def Silent (x : Noted α) : Prop :=
  ∀ finding ∈ x.findings, finding.cause.skips = false

theorem silent_pure (a : α) : (pure a : Noted α).Silent := by
  intro finding noted
  cases noted

theorem silent_note {cause : Cause} (position : Nat) (kept : cause.skips = false) :
    (note position cause).Silent := by
  intro finding noted
  rw [note_findings, List.mem_singleton] at noted
  rw [noted]
  exact kept

theorem Silent.bind {x : Noted α} {f : α → Noted β} (first : x.Silent)
    (second : (f x.value).Silent) : (x >>= f).Silent := by
  intro finding noted
  rcases List.mem_append.1 noted with here | later
  · exact first finding here
  · exact second finding later

/-- A note and a value. -/
theorem silent_note_pure {cause : Cause} (position : Nat) (kept : cause.skips = false) (a : α) :
    (do note position cause; return a : Noted α).Silent :=
  (silent_note position kept).bind (silent_pure a)

theorem silent_foldlM {f : β → α → Noted β} (xs : List α) (b : β)
    (step : ∀ b x, (f b x).Silent) : (xs.foldlM f b).Silent := by
  intro finding noted
  obtain ⟨b', x, -, found⟩ := exists_of_mem_foldlM noted
  exact step b' x finding found

end Noted

namespace Source

open Noted

variable {s : Source}

theorem silent_applyTableSetting (settings : TableSettings) (setting : Setting) :
    (s.applyTableSetting settings setting).Silent := by
  unfold applyTableSetting
  split
  · split
    · exact silent_pure _
    · exact silent_pure _
    · exact silent_pure _
    · exact silent_note_pure _ rfl _
  · exact silent_note_pure _ rfl _
  · exact silent_note_pure _ rfl _

theorem silent_applyIndexSetting (index : Index) (setting : Setting) :
    (s.applyIndexSetting index setting).Silent := by
  unfold applyIndexSetting
  split
  · split
    · exact silent_pure _
    · exact silent_pure _
    · exact silent_pure _
    · exact silent_note_pure _ rfl _
  · split
    · exact silent_pure _
    · exact silent_pure _
    · exact silent_pure _
    · exact silent_note_pure _ rfl _
  · exact silent_note_pure _ rfl _

theorem silent_applyColumnSetting (key : String) (declared : DeclaredColumn) (setting : Setting) :
    (s.applyColumnSetting key declared setting).Silent := by
  unfold applyColumnSetting
  split
  · dsimp only
    split
    · exact silent_pure _
    · exact silent_pure _
    · exact silent_pure _
    · exact silent_pure _
    · exact silent_pure _
    · exact silent_pure _
    · exact silent_note_pure _ rfl _
  · dsimp only
    split
    · exact silent_pure _
    · split
      · exact silent_pure _
      · exact silent_note_pure _ rfl _
    · split
      · exact silent_note_pure _ rfl _
      · split
        · split
          · exact silent_note_pure _ rfl _
          · exact (silent_pure _).bind (silent_pure _)
        · exact silent_note_pure _ rfl _
    · exact silent_note_pure _ rfl _
  · exact silent_note_pure _ rfl _

theorem silent_column? (key : String) (line : TokenRange) : (s.column? key line).Silent := by
  unfold column?
  split
  · exact silent_pure _
  · refine Silent.bind ?_ (Silent.bind (silent_foldlM _ _ (silent_applyColumnSetting key)) ?_)
    · unfold columnSettings
      split
      · exact silent_pure _
      · split
        · exact silent_pure _
        · exact silent_note_pure _ rfl _
    · exact silent_pure _

end Source

namespace Assembly

open Noted

variable {s : Source}

theorem silent_claimAt (a : Assembly) (group : Nat) (key : String) (position : Nat) :
    (a.claimAt group key position).Silent := by
  unfold claimAt
  split
  · split
    · exact silent_note_pure _ rfl _
    · exact (silent_pure _).bind (silent_pure _)
  · exact (silent_pure _).bind (silent_pure _)

theorem silent_applyGroupSetting (settings : GroupSettings) (setting : Setting) :
    (applyGroupSetting s settings setting).Silent := by
  unfold applyGroupSetting
  split
  · exact silent_pure _
  · exact silent_pure _
  · exact silent_note_pure _ rfl _

theorem silent_openGroup (a : Assembly) (block : Block) (name : String) :
    (openGroup s a block name).Silent := by
  unfold openGroup
  refine Silent.bind (silent_foldlM _ _ silent_applyGroupSetting) ?_
  dsimp only
  split
  · exact silent_note_pure _ rfl _
  · exact (silent_pure _).bind (silent_pure _)

theorem silent_addProject (a : Assembly) (block : Block) (children : List Segment) :
    (addProject s a block children).Silent := by
  unfold addProject
  split
  · exact silent_note_pure _ rfl _
  · split
    · exact silent_note_pure _ rfl _
    · exact silent_pure _

end Assembly

end Dbml
