import Dbml.Finding
import Mathlib.Data.List.Forall2

/-!
# Findings at other tokens

Two computations agree up to the places of what they note: their values are related, and the same
causes are noted in the same order. Main statement: `moves_foldlM`, a fold keeps such an agreement
if every step does.
-/

namespace Dbml

/-- The finding at the token that `place` gives. -/
def Finding.move (place : Nat → Nat) (finding : Finding) : Finding :=
  ⟨place finding.position, finding.cause⟩

namespace Noted

variable {α β γ δ : Type} {place : Nat → Nat} {R : α → β → Prop} {Q : γ → δ → Prop}

/-- The values are related, and what the first computation notes the second one notes at the tokens
that `place` gives. -/
structure Moves (place : Nat → Nat) (R : α → β → Prop) (x : Noted α) (y : Noted β) : Prop where
  value : R x.value y.value
  findings : y.findings = x.findings.map (Finding.move place)

/-- Findings that stay at their tokens are the same. -/
theorem Moves.eq {x y : Noted α} (moves : Moves id (· = ·) x y) : y = x := by
  obtain ⟨value, findings⟩ := moves
  have stay : Finding.move id = id := rfl
  rw [stay, List.map_id] at findings
  cases x
  cases y
  simp_all

theorem moves_pure {a : α} {b : β} (related : R a b) : Moves place R (pure a) (pure b) :=
  ⟨related, rfl⟩

theorem moves_note {position position' : Nat} (same : position' = place position)
    (cause : Cause) : Moves place (· = ·) (note position cause) (note position' cause) := by
  rw [same]
  exact ⟨rfl, rfl⟩

theorem Moves.bind {x : Noted α} {y : Noted β} {f : α → Noted γ} {g : β → Noted δ}
    (first : Moves place R x y) (second : ∀ a b, R a b → Moves place Q (f a) (g b)) :
    Moves place Q (x >>= f) (y >>= g) := by
  obtain ⟨value, findings⟩ := second x.value y.value first.value
  refine ⟨value, ?_⟩
  rw [bind_findings, bind_findings, List.map_append, first.findings, findings]

/-- What follows the same value. -/
theorem Moves.bind_same {x y : Noted α} {f : α → Noted γ} {g : α → Noted δ}
    (first : Moves place (· = ·) x y) (second : ∀ a, Moves place Q (f a) (g a)) :
    Moves place Q (x >>= f) (y >>= g) :=
  first.bind fun a b same => by
    rw [same]
    exact second b

/-- A note and a value. -/
theorem moves_note_pure {position position' : Nat} {a : α} {b : β}
    (same : position' = place position) (cause : Cause) (related : R a b) :
    Moves place R (do note position cause; return a) (do note position' cause; return b) :=
  (moves_note same cause).bind fun _ _ _ => moves_pure related

/-- Related steps over related lists make related folds. -/
theorem moves_foldlM {f : α → γ → Noted α} {g : β → δ → Noted β} {xs : List γ} {ys : List δ}
    {a : α} {b : β} (lists : List.Forall₂ Q xs ys) (start : R a b)
    (step : ∀ a b x y, R a b → Q x y → Moves place R (f a x) (g b y)) :
    Moves place R (xs.foldlM f a) (ys.foldlM g b) := by
  induction lists generalizing a b with
  | nil => exact moves_pure start
  | cons related _ ih =>
    rw [List.foldlM_cons, List.foldlM_cons]
    exact (step _ _ _ _ start related).bind fun _ _ => ih

theorem moves_foldlM_same {f : α → γ → Noted α} {g : α → δ → Noted α} {xs : List γ}
    {ys : List δ} (lists : List.Forall₂ Q xs ys)
    (step : ∀ a x y, Q x y → Moves place (· = ·) (f a x) (g a y)) (a : α) :
    Moves place (· = ·) (xs.foldlM f a) (ys.foldlM g a) :=
  moves_foldlM lists rfl fun a b x y same related => by
    rw [same]
    exact step b x y related

end Noted

end Dbml
