import Mathlib.Init

/-!
# Runs whose steps meet a condition

A step may fail; a run goes on as long as none does. What holds at the start, and
is kept by every step that meets the condition, holds in every state of such a run.
-/

namespace Runs

variable {σ α ε : Type*}

/-- The states that runs from `start` reach. -/
inductive Reaches (perform : σ → α → Except ε σ) (meets : σ → α → Prop) (start : σ) : σ → Prop
  | refl : Reaches perform meets start start
  | step {s s' : σ} {a : α} : Reaches perform meets start s → meets s a → perform s a = .ok s' →
      Reaches perform meets start s'

variable {perform : σ → α → Except ε σ} {meets : σ → α → Prop} {start s : σ}

theorem Reaches.invariant {P : σ → Prop} (h : Reaches perform meets start s) (hstart : P start)
    (hstep : ∀ s a s', P s → meets s a → perform s a = .ok s' → P s') : P s := by
  induction h with
  | refl => exact hstart
  | step _ hmeets hperform ih => exact hstep _ _ _ ih hmeets hperform

end Runs
