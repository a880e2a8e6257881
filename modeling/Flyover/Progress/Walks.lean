import Mathlib.Tactic.Common

/-!
# Walks

The places that so many steps lead to.
-/

namespace Progress

variable {σ : Type*} {step : σ → σ → Prop} {start s : σ} {i : Nat}

/-- `i` steps lead from `start` to a place. -/
inductive Walk (step : σ → σ → Prop) (start : σ) : Nat → σ → Prop where
  | start : Walk step start 0 start
  | step {i : Nat} {s s' : σ} : Walk step start i s → step s s' → Walk step start (i + 1) s'

/-- What holds at the start and is carried along by every step, with the steps counted. -/
theorem Walk.invariant {P : Nat → σ → Prop} (h : Walk step start i s) (hstart : P 0 start)
    (hstep : ∀ {i s s'}, P i s → step s s' → P (i + 1) s') : P i s := by
  induction h with
  | start => exact hstart
  | step _ hs ih => exact hstep ih hs

end Progress
