import Mathlib.Data.Option.Basic
import Mathlib.Tactic.Common

/-!
# Loops over a queue

A loop that handles the item in front of a queue, as long as there is one that it
has to handle. A round may fail, and it may put items into the queue, so the
number of rounds is bounded from outside; a measure that every round decreases
shows that the bound was large enough.
-/

namespace Worklist

variable {σ ι : Type} {front : σ → Option ι} {body : ι → σ → Option σ}

/-- Handle the item in front for at most a number of rounds. -/
def loop (front : σ → Option ι) (body : ι → σ → Option σ) : Nat → σ → Option σ
  | 0, s => some s
  | rounds + 1, s =>
      match front s with
      | none => some s
      | some item => (body item s).bind (loop front body rounds)

/-- The loop that starts in a state comes to a round that finds an item in front. -/
inductive Visits (front : σ → Option ι) (body : ι → σ → Option σ) : σ → ι → σ → Prop
  | here {s : σ} {item : ι} : front s = some item → Visits front body s item s
  | later {s s' t : σ} {item item' : ι} :
      front s = some item → body item s = some s' → Visits front body s' item' t →
      Visits front body s item' t

theorem Visits.front_eq {s t : σ} {item : ι} (h : Visits front body s item t) :
    front t = some item := by
  induction h with
  | here hfront => exact hfront
  | later _ _ _ ih => exact ih

theorem loop_none {s : σ} (h : front s = none) (rounds : Nat) :
    loop front body rounds s = some s := by
  cases rounds with
  | zero => rfl
  | succ rounds => simp only [loop, h]

theorem loop_some {s : σ} {item : ι} (h : front s = some item) (rounds : Nat) :
    loop front body (rounds + 1) s = (body item s).bind (loop front body rounds) := by
  simp only [loop, h]

/-- What every round preserves, the loop preserves. -/
theorem loop_induction {motive : σ → Prop} {rounds : Nat} {s s' : σ}
    (hrun : loop front body rounds s = some s') (hstart : motive s)
    (hround : ∀ item t t', Visits front body s item t → motive t → body item t = some t' →
      motive t') : motive s' := by
  induction rounds generalizing s with
  | zero =>
      cases hrun
      exact hstart
  | succ rounds ih =>
      cases hfront : front s with
      | none =>
          rw [loop_none hfront] at hrun
          cases hrun
          exact hstart
      | some item =>
          rw [loop_some hfront] at hrun
          obtain ⟨t, ht, hrest⟩ := Option.bind_eq_some_iff.mp hrun
          apply ih hrest
          · exact hround item s t (.here hfront) hstart ht
          · intro item' u u' hvisits
            exact hround item' u u' (.later hfront ht hvisits)

/-- A loop whose rounds do not fail does not fail. -/
theorem exists_loop (hbody : ∀ item s, ∃ s', body item s = some s') (rounds : Nat) (s : σ) :
    ∃ s', loop front body rounds s = some s' := by
  induction rounds generalizing s with
  | zero => exact ⟨s, rfl⟩
  | succ rounds ih =>
      cases hfront : front s with
      | none => exact ⟨s, loop_none hfront _⟩
      | some item =>
          obtain ⟨t, ht⟩ := hbody item s
          rw [loop_some hfront, ht]
          exact ih t

/-- With as many rounds as a decreasing measure says, nothing is left to handle. -/
theorem loop_finished (left : σ → Nat) {rounds : Nat} {s s' : σ}
    (hrun : loop front body rounds s = some s') (hrounds : left s ≤ rounds)
    (hpos : ∀ item t, front t = some item → 0 < left t)
    (hless : ∀ item t t', front t = some item → body item t = some t' → left t' < left t) :
    front s' = none := by
  induction rounds generalizing s with
  | zero =>
      obtain rfl := Option.some.inj hrun
      apply Option.eq_none_iff_forall_ne_some.mpr
      intro item hitem
      exact absurd (hpos item s hitem) (Nat.not_lt.mpr hrounds)
  | succ rounds ih =>
      cases hfront : front s with
      | none =>
          rw [loop_none hfront] at hrun
          cases hrun
          exact hfront
      | some item =>
          rw [loop_some hfront] at hrun
          obtain ⟨t, ht, hrest⟩ := Option.bind_eq_some_iff.mp hrun
          exact ih hrest (Nat.le_of_lt_succ (Nat.lt_of_lt_of_le (hless item s t hfront ht) hrounds))

/-- What every round preserves, a loop over a list preserves. -/
theorem foldlM_induction {α : Type} {motive : σ → Prop} {f : σ → α → Option σ} {xs : List α}
    {s s' : σ} (hrun : xs.foldlM f s = some s') (hstart : motive s)
    (hround : ∀ x ∈ xs, ∀ t t', motive t → f t x = some t' → motive t') : motive s' := by
  induction xs generalizing s with
  | nil =>
      cases hrun
      exact hstart
  | cons x xs ih =>
      rw [List.foldlM_cons] at hrun
      obtain ⟨t, ht, hrest⟩ := Option.bind_eq_some_iff.mp hrun
      apply ih hrest
      · exact hround x List.mem_cons_self s t hstart ht
      · intro y hy
        exact hround y (List.mem_cons_of_mem x hy)

/-- A loop over a list gets through it, if every round takes what holds after the items
before it to what holds after its own. -/
theorem exists_foldlM {α : Type} {motive : List α → σ → Prop} {f : σ → α → Option σ} {xs : List α}
    {s : σ} (hstart : motive [] s) (hround : ∀ done x rest, xs = done ++ x :: rest → ∀ t,
      motive done t → ∃ t', f t x = some t' ∧ motive (done ++ [x]) t') :
    ∃ s', xs.foldlM f s = some s' ∧ motive xs s' := by
  have hloop : ∀ (rest done : List α) (t : σ), xs = done ++ rest → motive done t →
      ∃ s', rest.foldlM f t = some s' ∧ motive xs s' := by
    intro rest
    induction rest with
    | nil =>
        intro done t hxs ht
        rw [List.append_nil] at hxs
        exact ⟨t, rfl, hxs ▸ ht⟩
    | cons x rest ih =>
        intro done t hxs ht
        obtain ⟨t', hstep, ht'⟩ := hround done x rest hxs t ht
        have hxs' : xs = (done ++ [x]) ++ rest := by
          rw [hxs, List.append_assoc, List.singleton_append]
        obtain ⟨s', hrun, hs'⟩ := ih (done ++ [x]) t' hxs' ht'
        refine ⟨s', ?_, hs'⟩
        rw [List.foldlM_cons]
        exact Option.bind_eq_some_iff.mpr ⟨t', hstep, hrun⟩
  exact hloop xs [] s rfl hstart

end Worklist
