import Mathlib.Algebra.BigOperators.Fin
import Mathlib.Algebra.Order.BigOperators.Group.Finset
import Mathlib.Algebra.Order.Ring.Int

/-!
# A pool of slots with private parts

Owners hold slots. The owners fall into groups, each group has slots that are
its own, and what a group uses beyond them comes from a common rest. This file
has the sums that such a pool is accounted by, and how they change when one
owner or one group changes.
-/

namespace Pool

variable {Owner Group : Type} [Fintype Owner]

theorem sum_of_eq_off [DecidableEq Owner] {f f' : Owner → Int} {o : Owner}
    (heq : ∀ u, u ≠ o → f' u = f u) : ∑ u, f' u = ∑ u, f u + (f' o - f o) := by
  rw [← Finset.add_sum_erase _ f' (Finset.mem_univ o), ← Finset.add_sum_erase _ f (Finset.mem_univ o)]
  have hrest : ∑ u ∈ Finset.univ.erase o, f' u = ∑ u ∈ Finset.univ.erase o, f u := by
    apply Finset.sum_congr rfl
    intro u hu
    exact heq u (Finset.ne_of_mem_erase hu)
  omega

theorem sum_update [DecidableEq Owner] (f : Owner → Int) (o : Owner) (x : Int) :
    ∑ u, Function.update f o x u = ∑ u, f u + (x - f o) := by
  rw [sum_of_eq_off fun u hu => Function.update_of_ne hu x f, Function.update_self]

/-! ### What a group holds -/

section Held

variable [DecidableEq Group] (group : Owner → Group)

/-- What the owners in a group hold together. -/
def held (f : Owner → Int) (g : Group) : Int := ∑ o with group o = g, f o

theorem held_eq_sum (f : Owner → Int) (g : Group) :
    held group f g = ∑ o, if group o = g then f o else 0 :=
  Finset.sum_filter _ _

theorem held_of_eq_off [DecidableEq Owner] {f f' : Owner → Int} {o : Owner}
    (heq : ∀ u, u ≠ o → f' u = f u) (g : Group) :
    held group f' g = held group f g + if group o = g then f' o - f o else 0 := by
  rw [held_eq_sum, held_eq_sum]
  have hoff : ∀ u, u ≠ o → (if group u = g then f' u else 0) = if group u = g then f u else 0 := by
    intro u hu
    rw [heq u hu]
  rw [sum_of_eq_off hoff]
  by_cases hg : group o = g
  · rw [if_pos hg, if_pos hg, if_pos hg]
  · rw [if_neg hg, if_neg hg, if_neg hg, sub_zero]

/-- The groups together hold what the owners hold. -/
theorem sum_held [Fintype Group] (f : Owner → Int) : ∑ g, held group f g = ∑ o, f o :=
  Finset.sum_fiberwise _ _ _

theorem le_held {f : Owner → Int} (hf : ∀ o, 0 ≤ f o) (o : Owner) :
    f o ≤ held group f (group o) :=
  Finset.single_le_sum (f := f) (fun u _ => hf u) (by simp)

theorem held_nonneg {f : Owner → Int} (hf : ∀ o, 0 ≤ f o) (g : Group) : 0 ≤ held group f g :=
  Finset.sum_nonneg fun o _ => hf o

end Held

/-! ### What the groups take from the rest -/

theorem update_nonneg [DecidableEq Group] {used : Group → Int} {g : Group} {n : Int}
    (hused : ∀ g, 0 ≤ used g) (hn : 0 ≤ n) (u : Group) : 0 ≤ Function.update used g n u := by
  by_cases hu : u = g
  · subst hu
    rw [Function.update_self]
    exact hn
  · rw [Function.update_of_ne hu]
    exact hused u

variable [Fintype Group]

/-- What the groups use beyond what is their own. -/
def excess (size used : Group → Int) : Int := ∑ g, max 0 (used g - size g)

variable {size used : Group → Int}

theorem excess_nonneg : 0 ≤ excess size used :=
  Finset.sum_nonneg fun _ _ => le_max_left _ _

theorem excess_zero (hsize : ∀ g, 0 ≤ size g) : excess size (fun _ => 0) = 0 := by
  apply Finset.sum_eq_zero
  intro g _
  exact max_eq_left (Int.sub_nonpos_of_le (hsize g))

variable [DecidableEq Group]

theorem excess_update (g : Group) (n : Int) :
    excess size (Function.update used g n) =
      excess size used + (max 0 (n - size g) - max 0 (used g - size g)) := by
  have hoff : ∀ u, u ≠ g →
      max 0 (Function.update used g n u - size u) = max 0 (used u - size u) := by
    intro u hu
    rw [Function.update_of_ne hu]
  rw [excess, sum_of_eq_off hoff, Function.update_self]
  rfl

theorem excess_update_succ (g : Group) :
    excess size (Function.update used g (used g + 1)) =
      excess size used + if used g + 1 > size g then 1 else 0 := by
  rw [excess_update]
  split <;> omega

theorem excess_update_pred (g : Group) :
    excess size (Function.update used g (used g - 1)) =
      excess size used - if used g - 1 ≥ size g then 1 else 0 := by
  rw [excess_update]
  split <;> omega

omit [DecidableEq Group] in
/-- All that is used is the groups' own or comes from the rest. -/
theorem sum_used_le : ∑ g, used g ≤ ∑ g, size g + excess size used := by
  rw [excess, ← Finset.sum_add_distrib]
  apply Finset.sum_le_sum
  intro g _
  omega

end Pool
