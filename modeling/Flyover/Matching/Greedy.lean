import Mathlib.Data.List.Induction
import Flyover.Matching.Basic

/-!
# Greedy matching

The pairs of a list are matched in its order, each one if both of its ends are still
free. What is not matched is blocked by a pair that stands before it.
-/

namespace PartialMatching

variable {α β : Type*} [DecidableEq α] [DecidableEq β] {R : α → β → Prop}
  {pairs : List (α × β)} {m : PartialMatching α β}

/-- Match a pair if it is free. -/
def offer (m : PartialMatching α β) (p : α × β) : PartialMatching α β :=
  if (m.inmatch p.1).isNone && (m.outmatch p.2).isNone then m.assign p.1 p.2 else m

def greedy (pairs : List (α × β)) : PartialMatching α β := pairs.foldl offer empty

theorem offer_of_free {p : α × β} (h : m.Free p.1 p.2) : m.offer p = m.assign p.1 p.2 := by
  rw [offer, h.1, h.2]
  rfl

theorem offer_of_not_free {p : α × β} (h : ¬ m.Free p.1 p.2) : m.offer p = m := by
  apply if_neg
  rw [Bool.and_eq_true, Option.isNone_iff_eq_none, Option.isNone_iff_eq_none]
  exact h

theorem greedy_append_singleton (pairs : List (α × β)) (p : α × β) :
    greedy (pairs ++ [p]) = (greedy pairs).offer p := List.foldl_append ..

theorem extends_greedy (h : ∀ p ∈ pairs, R p.1 p.2) : Extends R empty (greedy pairs) := by
  induction pairs using List.reverseRecOn with
  | nil => exact .refl
  | append_singleton pairs p ih =>
      have hold := ih fun q hq => h q (List.mem_append_left _ hq)
      rw [greedy_append_singleton]
      by_cases hfree : (greedy pairs).Free p.1 p.2
      · rw [offer_of_free hfree]
        exact hold.assign hfree (h p (by simp))
      · rwa [offer_of_not_free hfree]

theorem consistent_greedy (pairs : List (α × β)) : (greedy pairs).Consistent :=
  (extends_greedy (R := fun _ _ => True) fun _ _ => trivial).consistent consistent_empty

/-- Only pairs of the list are matched. -/
theorem mem_of_greedy {a : α} {b : β} (h : (greedy pairs).inmatch a = some b) : (a, b) ∈ pairs :=
  (extends_greedy (R := fun a b => (a, b) ∈ pairs) fun _ hp => hp).within within_empty a b h

/-- What is matched stays matched. -/
theorem offer_keeps {a : α} {b : β} (h : m.inmatch a = some b) (p : α × β) :
    (m.offer p).inmatch a = some b := by
  by_cases hfree : m.Free p.1 p.2
  · have hne : a ≠ p.1 := by
      rintro rfl
      cases h.symm.trans hfree.1
    rw [offer_of_free hfree, assign_inmatch_of_ne hne, h]
  · rwa [offer_of_not_free hfree]

/-- Of the pairs in the order of a relation, each is matched or blocked by one before it. -/
theorem exists_blocker {r : α × β → α × β → Prop} (hsorted : pairs.Pairwise r) {p : α × β}
    (hp : p ∈ pairs) : ∃ q, (greedy pairs).inmatch q.1 = some q.2 ∧
      (q.1 = p.1 ∨ q.2 = p.2) ∧ (q = p ∨ r q p) := by
  induction pairs using List.reverseRecOn with
  | nil => cases hp
  | append_singleton pairs x ih =>
      obtain ⟨hold, -, hlast⟩ := List.pairwise_append.mp hsorted
      rw [greedy_append_singleton]
      rcases List.mem_append.mp hp with hp | hp
      · obtain ⟨q, hq, hends, horder⟩ := ih hold hp
        exact ⟨q, offer_keeps hq x, hends, horder⟩
      · rw [List.mem_singleton] at hp
        subst hp
        by_cases hfree : (greedy pairs).Free p.1 p.2
        · refine ⟨p, ?_, .inl rfl, .inl rfl⟩
          rw [offer_of_free hfree, assign_inmatch_self]
        · rw [offer_of_not_free hfree]
          cases hin : (greedy pairs).inmatch p.1 with
          | some b =>
              exact ⟨(p.1, b), hin, .inl rfl, .inr (hlast _ (mem_of_greedy hin) p (by simp))⟩
          | none =>
              obtain ⟨a, hout⟩ := Option.ne_none_iff_exists'.mp fun hout => hfree ⟨hin, hout⟩
              have ha : (greedy pairs).inmatch a = some p.2 :=
                (consistent_greedy pairs a p.2).mpr hout
              exact ⟨(a, p.2), ha, .inr rfl, .inr (hlast _ (mem_of_greedy ha) p (by simp))⟩

end PartialMatching
