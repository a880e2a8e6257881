import Mathlib.Data.Fintype.Card
import Flyover.Matching.Basic

/-!
# Matchings of maximum cardinality

A set of elements that meets every pair of the relation is at least as large as any
matching. From a matching that no alternating path can enlarge such a set can be read
off: what the paths do not reach on the one side, what they reach on the other.
-/

namespace PartialMatching

variable {α β : Type*} [Fintype α] [DecidableEq α] [DecidableEq β] {R : α → β → Prop}
  {m m' : PartialMatching α β}

/-- The number of pairs. -/
def size (m : PartialMatching α β) : Nat := (Finset.univ.filter fun a => m.inmatch a ≠ none).card

/-- A matching of pairs of the relation, and none has more. -/
structure Maximum (R : α → β → Prop) (m : PartialMatching α β) : Prop where
  consistent : m.Consistent
  within : m.Within R
  size_le : ∀ m' : PartialMatching α β, m'.Consistent → m'.Within R → m'.size ≤ m.size

/-- Every pair of the relation has an end in one of the sets. -/
def Covers (R : α → β → Prop) (A : Finset α) (B : Finset β) : Prop := ∀ a b, R a b → a ∈ A ∨ b ∈ B

variable {A : Finset α} {B : Finset β}

theorem size_le_of_covers (hm : m.Consistent) (hwithin : m.Within R) (h : Covers R A B) :
    m.size ≤ A.card + B.card := by
  have hrest : ((Finset.univ.filter fun a => m.inmatch a ≠ none) \ A).card ≤ (B.image some).card := by
    apply Finset.card_le_card_of_injOn m.inmatch
    · intro a ha
      rw [Finset.mem_coe, Finset.mem_sdiff, Finset.mem_filter] at ha
      obtain ⟨b, hb⟩ := Option.ne_none_iff_exists'.mp ha.1.2
      have hmem := (h a b (hwithin a b hb)).resolve_left ha.2
      rw [hb]
      exact Finset.mem_coe.mpr (Finset.mem_image_of_mem some hmem)
    · intro a ha a' _ heq
      rw [Finset.mem_coe, Finset.mem_sdiff, Finset.mem_filter] at ha
      obtain ⟨b, hb⟩ := Option.ne_none_iff_exists'.mp ha.1.2
      exact hm.injective hb (heq ▸ hb)
  calc m.size ≤ A.card + ((Finset.univ.filter fun a => m.inmatch a ≠ none) \ A).card := by
        rw [Nat.add_comm]
        exact Finset.card_le_card_sdiff_add_card
    _ ≤ A.card + B.card := Nat.add_le_add_left (hrest.trans Finset.card_image_le) _

omit [DecidableEq β] in
/-- A matching is as large as two sets whose elements it matches apart from each other. -/
theorem le_size_of_apart (hm : m.Consistent) (hA : ∀ a ∈ A, m.inmatch a ≠ none)
    (hB : ∀ b ∈ B, ∃ a, a ∉ A ∧ m.outmatch b = some a) : A.card + B.card ≤ m.size := by
  have hpartners : B.card ≤
      (((Finset.univ.filter fun a => m.inmatch a ≠ none) \ A).image some).card := by
    apply Finset.card_le_card_of_injOn m.outmatch
    · intro b hb
      obtain ⟨a, ha, hout⟩ := hB b hb
      have hmatched : m.inmatch a ≠ none := by
        rw [(hm a b).mpr hout]
        exact Option.some_ne_none b
      rw [hout]
      exact Finset.mem_coe.mpr (Finset.mem_image_of_mem some (by simp [ha, hmatched]))
    · intro b hb b' _ heq
      obtain ⟨a, -, hout⟩ := hB b hb
      exact hm.swap.injective (m := m.swap) hout (heq.symm.trans hout)
  have hsubset : A ⊆ Finset.univ.filter fun a => m.inmatch a ≠ none := fun a ha => by
    simp [hA a ha]
  calc A.card + B.card ≤ A.card + ((Finset.univ.filter fun a => m.inmatch a ≠ none) \ A).card :=
        Nat.add_le_add_left (hpartners.trans Finset.card_image_le) _
    _ = m.size := by
        rw [Nat.add_comm]
        exact Finset.card_sdiff_add_card_eq_card hsubset

/-- A matching is maximum if a set has all its free elements, and is not left by going
from its elements to what they are related to and on to what that is matched with. -/
theorem maximum_of_closed [Fintype β] (hm : m.Consistent) (hwithin : m.Within R) (S : Finset α)
    (hfree : ∀ a, m.inmatch a = none → a ∈ S)
    (hclosed : ∀ a ∈ S, ∀ b, R a b → ∃ a' ∈ S, m.outmatch b = some a') : m.Maximum R where
  consistent := hm
  within := hwithin
  size_le m' hm' hwithin' := by
    classical
    let B : Finset β := Finset.univ.filter fun b => ∃ a ∈ S, m.outmatch b = some a
    have hcovers : Covers R Sᶜ B := by
      intro a b hR
      by_cases ha : a ∈ S
      · exact .inr (Finset.mem_filter.mpr ⟨Finset.mem_univ b, hclosed a ha b hR⟩)
      · exact .inl (Finset.mem_compl.mpr ha)
    refine (size_le_of_covers hm' hwithin' hcovers).trans (le_size_of_apart hm ?_ ?_)
    · intro a ha hnone
      exact Finset.mem_compl.mp ha (hfree a hnone)
    · intro b hb
      obtain ⟨a, ha, hout⟩ := (Finset.mem_filter.mp hb).2
      exact ⟨a, fun h => Finset.mem_compl.mp h ha, hout⟩

end PartialMatching
