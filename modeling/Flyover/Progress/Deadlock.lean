import Mathlib.Data.Set.Function
import Mathlib.Tactic.Common

/-!
# Deadlocks

Packets hold buffers and want buffers. A set of packets is deadlocked if every
buffer that one of them wants is held by one of them. Packets that can be ranked
so that each wants some buffer that none but higher ones hold are not deadlocked,
whatever else they want: the buffers of the ranking are the way out.
-/

namespace Progress

variable {Packet Buffer : Type*} {holds : Packet → Buffer} {wants : Packet → Buffer → Prop}
  {S : Set Packet}

/-- None of the packets can go on. -/
structure Deadlock (holds : Packet → Buffer) (wants : Packet → Buffer → Prop) (S : Set Packet) :
    Prop where
  nonempty : S.Nonempty
  held : ∀ p ∈ S, ∀ b, wants p b → ∃ q ∈ S, holds q = b

/-- One packet for each buffer is deadlocked as well. -/
theorem Deadlock.exists_injOn (h : Deadlock holds wants S) :
    ∃ S' ⊆ S, Set.InjOn holds S' ∧ Deadlock holds wants S' := by
  obtain ⟨S', hsub, hbij⟩ := Set.exists_subset_bijOn S holds
  have hfull : ∀ q ∈ S, ∃ q' ∈ S', holds q' = holds q := fun q hq =>
    hbij.surjOn (Set.mem_image_of_mem holds hq)
  obtain ⟨p, hp⟩ := h.nonempty
  obtain ⟨p', hp', -⟩ := hfull p hp
  refine ⟨S', hsub, hbij.injOn, ⟨p', hp'⟩, fun w hw b hb => ?_⟩
  obtain ⟨q, hq, rfl⟩ := h.held w (hsub hw) b hb
  exact hfull q hq

theorem not_deadlock_of_rank (rank : Packet → Nat) (bound : Nat) (hbound : ∀ p ∈ S, rank p ≤ bound)
    (hout : ∀ p ∈ S, ∃ b, wants p b ∧ ∀ q ∈ S, holds q = b → rank p < rank q) :
    ¬ Deadlock holds wants S := by
  intro h
  have hclimbs : ∀ n, ∃ p ∈ S, n ≤ rank p := by
    intro n
    induction n with
    | zero =>
        obtain ⟨p, hp⟩ := h.nonempty
        exact ⟨p, hp, Nat.zero_le _⟩
    | succ n ih =>
        obtain ⟨p, hp, hn⟩ := ih
        obtain ⟨b, hb, hhigher⟩ := hout p hp
        obtain ⟨q, hq, hholds⟩ := h.held p hp b hb
        exact ⟨q, hq, Nat.lt_of_le_of_lt hn (hhigher q hq hholds)⟩
  obtain ⟨p, hp, hpast⟩ := hclimbs (bound + 1)
  exact Nat.not_succ_le_self bound (hpast.trans (hbound p hp))

end Progress
