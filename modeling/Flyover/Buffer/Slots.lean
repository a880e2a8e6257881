import Flyover.Buffer.Policy
import Flyover.Buffer.Pool

/-!
# Slots of a shared buffer policy

A slot that the policy counts as occupied stands for an outstanding flit or is
reserved. An operation on one virtual channel changes the slots of that channel
and the occupancy of its private buffer by the same number, whichever way the
slots go.
-/

namespace Flyover

variable {vcs : Nat}

namespace SharedBufferPolicy

variable {L : SharedLayout vcs} {p p' p'' : SharedBufferPolicy L} {vc : Fin vcs}

/-- The slots of a private buffer that stand for no flit and no reservation. -/
def unaccounted (p : SharedBufferPolicy L) (occupancy : Fin vcs → Int)
    (i : Fin L.privateBufs) : Int :=
  p.privateBufOccupancy i -
    Pool.held L.privateBufVcMap (fun vc => occupancy vc + p.reservedSlots vc) i

/-- The shared occupancy is what the private buffers cannot hold. -/
structure Balanced (p : SharedBufferPolicy L) : Prop where
  shared_eq : p.sharedBufOccupancy = Pool.excess L.privateBufSize p.privateBufOccupancy
  shared_le : p.sharedBufOccupancy ≤ L.sharedBufSize
  nonneg : ∀ i, 0 ≤ p.privateBufOccupancy i

theorem Balanced.sum_le (hbal : p.Balanced) :
    ∑ i, p.privateBufOccupancy i ≤ L.bufSize := by
  have hused : ∑ i, p.privateBufOccupancy i ≤
      ∑ i, L.privateBufSize i + Pool.excess L.privateBufSize p.privateBufOccupancy :=
    Pool.sum_used_le
  have hle := hbal.shared_le
  rw [hbal.shared_eq, SharedLayout.sharedBufSize] at hle
  omega

theorem balanced_new : (new L).Balanced where
  shared_eq := (Pool.excess_zero L.privateBufSize_nonneg).symm
  shared_le := by
    have := L.sum_le_bufSize
    exact Int.sub_nonneg.mpr this
  nonneg _ := le_rfl

/-- The slots of a virtual channel change by `d` flits. -/
structure SlotChange (p p' : SharedBufferPolicy L) (vc : Fin vcs) (d : Int) : Prop where
  others : ∀ u, u ≠ vc → p'.reservedSlots u = p.reservedSlots u
  otherBufs : ∀ i, i ≠ L.privateBufVcMap vc → p'.privateBufOccupancy i = p.privateBufOccupancy i
  change : p'.privateBufOccupancy (L.privateBufVcMap vc) - p'.reservedSlots vc =
    p.privateBufOccupancy (L.privateBufVcMap vc) - p.reservedSlots vc + d
  balanced : p.Balanced → p'.Balanced

namespace SlotChange

theorem refl (p : SharedBufferPolicy L) (vc : Fin vcs) : SlotChange p p vc 0 where
  others _ _ := rfl
  otherBufs _ _ := rfl
  change := (Int.add_zero _).symm
  balanced h := h

theorem trans {d d' : Int} (h : SlotChange p p' vc d) (h' : SlotChange p' p'' vc d') :
    SlotChange p p'' vc (d + d') where
  others u hu := (h'.others u hu).trans (h.others u hu)
  otherBufs i hi := (h'.otherBufs i hi).trans (h.otherBufs i hi)
  change := by rw [h'.change, h.change, add_assoc]
  balanced hbal := h'.balanced (h.balanced hbal)

/-- What no flit accounts for stays, if the flits change as the slots do. -/
theorem unaccounted_eq {d : Int} (h : SlotChange p p' vc d) (occupancy : Fin vcs → Int) :
    p'.unaccounted (Function.update occupancy vc (occupancy vc + d)) = p.unaccounted occupancy := by
  funext i
  have hoff : ∀ u, u ≠ vc →
      Function.update occupancy vc (occupancy vc + d) u + (p'.reservedSlots u : Int) =
        occupancy u + p.reservedSlots u := by
    intro u hu
    rw [Function.update_of_ne hu, h.others u hu]
  rw [unaccounted, unaccounted, Pool.held_of_eq_off _ hoff, Function.update_self]
  by_cases hi : L.privateBufVcMap vc = i
  · subst hi
    rw [if_pos rfl]
    have := h.change
    omega
  · rw [if_neg hi, h.otherBufs i (Ne.symm hi)]
    omega

end SlotChange

/-! ### What the operations do -/

theorem slotChange_reserve {n : Nat} {d : Int} (hd : (n : Int) = p.reservedSlots vc - d) :
    SlotChange p { p with reservedSlots := Function.update p.reservedSlots vc n } vc d where
  others u hu := Function.update_of_ne hu _ _
  otherBufs _ _ := rfl
  change := by
    dsimp only
    rw [Function.update_self]
    omega
  balanced hbal := ⟨hbal.shared_eq, hbal.shared_le, hbal.nonneg⟩

theorem processFreeSlot_ok (h : p.processFreeSlot vc = .ok p') :
    SlotChange p p' vc (-1) ∧ p'.reservedSlots = p.reservedSlots := by
  obtain ⟨hpos, h⟩ := ensure_bind_ok.mp h
  obtain ⟨-, h⟩ := ensure_bind_ok.mp h
  obtain rfl := pure_ok.mp h
  refine ⟨?_, rfl⟩
  constructor
  case others => exact fun u _ => rfl
  case otherBufs => exact fun i hi => Function.update_of_ne hi _ _
  case change =>
    dsimp only
    rw [Function.update_self]
    omega
  case balanced =>
    intro hbal
    constructor
    case shared_eq =>
      have heq := hbal.shared_eq
      dsimp only
      rw [Pool.excess_update_pred]
      split <;> omega
    case shared_le =>
      have hle := hbal.shared_le
      dsimp only
      split <;> omega
    case nonneg =>
      apply Pool.update_nonneg hbal.nonneg
      omega

theorem exists_processFreeSlot (hbal : p.Balanced)
    (hpos : 0 < p.privateBufOccupancy (L.privateBufVcMap vc)) :
    ∃ p', p.processFreeSlot vc = .ok p' := by
  refine ⟨_, ensure_bind_ok.mpr ⟨by omega, ensure_bind_ok.mpr ⟨?_, rfl⟩⟩⟩
  intro hge
  -- the shared occupancy counts the slot that is freed
  have hnonneg : 0 ≤ Pool.excess L.privateBufSize
      (Function.update p.privateBufOccupancy (L.privateBufVcMap vc)
        (p.privateBufOccupancy (L.privateBufVcMap vc) - 1)) := Pool.excess_nonneg
  rw [Pool.excess_update_pred, if_pos hge, ← hbal.shared_eq] at hnonneg
  rw [if_pos hge]
  omega

theorem occupySlot_ok (h : p.occupySlot vc = .ok p') :
    SlotChange p p' vc 1 ∧ p'.reservedSlots vc = p.reservedSlots vc - 1 := by
  unfold occupySlot at h
  split at h
  next hres =>
    obtain rfl := Except.ok.inj h
    refine ⟨?_, Function.update_self _ _ _⟩
    apply slotChange_reserve
    omega
  next hres =>
    obtain ⟨hroom, h⟩ := ensure_bind_ok.mp h
    obtain rfl := pure_ok.mp h
    refine ⟨?_, by dsimp only; omega⟩
    constructor
    case others => exact fun u _ => rfl
    case otherBufs => exact fun i hi => Function.update_of_ne hi _ _
    case change =>
      dsimp only
      rw [Function.update_self]
      omega
    case balanced =>
      intro hbal
      constructor
      case shared_eq =>
        have heq := hbal.shared_eq
        dsimp only
        rw [Pool.excess_update_succ]
        split <;> omega
      case shared_le =>
        have hle := hbal.shared_le
        dsimp only
        split <;> omega
      case nonneg =>
        have := hbal.nonneg (L.privateBufVcMap vc)
        apply Pool.update_nonneg hbal.nonneg
        omega

theorem exists_occupySlot (hroom : p.isFullFor vc = false) : ∃ p', p.occupySlot vc = .ok p' := by
  unfold occupySlot
  split
  next => exact ⟨_, rfl⟩
  next hres =>
    refine ⟨_, ensure_bind_ok.mpr ⟨?_, rfl⟩⟩
    intro hover
    rw [if_pos hover]
    by_contra hfull
    have : p.isFullFor vc = true := by
      simp only [isFullFor, Bool.and_eq_true, beq_iff_eq, decide_eq_true_eq]
      omega
    rw [this] at hroom
    cases hroom

theorem releaseReserved_ok {n : Nat} (hn : p.reservedSlots vc = n)
    (h : releaseReserved n p vc = .ok p') : SlotChange p p' vc 0 ∧ p'.reservedSlots vc = 0 := by
  induction n generalizing p with
  | zero =>
      obtain rfl := Except.ok.inj h
      exact ⟨.refl p vc, hn⟩
  | succ n ih =>
      rw [releaseReserved] at h
      obtain ⟨q, hq, h⟩ := bind_ok.mp h
      obtain ⟨hfree, hres⟩ := processFreeSlot_ok hq
      have hone : SlotChange p { p with reservedSlots := Function.update p.reservedSlots vc n } vc
          1 := by
        apply slotChange_reserve
        omega
      have hqn : q.reservedSlots vc = n := by
        rw [hres]
        exact Function.update_self _ _ _
      obtain ⟨hrest, hzero⟩ := ih hqn h
      exact ⟨(hone.trans hfree).trans hrest, hzero⟩

theorem exists_releaseReserved {n : Nat} (hbal : p.Balanced)
    (hn : n ≤ p.privateBufOccupancy (L.privateBufVcMap vc)) :
    ∃ p', releaseReserved n p vc = .ok p' := by
  induction n generalizing p with
  | zero => exact ⟨p, rfl⟩
  | succ n ih =>
      have hbal' : Balanced { p with reservedSlots := Function.update p.reservedSlots vc n } :=
        ⟨hbal.shared_eq, hbal.shared_le, hbal.nonneg⟩
      obtain ⟨q, hq⟩ : ∃ q, processFreeSlot
          { p with reservedSlots := Function.update p.reservedSlots vc n } vc = .ok q :=
        exists_processFreeSlot hbal' (by dsimp only; omega)
      obtain ⟨hfree, hres⟩ := processFreeSlot_ok hq
      have hchange := hfree.change
      rw [hres] at hchange
      dsimp only at hchange
      obtain ⟨p', hp'⟩ := ih (hfree.balanced hbal') (by omega)
      exact ⟨p', bind_ok.mpr ⟨q, hq, hp'⟩⟩

theorem sendingFlit_ok {tail : Bool} (h : p.sendingFlit vc tail = .ok p') :
    SlotChange p p' vc 1 ∧
      p'.reservedSlots vc = if tail then 0 else p.reservedSlots vc - 1 := by
  obtain ⟨q, hq, h⟩ := bind_ok.mp h
  obtain ⟨hone, hres⟩ := occupySlot_ok hq
  cases tail with
  | false =>
      obtain rfl := pure_ok.mp h
      exact ⟨hone, hres⟩
  | true =>
      obtain ⟨hrest, hzero⟩ := releaseReserved_ok rfl h
      exact ⟨hone.trans hrest, hzero⟩

theorem exists_sendingFlit {tail : Bool} (hbal : p.Balanced) (hroom : p.isFullFor vc = false)
    (hres : p.reservedSlots vc ≤ p.privateBufOccupancy (L.privateBufVcMap vc)) :
    ∃ p', p.sendingFlit vc tail = .ok p' := by
  obtain ⟨q, hq⟩ := exists_occupySlot hroom
  obtain ⟨hone, hqres⟩ := occupySlot_ok hq
  cases tail with
  | false => exact ⟨q, bind_ok.mpr ⟨q, hq, rfl⟩⟩
  | true =>
      have hchange := hone.change
      obtain ⟨p', hp'⟩ : ∃ p', releaseReserved (q.reservedSlots vc) q vc = .ok p' :=
        exists_releaseReserved (hone.balanced hbal) (by omega)
      exact ⟨p', bind_ok.mpr ⟨q, hq, hp'⟩⟩

theorem freeSlotFor_ok {available empty : Bool} (h : p.freeSlotFor available empty vc = .ok p') :
    SlotChange p p' vc (-1) ∧
      p'.reservedSlots vc =
        if !available && empty then p.reservedSlots vc + 1 else p.reservedSlots vc := by
  unfold freeSlotFor at h
  split at h
  next hreserve =>
    obtain rfl := Except.ok.inj h
    rw [if_pos hreserve]
    refine ⟨?_, Function.update_self _ _ _⟩
    apply slotChange_reserve
    omega
  next hfree =>
    rw [if_neg hfree]
    obtain ⟨hchange, hres⟩ := processFreeSlot_ok h
    exact ⟨hchange, congrFun hres vc⟩

theorem exists_freeSlotFor {available empty : Bool} (hbal : p.Balanced)
    (hpos : 0 < p.privateBufOccupancy (L.privateBufVcMap vc)) :
    ∃ p', p.freeSlotFor available empty vc = .ok p' := by
  unfold freeSlotFor
  split
  next => exact ⟨_, rfl⟩
  next => exact exists_processFreeSlot hbal hpos

theorem isFullFor_iff (hbal : p.Balanced) : p.isFullFor vc = true ↔ p.availableFor vc ≤ 0 := by
  have hle := hbal.shared_le
  simp only [isFullFor, availableFor, Bool.and_eq_true, beq_iff_eq, decide_eq_true_eq]
  omega

end SharedBufferPolicy

end Flyover
