import Flyover.Buffer.State
import Flyover.Buffer.Pool

/-!
# The counters of the buffer state

What the operations do to the counters and owners that `BufferState` keeps
itself. The drift of the total occupancy against the sum over the virtual
channels does not change, and the discipline of owners and tails that the
sender relies on is kept.
-/

namespace Flyover

variable {vcs : Nat}

namespace BufferState

variable {s s' : BufferState vcs} {time : Int} {vc u : Fin vcs}

/-- What the total occupancy counts beside the virtual channels. -/
def drift (s : BufferState vcs) : Int := s.occupancy - ∑ vc, s.vcOccupancy vc

/-- No counter is below what it counts. -/
structure Counted (s : BufferState vcs) : Prop where
  nonneg : ∀ vc, 0 ≤ s.vcOccupancy vc
  drift : 0 ≤ s.drift

theorem Counted.vcOccupancy_le (h : s.Counted) (vc : Fin vcs) : s.vcOccupancy vc ≤ s.occupancy := by
  have hsingle := Finset.single_le_sum (fun u _ => h.nonneg u) (Finset.mem_univ vc)
  have hdrift := h.drift
  rw [BufferState.drift] at hdrift
  omega

/-- Where one virtual channel holds the whole occupancy, the others are empty. -/
theorem Counted.only_holder (h : s.Counted) (honly : s.occupancy = s.vcOccupancy vc) :
    s.drift = 0 ∧ ∀ u, u ≠ vc → s.vcOccupancy u = 0 := by
  have hdrift := h.drift
  have hrest : ∑ u, s.vcOccupancy u =
      s.vcOccupancy vc + ∑ u ∈ Finset.univ.erase vc, s.vcOccupancy u :=
    (Finset.add_sum_erase _ _ (Finset.mem_univ vc)).symm
  have hrest_nonneg : 0 ≤ ∑ u ∈ Finset.univ.erase vc, s.vcOccupancy u :=
    Finset.sum_nonneg fun u _ => h.nonneg u
  have hdrift_eq : s.drift = s.occupancy - ∑ u, s.vcOccupancy u := rfl
  refine ⟨by omega, fun u hu => ?_⟩
  have hzero : ∑ u ∈ Finset.univ.erase vc, s.vcOccupancy u = 0 := by omega
  exact (Finset.sum_eq_zero_iff_of_nonneg fun u _ => h.nonneg u).mp hzero u
    (Finset.mem_erase.mpr ⟨hu, Finset.mem_univ u⟩)

/-! ### Without the policy -/

/-- The credit frees the virtual channel. -/
def releases (s : BufferState vcs) (vc : Fin vcs) : Bool :=
  s.waitForTailCredit && s.vcOccupancy vc - 1 == 0 && s.tailSent vc

def credited (s : BufferState vcs) (vc : Fin vcs) : BufferState vcs :=
  { s with
    occupancy := s.occupancy - 1
    vcOccupancy := Function.update s.vcOccupancy vc (s.vcOccupancy vc - 1)
    inUseBy := if s.releases vc then Function.update s.inUseBy vc none else s.inUseBy }

def sent (s : BufferState vcs) (vc : Fin vcs) (tail : Bool) : BufferState vcs :=
  { s with
    occupancy := s.occupancy + 1
    vcOccupancy := Function.update s.vcOccupancy vc (s.vcOccupancy vc + 1)
    tailSent := if tail then Function.update s.tailSent vc true else s.tailSent
    inUseBy :=
      if tail && !s.waitForTailCredit then Function.update s.inUseBy vc none else s.inUseBy }

def withPolicy (s : BufferState vcs) (policy : BufferPolicy vcs) : BufferState vcs :=
  { s with policy := policy }

def owned (s : BufferState vcs) (vc : Fin vcs) (tag : Option Nat) : BufferState vcs :=
  { s with
    inUseBy := Function.update s.inUseBy vc tag
    tailSent := Function.update s.tailSent vc false }

theorem processCreditFor_ok :
    s.processCreditFor time vc = .ok s' ↔
      ¬ (s.waitForTailCredit = true ∧ s.isAvailableFor vc = true) ∧ 0 < s.occupancy ∧
      0 < s.vcOccupancy vc ∧ (s.releases vc = true → s.isAvailableFor vc = false) ∧
      ∃ policy, s.policy.freeSlotFor ((s.credited vc).isAvailableFor vc)
          ((s.credited vc).isEmptyFor vc) time vc = .ok policy ∧
        s' = (s.credited vc).withPolicy policy := by
  unfold processCreditFor
  rw [ensure_bind_ok, ensure_bind_ok, ensure_bind_ok]
  refine and_congr_right fun _ => ?_
  refine and_congr (by omega) (and_congr (by omega) ?_)
  refine ensure_bind_ok.trans (and_congr_right fun _ => ?_)
  refine bind_ok.trans (exists_congr fun policy => and_congr_right fun _ => ?_)
  exact pure_ok.trans eq_comm

theorem sendingFlit_ok {tail : Bool} :
    s.sendingFlit time vc tail = .ok s' ↔
      s.occupancy + 1 ≤ s.size ∧
      ((tail && !s.waitForTailCredit) = true → s.isAvailableFor vc = false) ∧
      ∃ policy, s.policy.sendingFlit (s.vcOccupancy vc + 1) time vc tail = .ok policy ∧
        s' = (s.sent vc tail).withPolicy policy := by
  unfold sendingFlit
  rw [ensure_bind_ok]
  refine and_congr (by omega) ?_
  rw [bind_ok]
  simp only [Function.update_self]
  constructor
  · rintro ⟨policy, hpolicy, h⟩
    obtain ⟨hreleased, h⟩ := ensure_bind_ok.mp h
    exact ⟨hreleased, policy, hpolicy, (pure_ok.mp h).symm⟩
  · rintro ⟨hreleased, policy, hpolicy, rfl⟩
    exact ⟨policy, hpolicy, ensure_bind_ok.mpr ⟨hreleased, rfl⟩⟩

theorem takeBuffer_ok {tag : Nat} :
    s.takeBuffer vc tag = .ok s' ↔
      s.isAvailableFor vc = true ∧ ∃ policy, s.policy.takeBuffer = .ok policy ∧
        s' = (s.owned vc (some tag)).withPolicy policy := by
  refine ensure_bind_ok.trans (and_congr_right fun _ => ?_)
  refine bind_ok.trans (exists_congr fun policy => and_congr_right fun _ => ?_)
  exact pure_ok.trans eq_comm

theorem returnBuffer_ok :
    s.returnBuffer vc = .ok s' ↔
      s.isAvailableFor vc = false ∧ ∃ policy, s.policy.returnBuffer = .ok policy ∧
        s' = (s.owned vc none).withPolicy policy := by
  refine ensure_bind_ok.trans (and_congr_right fun _ => ?_)
  refine bind_ok.trans (exists_congr fun policy => and_congr_right fun _ => ?_)
  exact pure_ok.trans eq_comm

/-- What one credit preserves, the credits of a set preserve, if there is one
outstanding flit for each. -/
theorem exists_processCredit {P : BufferState vcs → Prop}
    (hone : ∀ s vc, P s → 0 < s.vcOccupancy vc →
      ∃ s', s.processCreditFor time vc = .ok s' ∧ P s')
    {credits : List (Fin vcs)} (hnodup : credits.Nodup)
    (hocc : ∀ vc ∈ credits, 0 < s.vcOccupancy vc) (hs : P s) :
    ∃ s', s.processCredit time credits = .ok s' ∧ P s' := by
  induction credits generalizing s with
  | nil => exact ⟨s, rfl, hs⟩
  | cons vc rest ih =>
      obtain ⟨hvc, hnodup⟩ := List.nodup_cons.mp hnodup
      obtain ⟨t, ht, hPt⟩ := hone s vc hs (hocc vc List.mem_cons_self)
      obtain ⟨-, -, -, -, policy, -, rfl⟩ := processCreditFor_ok.mp ht
      have hrest : ∀ u ∈ rest, 0 < ((s.credited vc).withPolicy policy).vcOccupancy u := by
        intro u hu
        have hne : u ≠ vc := fun h => hvc (h ▸ hu)
        dsimp only [withPolicy, credited]
        rw [Function.update_of_ne hne]
        exact hocc u (List.mem_cons_of_mem _ hu)
      obtain ⟨s', hs', hP'⟩ := ih hnodup hrest hPt
      exact ⟨s', bind_ok.mpr ⟨_, ht, hs'⟩, hP'⟩

/-! ### The drift -/

theorem drift_credited : (s.credited vc).drift = s.drift := by
  have hoff : ∀ u, u ≠ vc → (s.credited vc).vcOccupancy u = s.vcOccupancy u :=
    fun u hu => Function.update_of_ne hu _ _
  rw [drift, drift, Pool.sum_of_eq_off hoff]
  dsimp only [credited]
  rw [Function.update_self]
  omega

theorem drift_sent (tail : Bool) : (s.sent vc tail).drift = s.drift := by
  have hoff : ∀ u, u ≠ vc → (s.sent vc tail).vcOccupancy u = s.vcOccupancy u :=
    fun u hu => Function.update_of_ne hu _ _
  rw [drift, drift, Pool.sum_of_eq_off hoff]
  dsimp only [sent]
  rw [Function.update_self]
  omega

/-! ### Owners -/

theorem isAvailableFor_credited :
    (s.credited vc).isAvailableFor u =
      (s.isAvailableFor u || (decide (u = vc) && s.releases vc)) := by
  rw [isAvailableFor, credited]
  by_cases hrel : s.releases vc = true
  · by_cases hu : u = vc
    · subst hu
      simp [hrel]
    · simp [hrel, hu, isAvailableFor]
  · simp [hrel, isAvailableFor]

theorem isAvailableFor_sent {tail : Bool} :
    (s.sent vc tail).isAvailableFor u =
      (s.isAvailableFor u || (decide (u = vc) && (tail && !s.waitForTailCredit))) := by
  rw [isAvailableFor, sent]
  by_cases hrel : (tail && !s.waitForTailCredit) = true
  · by_cases hu : u = vc
    · subst hu
      simp [hrel]
    · simp [hrel, hu, isAvailableFor]
  · simp [hrel, isAvailableFor]

theorem isAvailableFor_owned {tag : Option Nat} :
    (s.owned vc tag).isAvailableFor u =
      if u = vc then tag.isNone else s.isAvailableFor u := by
  rw [isAvailableFor, owned]
  by_cases hu : u = vc
  · subst hu
    simp
  · simp [hu, isAvailableFor]

end BufferState

namespace CreditLink

open BufferState

/-- A virtual channel that a flit may still be sent on. The others are in use
without a packet, and no credit will free them. -/
def Usable (link : CreditLink vcs) (vc : Fin vcs) : Prop :=
  link.buffer.isAvailableFor vc = true ∨ link.Open vc ∨
    (link.buffer.waitForTailCredit = true ∧ 0 < link.buffer.vcOccupancy vc)

instance (link : CreditLink vcs) (vc : Fin vcs) : Decidable (link.Usable vc) :=
  inferInstanceAs (Decidable (_ ∨ _ ∨ _))

/-- The discipline of owners and tails. -/
structure Disciplined (link : CreditLink vcs) : Prop extends link.buffer.Counted where
  owned : ∀ vc, link.Open vc → link.buffer.isAvailableFor vc = false
  pending : link.buffer.waitForTailCredit = true → ∀ vc, 0 < link.buffer.vcOccupancy vc →
    link.buffer.isAvailableFor vc = false
  tail : link.buffer.waitForTailCredit = true → ∀ vc, link.Open vc →
    link.buffer.tailSent vc = false
  closed : link.buffer.waitForTailCredit = true → ∀ vc, link.buffer.isAvailableFor vc = false →
    ¬ link.Open vc → link.buffer.tailSent vc = true
  fresh : link.buffer.waitForTailCredit = true → ∀ vc, link.phase vc = .taken →
    link.buffer.vcOccupancy vc = 0

variable {s : BufferState vcs} {phase : Fin vcs → PacketPhase} {vc : Fin vcs}

theorem open_update {next : PacketPhase} {u : Fin vcs} {buffer : BufferState vcs} :
    Open ⟨buffer, Function.update phase vc next⟩ u ↔
      if u = vc then next ≠ .noPacket else Open ⟨s, phase⟩ u := by
  by_cases hu : u = vc
  · subst hu
    simp [Open]
  · simp [Open, hu]

/-! ### A credit -/

theorem Disciplined.credited (h : Disciplined ⟨s, phase⟩) (hocc : 0 < s.vcOccupancy vc)
    (policy : BufferPolicy vcs) : Disciplined ⟨(s.credited vc).withPolicy policy, phase⟩ where
  nonneg u := by
    dsimp only [withPolicy, BufferState.credited]
    by_cases hu : u = vc
    · subst hu
      rw [Function.update_self]
      omega
    · rw [Function.update_of_ne hu]
      exact h.nonneg u
  drift := h.drift.trans_eq drift_credited.symm
  owned u hu := by
    show (s.credited vc).isAvailableFor u = false
    rw [isAvailableFor_credited, h.owned u hu, Bool.false_or, Bool.and_eq_false_imp]
    intro heq
    obtain rfl := of_decide_eq_true heq
    -- the tail of an open packet is not sent, so that its credits do not release
    cases hwait : s.waitForTailCredit with
    | false => simp [releases, hwait]
    | true =>
        have htail : s.tailSent u = false := h.tail hwait u hu
        simp [releases, htail]
  pending hwait u hpos := by
    show (s.credited vc).isAvailableFor u = false
    rw [isAvailableFor_credited]
    dsimp only [withPolicy, BufferState.credited] at hpos
    by_cases hu : u = vc
    · subst hu
      rw [Function.update_self] at hpos
      rw [h.pending hwait u hocc]
      have hne : s.vcOccupancy u - 1 ≠ 0 := by omega
      simp [releases, hne]
    · rw [Function.update_of_ne hu] at hpos
      rw [h.pending hwait u hpos]
      simp [hu]
  tail := h.tail
  closed hwait u havail := by
    apply h.closed hwait u
    have : (s.credited vc).isAvailableFor u = false := havail
    rw [isAvailableFor_credited, Bool.or_eq_false_iff] at this
    exact this.1
  fresh hwait u hu := by
    have hzero : s.vcOccupancy u = 0 := h.fresh hwait u hu
    have hne : u ≠ vc := by
      rintro rfl
      omega
    exact (Function.update_of_ne hne _ _).trans hzero

theorem usable_credited (h : Disciplined ⟨s, phase⟩) (hocc : 0 < s.vcOccupancy vc)
    (policy : BufferPolicy vcs) (u : Fin vcs) :
    Usable ⟨(s.credited vc).withPolicy policy, phase⟩ u ↔ Usable ⟨s, phase⟩ u := by
  have havail : ((s.credited vc).withPolicy policy).isAvailableFor u =
    (s.isAvailableFor u || (decide (u = vc) && s.releases vc)) := isAvailableFor_credited
  rw [Usable, Usable]
  dsimp only
  rw [havail]
  dsimp only [withPolicy, BufferState.credited]
  by_cases hu : u = vc
  · subst hu
    rw [Function.update_self]
    cases hwait : s.waitForTailCredit with
    | false => simp [releases, hwait]; rfl
    | true =>
        constructor
        · intro _
          exact .inr (.inr ⟨rfl, hocc⟩)
        · intro _
          by_cases hmore : 0 < s.vcOccupancy u - 1
          · exact .inr (.inr ⟨rfl, hmore⟩)
          · -- the last credit: either the tail is sent, or there is a packet
            by_cases hopen : Open ⟨s, phase⟩ u
            · exact .inr (.inl hopen)
            · have htail : s.tailSent u = true := h.closed hwait u (h.pending hwait u hocc) hopen
              have hzero : s.vcOccupancy u - 1 = 0 := by omega
              exact .inl (by simp [releases, hwait, hzero, htail])
  · rw [Function.update_of_ne hu]
    simp [hu]
    rfl

/-! ### A flit -/

theorem Disciplined.sent (h : Disciplined ⟨s, phase⟩) (hopen : Open ⟨s, phase⟩ vc) (tail : Bool)
    (policy : BufferPolicy vcs) :
    Disciplined ⟨(s.sent vc tail).withPolicy policy,
      Function.update phase vc (if tail then .noPacket else .partlySent)⟩ where
  nonneg u := by
    dsimp only [withPolicy, BufferState.sent]
    have hnonneg : 0 ≤ s.vcOccupancy u := h.nonneg u
    by_cases hu : u = vc
    · subst hu
      rw [Function.update_self]
      omega
    · rw [Function.update_of_ne hu]
      exact hnonneg
  drift := h.drift.trans_eq (drift_sent tail).symm
  owned u hu := by
    show (s.sent vc tail).isAvailableFor u = false
    rw [open_update (s := s)] at hu
    rw [isAvailableFor_sent]
    by_cases huv : u = vc
    · subst huv
      rw [if_pos rfl] at hu
      cases tail with
      | false =>
          rw [h.owned u hopen]
          simp
      | true => exact absurd rfl hu
    · rw [if_neg huv] at hu
      rw [h.owned u hu]
      simp [huv]
  pending hwait u hpos := by
    have hwait' : s.waitForTailCredit = true := hwait
    show (s.sent vc tail).isAvailableFor u = false
    rw [isAvailableFor_sent, hwait', Bool.not_true, Bool.and_false, Bool.and_false, Bool.or_false]
    by_cases hu : u = vc
    · subst hu
      exact h.owned u hopen
    · apply h.pending hwait u
      dsimp only [withPolicy, BufferState.sent] at hpos
      rw [Function.update_of_ne hu] at hpos
      exact hpos
  tail hwait u hu := by
    rw [open_update (s := s)] at hu
    dsimp only [withPolicy, BufferState.sent]
    by_cases huv : u = vc
    · subst huv
      rw [if_pos rfl] at hu
      cases tail with
      | false => exact h.tail hwait u hopen
      | true => exact absurd rfl hu
    · rw [if_neg huv] at hu
      have htail : s.tailSent u = false := h.tail hwait u hu
      cases tail with
      | false => exact htail
      | true =>
          rw [if_pos rfl, Function.update_of_ne huv]
          exact htail
  closed hwait u havail hu := by
    have havail' : (s.sent vc tail).isAvailableFor u = false := havail
    rw [isAvailableFor_sent, Bool.or_eq_false_iff] at havail'
    rw [open_update (s := s)] at hu
    dsimp only [withPolicy, BufferState.sent]
    by_cases huv : u = vc
    · subst huv
      rw [if_pos rfl] at hu
      cases tail with
      | false => exact absurd (by simp) hu
      | true => rw [if_pos rfl, Function.update_self]
    · rw [if_neg huv] at hu
      have htail : s.tailSent u = true := h.closed hwait u havail'.1 hu
      cases tail with
      | false => exact htail
      | true =>
          rw [if_pos rfl, Function.update_of_ne huv]
          exact htail
  fresh hwait u hu := by
    dsimp only [withPolicy, BufferState.sent] at hu ⊢
    by_cases huv : u = vc
    · subst huv
      rw [Function.update_self] at hu
      cases tail <;> cases hu
    · rw [Function.update_of_ne huv] at hu ⊢
      exact h.fresh hwait u hu

theorem usable_sent (h : Disciplined ⟨s, phase⟩) (hopen : Open ⟨s, phase⟩ vc) (tail : Bool)
    (policy : BufferPolicy vcs) (u : Fin vcs) :
    Usable ⟨(s.sent vc tail).withPolicy policy,
      Function.update phase vc (if tail then .noPacket else .partlySent)⟩ u ↔
      Usable ⟨s, phase⟩ u := by
  have hnonneg : 0 ≤ s.vcOccupancy vc := h.nonneg vc
  have havail : ((s.sent vc tail).withPolicy policy).isAvailableFor u =
    (s.isAvailableFor u || (decide (u = vc) && (tail && !s.waitForTailCredit))) :=
    isAvailableFor_sent
  rw [Usable, Usable, open_update (s := s)]
  dsimp only
  rw [havail]
  dsimp only [withPolicy, BufferState.sent]
  by_cases hu : u = vc
  · subst hu
    refine ⟨fun _ => .inr (.inl hopen), fun _ => ?_⟩
    rw [Function.update_self, if_pos rfl]
    cases tail with
    | false => exact .inr (.inl (by simp))
    | true =>
        cases hwait : s.waitForTailCredit with
        | false => exact .inl (by simp)
        | true => exact .inr (.inr ⟨rfl, by omega⟩)
  · rw [Function.update_of_ne hu, if_neg hu]
    simp [hu]

/-! ### Taking a virtual channel and giving it back -/

theorem Disciplined.own (h : Disciplined ⟨s, phase⟩) {tag : Option Nat} {next : PacketPhase}
    (hnext : tag.isNone = true ↔ next = .noPacket)
    (hzero : s.waitForTailCredit = true → s.vcOccupancy vc = 0) (policy : BufferPolicy vcs) :
    Disciplined ⟨(s.owned vc tag).withPolicy policy, Function.update phase vc next⟩ where
  nonneg := h.nonneg
  drift := h.drift
  owned u hu := by
    show (s.owned vc tag).isAvailableFor u = false
    rw [isAvailableFor_owned]
    rw [open_update (s := s)] at hu
    by_cases huv : u = vc
    · rw [if_pos huv] at hu ⊢
      exact Bool.eq_false_iff.mpr fun hnone => hu (hnext.mp hnone)
    · rw [if_neg huv] at hu ⊢
      exact h.owned u hu
  pending hwait u hpos := by
    have hpos' : 0 < s.vcOccupancy u := hpos
    show (s.owned vc tag).isAvailableFor u = false
    rw [isAvailableFor_owned]
    by_cases huv : u = vc
    · subst huv
      have := hzero hwait
      omega
    · rw [if_neg huv]
      exact h.pending hwait u hpos
  tail hwait u hu := by
    rw [open_update (s := s)] at hu
    dsimp only [withPolicy, BufferState.owned]
    by_cases huv : u = vc
    · subst huv
      rw [Function.update_self]
    · rw [if_neg huv] at hu
      rw [Function.update_of_ne huv]
      exact h.tail hwait u hu
  closed hwait u hused hu := by
    have hused' : (s.owned vc tag).isAvailableFor u = false := hused
    rw [isAvailableFor_owned] at hused'
    rw [open_update (s := s)] at hu
    dsimp only [withPolicy, BufferState.owned]
    by_cases huv : u = vc
    · rw [if_pos huv] at hu hused'
      rw [hnext.mpr (not_not.mp hu)] at hused'
      cases hused'
    · rw [if_neg huv] at hu hused'
      rw [Function.update_of_ne huv]
      exact h.closed hwait u hused' hu
  fresh hwait u hu := by
    dsimp only [withPolicy, BufferState.owned] at hu ⊢
    by_cases huv : u = vc
    · subst huv
      exact hzero hwait
    · rw [Function.update_of_ne huv] at hu
      exact h.fresh hwait u hu

/-- With `wait_for_tail_credit` an available virtual channel is empty. -/
theorem Disciplined.empty_of_available (h : Disciplined ⟨s, phase⟩)
    (havail : s.isAvailableFor vc = true) (hwait : s.waitForTailCredit = true) :
    s.vcOccupancy vc = 0 := by
  have hnonneg : 0 ≤ s.vcOccupancy vc := h.nonneg vc
  by_contra hne
  have hused : s.isAvailableFor vc = false :=
    h.pending hwait vc (show 0 < s.vcOccupancy vc by omega)
  rw [hused] at havail
  cases havail

theorem Disciplined.take (h : Disciplined ⟨s, phase⟩) (havail : s.isAvailableFor vc = true)
    (tag : Nat) (policy : BufferPolicy vcs) :
    Disciplined ⟨(s.owned vc (some tag)).withPolicy policy, Function.update phase vc .taken⟩ :=
  h.own (by simp) (h.empty_of_available havail) policy

theorem Disciplined.giveBack (h : Disciplined ⟨s, phase⟩) (htaken : phase vc = .taken)
    (policy : BufferPolicy vcs) :
    Disciplined ⟨(s.owned vc none).withPolicy policy, Function.update phase vc .noPacket⟩ :=
  h.own (by simp) (fun hwait => h.fresh hwait vc htaken) policy

theorem usable_take (havail : s.isAvailableFor vc = true) (tag : Nat) (policy : BufferPolicy vcs)
    (u : Fin vcs) :
    Usable ⟨(s.owned vc (some tag)).withPolicy policy, Function.update phase vc .taken⟩ u ↔
      Usable ⟨s, phase⟩ u := by
  have hused : ((s.owned vc (some tag)).withPolicy policy).isAvailableFor u =
    if u = vc then false else s.isAvailableFor u := isAvailableFor_owned
  rw [Usable, Usable, open_update (s := s), hused]
  by_cases hu : u = vc
  · subst hu
    rw [if_pos rfl]
    exact ⟨fun _ => .inl havail, fun _ => .inr (.inl (by simp))⟩
  · rw [if_neg hu, if_neg hu]
    rfl

theorem usable_giveBack (hopen : Open ⟨s, phase⟩ vc) (policy : BufferPolicy vcs) (u : Fin vcs) :
    Usable ⟨(s.owned vc none).withPolicy policy, Function.update phase vc .noPacket⟩ u ↔
      Usable ⟨s, phase⟩ u := by
  have hused : ((s.owned vc none).withPolicy policy).isAvailableFor u =
    if u = vc then true else s.isAvailableFor u := isAvailableFor_owned
  rw [Usable, Usable, open_update (s := s), hused]
  by_cases hu : u = vc
  · subst hu
    rw [if_pos rfl]
    exact ⟨fun _ => .inr (.inl hopen), fun _ => .inl rfl⟩
  · rw [if_neg hu, if_neg hu]
    rfl

end CreditLink

end Flyover
