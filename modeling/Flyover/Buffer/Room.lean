import Flyover.Buffer.Discipline
import Flyover.Buffer.Slots
import Flyover.Buffer.Extensions

/-!
# Room for what the buffer state counts

The records of a policy must cover what the buffer state counts, and leave room
for the flits that can still be sent. With the discipline of owners and tails
this is all the operations of the sender need: each of them succeeds and leaves
a sound link.
-/

namespace Flyover

variable {vcs : Nat}

/-! ### Open packets -/

/-- The number of packets whose tail is not sent. -/
def openCount (phase : Fin vcs → PacketPhase) : Nat :=
  (Finset.univ.filter fun vc => phase vc ≠ .noPacket).card

section OpenCount

variable {phase : Fin vcs → PacketPhase} {vc : Fin vcs}

theorem openCount_pos (hopen : phase vc ≠ .noPacket) : 0 < openCount phase :=
  Finset.card_pos.mpr ⟨vc, by simpa using hopen⟩

theorem openCount_eq_zero (hclosed : ∀ vc, phase vc = .noPacket) : openCount phase = 0 := by
  apply Finset.card_eq_zero.mpr
  ext vc
  simp [hclosed vc]

theorem openCount_lt (hclosed : phase vc = .noPacket) : openCount phase < vcs := by
  have hlt : openCount phase < (Finset.univ : Finset (Fin vcs)).card := by
    apply Finset.card_lt_card
    apply Finset.filter_ssubset.mpr
    exact ⟨vc, Finset.mem_univ vc, by simpa using hclosed⟩
  simpa using hlt

theorem openCount_open {next : PacketPhase} (hclosed : phase vc = .noPacket)
    (hnext : next ≠ .noPacket) :
    openCount (Function.update phase vc next) = openCount phase + 1 := by
  have hmem : vc ∉ Finset.univ.filter fun u => phase u ≠ .noPacket := by simpa using hclosed
  rw [openCount, openCount, ← Finset.card_insert_of_notMem hmem]
  congr 1
  ext u
  by_cases hu : u = vc
  · subst hu
    simp [hnext]
  · simp [hu]

theorem openCount_close (hopen : phase vc ≠ .noPacket) :
    openCount (Function.update phase vc .noPacket) = openCount phase - 1 := by
  have hmem : vc ∈ Finset.univ.filter fun u => phase u ≠ .noPacket := by simpa using hopen
  rw [openCount, openCount, ← Finset.card_erase_of_mem hmem]
  congr 1
  ext u
  by_cases hu : u = vc
  · subst hu
    simp
  · simp [hu]

theorem openCount_keep {next : PacketPhase} (hopen : phase vc ≠ .noPacket)
    (hnext : next ≠ .noPacket) : openCount (Function.update phase vc next) = openCount phase := by
  rw [openCount, openCount]
  congr 1
  ext u
  by_cases hu : u = vc
  · subst hu
    simp [hnext, hopen]
  · simp [hu]

theorem openCount_sent (hopen : phase vc ≠ .noPacket) (tail : Bool) :
    openCount (Function.update phase vc (if tail then .noPacket else .partlySent)) =
      LimitedSharedBufferPolicy.openAfter (openCount phase) tail := by
  cases tail with
  | false => exact openCount_keep hopen nofun
  | true => exact openCount_close hopen

end OpenCount

/-- The private buffers are equal shares of a buffer of a size. -/
structure PrivateBufferPolicy.Fits (p : PrivateBufferPolicy) (vcs : Nat) (size : Int) : Prop where
  pos : 0 < p.vcBufSize
  full : p.fullVcBufSize = p.vcBufSize
  share : ∀ _ : Fin vcs, size / vcs = p.vcBufSize
  le_size : vcs * p.vcBufSize ≤ size

namespace CreditLink

/-! ### What a policy must have on record -/

/-- What a virtual channel may come to hold under the private policy. -/
def ceiling (link : CreditLink vcs) (p : PrivateBufferPolicy) (vc : Fin vcs) : Int :=
  if link.Usable vc then p.vcBufSize else link.buffer.vcOccupancy vc

/-- The private policy: the buffer has room for all that may still be sent. -/
structure PrivateRoom (link : CreditLink vcs) (p : PrivateBufferPolicy) : Prop where
  fits : p.Fits vcs link.buffer.size
  room : ∀ vc, link.Usable vc → link.buffer.drift + ∑ u, link.ceiling p u ≤ link.buffer.size
  bound : ∀ vc u, link.Usable vc → link.Usable u → vc ≠ u →
    link.buffer.vcOccupancy u ≤ p.vcBufSize

/-- A policy that shares slots: its records cover the outstanding flits and the
reservations, and what else they cover makes up for the drift. -/
structure SharedRoom (link : CreditLink vcs) {L : SharedLayout vcs} (p : SharedBufferPolicy L)
    (ext : SharedExtension vcs) : Prop where
  size : link.buffer.size = L.bufSize
  balanced : p.Balanced
  covered : ∀ i, 0 ≤ p.unaccounted link.buffer.vcOccupancy i
  room : ∀ vc, link.Usable vc →
    link.buffer.drift ≤ ∑ i, p.unaccounted link.buffer.vcOccupancy i
  records : ext.Sound L.bufSize (openCount link.phase) link.buffer.vcOccupancy

/-- The records of the policy, whichever it is. -/
def Room (link : CreditLink vcs) : Prop :=
  match link.buffer.policy with
  | .privateBuffer p => link.PrivateRoom p
  | .sharedBuffer _ p ext => link.SharedRoom p ext

structure Sound (link : CreditLink vcs) : Prop where
  disciplined : link.Disciplined
  room : link.Room

end CreditLink

theorem SharedLayout.bufSize_nonneg (L : SharedLayout vcs) : 0 ≤ L.bufSize :=
  (Finset.sum_nonneg fun i _ => L.privateBufSize_nonneg i).trans L.sum_le_bufSize

namespace SharedBufferPolicy

variable {L : SharedLayout vcs} {p : SharedBufferPolicy L} {occupancy : Fin vcs → Int}

theorem sum_unaccounted :
    ∑ i, p.unaccounted occupancy i =
      ∑ i, p.privateBufOccupancy i - (∑ vc, occupancy vc + ∑ vc, (p.reservedSlots vc : Int)) := by
  rw [← Finset.sum_add_distrib, ← Pool.sum_held L.privateBufVcMap, ← Finset.sum_sub_distrib]
  rfl

/-- The slots on record fit into the buffer. -/
theorem Balanced.sum_unaccounted_le (hbal : p.Balanced) :
    ∑ i, p.unaccounted occupancy i + ∑ vc, occupancy vc ≤ L.bufSize := by
  have hsum := hbal.sum_le
  have hres : 0 ≤ ∑ vc, (p.reservedSlots vc : Int) :=
    Finset.sum_nonneg fun vc _ => Int.natCast_nonneg _
  rw [sum_unaccounted]
  omega

/-- A virtual channel's slots are on record with its private buffer. -/
theorem slots_le (hcovered : ∀ i, 0 ≤ p.unaccounted occupancy i) (hocc : ∀ vc, 0 ≤ occupancy vc)
    (vc : Fin vcs) :
    occupancy vc + p.reservedSlots vc ≤ p.privateBufOccupancy (L.privateBufVcMap vc) := by
  have hheld := Pool.le_held L.privateBufVcMap
    (f := fun vc => occupancy vc + (p.reservedSlots vc : Int))
    (fun vc => Int.add_nonneg (hocc vc) (Int.natCast_nonneg _)) vc
  have hleft := hcovered (L.privateBufVcMap vc)
  rw [unaccounted] at hleft
  omega

end SharedBufferPolicy

namespace CreditLink

open BufferState LimitedSharedBufferPolicy

variable {s s' : BufferState vcs} {phase phase' : Fin vcs → PacketPhase} {vc : Fin vcs}

/-! ### Room is kept -/

theorem PrivateRoom.of_change {p : PrivateBufferPolicy} (h : PrivateRoom ⟨s, phase⟩ p)
    (hsize : s'.size = s.size) (hdrift : s'.drift = s.drift)
    (husable : ∀ u, Usable ⟨s', phase'⟩ u ↔ Usable ⟨s, phase⟩ u)
    (hocc : ∀ u, s'.vcOccupancy u ≤ s.vcOccupancy u ∨
      Usable ⟨s, phase⟩ u ∧ s'.vcOccupancy u ≤ p.vcBufSize) :
    PrivateRoom ⟨s', phase'⟩ p where
  fits := by
    dsimp only
    rw [hsize]
    exact h.fits
  room u hu := by
    dsimp only
    have hroom := h.room u ((husable u).mp hu)
    have hle : ∑ v, ceiling ⟨s', phase'⟩ p v ≤ ∑ v, ceiling ⟨s, phase⟩ p v := by
      apply Finset.sum_le_sum
      intro v _
      rw [ceiling, ceiling]
      by_cases hv : Usable ⟨s, phase⟩ v
      · rw [if_pos hv, if_pos ((husable v).mpr hv)]
      · rw [if_neg hv, if_neg (mt (husable v).mp hv)]
        exact (hocc v).resolve_right fun hv' => hv hv'.1
    rw [hdrift, hsize]
    dsimp only at hroom
    omega
  bound v u hv hu hne := by
    rcases hocc u with hless | ⟨-, hle⟩
    · exact hless.trans (h.bound v u ((husable v).mp hv) ((husable u).mp hu) hne)
    · exact hle

theorem PrivateRoom.occupancy_lt {p : PrivateBufferPolicy} (h : PrivateRoom ⟨s, phase⟩ p)
    (husable : Usable ⟨s, phase⟩ vc) (hless : s.vcOccupancy vc < p.vcBufSize) :
    s.occupancy + 1 ≤ s.size := by
  have hroom := h.room vc husable
  have hlt : ∑ u, s.vcOccupancy u < ∑ u, ceiling ⟨s, phase⟩ p u := by
    apply Finset.sum_lt_sum
    · intro u _
      rw [ceiling]
      split
      next hu =>
        by_cases huv : vc = u
        · exact huv ▸ hless.le
        · exact h.bound vc u husable hu huv
      next => exact le_rfl
    · refine ⟨vc, Finset.mem_univ vc, ?_⟩
      rw [ceiling, if_pos husable]
      exact hless
  rw [BufferState.drift] at hroom
  dsimp only at hroom
  omega

variable {L : SharedLayout vcs} {p p' : SharedBufferPolicy L} {ext ext' : SharedExtension vcs}

theorem SharedRoom.of_change {d : Int} (h : SharedRoom ⟨s, phase⟩ p ext)
    (hsize : s'.size = s.size) (hdrift : s'.drift = s.drift)
    (husable : ∀ u, Usable ⟨s', phase'⟩ u ↔ Usable ⟨s, phase⟩ u)
    (hocc : s'.vcOccupancy = Function.update s.vcOccupancy vc (s.vcOccupancy vc + d))
    (hchange : p.SlotChange p' vc d)
    (hrecords : ext'.Sound L.bufSize (openCount phase') s'.vcOccupancy) :
    SharedRoom ⟨s', phase'⟩ p' ext' := by
  have heq : p'.unaccounted s'.vcOccupancy = p.unaccounted s.vcOccupancy := by
    rw [hocc]
    exact hchange.unaccounted_eq s.vcOccupancy
  constructor
  case size => exact hsize.trans h.size
  case balanced => exact hchange.balanced h.balanced
  case covered =>
    intro i
    dsimp only
    rw [heq]
    exact h.covered i
  case room =>
    intro u hu
    dsimp only
    rw [heq, hdrift]
    exact h.room u ((husable u).mp hu)
  case records => exact hrecords

theorem SharedRoom.occupancy_lt (h : SharedRoom ⟨s, phase⟩ p ext) (husable : Usable ⟨s, phase⟩ vc)
    (hroom : p.isFullFor vc = false) : s.occupancy + 1 ≤ s.size := by
  obtain ⟨q, hq⟩ := SharedBufferPolicy.exists_occupySlot hroom
  obtain ⟨hchange, -⟩ := SharedBufferPolicy.occupySlot_ok hq
  -- the slot for the flit is in the buffer, and the flit is counted with it
  have hle : ∑ i, q.unaccounted (Function.update s.vcOccupancy vc (s.vcOccupancy vc + 1)) i +
      ∑ u, Function.update s.vcOccupancy vc (s.vcOccupancy vc + 1) u ≤ L.bufSize :=
    (hchange.balanced h.balanced).sum_unaccounted_le
  rw [hchange.unaccounted_eq] at hle
  have hdrift := h.room vc husable
  have hsame : (s.sent vc false).drift = s.drift := drift_sent false
  rw [← hsame] at hdrift
  rw [BufferState.drift] at hdrift
  have hsize := h.size
  dsimp only [BufferState.sent] at hdrift hsize
  omega

theorem Room.ofPrivate {p : PrivateBufferPolicy} (h : Room ⟨s, phase⟩)
    (hpolicy : s.policy = .privateBuffer p) : PrivateRoom ⟨s, phase⟩ p := by
  rw [Room, hpolicy] at h
  exact h

theorem Room.ofShared (h : Room ⟨s, phase⟩) (hpolicy : s.policy = .sharedBuffer L p ext) :
    SharedRoom ⟨s, phase⟩ p ext := by
  rw [Room, hpolicy] at h
  exact h

theorem PrivateRoom.toRoom {p : PrivateBufferPolicy} (h : PrivateRoom ⟨s, phase⟩ p)
    (hpolicy : s.policy = .privateBuffer p) : Room ⟨s, phase⟩ := by
  rw [Room, hpolicy]
  exact h

theorem SharedRoom.toRoom (h : SharedRoom ⟨s, phase⟩ p ext)
    (hpolicy : s.policy = .sharedBuffer L p ext) : Room ⟨s, phase⟩ := by
  rw [Room, hpolicy]
  exact h

theorem update_add_zero (s : BufferState vcs) (vc : Fin vcs) :
    Function.update s.vcOccupancy vc (s.vcOccupancy vc + 0) = s.vcOccupancy := by
  rw [Int.add_zero, Function.update_eq_self]

/-! ### The operations of the sender -/

theorem Sound.exists_credit (h : Sound ⟨s, phase⟩) (hocc : 0 < s.vcOccupancy vc) (time : Int) :
    ∃ s', s.processCreditFor time vc = .ok s' ∧ Sound ⟨s', phase⟩ := by
  have hdisc := h.disciplined
  have hle : s.vcOccupancy vc ≤ s.occupancy := hdisc.vcOccupancy_le vc
  have husable := usable_credited hdisc hocc
  obtain ⟨policy, hpolicy, hroom⟩ : ∃ policy,
      s.policy.freeSlotFor ((s.credited vc).isAvailableFor vc) ((s.credited vc).isEmptyFor vc)
        time vc = .ok policy ∧ Room ⟨(s.credited vc).withPolicy policy, phase⟩ := by
    cases hp : s.policy with
    | privateBuffer p =>
        refine ⟨.privateBuffer p, rfl, ?_⟩
        have hprivate := h.room.ofPrivate hp
        refine PrivateRoom.of_change hprivate rfl drift_credited (husable _) fun u => .inl ?_
        dsimp only [withPolicy, BufferState.credited]
        by_cases hu : u = vc
        · subst hu
          rw [Function.update_self]
          omega
        · rw [Function.update_of_ne hu]
    | sharedBuffer L p ext =>
        have hshared := h.room.ofShared hp
        have hslots := SharedBufferPolicy.slots_le hshared.covered hdisc.nonneg vc
        dsimp only at hslots
        have hpos : 0 < p.privateBufOccupancy (L.privateBufVcMap vc) := by omega
        obtain ⟨p', hp'⟩ : ∃ p', p.freeSlotFor ((s.credited vc).isAvailableFor vc)
            ((s.credited vc).isEmptyFor vc) vc = .ok p' :=
          SharedBufferPolicy.exists_freeSlotFor hshared.balanced hpos
        obtain ⟨ext', hext', hrecords⟩ :=
          SharedExtension.exists_freeSlotFor hshared.records time vc hocc
        refine ⟨.sharedBuffer L p' ext', bind_ok.mpr ⟨p', hp', bind_ok.mpr ⟨ext', hext', rfl⟩⟩, ?_⟩
        exact SharedRoom.of_change hshared rfl drift_credited (husable _) rfl
          (SharedBufferPolicy.freeSlotFor_ok hp').1 hrecords
  refine ⟨_, processCreditFor_ok.mpr ⟨?_, by omega, hocc, ?_, policy, hpolicy, rfl⟩,
    hdisc.credited hocc policy, hroom⟩
  · rintro ⟨hwait, havail⟩
    have hused : s.isAvailableFor vc = false := hdisc.pending hwait vc hocc
    rw [hused] at havail
    cases havail
  · intro hreleases
    rw [releases, Bool.and_eq_true, Bool.and_eq_true] at hreleases
    exact hdisc.pending hreleases.1.1 vc hocc

theorem Sound.exists_sendingFlit (h : Sound ⟨s, phase⟩) (hopen : Open ⟨s, phase⟩ vc) (time : Int)
    (hroom : s.isFullFor time vc = false) (tail : Bool) :
    ∃ s', s.sendingFlit time vc tail = .ok s' ∧
      Sound ⟨s', Function.update phase vc (if tail then .noPacket else .partlySent)⟩ := by
  have hdisc := h.disciplined
  have husable : Usable ⟨s, phase⟩ vc := .inr (.inl hopen)
  have hsame := usable_sent hdisc hopen tail
  have hnonneg : 0 ≤ s.vcOccupancy vc := hdisc.nonneg vc
  obtain ⟨hsize, policy, hpolicy, hroom⟩ : s.occupancy + 1 ≤ s.size ∧ ∃ policy,
      s.policy.sendingFlit (s.vcOccupancy vc + 1) time vc tail = .ok policy ∧
        Room ⟨(s.sent vc tail).withPolicy policy,
          Function.update phase vc (if tail then .noPacket else .partlySent)⟩ := by
    cases hp : s.policy with
    | privateBuffer p =>
        have hprivate := h.room.ofPrivate hp
        rw [isFullFor, hp] at hroom
        have hless : s.vcOccupancy vc < p.vcBufSize := by
          have := of_decide_eq_false hroom
          omega
        refine ⟨hprivate.occupancy_lt husable hless, .privateBuffer p,
          bind_ok.mpr ⟨p, ensure_bind_ok.mpr ⟨by omega, rfl⟩, rfl⟩, ?_⟩
        refine PrivateRoom.of_change hprivate rfl (drift_sent tail) (hsame _) fun u => ?_
        dsimp only [withPolicy, BufferState.sent]
        by_cases hu : u = vc
        · subst hu
          rw [Function.update_self]
          exact .inr ⟨husable, by omega⟩
        · rw [Function.update_of_ne hu]
          exact .inl le_rfl
    | sharedBuffer L p ext =>
        have hshared := h.room.ofShared hp
        rw [isFullFor, hp] at hroom
        have hspace : p.isFullFor vc = false := (Bool.or_eq_false_iff.mp hroom).1
        have hslots := SharedBufferPolicy.slots_le hshared.covered hdisc.nonneg vc
        dsimp only at hslots
        obtain ⟨p', hp'⟩ : ∃ p', p.sendingFlit vc tail = .ok p' :=
          SharedBufferPolicy.exists_sendingFlit hshared.balanced hspace (by omega)
        obtain ⟨ext', hext', hrecords⟩ := SharedExtension.exists_sendingFlit hshared.records
          L.bufSize_nonneg (openCount_pos hopen) time vc hnonneg tail
        rw [← openCount_sent hopen tail] at hrecords
        refine ⟨hshared.occupancy_lt husable hspace, .sharedBuffer L p' ext',
          bind_ok.mpr ⟨p', hp', bind_ok.mpr ⟨ext', hext', rfl⟩⟩, ?_⟩
        exact SharedRoom.of_change hshared rfl (drift_sent tail) (hsame _) rfl
          (SharedBufferPolicy.sendingFlit_ok hp').1 hrecords
  refine ⟨_, sendingFlit_ok.mpr ⟨hsize, ?_, policy, hpolicy, rfl⟩,
    hdisc.sent hopen tail policy, hroom⟩
  intro _
  exact hdisc.owned vc hopen

/-- A dynamic policy lets one more virtual channel be taken. -/
def TakesOneMore (link : CreditLink vcs) : Prop :=
  match link.buffer.policy with
  | .privateBuffer _ => True
  | .sharedBuffer L _ ext => ext.TakesOneMore L.bufSize

theorem Sound.exists_takeBuffer (h : Sound ⟨s, phase⟩) (havail : s.isAvailableFor vc = true)
    (htakes : TakesOneMore ⟨s, phase⟩) (tag : Nat) :
    ∃ s', s.takeBuffer vc tag = .ok s' ∧ Sound ⟨s', Function.update phase vc .taken⟩ := by
  have hdisc := h.disciplined
  have hclosed : phase vc = .noPacket := by
    by_contra hopen
    have hused : s.isAvailableFor vc = false := hdisc.owned vc hopen
    rw [hused] at havail
    cases havail
  obtain ⟨policy, hpolicy, hroom⟩ : ∃ policy, s.policy.takeBuffer = .ok policy ∧
      Room ⟨(s.owned vc (some tag)).withPolicy policy, Function.update phase vc .taken⟩ := by
    cases hp : s.policy with
    | privateBuffer p =>
        refine ⟨.privateBuffer p, rfl, ?_⟩
        exact PrivateRoom.of_change (h.room.ofPrivate hp) rfl rfl (usable_take havail tag _)
          fun u => .inl le_rfl
    | sharedBuffer L p ext =>
        have hshared := h.room.ofShared hp
        rw [TakesOneMore, hp] at htakes
        obtain ⟨ext', hext', hrecords⟩ := SharedExtension.exists_takeBuffer hshared.records
          (openCount_lt hclosed) htakes
        have hcount : openCount (Function.update phase vc .taken) = openCount phase + 1 :=
          openCount_open hclosed nofun
        rw [← hcount] at hrecords
        refine ⟨.sharedBuffer L p ext', bind_ok.mpr ⟨ext', hext', rfl⟩, ?_⟩
        exact SharedRoom.of_change hshared rfl rfl (usable_take havail tag _) (update_add_zero s vc).symm
          (.refl p vc) hrecords
  exact ⟨_, takeBuffer_ok.mpr ⟨havail, policy, hpolicy, rfl⟩, hdisc.take havail tag policy, hroom⟩

theorem Sound.exists_returnBuffer (h : Sound ⟨s, phase⟩) (htaken : phase vc = .taken) :
    ∃ s', s.returnBuffer vc = .ok s' ∧ Sound ⟨s', Function.update phase vc .noPacket⟩ := by
  have hdisc := h.disciplined
  have hopen : Open ⟨s, phase⟩ vc := by
    intro hclosed
    exact PacketPhase.noConfusion (htaken.symm.trans hclosed)
  have hsame := usable_giveBack hopen
  obtain ⟨policy, hpolicy, hroom⟩ : ∃ policy, s.policy.returnBuffer = .ok policy ∧
      Room ⟨(s.owned vc none).withPolicy policy, Function.update phase vc .noPacket⟩ := by
    cases hp : s.policy with
    | privateBuffer p =>
        refine ⟨.privateBuffer p, rfl, ?_⟩
        exact PrivateRoom.of_change (h.room.ofPrivate hp) rfl rfl (hsame _) fun u => .inl le_rfl
    | sharedBuffer L p ext =>
        have hshared := h.room.ofShared hp
        obtain ⟨ext', hext', hrecords⟩ := SharedExtension.exists_returnBuffer hshared.records
          L.bufSize_nonneg (openCount_pos hopen)
        rw [← openCount_close hopen] at hrecords
        refine ⟨.sharedBuffer L p ext', bind_ok.mpr ⟨ext', hext', rfl⟩, ?_⟩
        exact SharedRoom.of_change hshared rfl rfl (hsame _) (update_add_zero s vc).symm
          (.refl p vc) hrecords
  exact ⟨_, returnBuffer_ok.mpr ⟨hdisc.owned vc hopen, policy, hpolicy, rfl⟩,
    hdisc.giveBack htaken policy, hroom⟩

end CreditLink

end Flyover
