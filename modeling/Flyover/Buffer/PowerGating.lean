import Flyover.Buffer.Room

/-!
# Power gating and the records of the policies

`ClearCredits`, `FullCredits` and `FillCredits` set the counters of the buffer
state and leave the records of the policy alone. What the policy has on record
still covers what the buffer state counts in every run in which no packet is
open when the credits are restored, and in which the credits are cleared only
where the policy's own slots allow it. In such a run no error is raised.
-/

namespace Flyover

variable {vcs : Nat}

namespace CreditLink

open BufferState

variable {s s' : BufferState vcs} {phase : Fin vcs → PacketPhase} {vc : Fin vcs}
  {L : SharedLayout vcs} {p : SharedBufferPolicy L} {ext : SharedExtension vcs}

/-! ### The power-gating operations -/

/-- The slots that `ClearCredits` adds to the occupancy of each virtual channel. -/
def share (link : CreditLink vcs) : Int := link.buffer.size / vcs

/-- A virtual channel that can be used after `ClearCredits`. -/
def UsableAfterClear (link : CreditLink vcs) (vc : Fin vcs) : Prop :=
  link.Open vc ∨
    (link.buffer.waitForTailCredit = true ∧ 0 < link.buffer.vcOccupancy vc + link.share)

/-- The credits can be cleared: no packet loses its virtual channel to the tail
of another, and the policy has room on record for what the counters add. -/
structure Clearable (link : CreditLink vcs) : Prop where
  closed : link.buffer.waitForTailCredit = true → ∀ vc, ¬ link.Open vc
  records :
    match link.buffer.policy with
    | .privateBuffer _ => ∀ vc, link.UsableAfterClear vc →
        link.buffer.occupancy = link.buffer.vcOccupancy vc
    | .sharedBuffer L p ext =>
        (∀ i, Pool.held L.privateBufVcMap (fun _ => link.share) i ≤
          p.unaccounted link.buffer.vcOccupancy i) ∧
        (∀ vc, link.UsableAfterClear vc → link.buffer.drift + link.buffer.size ≤
          ∑ i, p.unaccounted link.buffer.vcOccupancy i) ∧
        ext.Sound L.bufSize (openCount link.phase) fun vc =>
          link.buffer.vcOccupancy vc + link.share

theorem drift_clearCredits :
    s.clearCredits.drift = s.drift + (s.size - vcs * (s.size / vcs)) := by
  rw [drift, drift]
  dsimp only [clearCredits]
  rw [Finset.sum_add_distrib, Finset.sum_const, Finset.card_univ, Fintype.card_fin, nsmul_eq_mul]
  omega

theorem usable_clearCredits (u : Fin vcs) :
    Usable ⟨s.clearCredits, phase⟩ u ↔ UsableAfterClear ⟨s, phase⟩ u := by
  constructor
  · rintro (havail | hmore)
    · cases havail
    · exact hmore
  · exact .inr

theorem unaccounted_add (p : SharedBufferPolicy L) (occupancy more : Fin vcs → Int)
    (i : Fin L.privateBufs) :
    p.unaccounted (fun vc => occupancy vc + more vc) i =
      p.unaccounted occupancy i - Pool.held L.privateBufVcMap more i := by
  rw [SharedBufferPolicy.unaccounted, SharedBufferPolicy.unaccounted, Pool.held, Pool.held,
    Pool.held, Int.sub_sub, ← Finset.sum_add_distrib]
  congr 1
  apply Finset.sum_congr rfl
  intro vc _
  omega

theorem Room.size_nonneg (h : Room ⟨s, phase⟩) : 0 ≤ s.size := by
  cases hp : s.policy with
  | privateBuffer p =>
      have hprivate := h.ofPrivate hp
      exact (Int.mul_nonneg (Int.natCast_nonneg vcs) hprivate.fits.pos.le).trans hprivate.fits.le_size
  | sharedBuffer L p ext => exact L.bufSize_nonneg.trans_eq (h.ofShared hp).size.symm

theorem PrivateRoom.of_empty {p : PrivateBufferPolicy} (hfits : p.Fits vcs s.size)
    (hdrift : s.drift ≤ s.size - vcs * p.vcBufSize)
    (hless : ∀ vc u, Usable ⟨s, phase⟩ vc → u ≠ vc → s.vcOccupancy u ≤ p.vcBufSize) :
    PrivateRoom ⟨s, phase⟩ p where
  fits := hfits
  room vc hvc := by
    have hsum : ∑ u, ceiling ⟨s, phase⟩ p u ≤ vcs * p.vcBufSize := by
      have hle : ∀ u ∈ Finset.univ, ceiling ⟨s, phase⟩ p u ≤ p.vcBufSize := by
        intro u _
        rw [ceiling]
        split
        next => exact le_rfl
        next hu =>
          apply hless vc u hvc
          rintro rfl
          exact hu hvc
      simpa using Finset.sum_le_card_nsmul _ _ _ hle
    dsimp only
    omega
  bound vc u hvc _ hne := hless vc u hvc (Ne.symm hne)

theorem PrivateRoom.clearCredits {p : PrivateBufferPolicy} (h : PrivateRoom ⟨s, phase⟩ p)
    (hcounted : s.Counted)
    (honly : ∀ vc, UsableAfterClear ⟨s, phase⟩ vc → s.occupancy = s.vcOccupancy vc) :
    PrivateRoom ⟨s.clearCredits, phase⟩ p := by
  by_cases hvc : ∃ vc, UsableAfterClear ⟨s, phase⟩ vc
  · obtain ⟨vc, hvc⟩ := hvc
    have hq : s.size / vcs = p.vcBufSize := h.fits.share vc
    apply PrivateRoom.of_empty (show p.Fits vcs s.clearCredits.size from h.fits)
    · rw [drift_clearCredits, (hcounted.only_holder (honly vc hvc)).1, hq, Int.zero_add]
      exact le_rfl
    · intro v u hv hu
      have hv' := (usable_clearCredits v).mp hv
      have hzero := (hcounted.only_holder (honly v hv')).2 u hu
      show s.vcOccupancy u + s.size / vcs ≤ p.vcBufSize
      rw [hzero, hq, Int.zero_add]
  · -- nothing can be sent until the credits are restored
    have hnone : ∀ u, ¬ Usable ⟨s.clearCredits, phase⟩ u := fun u hu =>
      hvc ⟨u, (usable_clearCredits u).mp hu⟩
    exact {
      fits := h.fits
      room := fun u hu => absurd hu (hnone u)
      bound := fun u _ hu => absurd hu (hnone u) }

theorem SharedRoom.clearCredits (h : SharedRoom ⟨s, phase⟩ p ext)
    (hcovered : ∀ i, Pool.held L.privateBufVcMap (fun _ => s.size / vcs) i ≤
      p.unaccounted s.vcOccupancy i)
    (hroom : ∀ vc, UsableAfterClear ⟨s, phase⟩ vc →
      s.drift + s.size ≤ ∑ i, p.unaccounted s.vcOccupancy i)
    (hrecords : ext.Sound L.bufSize (openCount phase) fun vc => s.vcOccupancy vc + s.size / vcs) :
    SharedRoom ⟨s.clearCredits, phase⟩ p ext where
  size := h.size
  balanced := h.balanced
  covered i := by
    have hi := hcovered i
    show 0 ≤ p.unaccounted (fun vc => s.vcOccupancy vc + s.size / vcs) i
    rw [unaccounted_add]
    omega
  room vc hvc := by
    have hle := hroom vc ((usable_clearCredits vc).mp hvc)
    show s.clearCredits.drift ≤
      ∑ i, p.unaccounted (fun vc => s.vcOccupancy vc + s.size / vcs) i
    rw [drift_clearCredits, Finset.sum_congr rfl fun i _ => unaccounted_add p _ _ i,
      Finset.sum_sub_distrib, Pool.sum_held, Finset.sum_const, Finset.card_univ, Fintype.card_fin,
      nsmul_eq_mul]
    omega
  records := hrecords

theorem disciplined_clearCredits (hcounted : s.Counted) (hsize : 0 ≤ s.size)
    (hclosed : s.waitForTailCredit = true → ∀ vc, ¬ Open ⟨s, phase⟩ vc) :
    Disciplined ⟨s.clearCredits, phase⟩ where
  nonneg vc := Int.add_nonneg (hcounted.nonneg vc) (Int.ediv_nonneg hsize (Int.natCast_nonneg vcs))
  drift := by
    have hrest : vcs * (s.size / vcs) ≤ s.size := by
      by_cases hvcs : (vcs : Int) = 0
      · rw [hvcs, Int.zero_mul]
        exact hsize
      · exact Int.mul_ediv_self_le hvcs
    have hdrift := hcounted.drift
    dsimp only
    rw [drift_clearCredits]
    omega
  owned _ _ := rfl
  pending _ _ _ := rfl
  tail hwait vc hopen := absurd hopen (hclosed hwait vc)
  closed _ _ _ _ := rfl
  fresh hwait vc htaken := by
    have hopen : Open ⟨s, phase⟩ vc := fun hclosed =>
      PacketPhase.noConfusion (htaken.symm.trans hclosed)
    exact absurd hopen (hclosed hwait vc)

theorem Sound.clearCredits (h : Sound ⟨s, phase⟩) (hclear : Clearable ⟨s, phase⟩) :
    Sound ⟨s.clearCredits, phase⟩ where
  disciplined :=
    disciplined_clearCredits h.disciplined.toCounted h.room.size_nonneg hclear.closed
  room := by
    have hrecords := hclear.records
    cases hp : s.policy with
    | privateBuffer p =>
        dsimp only at hrecords
        rw [hp] at hrecords
        exact ((h.room.ofPrivate hp).clearCredits h.disciplined.toCounted hrecords).toRoom hp
    | sharedBuffer L p ext =>
        dsimp only at hrecords
        rw [hp] at hrecords
        obtain ⟨hcovered, hroom, hsound⟩ := hrecords
        exact ((h.room.ofShared hp).clearCredits hcovered hroom hsound).toRoom hp

theorem drift_of_zero (hocc : s.occupancy = 0) (hvcs : s.vcOccupancy = fun _ => 0) :
    s.drift = 0 := by
  rw [drift, hocc, hvcs, Finset.sum_const_zero, Int.sub_zero]

/-- Restored counters leave room, whatever the policy has on record. -/
theorem Room.restored (h : Room ⟨s, phase⟩) (hdisc : Disciplined ⟨s, phase⟩)
    (hsize : s'.size = s.size) (hocc : s'.occupancy = 0) (hvcs : s'.vcOccupancy = fun _ => 0)
    (hpolicy : s'.policy = s.policy.resetVCBufferSize) : Room ⟨s', phase⟩ := by
  have hdrift := drift_of_zero hocc hvcs
  rw [Room, hpolicy]
  cases hp : s.policy with
  | privateBuffer p =>
      have hprivate := h.ofPrivate hp
      have hreset : p.resetVCBufferSize = p := by
        cases p with
        | mk vcBufSize fullVcBufSize => exact congrArg (PrivateBufferPolicy.mk · _) hprivate.fits.full
      show PrivateRoom ⟨s', phase⟩ p.resetVCBufferSize
      rw [hreset]
      have hfits : p.Fits vcs s'.size := by
        rw [hsize]
        exact hprivate.fits
      apply PrivateRoom.of_empty hfits
      · have := hfits.le_size
        omega
      · intro vc u _ _
        rw [hvcs]
        exact hfits.pos.le
  | sharedBuffer L p ext =>
      have hshared := h.ofShared hp
      have hnonneg : ∀ u, 0 ≤ s.vcOccupancy u := hdisc.nonneg
      have hcovered : ∀ i, 0 ≤ p.unaccounted s'.vcOccupancy i := by
        intro i
        have hi := hshared.covered i
        have hheld := Pool.held_nonneg L.privateBufVcMap hnonneg i
        have hadd := unaccounted_add p s'.vcOccupancy s.vcOccupancy i
        have hzero : (fun vc => s'.vcOccupancy vc + s.vcOccupancy vc) = s.vcOccupancy := by
          funext vc
          rw [hvcs, Int.zero_add]
        rw [hzero] at hadd
        dsimp only at hi
        omega
      show SharedRoom ⟨s', phase⟩ p ext
      constructor
      case size => exact hsize.trans hshared.size
      case balanced => exact hshared.balanced
      case covered => exact hcovered
      case room =>
        intro _ _
        dsimp only
        rw [hdrift]
        exact Finset.sum_nonneg fun i _ => hcovered i
      case records =>
        apply hshared.records.mono
        intro vc
        dsimp only
        rw [hvcs]
        exact hnonneg vc

theorem Sound.fullCredits (h : Sound ⟨s, phase⟩) (hclosed : ∀ vc, ¬ Open ⟨s, phase⟩ vc) :
    Sound ⟨s.fullCredits, phase⟩ where
  room := h.room.restored h.disciplined rfl rfl rfl rfl
  disciplined := {
    nonneg := fun _ => le_rfl
    drift := (drift_of_zero rfl rfl).ge
    owned := fun vc hopen => absurd hopen (hclosed vc)
    pending := fun _ _ hpos => absurd hpos (Int.lt_irrefl 0)
    tail := fun _ _ _ => rfl
    closed := fun _ _ hused => Bool.noConfusion hused
    fresh := fun _ _ _ => rfl }

theorem Sound.fillCredits (h : Sound ⟨s, phase⟩) : Sound ⟨s.fillCredits, phase⟩ where
  room := h.room.restored h.disciplined rfl rfl rfl rfl
  disciplined := {
    nonneg := fun _ => le_rfl
    drift := (drift_of_zero rfl rfl).ge
    owned := h.disciplined.owned
    pending := fun _ _ hpos => absurd hpos (Int.lt_irrefl 0)
    tail := h.disciplined.tail
    closed := h.disciplined.closed
    fresh := fun _ _ _ => rfl }

/-! ### Runs -/

/-- An operation that keeps the policy in step with the buffer state. -/
def KeepsInStep (link : CreditLink vcs) : CreditOp vcs → Prop
  | .takeBuffer _ _ => link.TakesOneMore
  | .clearCredits => link.Clearable
  | .fullCredits => ∀ vc, ¬ link.Open vc
  | _ => True

theorem Sound.exists_step {link : CreditLink vcs} (h : link.Sound) {op : CreditOp vcs}
    (hguard : link.Guarded op) (hkeeps : link.KeepsInStep op) :
    ∃ next, link.step op = .ok next ∧ next.Sound := by
  cases link with
  | mk s phase =>
      have hstep : ∃ s', s.perform op = .ok s' ∧ Sound ⟨s', nextPhase phase op⟩ := by
        cases op with
        | takeBuffer vc tag => exact h.exists_takeBuffer hguard hkeeps tag
        | sendingFlit time vc tail => exact h.exists_sendingFlit hguard.1 time hguard.2 tail
        | returnBuffer vc => exact h.exists_returnBuffer hguard
        | processCredit time credits =>
            exact exists_processCredit (fun t vc ht hocc => ht.exists_credit hocc time) hguard.1
              hguard.2 h
        | clearCredits => exact ⟨_, rfl, h.clearCredits hkeeps⟩
        | fullCredits => exact ⟨_, rfl, h.fullCredits hkeeps⟩
        | fillCredits => exact ⟨_, rfl, h.fillCredits⟩
      obtain ⟨s', hs', hsound⟩ := hstep
      exact ⟨_, step_ok.mpr ⟨hs', rfl⟩, hsound⟩

theorem Reaches.sound {start link : CreditLink vcs} (hreach : Reaches KeepsInStep start link)
    (hstart : start.Sound) : link.Sound := by
  induction hreach with
  | refl => exact hstart
  | step _ _ hguard hkeeps hstep ih =>
      obtain ⟨next, hnext, hsound⟩ := ih.exists_step hguard hkeeps
      rw [hstep] at hnext
      obtain rfl := Except.ok.inj hnext
      exact hsound

end CreditLink

/-! ### The configuration -/

/-- The size of the whole buffer holds the private buffers. A policy that shares
slots takes its slots from that size; the private policy takes them from
`vc_buf_size` if `buf_size` is zero, and then the whole has no room for them. -/
def PolicyConfig.Fits {config : BufferConfig vcs} : PolicyConfig config → Prop
  | .privateBuffer _ => config.bufSize ≠ 0
  | .sharedBuffer _ _ _ => True

theorem BufferConfig.fits {config : BufferConfig vcs} (hpos : 0 < config.privateVcBufSize)
    (hsize : config.bufSize ≠ 0) :
    PrivateBufferPolicy.Fits ⟨config.privateVcBufSize, config.privateVcBufSize⟩ vcs
      config.size where
  pos := hpos
  full := rfl
  share vc := by
    have hvcs : (vcs : Int) ≠ 0 := by
      have := vc.pos
      omega
    rw [size, privateVcBufSize]
    by_cases hneg : config.bufSize < 0
    · rw [if_pos hneg, if_pos hneg.le]
      exact Int.mul_ediv_cancel_left _ hvcs
    · rw [if_neg hneg, if_neg (by omega)]
  le_size := by
    rw [size, privateVcBufSize]
    by_cases hneg : config.bufSize < 0
    · rw [if_pos hneg, if_pos hneg.le]
    · rw [if_neg hneg, if_neg (by omega)]
      by_cases hvcs : (vcs : Int) = 0
      · rw [hvcs, Int.zero_mul]
        omega
      · exact Int.mul_ediv_self_le hvcs

theorem SharedPolicyName.sound_new (bufSize : Int) (name : SharedPolicyName) :
    (name.new bufSize : SharedExtension vcs).Sound bufSize 0 fun _ => 0 := by
  cases name with
  | shared => trivial
  | limited maxHeldSlots => rfl
  | dynamic => exact ⟨rfl, fun h => absurd h (Nat.lt_irrefl 0), fun h => absurd h (Nat.lt_irrefl 0)⟩
  | shifting =>
      exact ⟨rfl, fun h => absurd h (Nat.lt_irrefl 0), fun h => absurd h (Nat.lt_irrefl 0)⟩
  | feedback config => exact fun _ => le_rfl
  | simpleFeedback config => exact fun _ hpos => absurd hpos (Int.lt_irrefl 0)

namespace CreditLink

variable {config : BufferConfig vcs}

theorem unaccounted_new (L : SharedLayout vcs) (i : Fin L.privateBufs) :
    (SharedBufferPolicy.new L).unaccounted (fun _ => 0) i = 0 := by
  rw [SharedBufferPolicy.unaccounted, Pool.held]
  simp [SharedBufferPolicy.new]

theorem sound_new (policy : PolicyConfig config) (hfits : policy.Fits) :
    (new config policy).Sound where
  disciplined := {
    nonneg := fun _ => le_rfl
    drift := (drift_of_zero rfl rfl).ge
    owned := fun _ hopen => absurd rfl hopen
    pending := fun _ _ hpos => absurd hpos (Int.lt_irrefl 0)
    tail := fun _ _ _ => rfl
    closed := fun _ _ hused => Bool.noConfusion hused
    fresh := fun _ _ _ => rfl }
  room := by
    have hdrift : (new config policy).buffer.drift = 0 := drift_of_zero rfl rfl
    cases policy with
    | privateBuffer hpos =>
        have hsize := BufferConfig.fits hpos hfits
        apply PrivateRoom.toRoom _ rfl
        apply PrivateRoom.of_empty hsize
        · exact hdrift.le.trans (Int.sub_nonneg.mpr hsize.le_size)
        · exact fun _ _ _ _ => hpos.le
    | sharedBuffer L hsize name =>
        apply SharedRoom.toRoom _ rfl
        constructor
        case size => exact hsize.symm
        case balanced => exact SharedBufferPolicy.balanced_new
        case covered => exact fun i => (unaccounted_new L i).ge
        case room =>
          intro _ _
          exact hdrift.le.trans (Finset.sum_nonneg fun i _ => (unaccounted_new L i).ge)
        case records =>
          rw [openCount_eq_zero fun _ => rfl]
          exact name.sound_new L.bufSize

end CreditLink

namespace CreditLink

/-- One virtual channel with a private buffer for one flit. -/
def oneSlot : BufferConfig 1 where
  vcBufSize := 1
  bufSize := -1
  waitForTailCredit := true

def oneSlotPrivate : PolicyConfig oneSlot := .privateBuffer (by decide)

def oneSlotCleared : CreditLink 1 where
  buffer := (BufferState.new oneSlot oneSlotPrivate).clearCredits
  phase _ := .noPacket

/-- Two virtual channels that share two slots, one of them private. -/
def twoShared : BufferConfig 2 where
  vcBufSize := 1
  bufSize := 2
  waitForTailCredit := true

def twoSharedLayout : SharedLayout 2 where
  privateBufs := 1
  bufSize := 2
  privateBufVcMap _ := 0
  privateBufSize _ := 1
  privateBufSize_nonneg _ := Int.one_nonneg
  sum_le_bufSize := by decide

end CreditLink

end Flyover
