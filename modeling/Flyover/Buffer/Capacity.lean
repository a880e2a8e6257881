import Flyover.Buffer.ComesBack

/-!
# The capacity of private buffers

The size of the whole buffer is kept by the buffer state, the limit of one
virtual channel by the private policy, and five operations change one, the other
or the counters that both are compared with. As long as the limits fit into the
whole, and no virtual channel beside one that can be sent on holds more than its
limit, a flit for which the policy reports room has room in the whole.
-/

namespace Flyover

variable {vcs : Nat}

namespace CreditLink

open BufferState

variable {link next : CreditLink vcs} {op : CreditOp vcs} {p : PrivateBufferPolicy} {vc : Fin vcs}

/-! ### Limits that fit into the whole -/

/-- The total occupancy is the sum over the virtual channels, the limits fit into
the whole, and beside a virtual channel that can be sent on none is over its limit. -/
structure Within (link : CreditLink vcs) (p : PrivateBufferPolicy) : Prop where
  policy : link.buffer.policy = .privateBuffer p
  summed : link.buffer.drift = 0
  fits : vcs * p.vcBufSize ≤ link.buffer.size
  others : ∀ vc, link.Usable vc → ∀ u, u ≠ vc → link.buffer.vcOccupancy u ≤ p.vcBufSize

theorem Within.occupancy_eq (h : link.Within p) :
    link.buffer.occupancy = ∑ vc, link.buffer.vcOccupancy vc :=
  Int.sub_eq_zero.mp h.summed

theorem Within.occupancy_lt (h : link.Within p) (husable : link.Usable vc)
    (hless : link.buffer.vcOccupancy vc < p.vcBufSize) :
    link.buffer.occupancy + 1 ≤ link.buffer.size := by
  have hlt : ∑ u, link.buffer.vcOccupancy u < ∑ _u : Fin vcs, p.vcBufSize := by
    apply Finset.sum_lt_sum
    · intro u _
      by_cases hu : u = vc
      · subst hu
        exact hless.le
      · exact h.others vc husable u hu
    · exact ⟨vc, Finset.mem_univ vc, hless⟩
  have hfits := h.fits
  rw [← h.occupancy_eq] at hlt
  simp only [Finset.sum_const, Finset.card_univ, Fintype.card_fin, nsmul_eq_mul] at hlt
  exact (Int.add_one_le_of_lt hlt).trans hfits

/-- A flit for which the policy reports room does not overflow the buffer. -/
theorem Within.no_overflow (h : link.Within p) {time : Int} {tail : Bool}
    (hguard : link.Guarded (.sendingFlit time vc tail)) :
    link.step (.sendingFlit time vc tail) ≠ .error .bufferOverflow := by
  obtain ⟨hopen, hroom⟩ := hguard
  rw [BufferState.isFullFor, h.policy] at hroom
  have hless : link.buffer.vcOccupancy vc < p.vcBufSize := Int.not_le.mp (of_decide_eq_false hroom)
  have hsize := h.occupancy_lt (.inr (.inl hopen)) hless
  have hpolicy : link.buffer.policy.sendingFlit (link.buffer.vcOccupancy vc + 1) time vc tail =
      .ok (.privateBuffer p) := by
    rw [h.policy]
    exact bind_ok.mpr ⟨p, ensure_bind_ok.mpr ⟨Int.not_lt.mpr (Int.add_one_le_of_lt hless), rfl⟩, rfl⟩
  intro herror
  rw [step, bind_error] at herror
  obtain herror | ⟨buffer, -, herror⟩ := herror
  · rw [BufferState.perform, BufferState.sendingFlit, ensure_bind_error] at herror
    obtain ⟨hover, -⟩ | ⟨-, herror⟩ := herror
    · exact hover (Int.not_lt.mpr hsize)
    · simp only [Function.update_self] at herror
      obtain herror | ⟨policy, -, herror⟩ := bind_error.mp herror
      · rw [hpolicy] at herror
        cases herror
      · -- what is left to fail is the assertion that the virtual channel is in use
        obtain ⟨-, hnotInUse⟩ | ⟨-, herror⟩ := ensure_bind_error.mp herror
        · cases hnotInUse
        · cases herror
  · cases herror

/-! ### The operations of the sender -/

/-- The sender's operations make no virtual channel usable. -/
theorem usable_of_step (hsender : op.FromSender) (hguard : link.Guarded op)
    (hstep : link.step op = .ok next) {u : Fin vcs} (hu : next.Usable u) : link.Usable u := by
  obtain ⟨hperform, hphase⟩ := step_ok.mp hstep
  cases link with
  | mk s phase =>
      cases next with
      | mk s' phase' =>
          obtain rfl : phase' = nextPhase phase op := hphase
          cases op with
          | takeBuffer vc tag =>
              obtain ⟨havail, policy, -, rfl⟩ := takeBuffer_ok.mp hperform
              exact (usable_take havail tag policy u).mp hu
          | sendingFlit time vc tail =>
              obtain ⟨-, -, policy, -, rfl⟩ := sendingFlit_ok.mp hperform
              by_cases huv : u = vc
              · subst huv
                exact .inr (.inl hguard.1)
              · simpa [Usable, Open, nextPhase, withPolicy, BufferState.isAvailableFor, sent, huv,
                  apply_ite (fun owners : Fin vcs → Option Nat => owners u)] using hu
          | returnBuffer vc =>
              obtain ⟨-, policy, -, rfl⟩ := returnBuffer_ok.mp hperform
              have hopen : Open ⟨s, phase⟩ vc := fun hclosed =>
                PacketPhase.noConfusion (Eq.trans (Eq.symm hguard) hclosed)
              exact (usable_giveBack hopen policy u).mp hu
          | processCredit time credits =>
              apply processCredit_induction
                (P := fun t => Usable ⟨t, phase⟩ u → Usable ⟨s, phase⟩ u) _ id hperform hu
              intro t t' vc ht ht' hu'
              apply ht
              obtain ⟨-, -, hocc, -, policy, -, rfl⟩ := processCreditFor_ok.mp ht'
              rcases hu' with havail | hopen | ⟨hwait, hpos⟩
              · -- a credit that frees the virtual channel is one that was waited for
                have havail' : (t.credited vc).isAvailableFor u = true := havail
                rw [isAvailableFor_credited, Bool.or_eq_true, Bool.and_eq_true] at havail'
                rcases havail' with havail' | ⟨huv, hreleases⟩
                · exact .inl havail'
                · obtain rfl := of_decide_eq_true huv
                  rw [releases, Bool.and_eq_true, Bool.and_eq_true] at hreleases
                  exact .inr (.inr ⟨hreleases.1.1, hocc⟩)
              · exact .inr (.inl hopen)
              · refine .inr (.inr ⟨hwait, ?_⟩)
                dsimp only [withPolicy, credited] at hpos ⊢
                by_cases huv : u = vc
                · subst huv
                  exact hocc
                · rw [Function.update_of_ne huv] at hpos
                  exact hpos
          | clearCredits => exact hsender.elim
          | fullCredits => exact hsender.elim
          | fillCredits => exact hsender.elim

theorem size_of_step (hstep : link.step op = .ok next) : next.buffer.size = link.buffer.size := by
  obtain ⟨hperform, -⟩ := step_ok.mp hstep
  cases op with
  | takeBuffer vc tag =>
      obtain ⟨-, policy, -, hbuffer⟩ := takeBuffer_ok.mp hperform
      rw [hbuffer]
      rfl
  | sendingFlit time vc tail =>
      obtain ⟨-, -, policy, -, hbuffer⟩ := sendingFlit_ok.mp hperform
      rw [hbuffer]
      rfl
  | returnBuffer vc =>
      obtain ⟨-, policy, -, hbuffer⟩ := returnBuffer_ok.mp hperform
      rw [hbuffer]
      rfl
  | processCredit time credits =>
      apply processCredit_induction (P := fun t => t.size = link.buffer.size) _ rfl hperform
      intro t t' vc ht ht'
      obtain ⟨-, -, -, -, policy, -, rfl⟩ := processCreditFor_ok.mp ht'
      exact ht
  | clearCredits =>
      rw [← pure_ok.mp hperform]
      rfl
  | fullCredits =>
      rw [← pure_ok.mp hperform]
      rfl
  | fillCredits =>
      rw [← pure_ok.mp hperform]
      rfl

/-- What a sender's operation does to the private policy and to the counters. -/
theorem Within.counters (h : link.Within p) (hsender : op.FromSender) (hguard : link.Guarded op)
    (hstep : link.step op = .ok next) :
    next.buffer.policy = .privateBuffer p ∧ next.buffer.drift = 0 ∧
      ∀ u, next.buffer.vcOccupancy u ≤ link.buffer.vcOccupancy u ∨
        next.buffer.vcOccupancy u ≤ p.vcBufSize := by
  obtain ⟨hperform, -⟩ := step_ok.mp hstep
  have hpolicy := h.policy
  cases op with
  | takeBuffer vc tag =>
      obtain ⟨-, policy, htake, hbuffer⟩ := takeBuffer_ok.mp hperform
      rw [hpolicy] at htake
      obtain rfl := pure_ok.mp htake
      rw [hbuffer]
      exact ⟨rfl, h.summed, fun u => .inl le_rfl⟩
  | sendingFlit time vc tail =>
      obtain ⟨-, -, policy, hsend, hbuffer⟩ := sendingFlit_ok.mp hperform
      rw [hpolicy] at hsend
      obtain ⟨q, hq, hprivate⟩ := bind_ok.mp hsend
      obtain ⟨-, hq⟩ := ensure_bind_ok.mp hq
      obtain rfl := pure_ok.mp hq
      obtain rfl := pure_ok.mp hprivate
      rw [hbuffer]
      refine ⟨rfl, (drift_sent tail).trans h.summed, fun u => ?_⟩
      have hroom := hguard.2
      rw [BufferState.isFullFor, hpolicy] at hroom
      have hless : link.buffer.vcOccupancy vc < p.vcBufSize :=
        Int.not_le.mp (of_decide_eq_false hroom)
      dsimp only [withPolicy, sent]
      by_cases hu : u = vc
      · subst hu
        rw [Function.update_self]
        exact .inr (Int.add_one_le_of_lt hless)
      · rw [Function.update_of_ne hu]
        exact .inl le_rfl
  | returnBuffer vc =>
      obtain ⟨-, policy, hreturn, hbuffer⟩ := returnBuffer_ok.mp hperform
      rw [hpolicy] at hreturn
      obtain rfl := pure_ok.mp hreturn
      rw [hbuffer]
      exact ⟨rfl, h.summed, fun u => .inl le_rfl⟩
  | processCredit time credits =>
      have hall : next.buffer.policy = .privateBuffer p ∧ next.buffer.drift = 0 ∧
          ∀ u, next.buffer.vcOccupancy u ≤ link.buffer.vcOccupancy u := by
        apply processCredit_induction (P := fun t => t.policy = .privateBuffer p ∧ t.drift = 0 ∧
          ∀ u, t.vcOccupancy u ≤ link.buffer.vcOccupancy u) _
          ⟨hpolicy, h.summed, fun u => le_rfl⟩ hperform
        rintro t t' vc ⟨htpolicy, htdrift, hless⟩ ht'
        obtain ⟨-, -, -, -, policy, hfree, rfl⟩ := processCreditFor_ok.mp ht'
        rw [htpolicy] at hfree
        obtain rfl := pure_ok.mp hfree
        refine ⟨rfl, drift_credited.trans htdrift, fun u => ?_⟩
        have hu := hless u
        dsimp only [withPolicy, credited]
        by_cases huv : u = vc
        · subst huv
          rw [Function.update_self]
          exact (Int.sub_le_self _ Int.one_nonneg).trans hu
        · rw [Function.update_of_ne huv]
          exact hu
      exact ⟨hall.1, hall.2.1, fun u => .inl (hall.2.2 u)⟩
  | clearCredits => exact hsender.elim
  | fullCredits => exact hsender.elim
  | fillCredits => exact hsender.elim

theorem Within.sender (h : link.Within p) (hsender : op.FromSender) (hguard : link.Guarded op)
    (hstep : link.step op = .ok next) : next.Within p := by
  obtain ⟨hpolicy, hsummed, hocc⟩ := h.counters hsender hguard hstep
  constructor
  case policy => exact hpolicy
  case summed => exact hsummed
  case fits =>
    rw [size_of_step hstep]
    exact h.fits
  case others =>
    intro vc husable u hu
    have hle := h.others vc (usable_of_step hsender hguard hstep husable) u hu
    rcases hocc u with hless | hless
    · exact hless.trans hle
    · exact hless

/-! ### Power gating -/

/-- Beside a virtual channel that can be sent on once the credits are cleared,
none has a flit outstanding. -/
def ClearsAlone (link : CreditLink vcs) : Prop :=
  ∀ vc, link.UsableAfterClear vc → ∀ u, u ≠ vc → link.buffer.vcOccupancy u ≤ 0

theorem Within.clearCredits (h : link.Within p) (hdvd : (vcs : Int) ∣ link.buffer.size)
    (hshare : ∀ _ : Fin vcs, link.share = p.vcBufSize) (hclear : link.ClearsAlone) :
    Within ⟨link.buffer.clearCredits, link.phase⟩ p where
  policy := h.policy
  summed := by
    dsimp only
    rw [drift_clearCredits, h.summed, Int.mul_ediv_cancel' hdvd]
    simp
  fits := h.fits
  others vc husable u hu := by
    have hnone := hclear vc ((usable_clearCredits vc).mp husable) u hu
    show link.buffer.vcOccupancy u + link.share ≤ p.vcBufSize
    rw [hshare vc]
    exact Int.add_le_of_le_sub_right (hnone.trans_eq (Int.sub_self _).symm)

theorem within_of_empty {s : BufferState vcs} {phase : Fin vcs → PacketPhase}
    (hpolicy : s.policy = .privateBuffer p) (hocc : s.occupancy = 0)
    (hvcs : s.vcOccupancy = fun _ => 0) (hfits : vcs * p.vcBufSize ≤ s.size)
    (hpos : 0 < p.vcBufSize) : Within ⟨s, phase⟩ p where
  policy := hpolicy
  summed := drift_of_zero hocc hvcs
  fits := hfits
  others _ _ u _ := by
    dsimp only
    rw [hvcs]
    exact hpos.le

/-! ### The sum over the virtual channels -/

variable {config : BufferConfig vcs}

/-- Credits are cleared where the virtual channels have equal shares of the
buffer, and beside none that can be sent on is a flit outstanding. -/
def KeepsSums (link : CreditLink vcs) : CreditOp vcs → Prop
  | .clearCredits => (vcs : Int) ∣ link.buffer.size ∧ link.ClearsAlone
  | _ => True

/-- The limits that the constructor of the private policy sets. -/
def initialLimits (config : BufferConfig vcs) : PrivateBufferPolicy where
  vcBufSize := config.privateVcBufSize
  fullVcBufSize := config.privateVcBufSize

theorem Within.keepsSums (h : link.Within (initialLimits config))
    (hfits : (initialLimits config).Fits vcs config.size) (hsize : link.buffer.size = config.size)
    (hguard : link.Guarded op) (hkeeps : link.KeepsSums op) (hstep : link.step op = .ok next) :
    next.Within (initialLimits config) := by
  by_cases hsender : op.FromSender
  · exact h.sender hsender hguard hstep
  · have hpolicy : link.buffer.policy.resetVCBufferSize = .privateBuffer (initialLimits config) := by
      rw [h.policy]
      rfl
    cases op with
    | takeBuffer vc tag => exact absurd trivial hsender
    | sendingFlit time vc tail => exact absurd trivial hsender
    | returnBuffer vc => exact absurd trivial hsender
    | processCredit time credits => exact absurd trivial hsender
    | clearCredits =>
        obtain rfl := pure_ok.mp hstep
        apply h.clearCredits hkeeps.1 _ hkeeps.2
        intro vc
        rw [share, hsize]
        exact hfits.share vc
    | fullCredits =>
        obtain rfl := pure_ok.mp hstep
        exact within_of_empty hpolicy rfl rfl h.fits hfits.pos
    | fillCredits =>
        obtain rfl := pure_ok.mp hstep
        exact within_of_empty hpolicy rfl rfl h.fits hfits.pos

/-- The total occupancy is the sum of those of the virtual channels, and no flit
for which the policy reports room overflows the buffer, in every run in which
credits are cleared only where that keeps the sums. -/
theorem sums_of_keepsSums (hpos : 0 < config.privateVcBufSize) (hsize : config.bufSize ≠ 0)
    (hreach : Reaches KeepsSums (new config (.privateBuffer hpos)) link) :
    link.buffer.occupancy = ∑ vc, link.buffer.vcOccupancy vc ∧
      ∀ time vc tail, link.Guarded (.sendingFlit time vc tail) →
        link.step (.sendingFlit time vc tail) ≠ .error .bufferOverflow := by
  have hfits : (initialLimits config).Fits vcs config.size := BufferConfig.fits hpos hsize
  have hwithin : link.buffer.size = config.size ∧ link.Within (initialLimits config) := by
    induction hreach with
    | refl => exact ⟨rfl, within_of_empty rfl rfl rfl hfits.le_size hfits.pos⟩
    | step op _ hguard hkeeps hstep ih =>
        exact ⟨(size_of_step hstep).trans ih.1,
          ih.2.keepsSums hfits ih.1 hguard hkeeps hstep⟩
  exact ⟨hwithin.2.occupancy_eq, fun time vc tail hguard => hwithin.2.no_overflow hguard⟩

/-- The only virtual channel is full, and its credits are cleared. -/
theorem sums_of_keepsSums_oneSlot :
    ∃ link, Reaches KeepsSums (new oneSlot oneSlotPrivate) link ∧
      link.buffer.occupancy = ∑ vc, link.buffer.vcOccupancy vc ∧
      ∀ time vc tail, link.Guarded (.sendingFlit time vc tail) →
        link.step (.sendingFlit time vc tail) ≠ .error .bufferOverflow := by
  have htake : Reaches KeepsSums (new oneSlot oneSlotPrivate) _ :=
    .step (.takeBuffer 0 0) .refl rfl trivial rfl
  have hsend := Reaches.step (.sendingFlit 0 0 true) htake ⟨nofun, rfl⟩ trivial rfl
  have hclear := Reaches.step .clearCredits hsend trivial
    ⟨by decide, fun vc _ u hu => absurd (Subsingleton.elim u vc) hu⟩ rfl
  exact ⟨_, hclear, sums_of_keepsSums (by decide) (by decide) hclear⟩

/-- Two virtual channels and three slots. -/
def threeSlots : BufferConfig 2 where
  vcBufSize := 1
  bufSize := 3
  waitForTailCredit := true

/-- Clearing the credits of an empty buffer counts a slot that no virtual channel has. -/
theorem not_summed_threeSlots :
    ∃ link, Reaches (fun _ _ => True) (new threeSlots (.privateBuffer (by decide))) link ∧
      link.buffer.occupancy ≠ ∑ vc, link.buffer.vcOccupancy vc := by
  refine ⟨_, .step .clearCredits .refl trivial trivial rfl, ?_⟩
  decide

/-- With `buf_size` zero the policy takes its limit from `vc_buf_size`, and the
whole has no slot. -/
theorem overflows_of_zero (hpos : 0 < config.privateVcBufSize) (hzero : config.bufSize = 0)
    (time : Int) (vc : Fin vcs) (tag : Nat) (tail : Bool) :
    ∃ link, (new config (.privateBuffer hpos)).step (.takeBuffer vc tag) = .ok link ∧
      link.Guarded (.sendingFlit time vc tail) ∧
      link.step (.sendingFlit time vc tail) = .error .bufferOverflow := by
  refine ⟨_, rfl, ⟨?_, ?_⟩, ?_⟩
  · simp [Open, nextPhase]
  · exact decide_eq_false (Int.not_le.mpr hpos)
  · have hsize : config.size = 0 := by simp [BufferConfig.size, hzero]
    apply bind_error.mpr
    apply Or.inl
    apply ensure_bind_error.mpr
    refine .inl ⟨fun hroom => hroom ?_, rfl⟩
    show (0 : Int) + 1 > config.size
    rw [hsize]
    decide

/-! ### Buffers of another size -/

/-- An operation of the link, or one that gives its private buffers another size. -/
inductive SizeOp (vcs : Nat) where
  | ofLink (op : CreditOp vcs)
  | setVCBufferSize (vcBufSize : Int)
  | resetVCBufferSize

/-- What is checked before an operation; `SetVCBufferSize` has an assertion of its own. -/
def SizeGuarded (link : CreditLink vcs) : SizeOp vcs → Prop
  | .ofLink op => link.Guarded op
  | .setVCBufferSize _ | .resetVCBufferSize => True

def sizeStep (config : BufferConfig vcs) (link : CreditLink vcs) :
    SizeOp vcs → Except BufferError (CreditLink vcs)
  | .ofLink op => link.step op
  | .setVCBufferSize vcBufSize => do
      let buffer ← link.buffer.setVCBufferSize config vcBufSize
      pure { link with buffer := buffer }
  | .resetVCBufferSize => pure { link with buffer := link.buffer.resetVCBufferSize config }

/-- The links reached from one by such operations, each of which meets a condition. -/
inductive SizeReaches (config : BufferConfig vcs) (Meets : CreditLink vcs → SizeOp vcs → Prop)
    (start : CreditLink vcs) : CreditLink vcs → Prop
  | refl : SizeReaches config Meets start start
  | step {link next : CreditLink vcs} (op : SizeOp vcs) :
      SizeReaches config Meets start link → link.SizeGuarded op → Meets link op →
        link.sizeStep config op = .ok next → SizeReaches config Meets start next

/-- The whole buffer has as many slots as the limits of the policy give. -/
def Agrees (link : CreditLink vcs) : Prop :=
  ∃ p, link.buffer.policy = .privateBuffer p ∧ link.buffer.size = vcs * p.vcBufSize

/-- Beside a virtual channel that can be sent on, none holds more than a limit. -/
def HoldsAtMost (link : CreditLink vcs) (limit : Int) : Prop :=
  ∀ vc, link.Usable vc → ∀ u, u ≠ vc → link.buffer.vcOccupancy u ≤ limit

/-- Credits are restored while the buffer has its full size, and a limit is set
where the flits that are outstanding are within it. -/
def KeepsAgreement (config : BufferConfig vcs) (link : CreditLink vcs) : SizeOp vcs → Prop
  | .ofLink .clearCredits => link.ClearsAlone
  | .ofLink .fullCredits | .ofLink .fillCredits =>
      link.buffer.size = vcs * config.privateVcBufSize
  | .ofLink _ => True
  | .setVCBufferSize vcBufSize => link.HoldsAtMost vcBufSize
  | .resetVCBufferSize =>
      config.vcBufSize = config.privateVcBufSize ∧ link.HoldsAtMost config.vcBufSize

/-- The limits are within a buffer that has room for them and no more. -/
structure Tight (config : BufferConfig vcs) (link : CreditLink vcs) (p : PrivateBufferPolicy) :
    Prop extends link.Within p where
  size_eq : link.buffer.size = vcs * p.vcBufSize
  full : p.fullVcBufSize = config.privateVcBufSize

theorem Tight.setVCBufferSize (h : Tight config link p) {vcBufSize : Int}
    (hholds : link.HoldsAtMost vcBufSize) {buffer : BufferState vcs}
    (hset : link.buffer.setVCBufferSize config vcBufSize = .ok buffer) :
    Tight config { link with buffer := buffer } (p.setVCBufferSize vcBufSize) := by
  obtain ⟨hassert, hbuffer⟩ := ensure_bind_ok.mp hset
  obtain rfl := pure_ok.mp hbuffer
  have hsize : (if link.buffer.size ≠ vcs * config.vcBufSize then link.buffer.size
      else vcs * vcBufSize) = vcs * vcBufSize := by
    split
    next hother => exact hassert hother
    next => rfl
  constructor
  case toWithin =>
    constructor
    case policy =>
      dsimp only
      rw [h.policy]
      rfl
    case summed => exact h.summed
    case fits => exact hsize.ge
    case others => exact hholds
  case size_eq => exact hsize
  case full => exact h.full

theorem Tight.resetVCBufferSize (h : Tight config link p)
    (hagree : config.vcBufSize = config.privateVcBufSize)
    (hholds : link.HoldsAtMost config.vcBufSize) :
    Tight config { link with buffer := link.buffer.resetVCBufferSize config }
      p.resetVCBufferSize := by
  have hlimit : p.resetVCBufferSize.vcBufSize = config.vcBufSize := h.full.trans hagree.symm
  constructor
  case toWithin =>
    constructor
    case policy =>
      dsimp only [BufferState.resetVCBufferSize]
      rw [h.policy]
      rfl
    case summed => exact h.summed
    case fits =>
      rw [hlimit]
      exact le_rfl
    case others =>
      rw [hlimit]
      exact hholds
  case size_eq =>
    rw [hlimit]
    rfl
  case full => exact h.full

theorem Tight.restored (h : Tight config link p) (hpos : 0 < config.privateVcBufSize)
    (hfull : link.buffer.size = vcs * config.privateVcBufSize) {buffer : BufferState vcs}
    (hsize : buffer.size = link.buffer.size) (hocc : buffer.occupancy = 0)
    (hvcs : buffer.vcOccupancy = fun _ => 0)
    (hpolicy : buffer.policy = link.buffer.policy.resetVCBufferSize) :
    Tight config { link with buffer := buffer } p.resetVCBufferSize := by
  have hlimit : p.resetVCBufferSize.vcBufSize = config.privateVcBufSize := h.full
  have heq : buffer.size = vcs * p.resetVCBufferSize.vcBufSize := by
    rw [hsize, hfull, hlimit]
  constructor
  case toWithin =>
    apply within_of_empty _ hocc hvcs heq.ge
    · rw [hlimit]
      exact hpos
    · rw [hpolicy, h.policy]
      rfl
  case size_eq => exact heq
  case full => exact h.full

theorem Tight.exists_step (h : Tight config link p) (hpos : 0 < config.privateVcBufSize)
    {op : SizeOp vcs} (hguard : link.SizeGuarded op) (hkeeps : KeepsAgreement config link op)
    (hstep : link.sizeStep config op = .ok next) : ∃ p, Tight config next p := by
  cases op with
  | ofLink op =>
      by_cases hsender : op.FromSender
      · refine ⟨p, h.toWithin.sender hsender hguard hstep, ?_, h.full⟩
        rw [size_of_step hstep]
        exact h.size_eq
      · cases op with
        | takeBuffer vc tag => exact absurd trivial hsender
        | sendingFlit time vc tail => exact absurd trivial hsender
        | returnBuffer vc => exact absurd trivial hsender
        | processCredit time credits => exact absurd trivial hsender
        | clearCredits =>
            obtain rfl := pure_ok.mp hstep
            have hdvd : (vcs : Int) ∣ link.buffer.size := h.size_eq ▸ Int.dvd_mul_right _ _
            refine ⟨p, h.toWithin.clearCredits hdvd ?_ hkeeps, h.size_eq, h.full⟩
            intro vc
            have hvcs : (vcs : Int) ≠ 0 := Int.natCast_ne_zero.mpr vc.pos.ne'
            rw [share, h.size_eq]
            exact Int.mul_ediv_cancel_left _ hvcs
        | fullCredits =>
            obtain rfl := pure_ok.mp hstep
            exact ⟨_, h.restored hpos hkeeps rfl rfl rfl rfl⟩
        | fillCredits =>
            obtain rfl := pure_ok.mp hstep
            exact ⟨_, h.restored hpos hkeeps rfl rfl rfl rfl⟩
  | setVCBufferSize vcBufSize =>
      obtain ⟨buffer, hset, hnext⟩ := bind_ok.mp hstep
      obtain rfl := pure_ok.mp hnext
      exact ⟨_, h.setVCBufferSize hkeeps hset⟩
  | resetVCBufferSize =>
      obtain rfl := pure_ok.mp hstep
      exact ⟨_, h.resetVCBufferSize hkeeps.1 hkeeps.2⟩

/-- The size of the buffer is that of its private buffers, and no flit for which
the policy reports room overflows it, in every run in which credits are restored
at full size only and limits are set where the outstanding flits are within them. -/
theorem agrees_of_keepsAgreement (hpos : 0 < config.privateVcBufSize)
    (hsize : config.size = vcs * config.privateVcBufSize)
    (hreach : SizeReaches config (KeepsAgreement config) (new config (.privateBuffer hpos)) link) :
    link.Agrees ∧ ∀ time vc tail, link.Guarded (.sendingFlit time vc tail) →
      link.step (.sendingFlit time vc tail) ≠ .error .bufferOverflow := by
  obtain ⟨p, htight⟩ : ∃ p, Tight config link p := by
    induction hreach with
    | refl =>
        exact ⟨initialLimits config, within_of_empty rfl rfl rfl hsize.ge hpos, hsize, rfl⟩
    | step op _ hguard hkeeps hstep ih =>
        obtain ⟨p, htight⟩ := ih
        exact htight.exists_step hpos hguard hkeeps hstep
  exact ⟨⟨p, htight.policy, htight.size_eq⟩, fun time vc tail hguard =>
    htight.toWithin.no_overflow hguard⟩

/-- Without `buf_size` the whole has the size of its private buffers. -/
theorem size_of_noBufSize (h : config.bufSize < 0) :
    config.size = vcs * config.privateVcBufSize := by
  rw [BufferConfig.size, BufferConfig.privateVcBufSize, if_pos h, if_pos h.le]

/-- Two virtual channels of two slots each. -/
def twoByTwo : BufferConfig 2 where
  vcBufSize := 2
  bufSize := -1
  waitForTailCredit := true

/-- Both are given one slot. -/
theorem agrees_of_keepsAgreement_twoByTwo :
    ∃ link, SizeReaches twoByTwo (KeepsAgreement twoByTwo)
        (new twoByTwo (.privateBuffer (by decide))) link ∧
      link.Agrees ∧ ∀ time vc tail, link.Guarded (.sendingFlit time vc tail) →
        link.step (.sendingFlit time vc tail) ≠ .error .bufferOverflow := by
  have hset : SizeReaches twoByTwo (KeepsAgreement twoByTwo)
      (new twoByTwo (.privateBuffer (by decide))) _ :=
    .step (.setVCBufferSize 1) .refl trivial (fun _ _ _ _ => Int.one_nonneg) rfl
  exact ⟨_, hset, agrees_of_keepsAgreement (by decide) (size_of_noBufSize (by decide)) hset⟩

/-- The credits are restored while the buffers have one slot: the policy lets two
flits pass on each virtual channel, and the third overflows the buffer. -/
theorem not_agrees_twoByTwo :
    ∃ link, SizeReaches twoByTwo (fun _ _ => True) (new twoByTwo (.privateBuffer (by decide)))
        link ∧
      ¬ link.Agrees ∧ link.Guarded (.sendingFlit 0 1 true) ∧
      link.step (.sendingFlit 0 1 true) = .error .bufferOverflow := by
  have hset : SizeReaches twoByTwo (fun _ _ => True)
      (new twoByTwo (.privateBuffer (by decide))) _ :=
    .step (.setVCBufferSize 1) .refl trivial trivial rfl
  have hfull := SizeReaches.step (.ofLink .fullCredits) hset trivial trivial rfl
  have htake := SizeReaches.step (.ofLink (.takeBuffer 0 0)) hfull rfl trivial rfl
  have hhead := SizeReaches.step (.ofLink (.sendingFlit 0 0 false)) htake ⟨nofun, rfl⟩ trivial rfl
  have htail := SizeReaches.step (.ofLink (.sendingFlit 0 0 true)) hhead ⟨nofun, rfl⟩ trivial rfl
  have hother := SizeReaches.step (.ofLink (.takeBuffer 1 1)) htail rfl trivial rfl
  refine ⟨_, hother, ?_, ⟨nofun, rfl⟩, rfl⟩
  rintro ⟨p, hpolicy, hsize⟩
  obtain rfl := BufferPolicy.privateBuffer.inj hpolicy
  exact absurd hsize (by decide)

end CreditLink

end Flyover
