import Mathlib.Data.Nat.Size
import Flyover.Buffer.ComesBack

/-!
# The limits of the dynamic policies

The limited policies count the virtual channels that a packet has and whose tail
is not sent. The dynamic ones divide the buffer among these, exactly or by the
next power of two, and assert that each is left a slot. Whether it is depends
only on how many virtual channels are taken at a time.
-/

namespace Flyover

variable {vcs : Nat}

namespace ShiftingDynamicLimitedSharedBufferPolicy

/-- The loop shifts by the bit length of its counter. -/
theorem shift_eq (m : Int) (i : Nat) : shift m i = m / 2 ^ i.size := by
  induction i using Nat.strong_induction_on generalizing m with
  | _ i ih =>
      rw [shift]
      split
      next hi => simp [hi]
      next hi =>
        have hsize : i.size = (i / 2).size + 1 := by
          have hbit : Nat.bit (i.testBit 0) (i / 2) = i := Nat.bit_testBit_zero_shiftRight_one i
          have hne : Nat.bit (i.testBit 0) (i / 2) ≠ 0 := hbit.symm ▸ hi
          have := Nat.size_bit hne
          rw [hbit] at this
          exact this
        rw [ih (i / 2) (Nat.div_lt_self (Nat.pos_of_ne_zero hi) Nat.one_lt_two), hsize,
          Int.ediv_ediv_of_nonneg (by decide), pow_succ']

theorem held_eq (bufSize : Int) (n : Nat) : held bufSize n = bufSize / 2 ^ (n - 1).size := by
  have hpred : ((n : Int) - 1).toNat = n - 1 := by omega
  rw [held, shift_eq, hpred]

theorem held_one (bufSize : Int) : held bufSize 1 = bufSize :=
  (held_eq bufSize 1).trans (Int.ediv_one bufSize)

theorem held_mul_le {bufSize : Int} (hsize : 0 ≤ bufSize) (n : Nat) :
    held bufSize n * n ≤ bufSize := by
  have hpow : (0 : Int) < 2 ^ (n - 1).size := pow_pos (by decide) _
  -- the power of two that the buffer is divided by is no less than the number
  have hle : (n : Int) ≤ 2 ^ (n - 1).size := by
    have hlt := Nat.lt_size_self (n - 1)
    exact_mod_cast (Nat.le_of_pred_lt hlt : n ≤ 2 ^ (n - 1).size)
  rw [held_eq]
  calc bufSize / 2 ^ (n - 1).size * n
      ≤ bufSize / 2 ^ (n - 1).size * 2 ^ (n - 1).size :=
        Int.mul_le_mul_of_nonneg_left hle (Int.ediv_nonneg hsize hpow.le)
    _ ≤ bufSize := Int.ediv_mul_le _ hpow.ne'

theorem held_pos_iff (bufSize : Int) (n : Nat) :
    0 < held bufSize (n + 1) ↔ 2 ^ n.size ≤ bufSize := by
  have hpow : (0 : Int) < 2 ^ n.size := pow_pos (by decide) _
  have hcast : ((n : Int) + 1) = (n + 1 : Nat) := rfl
  rw [hcast, held_eq, Nat.add_sub_cancel]
  exact (Int.le_ediv_iff_mul_le (a := 1) hpow).trans (by rw [one_mul])

end ShiftingDynamicLimitedSharedBufferPolicy

theorem DynamicLimitedSharedBufferPolicy.held_pos_iff (bufSize : Int) (n : Nat) :
    0 < held bufSize (n + 1) ↔ (n : Int) + 1 ≤ bufSize := by
  exact (Int.le_ediv_iff_mul_le (a := 1) (by omega)).trans (by rw [one_mul])

/-! ### The limit when nothing is taken -/

namespace LimitedSharedBufferPolicy

variable {p p' : LimitedSharedBufferPolicy} {held : Int → Int} {n : Nat}

/-- When the tail of the last packet is sent, the limit stays that for one packet. -/
theorem Follows.idle_sendingFlit (hp : p.Follows held n) (hn : 0 < n) (tail : Bool)
    (changed : Int → Bool) (hchanged : changed 0 = false)
    (hsend : (do
      let p ← p.sendingFlit tail
      p.resize held (changed p.activeVCs)) = .ok p')
    (hidle : openAfter n tail = 0) : p'.maxHeldSlots = held 1 := by
  obtain ⟨q, hq, hresize⟩ := bind_ok.mp hsend
  rw [sendingFlit_open tail hn hp.active, hidle] at hq
  obtain rfl := Except.ok.inj hq
  obtain ⟨-, rfl⟩ := resize_ok.mp hresize
  have hone : n = 1 := by
    unfold openAfter at hidle
    split at hidle <;> omega
  have hbound := hp.bound hn
  rw [hone] at hbound
  dsimp only [Nat.cast_zero]
  rw [Nat.cast_zero, hchanged, if_neg Bool.false_ne_true]
  exact hbound

end LimitedSharedBufferPolicy

namespace SharedExtension

open LimitedSharedBufferPolicy

variable {bufSize : Int} {n m : Nat} {occupancy : Fin vcs → Int} {ext ext' : SharedExtension vcs}
  {name : SharedPolicyName}

/-- The records are those of the configured subclass, and with no packet the
limit of a dynamic one is the whole buffer. -/
inductive RecordsOf (bufSize : Int) (n : Nat) : SharedPolicyName → SharedExtension vcs → Prop
  | shared : RecordsOf bufSize n .shared .shared
  | limited (maxHeldSlots : Int) (p : LimitedSharedBufferPolicy) :
      RecordsOf bufSize n (.limited maxHeldSlots) (.limited p)
  | dynamic (p : LimitedSharedBufferPolicy) (idle : n = 0 → p.maxHeldSlots = bufSize) :
      RecordsOf bufSize n .dynamic (.dynamic p)
  | shifting (p : LimitedSharedBufferPolicy) (idle : n = 0 → p.maxHeldSlots = bufSize) :
      RecordsOf bufSize n .shifting (.shifting p)
  | feedback (config : FeedbackConfig) (p : FeedbackSharedBufferPolicy vcs) :
      RecordsOf bufSize n (.feedback config) (.feedback config p)
  | simpleFeedback (config : FeedbackConfig) (p : SimpleFeedbackSharedBufferPolicy vcs) :
      RecordsOf bufSize n (.simpleFeedback config) (.simpleFeedback config p)

theorem recordsOf_new (name : SharedPolicyName) :
    RecordsOf bufSize 0 name (name.new bufSize : SharedExtension vcs) := by
  cases name with
  | shared => exact .shared
  | limited maxHeldSlots => exact .limited _ _
  | dynamic => exact .dynamic _ fun _ => rfl
  | shifting => exact .shifting _ fun _ => rfl
  | feedback config => exact .feedback _ _
  | simpleFeedback config => exact .simpleFeedback _ _

theorem RecordsOf.takeBuffer (h : RecordsOf bufSize n name ext)
    (htake : ext.takeBuffer bufSize = .ok ext') : RecordsOf bufSize (n + 1) name ext' := by
  cases h with
  | shared =>
      obtain rfl := pure_ok.mp htake
      exact .shared
  | limited maxHeldSlots p =>
      obtain ⟨p', -, hext⟩ := bind_ok.mp htake
      obtain rfl := pure_ok.mp hext
      exact .limited _ _
  | dynamic p =>
      obtain ⟨p', -, hext⟩ := bind_ok.mp htake
      obtain rfl := pure_ok.mp hext
      exact .dynamic _ nofun
  | shifting p =>
      obtain ⟨p', -, hext⟩ := bind_ok.mp htake
      obtain rfl := pure_ok.mp hext
      exact .shifting _ nofun
  | feedback config p =>
      obtain rfl := pure_ok.mp htake
      exact .feedback _ _
  | simpleFeedback config p =>
      obtain rfl := pure_ok.mp htake
      exact .simpleFeedback _ _

theorem RecordsOf.sendingFlit (h : RecordsOf bufSize n name ext)
    (hsound : ext.Sound bufSize n occupancy) (hn : 0 < n) {occ time : Int} {vc : Fin vcs}
    {tail : Bool} (hsend : ext.sendingFlit bufSize occ time vc tail = .ok ext') :
    RecordsOf bufSize (openAfter n tail) name ext' := by
  cases h with
  | shared =>
      obtain rfl := pure_ok.mp hsend
      exact .shared
  | limited maxHeldSlots p =>
      obtain ⟨p', -, hext⟩ := bind_ok.mp hsend
      obtain rfl := pure_ok.mp hext
      exact .limited _ _
  | dynamic p =>
      obtain ⟨p', hp', hext⟩ := bind_ok.mp hsend
      obtain rfl := pure_ok.mp hext
      apply RecordsOf.dynamic
      intro hidle
      have hone := Follows.idle_sendingFlit hsound hn tail (fun active => tail && active != 0)
        (by simp) hp' hidle
      exact hone.trans (Int.ediv_one bufSize)
  | shifting p =>
      obtain ⟨p', hp', hext⟩ := bind_ok.mp hsend
      obtain rfl := pure_ok.mp hext
      apply RecordsOf.shifting
      intro hidle
      have hone := Follows.idle_sendingFlit hsound hn tail (fun active => tail && active != 0)
        (by simp) hp' hidle
      exact hone.trans (ShiftingDynamicLimitedSharedBufferPolicy.held_one bufSize)
  | feedback config p =>
      obtain rfl := pure_ok.mp hsend
      exact .feedback _ _
  | simpleFeedback config p =>
      obtain ⟨p', -, hext⟩ := bind_ok.mp hsend
      obtain rfl := pure_ok.mp hext
      exact .simpleFeedback _ _

theorem RecordsOf.returnBuffer (h : RecordsOf bufSize n name ext)
    (hsound : ext.Sound bufSize n occupancy) (hn : 0 < n)
    (hreturn : ext.returnBuffer bufSize = .ok ext') : RecordsOf bufSize (n - 1) name ext' := by
  cases h with
  | shared =>
      obtain rfl := pure_ok.mp hreturn
      exact .shared
  | limited maxHeldSlots p =>
      obtain ⟨p', -, hext⟩ := bind_ok.mp hreturn
      obtain rfl := pure_ok.mp hext
      exact .limited _ _
  | dynamic p =>
      obtain ⟨p', hp', hext⟩ := bind_ok.mp hreturn
      obtain rfl := pure_ok.mp hext
      apply RecordsOf.dynamic
      intro hidle
      have hone := Follows.idle_sendingFlit hsound hn true
        (fun active => decide (active > 0)) rfl hp' hidle
      exact hone.trans (Int.ediv_one bufSize)
  | shifting p =>
      obtain ⟨p', hp', hext⟩ := bind_ok.mp hreturn
      obtain rfl := pure_ok.mp hext
      apply RecordsOf.shifting
      intro hidle
      have hone := Follows.idle_sendingFlit hsound hn true
        (fun active => active != 0) rfl hp' hidle
      exact hone.trans (ShiftingDynamicLimitedSharedBufferPolicy.held_one bufSize)
  | feedback config p =>
      obtain rfl := pure_ok.mp hreturn
      exact .feedback _ _
  | simpleFeedback config p =>
      obtain rfl := pure_ok.mp hreturn
      exact .simpleFeedback _ _

theorem RecordsOf.freeSlotFor (h : RecordsOf bufSize n name ext) {time : Int} {vc : Fin vcs}
    (hfree : ext.freeSlotFor time vc = .ok ext') : RecordsOf bufSize n name ext' := by
  cases h with
  | shared =>
      obtain rfl := pure_ok.mp hfree
      exact .shared
  | limited maxHeldSlots p =>
      obtain rfl := pure_ok.mp hfree
      exact .limited _ _
  | dynamic p idle =>
      obtain rfl := pure_ok.mp hfree
      exact .dynamic _ idle
  | shifting p idle =>
      obtain rfl := pure_ok.mp hfree
      exact .shifting _ idle
  | feedback config p =>
      obtain ⟨p', -, hext⟩ := bind_ok.mp hfree
      obtain rfl := pure_ok.mp hext
      exact .feedback _ _
  | simpleFeedback config p =>
      obtain ⟨p', -, hext⟩ := bind_ok.mp hfree
      obtain rfl := pure_ok.mp hext
      exact .simpleFeedback _ _

end SharedExtension

namespace CreditLink

open BufferState

variable {link next : CreditLink vcs} {op : CreditOp vcs} {config : BufferConfig vcs}
  {L : SharedLayout vcs} {name : SharedPolicyName}

/-! ### Runs of the sender -/

/-- The policy has the records of the configured subclass. -/
def Configured (link : CreditLink vcs) (L : SharedLayout vcs) (name : SharedPolicyName) : Prop :=
  ∃ p ext, link.buffer.policy = .sharedBuffer L p ext ∧
    ext.RecordsOf L.bufSize (openCount link.phase) name

/-- A take that succeeds was one that the policy had a slot for. -/
theorem Configured.takesOneMore (h : link.Configured L name) {vc : Fin vcs} {tag : Nat}
    {buffer : BufferState vcs} (htake : link.buffer.takeBuffer vc tag = .ok buffer) :
    link.TakesOneMore := by
  obtain ⟨p, ext, hpolicy, -⟩ := h
  obtain ⟨-, policy, htake, -⟩ := BufferState.takeBuffer_ok.mp htake
  rw [hpolicy] at htake
  obtain ⟨ext', hext', -⟩ := BufferPolicy.takeBuffer_ok htake
  rw [TakesOneMore, hpolicy]
  exact SharedExtension.takesOneMore_of_ok hext'

theorem Configured.keepsInStep (h : link.Configured L name) (hsender : op.FromSender)
    (hstep : link.step op = .ok next) : link.KeepsInStep op := by
  obtain ⟨hperform, -⟩ := step_ok.mp hstep
  cases op with
  | takeBuffer vc tag => exact h.takesOneMore hperform
  | sendingFlit time vc tail => trivial
  | returnBuffer vc => trivial
  | processCredit time credits => trivial
  | clearCredits => exact hsender.elim
  | fullCredits => exact hsender.elim
  | fillCredits => exact hsender.elim

theorem Configured.step (h : link.Configured L name) (hsound : link.Sound)
    (hsender : op.FromSender) (hguard : link.Guarded op) (hstep : link.step op = .ok next) :
    next.Configured L name := by
  obtain ⟨p, ext, hpolicy, hrecords⟩ := h
  obtain ⟨hperform, hphase⟩ := step_ok.mp hstep
  have hext : ext.Sound L.bufSize (openCount link.phase) link.buffer.vcOccupancy :=
    (hsound.room.ofShared hpolicy).records
  cases op with
  | takeBuffer vc tag =>
      obtain ⟨-, policy, htake, hbuffer⟩ := BufferState.takeBuffer_ok.mp hperform
      rw [hpolicy] at htake
      obtain ⟨ext', hext', rfl⟩ := BufferPolicy.takeBuffer_ok htake
      have hclosed : link.phase vc = .noPacket := by
        by_contra hopen
        have hused := hsound.disciplined.owned vc hopen
        rw [show link.buffer.isAvailableFor vc = true from hguard] at hused
        cases hused
      have htaken : PacketPhase.taken ≠ .noPacket := nofun
      refine ⟨p, ext', by rw [hbuffer]; rfl, ?_⟩
      rw [hphase, nextPhase, openCount_open hclosed htaken]
      exact hrecords.takeBuffer hext'
  | sendingFlit time vc tail =>
      obtain ⟨-, -, policy, hsend, hbuffer⟩ := BufferState.sendingFlit_ok.mp hperform
      rw [hpolicy] at hsend
      obtain ⟨p', -, hsend⟩ := bind_ok.mp hsend
      obtain ⟨ext', hext', hpolicy'⟩ := bind_ok.mp hsend
      obtain rfl := pure_ok.mp hpolicy'
      refine ⟨p', ext', by rw [hbuffer]; rfl, ?_⟩
      rw [hphase, nextPhase, openCount_sent hguard.1 tail]
      exact hrecords.sendingFlit hext (openCount_pos hguard.1) hext'
  | returnBuffer vc =>
      obtain ⟨-, policy, hreturn, hbuffer⟩ := BufferState.returnBuffer_ok.mp hperform
      rw [hpolicy] at hreturn
      obtain ⟨ext', hext', rfl⟩ := BufferPolicy.returnBuffer_ok hreturn
      have hopen : link.phase vc ≠ .noPacket := fun hclosed =>
        PacketPhase.noConfusion (Eq.trans (Eq.symm hguard) hclosed)
      refine ⟨p, ext', by rw [hbuffer]; rfl, ?_⟩
      rw [hphase, nextPhase, openCount_close hopen]
      exact hrecords.returnBuffer hext (openCount_pos hopen) hext'
  | processCredit time credits =>
      have hkept : ∃ p ext, next.buffer.policy = .sharedBuffer L p ext ∧
          ext.RecordsOf L.bufSize (openCount link.phase) name := by
        apply processCredit_induction (P := fun t => ∃ p ext, t.policy = .sharedBuffer L p ext ∧
          ext.RecordsOf L.bufSize (openCount link.phase) name) _ ⟨p, ext, hpolicy, hrecords⟩ hperform
        rintro t t' vc ⟨p, ext, hpolicy, hrecords⟩ ht'
        obtain ⟨-, -, -, -, policy, hfree, rfl⟩ := processCreditFor_ok.mp ht'
        rw [hpolicy] at hfree
        obtain ⟨p', -, hfree⟩ := bind_ok.mp hfree
        obtain ⟨ext', hext', hpolicy'⟩ := bind_ok.mp hfree
        obtain rfl := pure_ok.mp hpolicy'
        exact ⟨p', ext', rfl, hrecords.freeSlotFor hext'⟩
      rw [Configured, hphase]
      exact hkept
  | clearCredits => exact hsender.elim
  | fullCredits => exact hsender.elim
  | fillCredits => exact hsender.elim

/-- What the records of the configured subclass are to be. -/
def SlotLimits (link : CreditLink vcs) (L : SharedLayout vcs) (name : SharedPolicyName) : Prop :=
  let n := openCount link.phase
  match name with
  | .limited _ => ∃ p q, link.buffer.policy = .sharedBuffer L p (.limited q) ∧ q.activeVCs = n
  | .dynamic => ∃ p q, link.buffer.policy = .sharedBuffer L p (.dynamic q) ∧ q.activeVCs = n ∧
      (0 < n → q.maxHeldSlots = L.bufSize / n) ∧ (0 < L.bufSize → 1 ≤ q.maxHeldSlots) ∧
      q.maxHeldSlots * n ≤ L.bufSize
  | .shifting => ∃ p q, link.buffer.policy = .sharedBuffer L p (.shifting q) ∧ q.activeVCs = n ∧
      (0 < n → q.maxHeldSlots = L.bufSize >>> (n - 1).size) ∧
      (0 < L.bufSize → 1 ≤ q.maxHeldSlots) ∧ q.maxHeldSlots * n ≤ L.bufSize
  | _ => True

/-- A virtual channel is taken only where each of those that are then taken is
left a slot. -/
def LeavesSlots (link : CreditLink vcs) (L : SharedLayout vcs) (name : SharedPolicyName) :
    CreditOp vcs → Prop
  | .takeBuffer _ _ =>
      let n := openCount link.phase
      match name with
      | .dynamic => (n : Int) + 1 ≤ L.bufSize
      | .shifting => 2 ^ n.size ≤ L.bufSize
      | _ => True
  | _ => True

theorem Configured.slotLimits (h : link.Configured L name) (hsound : link.Sound) :
    link.SlotLimits L name := by
  obtain ⟨p, ext, hpolicy, hrecords⟩ := h
  have hext : ext.Sound L.bufSize (openCount link.phase) link.buffer.vcOccupancy :=
    (hsound.room.ofShared hpolicy).records
  have hsize : 0 ≤ L.bufSize := L.bufSize_nonneg
  cases hrecords with
  | limited maxHeldSlots q => exact ⟨p, q, hpolicy, hext⟩
  | dynamic q idle =>
      refine ⟨p, q, hpolicy, hext.active, hext.bound, ?_, ?_⟩
      · intro hpos
        rcases Nat.eq_zero_or_pos (openCount link.phase) with hzero | hn
        · rw [idle hzero]
          exact hpos
        · rw [hext.bound hn]
          exact hext.pos hn
      · rcases Nat.eq_zero_or_pos (openCount link.phase) with hzero | hn
        · simpa [hzero] using hsize
        · rw [hext.bound hn]
          exact Int.ediv_mul_le _ (Int.natCast_ne_zero.mpr hn.ne')
  | shifting q idle =>
      refine ⟨p, q, hpolicy, hext.active, ?_, ?_, ?_⟩
      · intro hn
        rw [hext.bound hn, ShiftingDynamicLimitedSharedBufferPolicy.held_eq,
          Int.shiftRight_eq_div_pow, Nat.cast_pow, Nat.cast_ofNat]
      · intro hpos
        rcases Nat.eq_zero_or_pos (openCount link.phase) with hzero | hn
        · rw [idle hzero]
          exact hpos
        · rw [hext.bound hn]
          exact hext.pos hn
      · rcases Nat.eq_zero_or_pos (openCount link.phase) with hzero | hn
        · simpa [hzero] using hsize
        · rw [hext.bound hn]
          exact ShiftingDynamicLimitedSharedBufferPolicy.held_mul_le hsize _
  | _ => trivial

theorem Configured.takesOneMore_iff (h : link.Configured L name) (hsound : link.Sound)
    (vc : Fin vcs) (tag : Nat) :
    link.TakesOneMore ↔ link.LeavesSlots L name (.takeBuffer vc tag) := by
  obtain ⟨p, ext, hpolicy, hrecords⟩ := h
  have hext : ext.Sound L.bufSize (openCount link.phase) link.buffer.vcOccupancy :=
    (hsound.room.ofShared hpolicy).records
  rw [TakesOneMore, hpolicy]
  cases hrecords with
  | dynamic q idle =>
      show 0 < DynamicLimitedSharedBufferPolicy.held L.bufSize (q.activeVCs + 1) ↔ _
      rw [hext.active]
      exact DynamicLimitedSharedBufferPolicy.held_pos_iff _ _
  | shifting q idle =>
      show 0 < ShiftingDynamicLimitedSharedBufferPolicy.held L.bufSize (q.activeVCs + 1) ↔ _
      rw [hext.active]
      exact ShiftingDynamicLimitedSharedBufferPolicy.held_pos_iff _ _
  | _ => exact Iff.rfl

theorem configured_new (L : SharedLayout vcs) (hsize : L.bufSize = config.size)
    (name : SharedPolicyName) : (new config (.sharedBuffer L hsize name)).Configured L name := by
  have hnone : openCount (new config (.sharedBuffer L hsize name)).phase = 0 :=
    openCount_eq_zero fun _ => rfl
  refine ⟨.new L, name.new L.bufSize, rfl, ?_⟩
  rw [hnone]
  exact SharedExtension.recordsOf_new name

/-- In every run of the sender's operations the limited policies count the
packets whose tail is not sent and have the limits for that number, and an
operation raises no error exactly if every virtual channel that is then taken
is left a slot. -/
theorem slotLimits_iff (L : SharedLayout vcs) (hsize : L.bufSize = config.size)
    (name : SharedPolicyName)
    (hreach : Reaches (fun _ op => op.FromSender) (new config (.sharedBuffer L hsize name)) link) :
    link.SlotLimits L name ∧ ∀ op : CreditOp vcs, op.FromSender → link.Guarded op →
      ((∃ next, link.step op = .ok next) ↔ link.LeavesSlots L name op) := by
  obtain ⟨hconfigured, hsound⟩ : link.Configured L name ∧ link.Sound := by
    induction hreach with
    | refl => exact ⟨configured_new L hsize name, sound_new (.sharedBuffer L hsize name) trivial⟩
    | step op _ hguard hsender hstep ih =>
        obtain ⟨hconfigured, hsound⟩ := ih
        obtain ⟨next, hnext, hnextSound⟩ :=
          hsound.exists_step hguard (hconfigured.keepsInStep hsender hstep)
        rw [hstep] at hnext
        obtain rfl := Except.ok.inj hnext
        exact ⟨hconfigured.step hsound hsender hguard hstep, hnextSound⟩
  refine ⟨hconfigured.slotLimits hsound, fun op hsender hguard => ?_⟩
  constructor
  · rintro ⟨next, hstep⟩
    have hkeeps := hconfigured.keepsInStep hsender hstep
    cases op with
    | takeBuffer vc tag => exact (hconfigured.takesOneMore_iff hsound vc tag).mp hkeeps
    | _ => trivial
  · intro hleaves
    have hkeeps : link.KeepsInStep op := by
      cases op with
      | takeBuffer vc tag => exact (hconfigured.takesOneMore_iff hsound vc tag).mpr hleaves
      | clearCredits => exact hsender.elim
      | fullCredits => exact hsender.elim
      | _ => trivial
    obtain ⟨next, hnext, -⟩ := hsound.exists_step hguard hkeeps
    exact ⟨next, hnext⟩

/-- One of two virtual channels is taken under the shifting policy. -/
theorem slotLimits_iff_twoShared :
    ∃ link, Reaches (fun _ op => op.FromSender)
        (new twoShared (.sharedBuffer twoSharedLayout rfl .shifting)) link ∧
      link.SlotLimits twoSharedLayout .shifting ∧
      ∀ op : CreditOp 2, op.FromSender → link.Guarded op →
        ((∃ next, link.step op = .ok next) ↔ link.LeavesSlots twoSharedLayout .shifting op) := by
  have hsender : CreditOp.FromSender (.takeBuffer (0 : Fin 2) 0) := trivial
  have hguard : (new twoShared (.sharedBuffer twoSharedLayout rfl .shifting)).Guarded
      (.takeBuffer 0 0) := rfl
  have hleaves : (new twoShared (.sharedBuffer twoSharedLayout rfl .shifting)).LeavesSlots
      twoSharedLayout .shifting (.takeBuffer 0 0) := by
    show (2 : Int) ^ (openCount fun _ : Fin 2 => PacketPhase.noPacket).size ≤ 2
    rw [openCount_eq_zero fun _ => rfl]
    decide
  obtain ⟨link, hlink⟩ :=
    ((slotLimits_iff twoSharedLayout rfl .shifting .refl).2 _ hsender hguard).mpr hleaves
  have hreach : Reaches (fun _ op => op.FromSender)
      (new twoShared (.sharedBuffer twoSharedLayout rfl .shifting)) link :=
    .step _ .refl hguard hsender hlink
  exact ⟨link, hreach, slotLimits_iff twoSharedLayout rfl .shifting hreach⟩

/-- Three virtual channels that share two slots. -/
def threeShared : BufferConfig 3 where
  vcBufSize := 1
  bufSize := 2
  waitForTailCredit := true

def threeSharedLayout : SharedLayout 3 where
  privateBufs := 1
  bufSize := 2
  privateBufVcMap _ := 0
  privateBufSize _ := 1
  privateBufSize_nonneg _ := Int.one_nonneg
  sum_le_bufSize := twoSharedLayout.sum_le_bufSize

/-- The third virtual channel that is taken leaves none of them a slot. -/
theorem raises_noHeldSlots :
    ∃ link, Reaches (fun _ op => op.FromSender)
        (new threeShared (.sharedBuffer threeSharedLayout rfl .dynamic)) link ∧
      link.Guarded (.takeBuffer 2 2) ∧
      link.step (.takeBuffer 2 2) = .error .noHeldSlots := by
  have hfirst : Reaches (fun _ op => op.FromSender)
      (new threeShared (.sharedBuffer threeSharedLayout rfl .dynamic)) _ :=
    .step (.takeBuffer 0 0) .refl rfl trivial rfl
  have hsecond := Reaches.step (.takeBuffer 1 1) hfirst rfl trivial rfl
  exact ⟨_, hsecond, rfl, rfl⟩

end CreditLink

end Flyover
