import Flyover.Buffer.PowerGating

/-!
# Accounting of the shared policies

Without power gating the records of a policy that shares slots are exact: what
a private buffer counts are the outstanding flits of its virtual channels and
the slots reserved for them. Two operations can break this: a virtual channel
that is given back keeps the slots that are reserved for it, and a dynamic
policy may be left with no slot to hold.
-/

namespace Flyover

variable {vcs : Nat}

namespace BufferPolicy

variable {L : SharedLayout vcs} {p : SharedBufferPolicy L} {ext : SharedExtension vcs}
  {policy : BufferPolicy vcs} {time : Int} {vc : Fin vcs}

theorem freeSlotFor_ok {available empty : Bool}
    (h : freeSlotFor available empty time vc (.sharedBuffer L p ext) = .ok policy) :
    ∃ p' ext', p.freeSlotFor available empty vc = .ok p' ∧ policy = .sharedBuffer L p' ext' := by
  obtain ⟨p', hp', h⟩ := bind_ok.mp h
  obtain ⟨ext', -, h⟩ := bind_ok.mp h
  exact ⟨p', ext', hp', (pure_ok.mp h).symm⟩

theorem sendingFlit_ok {occupancy : Int} {tail : Bool}
    (h : sendingFlit occupancy time vc tail (.sharedBuffer L p ext) = .ok policy) :
    ∃ p' ext', p.sendingFlit vc tail = .ok p' ∧ policy = .sharedBuffer L p' ext' := by
  obtain ⟨p', hp', h⟩ := bind_ok.mp h
  obtain ⟨ext', -, h⟩ := bind_ok.mp h
  exact ⟨p', ext', hp', (pure_ok.mp h).symm⟩

theorem takeBuffer_ok (h : takeBuffer (.sharedBuffer L p ext) = .ok policy) :
    ∃ ext', ext.takeBuffer L.bufSize = .ok ext' ∧ policy = .sharedBuffer L p ext' := by
  obtain ⟨ext', hext', h⟩ := bind_ok.mp h
  exact ⟨ext', hext', (pure_ok.mp h).symm⟩

theorem returnBuffer_ok (h : returnBuffer (.sharedBuffer L p ext) = .ok policy) :
    ∃ ext', ext.returnBuffer L.bufSize = .ok ext' ∧ policy = .sharedBuffer L p ext' := by
  obtain ⟨ext', hext', h⟩ := bind_ok.mp h
  exact ⟨ext', hext', (pure_ok.mp h).symm⟩

end BufferPolicy

/-- A dynamic policy that has let a virtual channel be taken could do so. -/
theorem SharedExtension.takesOneMore_of_ok {bufSize : Int} {ext ext' : SharedExtension vcs}
    (h : ext.takeBuffer bufSize = .ok ext') : ext.TakesOneMore bufSize := by
  cases ext with
  | shared => trivial
  | limited p => trivial
  | dynamic p =>
      obtain ⟨p', hp', -⟩ := bind_ok.mp h
      obtain ⟨q, hq, hp'⟩ := bind_ok.mp hp'
      obtain ⟨-, hq⟩ := ensure_bind_ok.mp hq
      obtain rfl := pure_ok.mp hq
      obtain ⟨-, hp'⟩ := ensure_bind_ok.mp hp'
      obtain ⟨hpos, rfl⟩ := LimitedSharedBufferPolicy.resize_ok.mp hp'
      exact hpos
  | shifting p =>
      obtain ⟨p', hp', -⟩ := bind_ok.mp h
      obtain ⟨q, hq, hp'⟩ := bind_ok.mp hp'
      obtain ⟨-, hq⟩ := ensure_bind_ok.mp hq
      obtain rfl := pure_ok.mp hq
      obtain ⟨-, hp'⟩ := ensure_bind_ok.mp hp'
      obtain ⟨hpos, rfl⟩ := LimitedSharedBufferPolicy.resize_ok.mp hp'
      exact hpos
  | feedback config p => trivial
  | simpleFeedback config p => trivial

namespace CreditLink

/-- The accounting of a policy that shares slots. -/
structure Accounting (link : CreditLink vcs) {L : SharedLayout vcs} (p : SharedBufferPolicy L) :
    Prop where
  private_eq : ∀ i, p.privateBufOccupancy i =
    ∑ vc with L.privateBufVcMap vc = i, (link.buffer.vcOccupancy vc + p.reservedSlots vc)
  shared_eq : p.sharedBufOccupancy =
    ∑ i, max 0 (p.privateBufOccupancy i - L.privateBufSize i)
  shared_le : p.sharedBufOccupancy ≤ L.sharedBufSize
  reserved : ∀ vc, 0 < p.reservedSlots vc → link.buffer.isAvailableFor vc = false
  full_iff : ∀ time vc,
    link.buffer.isFullFor time vc = true ↔ link.buffer.availableFor time vc ≤ 0

/-- The policy shares slots, and its accounting is right. -/
def Accounted (link : CreditLink vcs) : Prop :=
  match link.buffer.policy with
  | .privateBuffer _ => False
  | .sharedBuffer _ p _ => link.Accounting p

end CreditLink

/-- The sender's operations; the others are those of power gating. -/
def CreditOp.FromSender : CreditOp vcs → Prop
  | .clearCredits | .fullCredits | .fillCredits => False
  | _ => True

namespace CreditLink

/-- An operation that keeps the accounting right. -/
def KeepsAccount (link : CreditLink vcs) : CreditOp vcs → Prop
  | .takeBuffer _ _ => link.TakesOneMore
  | .returnBuffer vc =>
      match link.buffer.policy with
      | .privateBuffer _ => True
      | .sharedBuffer _ p _ =>
          link.buffer.waitForTailCredit = true ∨ p.reservedSlots vc = 0
  | _ => True

/-- The records are exact, and slots are reserved for open packets only. -/
structure Exact (link : CreditLink vcs) {L : SharedLayout vcs} (p : SharedBufferPolicy L) :
    Prop where
  unaccounted : p.unaccounted link.buffer.vcOccupancy = fun _ => 0
  idle : link.buffer.waitForTailCredit = false → ∀ vc, ¬ link.Open vc →
    link.buffer.isAvailableFor vc = true
  closed : ∀ vc, ¬ link.Open vc → p.reservedSlots vc = 0
  taken : link.buffer.waitForTailCredit = true → ∀ vc, link.phase vc = .taken →
    p.reservedSlots vc = 0

/-- An exact and sound link is one whose policy shares slots. -/
def Kept (link : CreditLink vcs) : Prop :=
  link.Sound ∧ ∃ L p ext, link.buffer.policy = .sharedBuffer L p ext ∧ link.Exact p

open BufferState

variable {s s' : BufferState vcs} {phase : Fin vcs → PacketPhase} {vc : Fin vcs}
  {L : SharedLayout vcs} {p p' : SharedBufferPolicy L} {ext : SharedExtension vcs}

theorem SharedRoom.isFullFor_iff (h : SharedRoom ⟨s, phase⟩ p ext)
    (hpolicy : s.policy = .sharedBuffer L p ext) (time : Int) (vc : Fin vcs) :
    s.isFullFor time vc = true ↔ s.availableFor time vc ≤ 0 := by
  have hiff : p.isFullFor vc = true ↔ p.availableFor vc ≤ 0 :=
    SharedBufferPolicy.isFullFor_iff h.balanced
  rw [isFullFor, availableFor, hpolicy, BufferPolicy.isFullFor, BufferPolicy.availableFor,
    Bool.or_eq_true, hiff]
  cases ext.slotLimit time vc with
  | none => simp
  | some limit =>
      simp only [Option.any_some, decide_eq_true_eq]
      omega

theorem Exact.accounting (h : Exact ⟨s, phase⟩ p) (hsound : Sound ⟨s, phase⟩)
    (hpolicy : s.policy = .sharedBuffer L p ext) : Accounting ⟨s, phase⟩ p where
  private_eq i := by
    have hzero := congrFun h.unaccounted i
    rw [SharedBufferPolicy.unaccounted, Pool.held] at hzero
    dsimp only at hzero ⊢
    omega
  shared_eq := (hsound.room.ofShared hpolicy).balanced.shared_eq
  shared_le := (hsound.room.ofShared hpolicy).balanced.shared_le
  reserved vc hpos := by
    apply hsound.disciplined.owned vc
    intro hclosed
    have hzero := h.closed vc fun hopen => hopen hclosed
    omega
  full_iff := (hsound.room.ofShared hpolicy).isFullFor_iff hpolicy

theorem Kept.accounted {link : CreditLink vcs} (h : link.Kept) : link.Accounted := by
  obtain ⟨hsound, L, p, ext, hpolicy, hexact⟩ := h
  rw [Accounted, hpolicy]
  exact hexact.accounting hsound hpolicy

/-! ### The operations -/

theorem Exact.of_change {d : Int} {phase' : Fin vcs → PacketPhase} (h : Exact ⟨s, phase⟩ p)
    (hchange : p.SlotChange p' vc d)
    (hwait : s'.waitForTailCredit = s.waitForTailCredit)
    (hocc : s'.vcOccupancy = Function.update s.vcOccupancy vc (s.vcOccupancy vc + d))
    (havail : ∀ u, u ≠ vc → s'.isAvailableFor u = s.isAvailableFor u)
    (hphase : ∀ u, u ≠ vc → phase' u = phase u)
    (hidle : s.waitForTailCredit = false → phase' vc = .noPacket → s'.isAvailableFor vc = true)
    (hclosed : phase' vc = .noPacket → p'.reservedSlots vc = 0)
    (htaken : s.waitForTailCredit = true → phase' vc = .taken → p'.reservedSlots vc = 0) :
    Exact ⟨s', phase'⟩ p' where
  unaccounted := by
    dsimp only
    rw [hocc, hchange.unaccounted_eq]
    exact h.unaccounted
  idle hwait' u hu := by
    dsimp only at hwait' ⊢
    rw [hwait] at hwait'
    by_cases huv : u = vc
    · subst huv
      exact hidle hwait' (not_not.mp hu)
    · rw [havail u huv]
      apply h.idle hwait' u
      intro hopen
      exact hu fun hnone => hopen ((hphase u huv).symm.trans hnone)
  closed u hu := by
    by_cases huv : u = vc
    · subst huv
      exact hclosed (not_not.mp hu)
    · rw [hchange.others u huv]
      apply h.closed u
      intro hopen
      exact hu fun hnone => hopen ((hphase u huv).symm.trans hnone)
  taken hwait' u hu := by
    dsimp only at hwait' hu
    rw [hwait] at hwait'
    by_cases huv : u = vc
    · subst huv
      exact htaken hwait' hu
    · rw [hchange.others u huv]
      exact h.taken hwait' u ((hphase u huv).symm.trans hu)

theorem Kept.credit (h : Kept ⟨s, phase⟩) (hocc : 0 < s.vcOccupancy vc) {time : Int}
    (hs' : s.processCreditFor time vc = .ok s') (hsound : Sound ⟨s', phase⟩) :
    Kept ⟨s', phase⟩ := by
  obtain ⟨⟨hdisc, -⟩, L, p, ext, hpolicy, hexact⟩ := h
  obtain ⟨-, -, -, -, policy, hfree, rfl⟩ := processCreditFor_ok.mp hs'
  have hpolicy' : s.policy = .sharedBuffer L p ext := hpolicy
  rw [hpolicy'] at hfree
  obtain ⟨p', ext', hp', rfl⟩ := BufferPolicy.freeSlotFor_ok hfree
  obtain ⟨hchange, hres⟩ := SharedBufferPolicy.freeSlotFor_ok hp'
  refine ⟨hsound, L, p', ext', rfl, ?_⟩
  apply hexact.of_change hchange
  case hwait => rfl
  case hocc => rfl
  case hphase => exact fun _ _ => rfl
  case havail =>
    intro u hu
    show (s.credited vc).isAvailableFor u = s.isAvailableFor u
    rw [isAvailableFor_credited]
    simp [hu]
  case hidle =>
    intro hwait hclosed
    show (s.credited vc).isAvailableFor vc = true
    have : s.isAvailableFor vc = true := hexact.idle hwait vc fun hopen => hopen hclosed
    rw [isAvailableFor_credited, this, Bool.true_or]
  case hclosed =>
    intro hclosed
    have hnot : ¬ Open ⟨s, phase⟩ vc := fun hopen => hopen hclosed
    have hzero : p.reservedSlots vc = 0 := hexact.closed vc hnot
    rw [hres, isAvailableFor_credited]
    cases hwait : s.waitForTailCredit with
    | false =>
        have havail : s.isAvailableFor vc = true := hexact.idle hwait vc hnot
        rw [havail]
        exact hzero
    | true =>
        -- the last credit of a packet releases the virtual channel
        have hused : s.isAvailableFor vc = false := hdisc.pending hwait vc hocc
        have htail : s.tailSent vc = true := hdisc.closed hwait vc hused hnot
        have hempty : (s.credited vc).isEmptyFor vc = (s.vcOccupancy vc - 1 == 0) := by
          dsimp only [isEmptyFor, BufferState.credited]
          rw [Function.update_self]
        rw [hused, hempty]
        cases hlast : s.vcOccupancy vc - 1 == 0 with
        | false => simpa using hzero
        | true => simpa [releases, hwait, hlast, htail] using hzero
  case htaken =>
    intro hwait htaken
    have hzero : s.vcOccupancy vc = 0 := hdisc.fresh hwait vc htaken
    omega

theorem Kept.sent (h : Kept ⟨s, phase⟩) {time : Int} {tail : Bool}
    (hs' : s.sendingFlit time vc tail = .ok s')
    (hsound : Sound ⟨s', Function.update phase vc (if tail then .noPacket else .partlySent)⟩) :
    Kept ⟨s', Function.update phase vc (if tail then .noPacket else .partlySent)⟩ := by
  obtain ⟨-, L, p, ext, hpolicy, hexact⟩ := h
  obtain ⟨-, -, policy, hsend, rfl⟩ := BufferState.sendingFlit_ok.mp hs'
  have hpolicy' : s.policy = .sharedBuffer L p ext := hpolicy
  rw [hpolicy'] at hsend
  obtain ⟨p', ext', hp', rfl⟩ := BufferPolicy.sendingFlit_ok hsend
  obtain ⟨hchange, hres⟩ := SharedBufferPolicy.sendingFlit_ok hp'
  refine ⟨hsound, L, p', ext', rfl, ?_⟩
  apply hexact.of_change hchange
  case hwait => rfl
  case hocc => rfl
  case hphase => exact fun u hu => Function.update_of_ne hu _ _
  case havail =>
    intro u hu
    show (s.sent vc tail).isAvailableFor u = s.isAvailableFor u
    rw [isAvailableFor_sent]
    simp [hu]
  case hidle =>
    intro hwait hclosed
    show (s.sent vc tail).isAvailableFor vc = true
    rw [Function.update_self] at hclosed
    cases tail with
    | false => cases hclosed
    | true => rw [isAvailableFor_sent, hwait]; simp
  case hclosed =>
    intro hclosed
    rw [Function.update_self] at hclosed
    cases tail with
    | false => cases hclosed
    | true => exact hres
  case htaken =>
    intro _ htaken
    rw [Function.update_self] at htaken
    cases tail <;> cases htaken

theorem Kept.take (h : Kept ⟨s, phase⟩) {tag : Nat} (hs' : s.takeBuffer vc tag = .ok s')
    (hsound : Sound ⟨s', Function.update phase vc .taken⟩) :
    Kept ⟨s', Function.update phase vc .taken⟩ := by
  obtain ⟨⟨hdisc, -⟩, L, p, ext, hpolicy, hexact⟩ := h
  obtain ⟨havail, policy, htake, rfl⟩ := BufferState.takeBuffer_ok.mp hs'
  have hpolicy' : s.policy = .sharedBuffer L p ext := hpolicy
  rw [hpolicy'] at htake
  obtain ⟨ext', -, rfl⟩ := BufferPolicy.takeBuffer_ok htake
  refine ⟨hsound, L, p, ext', rfl, ?_⟩
  apply hexact.of_change (.refl p vc)
  case hwait => rfl
  case hocc => exact (update_add_zero s vc).symm
  case hphase => exact fun u hu => Function.update_of_ne hu _ _
  case havail =>
    intro u hu
    show (s.owned vc (some tag)).isAvailableFor u = s.isAvailableFor u
    rw [isAvailableFor_owned, if_neg hu]
  case hidle =>
    intro _ hclosed
    rw [Function.update_self] at hclosed
    cases hclosed
  case hclosed =>
    intro hclosed
    rw [Function.update_self] at hclosed
    cases hclosed
  case htaken =>
    intro _ _
    apply hexact.closed vc
    intro hopen
    have hused : s.isAvailableFor vc = false := hdisc.owned vc hopen
    rw [hused] at havail
    cases havail

theorem Kept.giveBack (h : Kept ⟨s, phase⟩) (htaken : phase vc = .taken)
    (hkeeps : KeepsAccount ⟨s, phase⟩ (.returnBuffer vc)) (hs' : s.returnBuffer vc = .ok s')
    (hsound : Sound ⟨s', Function.update phase vc .noPacket⟩) :
    Kept ⟨s', Function.update phase vc .noPacket⟩ := by
  obtain ⟨-, L, p, ext, hpolicy, hexact⟩ := h
  obtain ⟨-, policy, hreturn, rfl⟩ := BufferState.returnBuffer_ok.mp hs'
  have hpolicy' : s.policy = .sharedBuffer L p ext := hpolicy
  rw [hpolicy'] at hreturn
  obtain ⟨ext', -, rfl⟩ := BufferPolicy.returnBuffer_ok hreturn
  refine ⟨hsound, L, p, ext', rfl, ?_⟩
  apply hexact.of_change (.refl p vc)
  case hwait => rfl
  case hocc => exact (update_add_zero s vc).symm
  case hphase => exact fun u hu => Function.update_of_ne hu _ _
  case havail =>
    intro u hu
    show (s.owned vc none).isAvailableFor u = s.isAvailableFor u
    rw [isAvailableFor_owned, if_neg hu]
  case hidle =>
    intro _ _
    show (s.owned vc none).isAvailableFor vc = true
    rw [isAvailableFor_owned, if_pos rfl]
    rfl
  case hclosed =>
    intro _
    dsimp only [KeepsAccount] at hkeeps
    rw [hpolicy'] at hkeeps
    rcases hkeeps with hwait | hzero
    · exact hexact.taken hwait vc htaken
    · exact hzero
  case htaken =>
    intro _ htaken
    rw [Function.update_self] at htaken
    cases htaken

/-! ### Runs -/

theorem KeepsAccount.keepsInStep {link : CreditLink vcs} {op : CreditOp vcs}
    (hsender : op.FromSender) (hkeeps : link.KeepsAccount op) : link.KeepsInStep op := by
  cases op with
  | takeBuffer vc tag => exact hkeeps
  | sendingFlit time vc tail => trivial
  | returnBuffer vc => trivial
  | processCredit time credits => trivial
  | clearCredits => exact hsender.elim
  | fullCredits => exact hsender.elim
  | fillCredits => exact hsender.elim

theorem Kept.exists_step {link : CreditLink vcs} (h : link.Kept) {op : CreditOp vcs}
    (hsender : op.FromSender) (hguard : link.Guarded op) (hkeeps : link.KeepsAccount op) :
    ∃ next, link.step op = .ok next ∧ next.Kept := by
  cases link with
  | mk s phase =>
      have hsound := h.1
      have hinstep := hkeeps.keepsInStep hsender
      have hstep : ∃ s', s.perform op = .ok s' ∧ Kept ⟨s', nextPhase phase op⟩ := by
        cases op with
        | takeBuffer vc tag =>
            obtain ⟨s', hs', hs'sound⟩ := hsound.exists_takeBuffer hguard hinstep tag
            exact ⟨s', hs', h.take hs' hs'sound⟩
        | sendingFlit time vc tail =>
            obtain ⟨s', hs', hs'sound⟩ := hsound.exists_sendingFlit hguard.1 time hguard.2 tail
            exact ⟨s', hs', h.sent hs' hs'sound⟩
        | returnBuffer vc =>
            obtain ⟨s', hs', hs'sound⟩ := hsound.exists_returnBuffer hguard
            exact ⟨s', hs', h.giveBack hguard hkeeps hs' hs'sound⟩
        | processCredit time credits =>
            apply exists_processCredit _ hguard.1 hguard.2 h
            intro t vc ht hocc
            obtain ⟨t', ht', hsound'⟩ := ht.1.exists_credit hocc time
            exact ⟨t', ht', ht.credit hocc ht' hsound'⟩
        | clearCredits => exact hsender.elim
        | fullCredits => exact hsender.elim
        | fillCredits => exact hsender.elim
      obtain ⟨s', hs', hkept⟩ := hstep
      exact ⟨_, step_ok.mpr ⟨hs', rfl⟩, hkept⟩

/-- An operation that leaves the accounting right meets the condition. -/
theorem Kept.keepsAccount {link next : CreditLink vcs} (h : link.Kept) {op : CreditOp vcs}
    (hstep : link.step op = .ok next) (hnext : next.Accounted) : link.KeepsAccount op := by
  obtain ⟨-, L, p, ext, hpolicy, -⟩ := h
  obtain ⟨hstep, -⟩ := step_ok.mp hstep
  cases op with
  | takeBuffer vc tag =>
      obtain ⟨-, policy, htake, -⟩ := BufferState.takeBuffer_ok.mp hstep
      rw [hpolicy] at htake
      obtain ⟨ext', hext', -⟩ := BufferPolicy.takeBuffer_ok htake
      rw [KeepsAccount, TakesOneMore, hpolicy]
      exact SharedExtension.takesOneMore_of_ok hext'
  | returnBuffer vc =>
      obtain ⟨-, policy, hreturn, hbuffer⟩ := BufferState.returnBuffer_ok.mp hstep
      rw [hpolicy] at hreturn
      obtain ⟨ext', -, rfl⟩ := BufferPolicy.returnBuffer_ok hreturn
      rw [KeepsAccount, hpolicy]
      right
      rw [Accounted, hbuffer] at hnext
      have haccount : next.Accounting p := hnext
      by_contra hne
      have hused := haccount.reserved vc (Nat.pos_of_ne_zero hne)
      rw [hbuffer] at hused
      have hfree : (link.buffer.owned vc none).isAvailableFor vc = true := by
        rw [isAvailableFor_owned, if_pos rfl]
        rfl
      exact Bool.false_ne_true (hused.symm.trans hfree)
  | sendingFlit time vc tail => trivial
  | processCredit time credits => trivial
  | clearCredits => trivial
  | fullCredits => trivial
  | fillCredits => trivial

variable {config : BufferConfig vcs}

theorem kept_new (L : SharedLayout vcs) (hsize : L.bufSize = config.size)
    (name : SharedPolicyName) : (new config (.sharedBuffer L hsize name)).Kept := by
  refine ⟨sound_new (.sharedBuffer L hsize name) trivial, L, .new L, name.new L.bufSize, rfl, ?_⟩
  constructor
  case unaccounted =>
    funext i
    exact unaccounted_new L i
  case idle => exact fun _ _ _ => rfl
  case closed => exact fun _ _ => rfl
  case taken => exact fun _ _ _ => rfl

/-- In every run of the sender's operations that keep the account, the
accounting is right, and an operation that the sender may perform leaves it
right, without an error, exactly if it keeps the account. -/
theorem accounted_iff (L : SharedLayout vcs) (hsize : L.bufSize = config.size)
    (name : SharedPolicyName) {link : CreditLink vcs}
    (hreach : Reaches (fun link op => op.FromSender ∧ link.KeepsAccount op)
      (new config (.sharedBuffer L hsize name)) link) :
    link.Accounted ∧ ∀ op : CreditOp vcs, op.FromSender → link.Guarded op →
      ((∃ next, link.step op = .ok next ∧ next.Accounted) ↔ link.KeepsAccount op) := by
  have hkept : link.Kept := by
    induction hreach with
    | refl => exact kept_new L hsize name
    | step _ _ hguard hmeets hstep ih =>
        obtain ⟨next, hnext, hkept⟩ := ih.exists_step hmeets.1 hguard hmeets.2
        rw [hstep] at hnext
        obtain rfl := Except.ok.inj hnext
        exact hkept
  refine ⟨hkept.accounted, fun op hsender hguard => ⟨?_, ?_⟩⟩
  · rintro ⟨next, hstep, hnext⟩
    exact hkept.keepsAccount hstep hnext
  · intro hkeeps
    obtain ⟨next, hstep, hnext⟩ := hkept.exists_step hsender hguard hkeeps
    exact ⟨next, hstep, hnext.accounted⟩

/-- Two virtual channels share two slots under the dynamic policy, and one is taken. -/
theorem accounted_iff_twoShared :
    ∃ link, (new twoShared (.sharedBuffer twoSharedLayout rfl .dynamic)).step (.takeBuffer 0 0) =
        .ok link ∧
      link.Accounted ∧ ∀ op : CreditOp 2, op.FromSender → link.Guarded op →
        ((∃ next, link.step op = .ok next ∧ next.Accounted) ↔ link.KeepsAccount op) := by
  have hsender : CreditOp.FromSender (.takeBuffer (0 : Fin 2) 0) := trivial
  have hguard : (new twoShared (.sharedBuffer twoSharedLayout rfl .dynamic)).Guarded
      (.takeBuffer 0 0) := rfl
  have htakes : (new twoShared (.sharedBuffer twoSharedLayout rfl .dynamic)).KeepsAccount
      (.takeBuffer 0 0) := show (0 : Int) < 2 / (0 + 1) by decide
  obtain ⟨link, hlink, -⟩ := (kept_new twoSharedLayout rfl .dynamic).exists_step hsender hguard
    htakes
  exact ⟨link, hlink, accounted_iff twoSharedLayout rfl .dynamic
    (.step _ .refl hguard ⟨hsender, htakes⟩ hlink)⟩

/-! ### A virtual channel given back with a reserved slot -/

/-- One virtual channel with one slot, which is not held for the tail credit. -/
def oneShared : BufferConfig 1 where
  vcBufSize := 1
  bufSize := -1
  waitForTailCredit := false

def oneSharedLayout : SharedLayout 1 where
  privateBufs := 1
  bufSize := 1
  privateBufVcMap _ := 0
  privateBufSize _ := 1
  privateBufSize_nonneg _ := Int.one_nonneg
  sum_le_bufSize := by decide

/-- A packet of one flit is sent, the virtual channel is taken for the next
packet, the credit of the first is reserved for the second, and the second
gives the virtual channel back. -/
theorem not_accounted_of_giveBack :
    ∃ link, Reaches (fun _ op => op.FromSender)
        (new oneShared (.sharedBuffer oneSharedLayout rfl .shared)) link ∧ ¬ link.Accounted := by
  have htake : Reaches (fun _ op => op.FromSender)
      (new oneShared (.sharedBuffer oneSharedLayout rfl .shared)) _ :=
    .step (.takeBuffer 0 0) .refl rfl trivial rfl
  have hsend := Reaches.step (.sendingFlit 0 0 true) htake ⟨nofun, rfl⟩ trivial rfl
  have hnext := Reaches.step (.takeBuffer 0 0) hsend rfl trivial rfl
  have hcredit := Reaches.step (.processCredit 0 [0]) hnext
    ⟨List.nodup_singleton 0, fun vc _ => by decide +revert⟩ trivial rfl
  have hreturn := Reaches.step (.returnBuffer 0) hcredit rfl trivial rfl
  refine ⟨_, hreturn, fun haccounted => ?_⟩
  exact Bool.false_ne_true (haccounted.reserved 0 (by decide)).symm

end CreditLink

end Flyover
