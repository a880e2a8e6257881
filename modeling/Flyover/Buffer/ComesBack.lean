import Flyover.Buffer.Accounting

/-!
# Whether the virtual channels come back

A downstream router is turned off: its credits are cleared, and the router
behind it issues credits for all its slots. With the private policy, once these
and the credits of the flits that were outstanding or are sent meanwhile have
come, every virtual channel is to be available and empty again. It is, in every
order of flits and credits, exactly if `wait_for_tail_credit` is set and no
virtual channel beside another one has a flit outstanding.
-/

namespace Flyover

variable {vcs : Nat}

namespace CreditLink

/-- The credits that are still to come, after an operation. -/
def nextOwed (owed : Fin vcs → Int) : CreditOp vcs → Fin vcs → Int
  | .sendingFlit _ vc _ => Function.update owed vc (owed vc + 1)
  | .processCredit _ credits => fun vc => if vc ∈ credits then owed vc - 1 else owed vc
  | _ => owed

/-- What can happen after the credits are cleared: the sender's own operations,
and credits that are still to come. -/
def MayFollow (link : CreditLink vcs) (owed : Fin vcs → Int) : CreditOp vcs → Prop
  | .processCredit _ credits => credits.Nodup ∧ ∀ vc ∈ credits, 0 < owed vc
  | .clearCredits | .fullCredits | .fillCredits => False
  | op => link.Guarded op

/-- The links, with the credits that are still to come, after the credits of a
link are cleared and `q` are issued for each virtual channel. -/
inductive Settles (start : CreditLink vcs) (q : Int) : CreditLink vcs → (Fin vcs → Int) → Prop
  | clear : Settles start q ⟨start.buffer.clearCredits, start.phase⟩
      fun vc => start.buffer.vcOccupancy vc + q
  | step {link next : CreditLink vcs} {owed : Fin vcs → Int} (op : CreditOp vcs) :
      Settles start q link owed → link.MayFollow owed op → link.step op = .ok next →
        Settles start q next (nextOwed owed op)

/-- The virtual channels come back: no error is raised, and when all credits
have come and no packet is open, they are available and empty. -/
structure ComesBack (start : CreditLink vcs) (q : Int) : Prop where
  runs : ∀ {link owed} {op : CreditOp vcs}, Settles start q link owed →
    link.MayFollow owed op → ∃ next, link.step op = .ok next
  back : ∀ {link owed}, Settles start q link owed → (∀ vc, owed vc = 0) →
    (∀ vc, ¬ link.Open vc) → ∀ time vc,
      link.buffer.isAvailableFor vc = true ∧ link.buffer.isEmptyFor vc = true ∧
        link.buffer.availableFor time vc = q

end CreditLink

/-! ### Counters under the private policy -/

namespace BufferState

variable {s s' : BufferState vcs} {time : Int} {vc : Fin vcs} {q : Int}

theorem processCredit_induction {P : BufferState vcs → Prop}
    (hone : ∀ s s' vc, P s → s.processCreditFor time vc = .ok s' → P s')
    {credits : List (Fin vcs)} (hs : P s) (h : s.processCredit time credits = .ok s') : P s' := by
  induction credits generalizing s with
  | nil =>
      obtain rfl := Except.ok.inj h
      exact hs
  | cons vc rest ih =>
      obtain ⟨t, ht, h⟩ := bind_ok.mp h
      exact ih (hone s t vc hs ht) h

theorem processCredit_vcOccupancy {credits : List (Fin vcs)} (hnodup : credits.Nodup)
    (h : s.processCredit time credits = .ok s') :
    s'.vcOccupancy = fun vc => if vc ∈ credits then s.vcOccupancy vc - 1 else s.vcOccupancy vc := by
  induction credits generalizing s with
  | nil =>
      obtain rfl := Except.ok.inj h
      rfl
  | cons vc rest ih =>
      obtain ⟨hvc, hnodup⟩ := List.nodup_cons.mp hnodup
      obtain ⟨t, ht, h⟩ := bind_ok.mp h
      obtain ⟨-, -, -, -, policy, -, rfl⟩ := processCreditFor_ok.mp ht
      rw [ih hnodup h]
      funext u
      dsimp only [withPolicy, credited]
      by_cases hu : u = vc
      · subst hu
        rw [Function.update_self, if_neg hvc, if_pos List.mem_cons_self]
      · rw [Function.update_of_ne hu]
        simp [hu]

/-- The counters under the private policy, with `q` slots for each virtual channel. -/
structure PrivateCounters (s : BufferState vcs) (wait : Bool) (q : Int) : Prop where
  pos : 0 < q
  wait_eq : s.waitForTailCredit = wait
  policy : s.policy = .privateBuffer ⟨q, q⟩
  size : s.size = vcs * q
  nonneg : ∀ vc, 0 ≤ s.vcOccupancy vc
  drift : s.drift = 0

variable {wait : Bool}

theorem PrivateCounters.share_eq (h : s.PrivateCounters wait q) (vc : Fin vcs) :
    s.size / vcs = q := by
  have hvcs : (vcs : Int) ≠ 0 := by
    have := vc.pos
    omega
  rw [h.size]
  exact Int.mul_ediv_cancel_left q hvcs

theorem PrivateCounters.drift_clearCredits (h : s.PrivateCounters wait q) :
    s.clearCredits.drift = 0 := by
  rw [CreditLink.drift_clearCredits, h.drift, h.size]
  by_cases hvcs : (vcs : Int) = 0
  · rw [hvcs, Int.zero_mul, Int.zero_mul]
    rfl
  · rw [Int.mul_ediv_cancel_left q hvcs]
    omega

theorem PrivateCounters.counted (h : s.PrivateCounters wait q) : s.Counted where
  nonneg := h.nonneg
  drift := h.drift.ge

theorem PrivateCounters.credit (h : s.PrivateCounters wait q)
    (hs' : s.processCreditFor time vc = .ok s') : s'.PrivateCounters wait q := by
  obtain ⟨-, -, hocc, -, policy, hfree, rfl⟩ := processCreditFor_ok.mp hs'
  rw [h.policy] at hfree
  obtain rfl := pure_ok.mp hfree
  constructor
  case pos => exact h.pos
  case wait_eq => exact h.wait_eq
  case policy => rfl
  case size => exact h.size
  case drift => exact drift_credited.trans h.drift
  case nonneg =>
    apply Pool.update_nonneg h.nonneg
    omega

theorem PrivateCounters.perform (h : s.PrivateCounters wait q) {op : CreditOp vcs}
    (hs' : s.perform op = .ok s') : s'.PrivateCounters wait q := by
  have hreset : s.policy.resetVCBufferSize = .privateBuffer ⟨q, q⟩ := by
    rw [h.policy]
    rfl
  have hzero : ∀ t : BufferState vcs, t.occupancy = 0 → (t.vcOccupancy = fun _ => 0) →
      t.drift = 0 := fun t hocc hvcs => CreditLink.drift_of_zero hocc hvcs
  cases op with
  | takeBuffer vc tag =>
      obtain ⟨-, policy, htake, rfl⟩ := takeBuffer_ok.mp hs'
      rw [h.policy] at htake
      obtain rfl := pure_ok.mp htake
      exact ⟨h.pos, h.wait_eq, rfl, h.size, h.nonneg, h.drift⟩
  | sendingFlit time vc tail =>
      obtain ⟨-, -, policy, hsend, rfl⟩ := sendingFlit_ok.mp hs'
      rw [h.policy] at hsend
      obtain ⟨p, hp, hsend⟩ := bind_ok.mp hsend
      obtain ⟨-, hp⟩ := ensure_bind_ok.mp hp
      obtain rfl := pure_ok.mp hp
      obtain rfl := pure_ok.mp hsend
      refine ⟨h.pos, h.wait_eq, rfl, h.size, ?_, (drift_sent tail).trans h.drift⟩
      apply Pool.update_nonneg h.nonneg
      have := h.nonneg vc
      omega
  | returnBuffer vc =>
      obtain ⟨-, policy, hreturn, rfl⟩ := returnBuffer_ok.mp hs'
      rw [h.policy] at hreturn
      obtain rfl := pure_ok.mp hreturn
      exact ⟨h.pos, h.wait_eq, rfl, h.size, h.nonneg, h.drift⟩
  | processCredit time credits =>
      exact processCredit_induction (fun t t' vc ht ht' => PrivateCounters.credit ht ht') h hs'
  | clearCredits =>
      obtain rfl := pure_ok.mp hs'
      refine ⟨h.pos, h.wait_eq, h.policy, h.size, ?_, h.drift_clearCredits⟩
      intro vc
      have hshare := h.share_eq vc
      have hnonneg := h.nonneg vc
      have hpos := h.pos
      show 0 ≤ s.vcOccupancy vc + s.size / vcs
      omega
  | fullCredits =>
      obtain rfl := pure_ok.mp hs'
      exact ⟨h.pos, h.wait_eq, hreset, h.size, fun _ => le_rfl, hzero _ rfl rfl⟩
  | fillCredits =>
      obtain rfl := pure_ok.mp hs'
      exact ⟨h.pos, h.wait_eq, hreset, h.size, fun _ => le_rfl, hzero _ rfl rfl⟩

end BufferState

namespace CreditLink

open BufferState

variable {link next start : CreditLink vcs} {op : CreditOp vcs} {owed : Fin vcs → Int} {q : Int}
  {wait : Bool} {vc : Fin vcs}

theorem MayFollow.fromSender (h : link.MayFollow owed op) : op.FromSender := by
  cases op with
  | takeBuffer vc tag => trivial
  | sendingFlit time vc tail => trivial
  | returnBuffer vc => trivial
  | processCredit time credits => trivial
  | clearCredits => exact h
  | fullCredits => exact h
  | fillCredits => exact h

theorem MayFollow.guarded (h : link.MayFollow owed op) (howed : owed = link.buffer.vcOccupancy) :
    link.Guarded op := by
  cases op with
  | takeBuffer vc tag => exact h
  | sendingFlit time vc tail => exact h
  | returnBuffer vc => exact h
  | processCredit time credits =>
      rw [howed] at h
      exact h
  | clearCredits => trivial
  | fullCredits => trivial
  | fillCredits => trivial

/-- The credits that are still to come are those of the flits that are counted. -/
theorem MayFollow.nextOwed_eq (h : link.MayFollow owed op)
    (howed : owed = link.buffer.vcOccupancy) (hstep : link.step op = .ok next) :
    nextOwed owed op = next.buffer.vcOccupancy := by
  obtain ⟨hperform, -⟩ := step_ok.mp hstep
  cases op with
  | takeBuffer vc tag =>
      obtain ⟨-, policy, -, hbuffer⟩ := takeBuffer_ok.mp hperform
      rw [hbuffer]
      exact howed
  | sendingFlit time vc tail =>
      obtain ⟨-, -, policy, -, hbuffer⟩ := sendingFlit_ok.mp hperform
      rw [hbuffer, howed]
      rfl
  | returnBuffer vc =>
      obtain ⟨-, policy, -, hbuffer⟩ := returnBuffer_ok.mp hperform
      rw [hbuffer]
      exact howed
  | processCredit time credits =>
      rw [processCredit_vcOccupancy h.1 hperform, howed]
      rfl
  | clearCredits => exact h.elim
  | fullCredits => exact h.elim
  | fillCredits => exact h.elim

/-- The sender's operations neither make a virtual channel usable nor unusable. -/
theorem usable_step (hdisc : link.Disciplined) (hsender : op.FromSender) (hguard : link.Guarded op)
    (hstep : link.step op = .ok next) (u : Fin vcs) : next.Usable u ↔ link.Usable u := by
  obtain ⟨hperform, hphase⟩ := step_ok.mp hstep
  cases link with
  | mk s phase =>
      cases next with
      | mk s' phase' =>
          obtain rfl : phase' = nextPhase phase op := hphase
          cases op with
          | takeBuffer vc tag =>
              obtain ⟨havail, policy, -, rfl⟩ := takeBuffer_ok.mp hperform
              exact usable_take havail tag policy u
          | sendingFlit time vc tail =>
              obtain ⟨-, -, policy, -, rfl⟩ := sendingFlit_ok.mp hperform
              exact usable_sent hdisc hguard.1 tail policy u
          | returnBuffer vc =>
              obtain ⟨-, policy, -, rfl⟩ := returnBuffer_ok.mp hperform
              have hopen : Open ⟨s, phase⟩ vc := fun hclosed =>
                PacketPhase.noConfusion (Eq.trans (Eq.symm hguard) hclosed)
              exact usable_giveBack hopen policy u
          | processCredit time credits =>
              have hall : Disciplined ⟨s', phase⟩ ∧
                  ∀ u, Usable ⟨s', phase⟩ u ↔ Usable ⟨s, phase⟩ u := by
                apply processCredit_induction (P := fun t => Disciplined ⟨t, phase⟩ ∧
                  ∀ u, Usable ⟨t, phase⟩ u ↔ Usable ⟨s, phase⟩ u) _ ⟨hdisc, fun _ => Iff.rfl⟩ hperform
                rintro t t' vc ⟨ht, husable⟩ ht'
                obtain ⟨-, -, hocc, -, policy, -, rfl⟩ := processCreditFor_ok.mp ht'
                exact ⟨ht.credited hocc policy,
                  fun u => (usable_credited ht hocc policy u).trans (husable u)⟩
              exact hall.2 u
          | clearCredits => exact hsender.elim
          | fullCredits => exact hsender.elim
          | fillCredits => exact hsender.elim

theorem Settles.counters (h : Settles start q link owed)
    (hstart : start.buffer.PrivateCounters wait q) : link.buffer.PrivateCounters wait q := by
  induction h with
  | clear =>
      have hclear : start.buffer.perform .clearCredits = .ok start.buffer.clearCredits := rfl
      exact hstart.perform hclear
  | step op _ _ hstep ih => exact ih.perform (step_ok.mp hstep).1

/-! ### They come back -/

/-- What holds while the credits come, if the tail credit is waited for. -/
structure Returning (link : CreditLink vcs) (owed : Fin vcs → Int) : Prop where
  sound : link.Sound
  owed_eq : owed = link.buffer.vcOccupancy
  usable : ∀ vc, link.Usable vc

theorem returning_clear (hstart : start.buffer.PrivateCounters true q)
    (hclosed : ∀ vc, ¬ start.Open vc)
    (honly : ∀ vc, start.buffer.occupancy = start.buffer.vcOccupancy vc) :
    Returning ⟨start.buffer.clearCredits, start.phase⟩
      fun vc => start.buffer.vcOccupancy vc + q where
  sound := by
    have hsize : 0 ≤ start.buffer.size := by
      rw [hstart.size]
      exact Int.mul_nonneg (Int.natCast_nonneg vcs) hstart.pos.le
    refine ⟨disciplined_clearCredits hstart.counted hsize fun _ => hclosed, ?_⟩
    have hfits : PrivateBufferPolicy.Fits ⟨q, q⟩ vcs start.buffer.size :=
      ⟨hstart.pos, rfl, hstart.share_eq, hstart.size.ge⟩
    apply PrivateRoom.toRoom _
      (show start.buffer.clearCredits.policy = .privateBuffer ⟨q, q⟩ from hstart.policy)
    apply PrivateRoom.of_empty (show PrivateBufferPolicy.Fits _ vcs start.buffer.clearCredits.size
      from hfits)
    · have hdrift := hstart.drift_clearCredits
      have hle := hfits.le_size
      show start.buffer.clearCredits.drift ≤ start.buffer.size - _
      omega
    · intro v u _ hu
      have hzero := (hstart.counted.only_holder (honly v)).2 u hu
      have hshare := hstart.share_eq u
      show start.buffer.vcOccupancy u + start.buffer.size / vcs ≤ q
      omega
  owed_eq := by
    funext vc
    show _ = start.buffer.vcOccupancy vc + start.buffer.size / vcs
    rw [hstart.share_eq vc]
  usable vc := by
    apply (usable_clearCredits vc).mpr
    have hshare := hstart.share_eq vc
    have hnonneg := hstart.nonneg vc
    have hpos := hstart.pos
    refine .inr ⟨hstart.wait_eq, ?_⟩
    show 0 < start.buffer.vcOccupancy vc + start.buffer.size / vcs
    omega

theorem Returning.exists_step (h : Returning link owed)
    (hcounters : link.buffer.PrivateCounters true q) (hmay : link.MayFollow owed op) :
    ∃ next, link.step op = .ok next ∧ Returning next (nextOwed owed op) := by
  have hguard := hmay.guarded h.owed_eq
  have hkeeps : link.KeepsInStep op := by
    cases op with
    | takeBuffer vc tag =>
        rw [KeepsInStep, TakesOneMore, hcounters.policy]
        trivial
    | sendingFlit time vc tail => trivial
    | returnBuffer vc => trivial
    | processCredit time credits => trivial
    | clearCredits => exact hmay.elim
    | fullCredits => exact hmay.elim
    | fillCredits => exact hmay.elim
  obtain ⟨next, hnext, hsound⟩ := h.sound.exists_step hguard hkeeps
  refine ⟨next, hnext, hsound, hmay.nextOwed_eq h.owed_eq hnext, fun vc => ?_⟩
  exact (usable_step h.sound.disciplined hmay.fromSender hguard hnext vc).mpr (h.usable vc)

theorem Settles.returning (h : Settles start q link owed)
    (hstart : start.buffer.PrivateCounters true q) (hclosed : ∀ vc, ¬ start.Open vc)
    (honly : ∀ vc, start.buffer.occupancy = start.buffer.vcOccupancy vc) :
    Returning link owed := by
  induction h with
  | clear => exact returning_clear hstart hclosed honly
  | step op hbefore hmay hstep ih =>
      obtain ⟨next, hnext, hreturning⟩ := ih.exists_step (hbefore.counters hstart) hmay
      rw [hstep] at hnext
      obtain rfl := Except.ok.inj hnext
      exact hreturning

theorem comesBack_of_only (hstart : start.buffer.PrivateCounters true q)
    (hclosed : ∀ vc, ¬ start.Open vc)
    (honly : ∀ vc, start.buffer.occupancy = start.buffer.vcOccupancy vc) :
    start.ComesBack q where
  runs hsettles hmay := by
    obtain ⟨next, hnext, -⟩ := (hsettles.returning hstart hclosed honly).exists_step
      (hsettles.counters hstart) hmay
    exact ⟨next, hnext⟩
  back {link owed} hsettles howed hnone time vc := by
    have hreturning := hsettles.returning hstart hclosed honly
    have hempty : link.buffer.vcOccupancy vc = 0 := by
      rw [← hreturning.owed_eq]
      exact howed vc
    refine ⟨?_, ?_, ?_⟩
    · rcases hreturning.usable vc with havail | hopen | ⟨-, hpos⟩
      · exact havail
      · exact absurd hopen (hnone vc)
      · omega
    · rw [isEmptyFor, hempty]
      rfl
    · rw [availableFor, (hsettles.counters hstart).policy, hempty]
      exact Int.sub_zero q

/-! ### They do not come back -/

theorem nextOwed_credit (vc u : Fin vcs) :
    nextOwed owed (.processCredit 0 [vc]) u = if u = vc then owed u - 1 else owed u := by
  simp [nextOwed]

theorem credit_step (hstep : link.step (.processCredit 0 [vc]) = .ok next) :
    0 < link.buffer.vcOccupancy vc ∧ next.phase = link.phase ∧
      ∃ policy, next.buffer = (link.buffer.credited vc).withPolicy policy := by
  obtain ⟨hperform, hphase⟩ := step_ok.mp hstep
  obtain ⟨t, ht, hbuffer⟩ := bind_ok.mp hperform
  obtain ⟨-, -, hocc, -, policy, -, rfl⟩ := processCreditFor_ok.mp ht
  exact ⟨hocc, hphase, policy, (pure_ok.mp hbuffer).symm⟩

/-- Without `wait_for_tail_credit` the credits free no virtual channel. -/
structure Stuck (link : CreditLink vcs) : Prop where
  wait : link.buffer.waitForTailCredit = false
  used : ∀ vc, link.buffer.isAvailableFor vc = false
  closed : ∀ vc, ¬ link.Open vc

theorem exists_stuck (hback : start.ComesBack q) (n : Nat) (hsettles : Settles start q link owed)
    (hnonneg : ∀ vc, 0 ≤ owed vc) (hsum : ∑ vc, owed vc = n) (hstuck : link.Stuck) :
    ∃ link owed, Settles start q link owed ∧ (∀ vc, owed vc = 0) ∧ link.Stuck := by
  induction n generalizing link owed with
  | zero =>
      refine ⟨link, owed, hsettles, fun vc => ?_, hstuck⟩
      exact (Finset.sum_eq_zero_iff_of_nonneg fun u _ => hnonneg u).mp hsum vc (Finset.mem_univ vc)
  | succ n ih =>
      obtain ⟨vc, hvc⟩ : ∃ vc, 0 < owed vc := by
        by_contra hnone
        have hle : ∑ vc, owed vc ≤ 0 :=
          Finset.sum_nonpos fun vc _ => Int.not_lt.mp fun hpos => hnone ⟨vc, hpos⟩
        omega
      have hmay : link.MayFollow owed (.processCredit 0 [vc]) :=
        ⟨List.nodup_singleton vc, fun u hu => List.mem_singleton.mp hu ▸ hvc⟩
      obtain ⟨next, hnext⟩ := hback.runs hsettles hmay
      obtain ⟨-, hphase, policy, hbuffer⟩ := credit_step hnext
      apply ih (hsettles.step _ hmay hnext)
      · intro u
        rw [nextOwed_credit]
        split
        next hu => exact hu ▸ Int.le_sub_one_of_lt hvc
        next => exact hnonneg u
      · have hoff : ∀ u, u ≠ vc → nextOwed owed (.processCredit 0 [vc]) u = owed u := by
          intro u hu
          rw [nextOwed_credit, if_neg hu]
        rw [Pool.sum_of_eq_off hoff, nextOwed_credit, if_pos rfl]
        omega
      · constructor
        case wait =>
          rw [hbuffer]
          exact hstuck.wait
        case used =>
          intro u
          have hkept : ((link.buffer.credited vc).withPolicy policy).isAvailableFor u =
            (link.buffer.isAvailableFor u || (decide (u = vc) && link.buffer.releases vc)) :=
            isAvailableFor_credited
          rw [hbuffer, hkept, hstuck.used u, releases, hstuck.wait]
          simp
        case closed =>
          intro u hopen
          apply hstuck.closed u
          intro hnone
          exact hopen ((congrFun hphase u).trans hnone)

/-- The tail credit is waited for where the virtual channels come back. -/
theorem ComesBack.waits (hback : start.ComesBack q) (hstart : start.buffer.PrivateCounters wait q)
    (hclosed : ∀ vc, ¬ start.Open vc) (vc : Fin vcs) : wait = true := by
  by_contra hwait
  have hstuck : Stuck ⟨start.buffer.clearCredits, start.phase⟩ :=
    ⟨hstart.wait_eq.trans (Bool.eq_false_of_not_eq_true hwait), fun _ => rfl, hclosed⟩
  have hnonneg : ∀ u, 0 ≤ start.buffer.vcOccupancy u + q := fun u =>
    Int.add_nonneg (hstart.nonneg u) hstart.pos.le
  obtain ⟨link, owed, hsettles, howed, hstuck⟩ := exists_stuck hback
    (∑ u, (start.buffer.vcOccupancy u + q)).toNat .clear hnonneg
    (Int.toNat_of_nonneg (Finset.sum_nonneg fun u _ => hnonneg u)).symm hstuck
  have havail := (hback.back hsettles howed hstuck.closed 0 vc).1
  rw [hstuck.used vc] at havail
  cases havail

/-- The credits of one virtual channel come, those of the others do not. -/
structure Draining (link : CreditLink vcs) (owed : Fin vcs → Int) (vc : Fin vcs) (others : Int)
    (n : Nat) : Prop where
  owed_eq : owed vc = n
  holds : link.buffer.vcOccupancy vc = n
  total : link.buffer.occupancy = others + n
  tail : link.buffer.tailSent vc = true
  available : link.buffer.isAvailableFor vc = decide (n = 0)

theorem exists_drained (hback : start.ComesBack q) (hstart : start.buffer.PrivateCounters true q)
    {others : Int} (n : Nat) (hsettles : Settles start q link owed)
    (hdraining : Draining link owed vc others n) :
    ∃ link owed, Settles start q link owed ∧ Draining link owed vc others 0 := by
  induction n generalizing link owed with
  | zero => exact ⟨link, owed, hsettles, hdraining⟩
  | succ n ih =>
      have hvc : 0 < owed vc := by
        rw [hdraining.owed_eq]
        omega
      have hmay : link.MayFollow owed (.processCredit 0 [vc]) :=
        ⟨List.nodup_singleton vc, fun u hu => List.mem_singleton.mp hu ▸ hvc⟩
      obtain ⟨next, hnext⟩ := hback.runs hsettles hmay
      obtain ⟨-, -, policy, hbuffer⟩ := credit_step hnext
      have hholds := hdraining.holds
      apply ih (hsettles.step _ hmay hnext)
      constructor
      case owed_eq =>
        rw [nextOwed_credit, if_pos rfl, hdraining.owed_eq]
        omega
      case holds =>
        rw [hbuffer]
        dsimp only [withPolicy, BufferState.credited]
        rw [Function.update_self]
        omega
      case total =>
        have htotal := hdraining.total
        rw [hbuffer]
        dsimp only [withPolicy, BufferState.credited]
        omega
      case tail =>
        rw [hbuffer]
        exact hdraining.tail
      case available =>
        have hkept : ((link.buffer.credited vc).withPolicy policy).isAvailableFor vc =
          (link.buffer.isAvailableFor vc || (decide (vc = vc) && link.buffer.releases vc)) :=
          isAvailableFor_credited
        have hlast : ((n + 1 : Nat) - 1 == (0 : Int)) = decide (n = 0) := by
          rw [Bool.eq_iff_iff, beq_iff_eq, decide_eq_true_eq]
          omega
        rw [hbuffer, hkept, hdraining.available, releases, (hsettles.counters hstart).wait_eq,
          hdraining.tail, hholds, hlast]
        simp

/-- Flits are sent on a virtual channel, until its buffer is full. -/
structure Filling (link : CreditLink vcs) (vc : Fin vcs) (others : Int) (n : Nat) : Prop where
  isOpen : link.Open vc
  holds : link.buffer.vcOccupancy vc = n
  total : link.buffer.occupancy = others + n
  fits : 0 < n → link.buffer.occupancy ≤ link.buffer.size

theorem exists_filled (hback : start.ComesBack q) (hstart : start.buffer.PrivateCounters true q)
    {others : Int} (hsettles : Settles start q link owed) (hfilling : Filling link vc others 0)
    (n : Nat) (hn : n ≤ q) :
    ∃ link owed, Settles start q link owed ∧ Filling link vc others n := by
  induction n with
  | zero => exact ⟨link, owed, hsettles, hfilling⟩
  | succ n ih =>
      obtain ⟨link, owed, hsettles, hfilling⟩ := ih (by omega)
      have hcounters := hsettles.counters hstart
      have hroom : link.buffer.isFullFor 0 vc = false := by
        rw [isFullFor, hcounters.policy, hfilling.holds]
        exact decide_eq_false (by dsimp only; omega)
      have hmay : link.MayFollow owed (.sendingFlit 0 vc false) := ⟨hfilling.isOpen, hroom⟩
      obtain ⟨next, hnext⟩ := hback.runs hsettles hmay
      obtain ⟨hperform, hphase⟩ := step_ok.mp hnext
      obtain ⟨hsize, -, policy, -, hbuffer⟩ := BufferState.sendingFlit_ok.mp hperform
      refine ⟨next, _, hsettles.step _ hmay hnext, ?_⟩
      have hholds := hfilling.holds
      have htotal := hfilling.total
      constructor
      case isOpen =>
        rw [Open, hphase]
        simp [nextPhase]
      case holds =>
        rw [hbuffer]
        dsimp only [withPolicy, BufferState.sent]
        rw [Function.update_self]
        omega
      case total =>
        rw [hbuffer]
        dsimp only [withPolicy, BufferState.sent]
        omega
      case fits =>
        intro _
        rw [hbuffer]
        exact hsize

/-- No virtual channel beside another one has a flit outstanding where the
virtual channels come back: its credits may come late, when the slots that are
issued for the other are in use again. -/
theorem ComesBack.only (hback : start.ComesBack q) (hstart : start.buffer.PrivateCounters true q)
    (vc : Fin vcs) : start.buffer.occupancy = start.buffer.vcOccupancy vc := by
  have hnonneg := hstart.nonneg vc
  have hpos := hstart.pos
  have hshare := hstart.share_eq vc
  -- all credits of the virtual channel come
  have hdraining : Draining ⟨start.buffer.clearCredits, start.phase⟩
      (fun u => start.buffer.vcOccupancy u + q) vc
      (start.buffer.occupancy + start.buffer.size - (start.buffer.vcOccupancy vc + q))
      (start.buffer.vcOccupancy vc + q).toNat := by
    constructor
    case owed_eq => omega
    case holds =>
      show start.buffer.vcOccupancy vc + start.buffer.size / vcs = _
      omega
    case total =>
      show start.buffer.occupancy + start.buffer.size = _
      omega
    case tail => rfl
    case available =>
      show false = _
      symm
      exact decide_eq_false (by omega)
  obtain ⟨link, owed, hsettles, hdrained⟩ := exists_drained hback hstart _ .clear hdraining
  -- it is taken, and as many flits are sent as it has slots
  have hmay : link.MayFollow owed (.takeBuffer vc 0) := hdrained.available
  obtain ⟨next, hnext⟩ := hback.runs hsettles hmay
  obtain ⟨hperform, hphase⟩ := step_ok.mp hnext
  obtain ⟨-, policy, -, hbuffer⟩ := BufferState.takeBuffer_ok.mp hperform
  have hfilling : Filling next vc
      (start.buffer.occupancy + start.buffer.size - (start.buffer.vcOccupancy vc + q)) 0 := by
    constructor
    case isOpen =>
      rw [Open, hphase]
      simp [nextPhase]
    case holds =>
      rw [hbuffer]
      exact hdrained.holds
    case total =>
      rw [hbuffer]
      exact hdrained.total
    case fits => exact fun h => absurd h (Nat.lt_irrefl 0)
  obtain ⟨link, owed, hsettles, hfilled⟩ := exists_filled hback hstart
    (hsettles.step _ hmay hnext) hfilling q.toNat (by omega)
  have hsize := (hsettles.counters hstart).size
  have hfits := hfilled.fits (by omega)
  have htotal := hfilled.total
  have hstart_size := hstart.size
  have hle := hstart.counted.vcOccupancy_le vc
  omega

/-! ### The claim about every reachable link -/

variable {config : BufferConfig vcs}

theorem counters_new (hsize : config.bufSize < 0) (hpos : 0 < config.privateVcBufSize) :
    (new config (.privateBuffer hpos)).buffer.PrivateCounters config.waitForTailCredit
      config.vcBufSize := by
  have hshare : config.privateVcBufSize = config.vcBufSize := if_pos hsize.le
  constructor
  case pos => exact hshare ▸ hpos
  case wait_eq => rfl
  case policy =>
    show BufferPolicy.privateBuffer ⟨config.privateVcBufSize, config.privateVcBufSize⟩ = _
    rw [hshare]
  case size => exact if_pos hsize
  case nonneg => exact fun _ => le_rfl
  case drift => exact drift_of_zero rfl rfl

/-- From a link in which no packet is open, the virtual channels of the private
policy come back after the credits are cleared, exactly if the tail credit is
waited for and every virtual channel holds what is outstanding: there is only
one, or nothing is. -/
theorem comesBack_iff (hsize : config.bufSize < 0) (hpos : 0 < config.privateVcBufSize)
    (hreach : Reaches (fun _ _ => True) (new config (.privateBuffer hpos)) start)
    (hclosed : ∀ vc, ¬ start.Open vc) :
    start.ComesBack config.vcBufSize ↔ ∀ vc : Fin vcs,
      config.waitForTailCredit = true ∧ start.buffer.occupancy = start.buffer.vcOccupancy vc := by
  have hstart : start.buffer.PrivateCounters config.waitForTailCredit config.vcBufSize := by
    clear hclosed
    induction hreach with
    | refl => exact counters_new hsize hpos
    | step op _ _ _ hstep ih => exact ih.perform (step_ok.mp hstep).1
  constructor
  · intro hback vc
    have hwait := hback.waits hstart hclosed vc
    rw [hwait] at hstart
    exact ⟨hwait, hback.only hstart vc⟩
  · intro hcond
    by_cases hvc : Nonempty (Fin vcs)
    · obtain ⟨vc⟩ := hvc
      rw [(hcond vc).1] at hstart
      exact comesBack_of_only hstart hclosed fun u => (hcond u).2
    · -- without virtual channels there is nothing to do
      constructor
      case runs =>
        intro link owed op _ hmay
        cases op with
        | takeBuffer vc tag => exact absurd ⟨vc⟩ hvc
        | sendingFlit time vc tail => exact absurd ⟨vc⟩ hvc
        | returnBuffer vc => exact absurd ⟨vc⟩ hvc
        | processCredit time credits =>
            cases credits with
            | nil => exact ⟨link, rfl⟩
            | cons vc rest => exact absurd ⟨vc⟩ hvc
        | clearCredits => exact hmay.elim
        | fullCredits => exact hmay.elim
        | fillCredits => exact hmay.elim
      case back => exact fun _ _ _ _ vc => absurd ⟨vc⟩ hvc

theorem comesBack_oneSlot : (new oneSlot oneSlotPrivate).ComesBack 1 :=
  (comesBack_iff (by decide) (by decide) .refl fun _ hopen => hopen rfl).mpr fun vc => by
    decide +revert

/-- Four virtual channels of six slots that do not wait for the tail credit. -/
def fourVCs : BufferConfig 4 where
  vcBufSize := 6
  bufSize := -1
  waitForTailCredit := false

/-- Nothing was ever sent, and yet no virtual channel is available again. -/
theorem not_comesBack_fourVCs : ¬ (new fourVCs (.privateBuffer (by decide))).ComesBack 6 := by
  intro hback
  have hcounters : (new fourVCs (.privateBuffer (by decide))).buffer.PrivateCounters
      fourVCs.waitForTailCredit fourVCs.vcBufSize := counters_new (by decide) (by decide)
  have hwait := hback.waits hcounters (fun _ hopen => hopen rfl) 0
  cases hwait

end CreditLink

end Flyover
