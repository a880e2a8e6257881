import Flyover.Flov.PortMove
import Flyover.GFlov.Router
import Flyover.RFlov.PortMove

/-!
# How long a router drains

`FLOVRouter`, `GFLOVRouter` and `RFLOVRouter` have a `draining` case each. It is
left when a neighbour or the router's own core wants the router on, when everything
has drained, or when it has taken too long, and all of these clean up behind them.
Whatever the neighbours do, a router is out of it when the threshold has passed.
-/

namespace Flyover

variable {k : Nat}

namespace Router

/-- The same as far as the length of a drain and the request ids are concerned. -/
structure SameDrain (r s : Router) : Prop where
  powerState : s.powerState = r.powerState
  drainTimer : s.drainTimer = r.drainTimer
  reqHid : ∀ p, (s.ports p).reqHid = (r.ports p).reqHid

namespace SameDrain

variable {r s t : Router}

theorem refl (r : Router) : SameDrain r r := ⟨rfl, rfl, fun _ => rfl⟩

theorem trans (h : SameDrain r s) (h' : SameDrain s t) : SameDrain r t where
  powerState := h'.powerState.trans h.powerState
  drainTimer := h'.drainTimer.trans h.drainTimer
  reqHid := fun p => (h'.reqHid p).trans (h.reqHid p)

theorem setPort (h : SameDrain r s) {p : Port} {e : PortState}
    (he : e.reqHid = (s.ports p).reqHid) : SameDrain r (s.setPort p e) := by
  refine ⟨h.powerState, h.drainTimer, fun q => ?_⟩
  by_cases hq : q = p
  · subst hq
    rw [setPort_ports_self, he]
    exact h.reqHid q
  · rw [setPort_ports_of_ne s e hq]
    exact h.reqHid q

theorem setQueued (h : SameDrain r s) (p : Port) (m : Handshake) :
    SameDrain r (s.setQueued p m) := ⟨h.powerState, h.drainTimer, h.reqHid⟩

theorem sendDrainDone (h : SameDrain r s) (n : Node k) (chosen : Port → Bool) :
    SameDrain r (s.sendDrainDone n chosen) := by
  refine ⟨h.powerState, h.drainTimer, fun p => ?_⟩
  rw [← h.reqHid p]
  simp only [Router.sendDrainDone]
  split <;> rfl

end SameDrain

/-- A loop over the ports whose iterations keep what matters. -/
theorem forPorts_sameDrain {f : Port → Router → Except AssertFailure Router} {r : Router}
    (h : ∀ p s, SameDrain r s → Ensures (f p s) (SameDrain r)) :
    Ensures (forPorts f r) (SameDrain r) := by
  intro r' hok
  exact forPorts_induction hok (SameDrain.refl r) fun p s s' hs hstep => h p s hs s' hstep

end Router

open Router (SameDrain)

/-! ### Handshakes -/

theorem FLOVRouter.relayHandshake_sameDrain {n : Node k} {input : Port} {h : Handshake}
    {r s : Router} (hs : SameDrain r s) :
    Ensures (FLOVRouter.relayHandshake n input h s) (SameDrain r) := by
  have hpass : ∀ p, SameDrain r (FLOVRouter.passDrainDone n p s) := fun p =>
    (hs.setQueued p _).setPort rfl
  have hpasses : SameDrain r (FLOVRouter.passDrainDones n input h s) := by
    unfold FLOVRouter.passDrainDones
    dsimp only
    split
    · exact hpass _
    · split
      · exact hpass _
      · exact hs
  unfold FLOVRouter.relayHandshake
  split
  · exact .pure hs
  · exact .pure hs
  · apply Ensures.ite (fun _ => .pure hs)
    intro _
    unfold FLOVRouter.relaySourceOff
    split
    · exact .ite (fun _ => .pure (hpasses.setQueued _ _)) fun _ => .pure hpasses
    · apply Ensures.ite
      · intro _
        apply Ensures.bind_any; intro _
        apply Ensures.bind_any; intro _
        exact .ite (fun _ => .pure (hpasses.setQueued _ _)) fun _ => .pure hpasses
      · intro _
        apply Ensures.bind_any; intro _
        exact .pure (hpasses.setQueued _ _)
  · unfold FLOVRouter.relayOff
    apply Ensures.bind_any; intro _
    apply Ensures.ite (fun _ => .pure hs)
    intro _
    split
    · exact .pure hs
    · exact .pure (hs.setQueued _ _)

theorem FLOVRouter.handshakeEvaluate_sameDrain (n : Node k) (rx : Port → Option Handshake)
    (r : Router) : Ensures (FLOVRouter.handshakeEvaluate n rx r) (SameDrain r) := by
  apply Ensures.bind_any; intro _
  apply Ensures.bind
  case hx =>
    apply Router.forPorts_sameDrain
    intro input s hs
    cases rx input with
    | none => exact .pure hs
    | some h =>
      intro s' hok
      obtain ⟨e, rfl, hreceived⟩ := FLOVRouter.receiveHandshake_ok hok
      exact hs.setPort hreceived.reqHid
  case hf =>
    intro s hs
    refine Ensures.mono (Router.forPorts_sameDrain ?_) fun t ht => hs.trans ht
    intro input t ht
    cases rx input with
    | none => exact .pure ht
    | some h => exact FLOVRouter.relayHandshake_sameDrain ht

namespace GFLOVRouter

variable {n : Node k} {old : Port → PowerState} {input : Port} {h : Handshake} {r s : Router}

theorem receivePowerOn_reqHid {e : PortState} :
    Ensures (receivePowerOn e h) (·.reqHid = e.reqHid) := by
  unfold receivePowerOn
  split
  · exact .pure rfl
  · exact .bind_any fun _ => .pure rfl

theorem receivePowerOff_reqHid {e : PortState} :
    Ensures (receivePowerOff e h) (·.reqHid = e.reqHid) := by
  unfold receivePowerOff
  split
  · exact .pure rfl
  · exact .bind_any fun _ => .pure rfl

theorem receiveDraining_reqHid {e : PortState} :
    Ensures (receiveDraining e h) (·.reqHid = e.reqHid) := by
  have hrecord : Ensures (recordDraining e h) (·.reqHid = e.reqHid) := by
    unfold recordDraining
    split
    · exact .pure rfl
    · exact .bind_any fun _ => .pure rfl
  refine Ensures.bind hrecord ?_
  intro recorded hreq
  apply Ensures.ite
  · intro _
    apply Ensures.bind_any; intro _
    apply Ensures.bind_any; intro _
    apply Ensures.pure
    split
    · exact hreq
    · exact hreq
  · exact fun _ => .pure hreq

theorem recordWakeup_sameDrain (hs : SameDrain r s) :
    Ensures (recordWakeup n old input h s) (SameDrain r) := by
  unfold recordWakeup
  split
  · exact .pure hs
  · apply Ensures.bind_any; intro _
    apply Ensures.pure
    dsimp only
    have hpass : ∀ c : Bool, SameDrain r (if c then passDrainDone n input h s else s) := by
      intro c
      cases c with
      | true => exact (hs.setQueued _ _).setPort rfl
      | false => exact hs
    split
    · exact hpass _
    · exact (hpass _).setPort rfl

theorem takeDrainDone_sameDrain (hs : SameDrain r s) :
    Ensures (takeDrainDone old input h s) (SameDrain r) := by
  have htag : SameDrain r (if h.hid = (s.ports input).reqHid then
      s.setPort input { s.ports input with drainTag := true } else s) := by
    split
    · exact hs.setPort rfl
    · exact hs
  unfold takeDrainDone
  apply Ensures.ite
  · intro _
    generalize (if h.hid = (s.ports input).reqHid then
      s.setPort input { s.ports input with drainTag := true } else s) = t at htag ⊢
    apply Ensures.bind_any; intro _
    apply Ensures.ite
    · intro _
      apply Ensures.pure
      apply SameDrain.setPort
      case h =>
        split
        · exact htag.setQueued _ _
        · exact htag
      case he => rfl
    · exact fun _ => .pure htag
  · exact fun _ => .pure hs

theorem receive_sameDrain (hs : SameDrain r s) :
    Ensures (receive n old input h s) (SameDrain r) := by
  unfold receive
  split
  · exact receivePowerOn_reqHid.bind fun e he => .pure (hs.setPort he)
  · exact receiveDraining_reqHid.bind fun e he => .pure (hs.setPort he)
  · exact receivePowerOff_reqHid.bind fun e he => .pure (hs.setPort he)
  · exact (recordWakeup_sameDrain hs).bind fun t ht => takeDrainDone_sameDrain ht

theorem relayHandshake_sameDrain (hs : SameDrain r s) :
    Ensures (relayHandshake n old input h s) (SameDrain r) := by
  unfold relayHandshake
  split
  · exact .pure hs
  · exact .pure hs
  · apply Ensures.ite (fun _ => .pure hs)
    intro _
    unfold relaySourceOff
    split
    · exact .ite (fun _ => .pure (hs.setQueued _ _)) fun _ => .pure hs
    · apply Ensures.ite
      · intro _
        apply Ensures.bind_any; intro _
        apply Ensures.bind_any; intro _
        exact .ite (fun _ => .pure (hs.setQueued _ _)) fun _ => .pure hs
      · exact fun _ => .bind_any fun _ => .pure (hs.setQueued _ _)
  · unfold relayOff
    apply Ensures.bind_any; intro _
    apply Ensures.ite (fun _ => .pure hs)
    intro _
    split
    · exact .pure hs
    · exact .pure (hs.setQueued _ _)

theorem updateDownstream_reqHid {e : PortState} :
    Ensures (Router.updateDownstream n e h) (·.reqHid = e.reqHid) := by
  intro e' hok
  rw [Router.updateDownstream_ok hok]

theorem handshakeEvaluate_sameDrain (n : Node k) (rx : Port → Option Handshake) (r : Router) :
    Ensures (handshakeEvaluate n rx r) (SameDrain r) := by
  apply Ensures.bind_any; intro _
  apply Router.forPorts_sameDrain
  intro input s hs
  cases rx input with
  | none => exact .pure hs
  | some h =>
    refine Ensures.bind (receive_sameDrain hs) ?_
    intro t ht
    refine Ensures.bind updateDownstream_reqHid ?_
    intro e he
    exact relayHandshake_sameDrain (ht.setPort he)

end GFLOVRouter

theorem RFLOVRouter.handshakeEvaluate_sameDrain (r : Router) (rx : Port → Option Handshake) :
    Ensures (RFLOVRouter.handshakeEvaluate r rx) (SameDrain r) := by
  intro r' hok
  obtain ⟨hreceives, hr'⟩ := RFLOVRouter.handshakeEvaluate_ok hok
  refine ⟨by rw [hr'], by rw [hr'], fun p => ?_⟩
  have hp := hreceives p
  cases hrx : rx p with
  | none =>
      rw [hrx] at hp
      rw [hp]
  | some h =>
      rw [hrx] at hp
      exact hp.reqHid

/-! ### The `draining` case -/

/-- The router has left the state: it is on, or off with all drain tags set and
nothing left in it. `announced` is what the neighbours are told of it. -/
structure LeavesDraining (n : Node k) (d : Datapath) (announced : Port → Handshake)
    (r r' : Router) : Prop where
  outcome : r'.powerState = .powerOn ∨
    r'.powerState = .powerOff ∧ (∀ p, (r.ports p).drainTag = true) ∧ d.locallyDrained = true
  drainTimer : r'.drainTimer = 0
  drainTag : ∀ p, (r'.ports p).drainTag = false
  queued : ∀ p, n.edge p = false →
    r.outQueueHandshakes p = none ∧ r'.outQueueHandshakes p = some (announced p)
  fresh : ∀ p, n.edge p = false →
    (announced p).hid = (r.ports p).reqHid + 1 ∧ (r'.ports p).reqHid = (announced p).hid

/-- The router stays in the state, and has not been there for too long. -/
structure KeepsDraining (cfg : Config k) (r r' : Router) : Prop where
  powerState : r'.powerState = .draining
  drainTimer : r'.drainTimer = r.drainTimer + 1
  threshold : r'.drainTimer ≤ cfg.drainThreshold
  reqHid : ∀ p, (r'.ports p).reqHid = (r.ports p).reqHid

section Leaving

variable {cfg : Config k} {n : Node k} {d : Datapath} {r mid r' : Router}

/-- A change of state out of `draining`, when it is announced. -/
theorem LeavesDraining.of_queueHandshakes {chosen : Port → Bool}
    {fill : Port → Handshake → Handshake} {announced : Port → Handshake}
    (hchosen : ∀ p, n.edge p = false → chosen p = true)
    (hempty : ∀ p, r.outQueueHandshakes p = none)
    (hqueue : mid.outQueueHandshakes = r.outQueueHandshakes)
    (hports : ∀ p, mid.ports p = { r.ports p with drainTag := false })
    (htimer : mid.drainTimer = 0)
    (hfill : ∀ p, { fill p {} with hid := (r.ports p).reqHid + 1 } = announced p)
    (houtcome : mid.powerState = .powerOn ∨
      mid.powerState = .powerOff ∧ (∀ p, (r.ports p).drainTag = true) ∧ d.locallyDrained = true) :
    LeavesDraining n d announced r (mid.queueHandshakes chosen fill) := by
  have hreq : ∀ p, (mid.ports p).reqHid = (r.ports p).reqHid := fun p => by rw [hports p]
  refine ⟨houtcome, htimer, fun p => ?_, fun p hp => ⟨hempty p, ?_⟩, fun p hp => ⟨?_, ?_⟩⟩
  · simp only [Router.queueHandshakes]
    split
    · rw [hports p]
    · rw [hports p]
  · simp only [Router.queueHandshakes, hchosen p hp, hqueue, hempty p, hreq, if_true,
      Option.getD_none, ← hfill]
  · rw [← hfill]
  · simp only [Router.queueHandshakes, hchosen p hp, if_true, hreq]
    rw [← hfill]

/-- What `FLOVRouter` and `GFLOVRouter` announce. -/
def downstreamAnnouncement (n : Node k) (r r' : Router) (p : Port) : Handshake :=
  FLOVRouter.announcement n .draining r'.powerState (r.ports p.opp).view ((r.ports p).reqHid + 1)

theorem stopDraining_leaves (hok : mid.stopDraining n = .ok r') (hports : mid.ports = r.ports)
    (hqueue : mid.outQueueHandshakes = r.outQueueHandshakes) :
    LeavesDraining n d (downstreamAnnouncement n r r') r r' := by
  obtain ⟨hempty, rfl⟩ := FLOVRouter.announce_ok hok
  apply LeavesDraining.of_queueHandshakes
  case hchosen =>
    intro p hp
    rw [Node.inner, hp]
    rfl
  case hempty =>
    intro p
    rw [← hqueue]
    exact hempty p
  case hqueue => exact hqueue
  case hports =>
    intro p
    simp only [Router.clearDrainTags, hports]
  case htimer => rfl
  case hfill => exact fun p => rfl
  case houtcome => exact .inl rfl

theorem powerDown_leaves (hok : mid.powerDown n = .ok r') (hports : mid.ports = r.ports)
    (hqueue : mid.outQueueHandshakes = r.outQueueHandshakes)
    (htags : mid.allDrainTags = true) (hdrained : d.locallyDrained = true) :
    LeavesDraining n d (downstreamAnnouncement n r r') r r' := by
  obtain ⟨hempty, rfl⟩ := FLOVRouter.announce_ok hok
  apply LeavesDraining.of_queueHandshakes
  case hchosen =>
    intro p hp
    rw [Node.inner, hp]
    rfl
  case hempty =>
    intro p
    rw [← hqueue]
    exact hempty p
  case hqueue => exact hqueue
  case hports =>
    intro p
    simp only [Router.clearDrainTags, hports]
  case htimer => rfl
  case hfill =>
    intro p
    rw [hports]
    rfl
  case houtcome =>
    refine .inr ⟨rfl, fun p => ?_, hdrained⟩
    rw [← hports]
    exact List.all_eq_true.mp htags p (Port.mem_all p)

theorem drainingEvaluate_leaves {stop : Bool} (hstate : r.powerState = .draining)
    (hok : r.drainingEvaluate cfg n d stop = .ok r') :
    LeavesDraining n d (downstreamAnnouncement n r r') r r' ∨ KeepsDraining cfg r r' := by
  dsimp only [Router.drainingEvaluate] at hok
  split at hok
  next => exact .inl (stopDraining_leaves hok rfl rfl)
  next =>
    split at hok
    next hdone =>
      rw [Bool.and_eq_true] at hdone
      exact .inl (powerDown_leaves hok rfl rfl hdone.1 hdone.2)
    next =>
      split at hok
      next => exact .inl (stopDraining_leaves hok rfl rfl)
      next hthreshold =>
        obtain rfl := pure_ok.mp hok
        exact .inr ⟨hstate, rfl, Int.not_lt.mp hthreshold, fun _ => rfl⟩

end Leaving

namespace RFLOVRouter

variable {cfg : Config k} {n : Node k} {d : Datapath} {r mid r' : Router}

theorem announce_leaves {chosen : Port → Bool} (hok : announce n chosen mid = .ok r')
    (hchosen : ∀ p, n.edge p = false → chosen p = true)
    (hports : ∀ p, mid.ports p = { r.ports p with drainTag := false })
    (hqueue : mid.outQueueHandshakes = r.outQueueHandshakes) (htimer : mid.drainTimer = 0)
    (houtcome : mid.powerState = .powerOn ∨
      mid.powerState = .powerOff ∧ (∀ p, (r.ports p).drainTag = true) ∧ d.locallyDrained = true) :
    LeavesDraining n d (fun p => announcement n r'.powerState (r.ports p)) r r' := by
  obtain ⟨hempty, hr'⟩ := require_bind_ok.mp hok
  obtain rfl := pure_ok.mp hr'
  have hnone : ∀ p, mid.outQueueHandshakes p = none := by
    simpa [Router.outQueueEmpty] using hempty
  apply LeavesDraining.of_queueHandshakes hchosen
  case hempty =>
    intro p
    rw [← hqueue]
    exact hnone p
  case hqueue => exact hqueue
  case hports => exact hports
  case htimer => exact htimer
  case hfill => exact fun p => rfl
  case houtcome => exact houtcome

theorem drainingEvaluate_leaves (hstate : r.powerState = .draining)
    (hok : drainingEvaluate cfg n d r = .ok r') :
    LeavesDraining n d (fun p => announcement n r'.powerState (r.ports p)) r r' ∨
      KeepsDraining cfg r r' := by
  have hinner : ∀ p, n.edge p = false → n.inner p = true := by
    intro p hp
    rw [Node.inner, hp]
    rfl
  dsimp only [drainingEvaluate] at hok
  split at hok
  next => exact .inl (announce_leaves hok hinner (fun _ => rfl) rfl rfl (.inl rfl))
  next =>
    split at hok
    next => exact .inl (announce_leaves hok (fun _ _ => rfl) (fun _ => rfl) rfl rfl (.inl rfl))
    next =>
      split at hok
      next hdone =>
        rw [Bool.and_eq_true] at hdone
        refine .inl (announce_leaves hok hinner (fun _ => rfl) rfl rfl (.inr ⟨rfl, ?_, hdone.2⟩))
        exact fun p => List.all_eq_true.mp hdone.1 p (Port.mem_all p)
      next =>
        split at hok
        next => exact .inl (announce_leaves hok hinner (fun _ => rfl) rfl rfl (.inl rfl))
        next hthreshold =>
          obtain rfl := pure_ok.mp hok
          exact .inr ⟨hstate, rfl, Int.not_lt.mp hthreshold, fun _ => rfl⟩

end RFLOVRouter

/-! ### The power state machines -/

/-- Request ids only grow, and a drain that begins has not lasted yet. -/
structure PowerStep (r s : Router) : Prop where
  reqHid : ∀ p, (r.ports p).reqHid ≤ (s.ports p).reqHid
  starts : r.powerState ≠ .draining → s.powerState = .draining → s.drainTimer = 0

namespace PowerStep

variable {cfg : Config k} {n : Node k} {d : Datapath} {r mid : Router}

/-- The state stays. -/
theorem stay (hstate : mid.powerState = r.powerState)
    (hreq : ∀ p, (mid.ports p).reqHid = (r.ports p).reqHid) : PowerStep r mid where
  reqHid := fun p => (hreq p).ge
  starts := fun hnot hdraining => absurd (hstate.symm.trans hdraining) hnot

theorem queueHandshakes (hreq : ∀ p, (mid.ports p).reqHid = (r.ports p).reqHid)
    (hstarts : mid.powerState = .draining → mid.drainTimer = 0) (chosen : Port → Bool)
    (fill : Port → Handshake → Handshake) : PowerStep r (mid.queueHandshakes chosen fill) where
  reqHid := by
    intro p
    simp only [Router.queueHandshakes]
    split
    · rw [← hreq p]
      exact Int.le_add_one le_rfl
    · exact (hreq p).ge
  starts := fun _ hdraining => hstarts hdraining

/-- A change that does not begin a drain. -/
theorem announce {fill : Port → Handshake → Handshake}
    (hreq : ∀ p, (mid.ports p).reqHid = (r.ports p).reqHid)
    (hstarts : mid.powerState = .draining → mid.drainTimer = 0) :
    Ensures (mid.announce n fill) (PowerStep r) := by
  apply Ensures.bind_any; intro _
  exact .pure (queueHandshakes hreq hstarts _ _)

section Downstream

variable (hreq : ∀ p, (mid.ports p).reqHid = (r.ports p).reqHid)

include hreq

theorem startDraining (tags : Port → Bool) : Ensures (mid.startDraining n tags) (PowerStep r) := by
  apply announce
  · exact hreq
  · exact fun _ => rfl

theorem stopDraining : Ensures (mid.stopDraining n) (PowerStep r) := by
  apply announce
  · exact hreq
  · nofun

theorem powerDown : Ensures (mid.powerDown n) (PowerStep r) := by
  apply announce
  · exact hreq
  · nofun

theorem startWakeup (tags : Port → Bool) : Ensures (mid.startWakeup n tags) (PowerStep r) := by
  apply announce
  · exact hreq
  · nofun

theorem finishWakeup : Ensures (mid.finishWakeup n) (PowerStep r) := by
  apply announce
  · exact hreq
  · nofun

theorem wakeupEvaluate (hstate : mid.powerState = r.powerState) :
    Ensures (mid.wakeupEvaluate cfg n d) (PowerStep r) := by
  refine Ensures.ite (fun _ => ?_) fun _ => ?_
  · apply finishWakeup
    exact hreq
  · exact .pure (stay hstate hreq)

end Downstream

theorem drainingEvaluate {stop : Bool} :
    Ensures (r.drainingEvaluate cfg n d stop) (PowerStep r) := by
  dsimp only [Router.drainingEvaluate]
  split
  next =>
    apply stopDraining
    exact fun _ => rfl
  next =>
    split
    next =>
      apply powerDown
      exact fun _ => rfl
    next =>
      split
      next =>
        apply stopDraining
        exact fun _ => rfl
      next => exact .pure (stay rfl fun _ => rfl)

/-- The `power_on` case of the generalised protocol and of the restricted policy. -/
theorem drainOrStay {c : Prop} [Decidable c] {tags : Port → Bool}
    (hstate : mid.powerState = r.powerState)
    (hreq : ∀ p, (mid.ports p).reqHid = (r.ports p).reqHid) :
    Ensures (if mid.wakeupSignal then pure { mid with wakeupSignal := false }
      else if c then mid.startDraining n tags else pure mid) (PowerStep r) := by
  split
  next => exact .pure (stay hstate hreq)
  next =>
    split
    next => exact startDraining hreq tags
    next => exact .pure (stay hstate hreq)

/-- A `power_off` case. -/
theorem wakeOrStay {c : Prop} [Decidable c] {tags : Port → Bool} {kept : Router}
    (hreq : ∀ p, (mid.ports p).reqHid = (r.ports p).reqHid) (hkept : PowerStep r kept) :
    Ensures (if c then mid.startWakeup n tags else pure kept) (PowerStep r) := by
  split
  next => exact startWakeup hreq tags
  next => exact .pure hkept

theorem flov (policy : FLOVPolicy) :
    Ensures (FLOVRouter.powerStateEvaluate policy cfg n d r) (PowerStep r) := by
  apply Ensures.bind_any; intro _
  cases policy with
  | gflov =>
      dsimp only [FLOVRouter.gflovPowerStateEvaluate]
      split
      next => exact drainOrStay rfl fun _ => rfl
      next => exact drainingEvaluate
      next => exact .pure (stay rfl fun _ => rfl)
      next => exact wakeupEvaluate (fun _ => rfl) rfl
  | rflov =>
      dsimp only [FLOVRouter.rflovPowerStateEvaluate]
      split
      next => exact drainOrStay rfl fun _ => rfl
      next => exact drainingEvaluate
      next =>
        split
        next =>
          apply wakeOrStay
          · exact fun _ => rfl
          · exact stay rfl fun _ => rfl
        next => exact .pure (stay rfl fun _ => rfl)
      next =>
        apply wakeupEvaluate
        · exact fun _ => rfl
        · rfl
  | noflov =>
      dsimp only [FLOVRouter.noflovPowerStateEvaluate]
      split
      next => exact .pure (stay rfl fun _ => rfl)
      next =>
        apply stopDraining
        exact fun _ => rfl
      next =>
        apply wakeOrStay
        · exact fun _ => rfl
        · exact stay rfl fun _ => rfl
      next => exact wakeupEvaluate (fun _ => rfl) rfl

theorem gflov : Ensures (GFLOVRouter.powerStateEvaluate cfg n d r) (PowerStep r) := by
  apply Ensures.bind_any; intro _
  split
  next =>
    apply drainOrStay
    · rfl
    · exact fun _ => rfl
  next => exact drainingEvaluate
  next =>
    dsimp only [GFLOVRouter.powerOffEvaluate]
    split
    next =>
      apply wakeOrStay
      · exact fun _ => rfl
      · exact stay rfl fun _ => rfl
    next => exact .pure (stay rfl fun _ => rfl)
  next =>
    dsimp only [GFLOVRouter.wakeupEvaluate]
    split
    next =>
      apply Ensures.bind
      case hx =>
        apply finishWakeup
        exact fun _ => rfl
      case hf =>
        intro s hs
        refine .pure ⟨fun p => ?_, hs.starts⟩
        have hkept : ((GFLOVRouter.presumeAnswered s).ports p).reqHid = (s.ports p).reqHid := by
          simp only [GFLOVRouter.presumeAnswered]
          split <;> rfl
        rw [hkept]
        exact hs.reqHid p
    next => exact .pure (stay rfl fun _ => rfl)

theorem rflovAnnounce {chosen : Port → Bool}
    (hreq : ∀ p, (mid.ports p).reqHid = (r.ports p).reqHid)
    (hstarts : mid.powerState = .draining → mid.drainTimer = 0) :
    Ensures (RFLOVRouter.announce n chosen mid) (PowerStep r) :=
  .bind_any fun _ => .pure (queueHandshakes hreq hstarts _ _)

theorem rflovDraining : Ensures (RFLOVRouter.drainingEvaluate cfg n d r) (PowerStep r) := by
  have hleaf : ∀ (mid : Router) (chosen : Port → Bool),
      (∀ p, (mid.ports p).reqHid = (r.ports p).reqHid) → mid.powerState ≠ .draining →
        Ensures (RFLOVRouter.announce n chosen mid) (PowerStep r) := fun mid chosen hreq hstate =>
    rflovAnnounce hreq fun hdraining => absurd hdraining hstate
  dsimp only [RFLOVRouter.drainingEvaluate]
  split
  next => exact hleaf _ _ (fun _ => rfl) nofun
  next =>
    split
    next => exact hleaf _ _ (fun _ => rfl) nofun
    next =>
      split
      next => exact hleaf _ _ (fun _ => rfl) nofun
      next =>
        split
        next => exact hleaf _ _ (fun _ => rfl) nofun
        next => exact .pure (stay rfl fun _ => rfl)

theorem rflov : Ensures (RFLOVRouter.powerStateEvaluate cfg n d r) (PowerStep r) := by
  apply Ensures.bind_any; intro _
  split
  next =>
    dsimp only [RFLOVRouter.powerOnEvaluate]
    split
    next => exact .pure (stay rfl fun _ => rfl)
    next =>
      split
      next =>
        apply rflovAnnounce
        · exact fun _ => rfl
        · exact fun _ => rfl
      next => exact .pure (stay rfl fun _ => rfl)
  next => exact rflovDraining
  next =>
    dsimp only [RFLOVRouter.powerOffEvaluate]
    split
    next =>
      split
      next =>
        apply rflovAnnounce
        · exact fun _ => rfl
        · nofun
      next => exact .pure (stay rfl fun _ => rfl)
    next => exact .pure (stay rfl fun _ => rfl)
  next =>
    dsimp only [RFLOVRouter.wakeupEvaluate]
    split
    next =>
      apply rflovAnnounce
      · exact fun _ => rfl
      · nofun
    next => exact .pure (stay rfl fun _ => rfl)

end PowerStep

end Flyover
