import Flyover.Flov.Router

/-!
# A cycle of `FLOVRouter`, in parts

What each part of a cycle can do, for the proofs about whole runs: receiving a
handshake changes one entry; relaying fills the queues; the power state machine
stays or announces a change; answers join what is queued.
-/

namespace Flyover

variable {k : Nat}

/-- What a port knows of the routers in its direction. -/
structure View where
  downstreamState : PowerState
  logicalNeighbor : Int
  neighborState : PowerState

/-- What the port knows. -/
def PortState.view (e : PortState) : View where
  downstreamState := e.downstreamState
  logicalNeighbor := e.logicalNeighbor
  neighborState := e.neighborState

/-- What a handshake makes of it: `updateDownstream` without its assertion. -/
def View.update (n : Node k) (v : View) (h : Handshake) : View where
  downstreamState := h.newState.getD v.downstreamState
  logicalNeighbor :=
    if 0 ≤ h.logicalNeighbor then h.logicalNeighbor
    else if h.newState.getD v.downstreamState = .powerOff then -1
    else v.logicalNeighbor
  neighborState :=
    if h.newState.isSome && Router.adjacentTo n h.id then h.srcState.getD v.neighborState
    else v.neighborState

theorem Router.updateStates_ok {n : Node k} {e e' : PortState} {h : Handshake}
    (hok : Router.updateStates n e h = .ok e') :
    e' = { e with
      downstreamState := h.newState.getD e.downstreamState
      neighborState := (e.view.update n h).neighborState } := by
  unfold updateStates at hok
  split at hok
  next hnew =>
    obtain rfl := pure_ok.mp hok
    simp [View.update, PortState.view, hnew]
  next new hnew =>
    split at hok
    next hadjacent =>
      split at hok
      next => cases hok
      next src hsrc =>
        obtain rfl := pure_ok.mp hok
        simp [View.update, hnew, hsrc, hadjacent]
    next hadjacent =>
      obtain rfl := pure_ok.mp hok
      simp [View.update, PortState.view, hnew, hadjacent]

theorem Router.updateDownstream_ok {n : Node k} {e e' : PortState} {h : Handshake}
    (hok : Router.updateDownstream n e h = .ok e') :
    e' = { e with
      downstreamState := (e.view.update n h).downstreamState
      logicalNeighbor := (e.view.update n h).logicalNeighbor
      neighborState := (e.view.update n h).neighborState } := by
  obtain ⟨mid, hmid, hok⟩ := bind_ok.mp hok
  obtain rfl := pure_ok.mp hok
  obtain rfl := Router.updateStates_ok hmid
  have hdownstream : (e.view.update n h).downstreamState =
      h.newState.getD e.downstreamState := rfl
  have hlogical : (e.view.update n h).logicalNeighbor =
      if 0 ≤ h.logicalNeighbor then h.logicalNeighbor
      else if h.newState.getD e.downstreamState = .powerOff then -1
      else e.logicalNeighbor := rfl
  rw [hdownstream, hlogical]
  split
  next => rfl
  next => split <;> rfl

namespace FLOVRouter

/-- The last request id seen after a handshake. -/
def answeredHid (resp : Int) (h : Handshake) : Int := if h.srcState.isSome then h.hid else resp

/-- A handshake, or none, is received in power state `ps`. -/
structure Received (n : Node k) (ps : PowerState) (e : PortState) (rx : Option Handshake)
    (e' : PortState) : Prop where
  view : e'.view = rx.elim e.view (e.view.update n)
  reqHid : e'.reqHid = e.reqHid
  respHid : e'.respHid = rx.elim e.respHid (answeredHid e.respHid)
  drainTag : e'.drainTag = (e.drainTag || rx.any fun h =>
    h.drainDone && h.hid = e.reqHid && (ps = .draining || ps = .wakeup))

/-- What the four cases have in common. -/
structure Recorded (e : PortState) (h : Handshake) (e' : PortState) : Prop where
  view : e'.view = e.view
  reqHid : e'.reqHid = e.reqHid
  respHid : e'.respHid = if h.srcState.isSome then h.hid else e.respHid
  drainTag : e'.drainTag = e.drainTag

theorem receivePowerOn_ok {e e' : PortState} {h : Handshake} (hok : receivePowerOn e h = .ok e') :
    Recorded e h e' := by
  unfold receivePowerOn at hok
  split at hok
  next hsrc =>
    obtain rfl := pure_ok.mp hok
    constructor <;> simp [hsrc]
  next hsrc =>
    obtain ⟨_, -, hok⟩ := bind_ok.mp hok
    obtain rfl := pure_ok.mp hok
    constructor <;> simp [hsrc, PortState.view]

theorem recordDraining_ok {e e' : PortState} {h : Handshake} (hok : recordDraining e h = .ok e') :
    Recorded e h e' := by
  unfold recordDraining at hok
  split at hok
  next hsrc =>
    obtain rfl := pure_ok.mp hok
    constructor <;> simp [hsrc]
  next hsrc =>
    obtain ⟨_, -, hok⟩ := bind_ok.mp hok
    obtain rfl := pure_ok.mp hok
    constructor <;> simp [hsrc, PortState.view]

theorem receivePowerOff_ok {e e' : PortState} {h : Handshake}
    (hok : receivePowerOff e h = .ok e') : Recorded e h e' := by
  unfold receivePowerOff at hok
  split at hok
  next hsrc =>
    obtain rfl := pure_ok.mp hok
    constructor <;> simp [hsrc]
  next hsrc =>
    obtain ⟨_, -, hok⟩ := bind_ok.mp hok
    obtain rfl := pure_ok.mp hok
    constructor <;> simp [hsrc, PortState.view]

theorem recordWakeup_ok {outputTag : Bool} {e e' : PortState} {h : Handshake}
    (hok : recordWakeup outputTag e h = .ok e') : Recorded e h e' := by
  unfold recordWakeup at hok
  split at hok
  next hsrc =>
    obtain rfl := pure_ok.mp hok
    constructor <;> simp [hsrc]
  next hsrc =>
    obtain ⟨_, -, hok⟩ := bind_ok.mp hok
    obtain rfl := pure_ok.mp hok
    constructor <;> simp [hsrc, PortState.view]

theorem receive_ok {ps : PowerState} {outputTag : Bool} {e e' : PortState} {h : Handshake}
    (hok : receive ps outputTag e h = .ok e') :
    e'.view = e.view ∧ e'.reqHid = e.reqHid ∧
      e'.respHid = (if h.srcState.isSome then h.hid else e.respHid) ∧
      e'.drainTag = (e.drainTag ||
        h.drainDone && h.hid = e.reqHid && (ps = .draining || ps = .wakeup)) := by
  cases ps with
  | powerOff =>
      have hrec := receivePowerOff_ok hok
      exact ⟨hrec.view, hrec.reqHid, hrec.respHid, by simp [hrec.drainTag]⟩
  | powerOn =>
      have hrec := receivePowerOn_ok hok
      exact ⟨hrec.view, hrec.reqHid, hrec.respHid, by simp [hrec.drainTag]⟩
  | draining =>
      obtain ⟨mid, hmid, hok⟩ := bind_ok.mp hok
      have hrec := recordDraining_ok hmid
      split at hok
      next hdone =>
        obtain ⟨-, hok⟩ := require_bind_ok.mp hok
        split at hok
        next hhid =>
          obtain ⟨-, hok⟩ := require_bind_ok.mp hok
          obtain rfl := pure_ok.mp hok
          exact ⟨hrec.view, hrec.reqHid, hrec.respHid, by simp [hdone, ← hrec.reqHid, hhid]⟩
        next hhid =>
          obtain rfl := pure_ok.mp hok
          exact ⟨hrec.view, hrec.reqHid, hrec.respHid, by simp [hrec.drainTag, ← hrec.reqHid, hhid]⟩
      next hdone =>
        obtain rfl := pure_ok.mp hok
        exact ⟨hrec.view, hrec.reqHid, hrec.respHid, by simp [hrec.drainTag, hdone]⟩
  | wakeup =>
      obtain ⟨mid, hmid, hok⟩ := bind_ok.mp hok
      have hrec := recordWakeup_ok hmid
      split at hok
      next hdone =>
        obtain ⟨-, hok⟩ := require_bind_ok.mp hok
        obtain rfl := pure_ok.mp hok
        split
        next hhid =>
          exact ⟨hrec.view, hrec.reqHid, hrec.respHid, by simp [hdone, ← hrec.reqHid, hhid]⟩
        next hhid =>
          exact ⟨hrec.view, hrec.reqHid, hrec.respHid, by simp [hrec.drainTag, ← hrec.reqHid, hhid]⟩
      next hdone =>
        obtain rfl := pure_ok.mp hok
        exact ⟨hrec.view, hrec.reqHid, hrec.respHid, by simp [hrec.drainTag, hdone]⟩

theorem receiveHandshake_ok {n : Node k} {input : Port} {h : Handshake} {r r' : Router}
    (hok : receiveHandshake n input h r = .ok r') :
    ∃ e, r' = r.setPort input e ∧ Received n r.powerState (r.ports input) (some h) e := by
  simp only [receiveHandshake, bind_ok, pure_ok] at hok
  obtain ⟨mid, hmid, e, he, rfl⟩ := hok
  obtain ⟨hview, hreq, hresp, htag⟩ := receive_ok hmid
  obtain rfl := Router.updateDownstream_ok he
  exact ⟨_, rfl, by rw [← hview]; rfl, hreq, hresp, htag⟩

theorem receiveLoop_ok {n : Node k} {rx : Port → Option Handshake} {r r' : Router}
    (hok : forPorts (fun input r => match rx input with
      | none => pure r
      | some h => receiveHandshake n input h r) r = .ok r') :
    (∀ p, Received n r.powerState (r.ports p) (rx p) (r'.ports p)) ∧
      r' = { r with ports := r'.ports } := by
  refine forPorts_setPort (R := fun p e e' => Received n r.powerState e (rx p) e') hok ?_
  intro p s s' hstate hstep
  cases hrx : rx p with
  | none =>
      simp only [hrx, pure_ok] at hstep
      subst hstep
      exact ⟨s.ports p, by simp [Router.setPort], by constructor <;> simp⟩
  | some h =>
      simp only [hrx] at hstep
      exact hstate ▸ receiveHandshake_ok hstep

theorem relayed_kept {isWaiting : Bool} {h t : Handshake}
    (hrelayed : Router.relayed isWaiting h = some t) :
    t.newState = h.newState ∧ t.srcState = h.srcState ∧
      t.logicalNeighbor = h.logicalNeighbor ∧ t.id = h.id := by
  unfold Router.relayed at hrelayed
  dsimp only at hrelayed
  split at hrelayed <;> split at hrelayed <;> simp at hrelayed <;> subst hrelayed <;>
    exact ⟨rfl, rfl, rfl, rfl⟩

/-- Somebody in this direction waits for an acknowledgement. -/
def Waiting (e : PortState) : Prop :=
  e.downstreamState = .draining ∨ e.downstreamState = .wakeup

theorem relayOff_ok {n : Node k} {input : Port} {h : Handshake} {r r' : Router}
    (hok : relayOff n input h r = .ok r') :
    r' = { r with
      outQueueHandshakes := Function.update r.outQueueHandshakes input.opp
        (if n.edge input.opp then none else Router.relayed (r.waiting input.opp) h) } := by
  obtain ⟨hnone, hok⟩ := require_bind_ok.mp hok
  have hsame : Function.update r.outQueueHandshakes input.opp none = r.outQueueHandshakes := by
    rw [← hnone, Function.update_eq_self]
  split at hok
  next hedge =>
    obtain rfl := pure_ok.mp hok
    rw [if_pos hedge, hsame]
  next hedge =>
    rw [if_neg hedge]
    split at hok
    next hrelayed =>
      obtain rfl := pure_ok.mp hok
      rw [hrelayed, hsame]
    next h' hrelayed =>
      obtain rfl := pure_ok.mp hok
      rw [hrelayed]
      rfl

/-- After an off router has read its handshakes, what it passes on is queued. -/
theorem relayLoop_powerOff {n : Node k} {rx : Port → Option Handshake} {r r' : Router}
    (hoff : r.powerState = .powerOff) (hqueue : ∀ p, r.outQueueHandshakes p = none)
    (hok : forPorts (fun input r => match rx input with
      | none => pure r
      | some h => relayHandshake n input h r) r = .ok r') :
    (∀ p, r'.outQueueHandshakes p =
      if n.edge p then none else (rx p.opp).bind (Router.relayed (r.waiting p))) ∧
      r' = { r with outQueueHandshakes := r'.outQueueHandshakes } := by
  have hloop := forPorts_queue (R := fun p old new => old = none →
    new = if n.edge p.opp then none else (rx p).bind (Router.relayed (r.waiting p.opp))) hok ?_
  · refine ⟨fun p => ?_, hloop.2⟩
    have hp := hloop.1 p.opp (hqueue _)
    rwa [Port.opp_opp] at hp
  · intro p s s' hstate hports hstep
    cases hrx : rx p with
    | none =>
        simp only [hrx, pure_ok] at hstep
        subst hstep
        exact ⟨s.outQueueHandshakes p.opp, by rw [Function.update_eq_self], by simp⟩
    | some h =>
        simp only [hrx, relayHandshake, hstate, hoff] at hstep
        obtain rfl := relayOff_ok hstep
        exact ⟨_, rfl, fun _ => by rw [Router.waiting, hports]; rfl⟩

/-- What a waking router may have queued at a port: acknowledgements, and relayed
news for the credits, but no change of state. -/
structure Forwarded (n : Node k) (rx : Port → Option Handshake) (p : Port) (t : Handshake) :
    Prop where
  inner : n.edge p = false
  newState : t.newState = none
  id : t.id = n.val ∨ ∃ h ∈ rx p.opp, t.id = h.id

/-- What the relaying loop keeps while the router wakes up. -/
structure WakingLoop (n : Node k) (rx : Port → Option Handshake) (r s : Router) : Prop where
  same : s = { r with ports := s.ports, outQueueHandshakes := s.outQueueHandshakes }
  ports : ∀ p, s.ports p = { r.ports p with drainDoneSent := (s.ports p).drainDoneSent }
  queued : ∀ p, ∀ t ∈ s.outQueueHandshakes p, Forwarded n rx p t

theorem WakingLoop.setQueued {n : Node k} {rx : Port → Option Handshake} {r s : Router}
    (hs : WakingLoop n rx r s) {p : Port} {t : Handshake} (ht : Forwarded n rx p t) :
    WakingLoop n rx r (s.setQueued p t) where
  same := by
    rw [hs.same]
    rfl
  ports := hs.ports
  queued := by
    intro q t' ht'
    by_cases hq : q = p
    · subst hq
      simp only [Router.setQueued, Function.update_self, Option.mem_def, Option.some.injEq] at ht'
      exact ht' ▸ ht
    · simp only [Router.setQueued, Function.update_of_ne hq] at ht'
      exact hs.queued q t' ht'

theorem WakingLoop.passDrainDone {n : Node k} {rx : Port → Option Handshake} {r s : Router}
    (hs : WakingLoop n rx r s) {p : Port} (hp : n.edge p = false) :
    WakingLoop n rx r (FLOVRouter.passDrainDone n p s) := by
  have hqueued : Forwarded n rx p
      { (s.outQueueHandshakes p).getD { id := n.val } with
        drainDone := true
        hid := (s.ports p).respHid } := by
    cases hqueue : s.outQueueHandshakes p with
    | none => exact ⟨hp, rfl, .inl rfl⟩
    | some t =>
        have ht := hs.queued p t hqueue
        exact ⟨hp, ht.newState, ht.id⟩
  have hset := hs.setQueued hqueued
  refine ⟨?_, fun q => ?_, hset.queued⟩
  · rw [hs.same]
    rfl
  · by_cases hq : q = p
    · subst hq
      simp only [FLOVRouter.passDrainDone, Router.setPort, Function.update_self]
      rw [hs.ports q]
    · simp only [FLOVRouter.passDrainDone, Router.setPort, Function.update_of_ne hq]
      exact hs.ports q

theorem WakingLoop.relay {n : Node k} {rx : Port → Option Handshake} {r s s' : Router}
    (hs : WakingLoop n rx r s) {input : Port} {h : Handshake} (hrx : rx input = some h)
    (houtput : n.edge input.opp = false) (hok : relaySourceOff n input h s = .ok s') : WakingLoop n rx r s' := by
  unfold relaySourceOff at hok
  have hid : ∃ h' ∈ rx input.opp.opp, h.id = h'.id := ⟨h, by rw [Port.opp_opp, hrx]; rfl, rfl⟩
  split at hok
  next =>
    split at hok <;> obtain rfl := pure_ok.mp hok
    next => exact hs.setQueued ⟨houtput, rfl, .inr hid⟩
    next => exact hs
  next t hqueue =>
    have ht := hs.queued _ t hqueue
    split at hok
    next =>
      obtain ⟨-, hok⟩ := require_bind_ok.mp hok
      obtain ⟨-, hok⟩ := require_bind_ok.mp hok
      split at hok <;> obtain rfl := pure_ok.mp hok
      next => exact hs.setQueued ⟨houtput, ht.newState, ht.id⟩
      next => exact hs
    next =>
      obtain ⟨-, hok⟩ := require_bind_ok.mp hok
      obtain rfl := pure_ok.mp hok
      exact hs.setQueued ⟨houtput, rfl, ht.id⟩

theorem relayLoop_wakeup {n : Node k} {rx : Port → Option Handshake} {r r' : Router}
    (hinner : ∀ p, n.edge p = true → rx p = none) (hwakeup : r.powerState = .wakeup)
    (hqueue : ∀ p, r.outQueueHandshakes p = none)
    (hok : forPorts (fun input r => match rx input with
      | none => pure r
      | some h => relayHandshake n input h r) r = .ok r') : WakingLoop n rx r r' := by
  refine forPorts_induction (motive := WakingLoop n rx r) hok
    ⟨rfl, fun _ => rfl, fun p t ht => by simp [hqueue] at ht⟩ ?_
  intro p s s' hs hstep
  cases hrx : rx p with
  | none =>
      simp only [hrx, pure_ok] at hstep
      exact hstep ▸ hs
  | some h =>
      have hstate : s.powerState = .wakeup := by rw [hs.same, hwakeup]
      simp only [hrx, relayHandshake, hstate] at hstep
      split at hstep
      next => exact pure_ok.mp hstep ▸ hs
      next houtput =>
        have houtput : n.edge p.opp = false := by simpa using houtput
        have hinput : n.edge p = false := by
          by_contra hedge
          simp [hinner p (by simpa using hedge)] at hrx
        refine WakingLoop.relay ?_ hrx houtput hstep
        unfold passDrainDones
        dsimp only
        split
        next => exact hs.passDrainDone houtput
        next =>
          split
          next => exact hs.passDrainDone hinput
          next => exact hs

/-- What a router may have queued after `_HandshakeEvaluate`. -/
def Queued (n : Node k) (rx : Port → Option Handshake) (r : Router) (p : Port) : Prop :=
  match r.powerState with
  | .powerOn | .draining => r.outQueueHandshakes p = none
  | .powerOff => r.outQueueHandshakes p =
      if n.edge p then none else (rx p.opp).bind (Router.relayed (r.waiting p))
  | .wakeup => ∀ t ∈ r.outQueueHandshakes p, Forwarded n rx p t

/-- `_HandshakeEvaluate` as a whole. -/
structure Evaluated (n : Node k) (rx : Port → Option Handshake) (r r' : Router) : Prop where
  same : r' = { r with ports := r'.ports, outQueueHandshakes := r'.outQueueHandshakes }
  received : ∀ p, Received n r.powerState (r.ports p) (rx p) (r'.ports p)
  queued : ∀ p, Queued n rx r' p

theorem handshakeEvaluate_ok {n : Node k} {rx : Port → Option Handshake} {r r' : Router}
    (hinner : ∀ p, n.edge p = true → rx p = none) (hok : handshakeEvaluate n rx r = .ok r') : Evaluated n rx r r' := by
  obtain ⟨hempty, hok⟩ := require_bind_ok.mp hok
  obtain ⟨mid, hmid, hok⟩ := bind_ok.mp hok
  obtain ⟨hreceived, hsame⟩ := receiveLoop_ok hmid
  have hqueue : ∀ p, mid.outQueueHandshakes p = none := by
    rw [hsame]
    simpa [Router.outQueueEmpty] using hempty
  have hstate : mid.powerState = r.powerState := by rw [hsame]
  have hfree : (r.powerState = .powerOn ∨ r.powerState = .draining) → r' = mid := by
    intro hon
    refine forPorts_induction (motive := fun s => s = mid) hok rfl ?_
    rintro p s s' rfl hstep
    cases hrx : rx p with
    | none => exact (pure_ok.mp (by simpa only [hrx] using hstep)).symm
    | some h =>
        rcases hon with hon | hon <;>
          exact (pure_ok.mp (by simpa only [hrx, relayHandshake, hstate, hon] using hstep)).symm
  cases hps : r.powerState with
  | powerOn =>
      obtain rfl := hfree (.inl hps)
      exact ⟨by rw [hsame], hreceived, fun p => by simp only [Queued, hstate, hps, hqueue]⟩
  | draining =>
      obtain rfl := hfree (.inr hps)
      exact ⟨by rw [hsame], hreceived, fun p => by simp only [Queued, hstate, hps, hqueue]⟩
  | powerOff =>
      obtain ⟨hrelayed, hkept⟩ := relayLoop_powerOff (hstate.trans hps) hqueue hok
      refine ⟨by rw [hkept, hsame], fun p => by rw [hkept]; exact hreceived p, fun p => ?_⟩
      have hoff : r'.powerState = .powerOff := by rw [hkept, hstate, hps]
      simp only [Queued, hoff]
      rw [hrelayed p, hkept]
      rfl
  | wakeup =>
      have hloop := relayLoop_wakeup hinner (hstate.trans hps) hqueue hok
      refine ⟨by rw [hloop.same, hsame], fun p => ?_, fun p => ?_⟩
      · have hp := hreceived p
        rw [hloop.ports p]
        exact ⟨hp.view, hp.reqHid, hp.respHid, hp.drainTag⟩
      · have hwakeup : r'.powerState = .wakeup := by rw [hloop.same, hstate, hps]
        simp only [Queued, hwakeup]
        exact hloop.queued p

/-- The changes of the power state. -/
inductive Transition : PowerState → PowerState → Prop where
  | startDraining : Transition .powerOn .draining
  | stopDraining : Transition .draining .powerOn
  | powerDown : Transition .draining .powerOff
  | startWakeup : Transition .powerOff .wakeup
  | finishWakeup : Transition .wakeup .powerOn

/-- What is announced of a change. A router that goes off announces what lies
behind it, one that has woken up announces itself as the logical neighbour. -/
def announcement (n : Node k) (ps ps' : PowerState) (behind : View) (hid : Int) : Handshake :=
  { newState := if ps' = .powerOff then some behind.downstreamState else some ps'
    srcState := some ps'
    id := n.val
    hid := hid
    logicalNeighbor :=
      if ps' = .powerOff then behind.logicalNeighbor
      else if ps = .wakeup then n.val
      else -1 }

/-- The power state machine as a whole: the state stays, or it changes and every
neighbour is told. -/
inductive PowerMove (n : Node k) (r r' : Router) : Prop where
  | stay :
      r'.powerState = r.powerState →
      r'.outQueueHandshakes = r.outQueueHandshakes →
      (∀ p, r'.ports p = { r.ports p with drainTag := (r'.ports p).drainTag }) →
      PowerMove n r r'
  | change :
      Transition r.powerState r'.powerState →
      (∀ p, r'.outQueueHandshakes p =
        if n.edge p then none
        else some (announcement n r.powerState r'.powerState (r.ports p.opp).view
          ((r.ports p).reqHid + 1))) →
      (∀ p, r'.ports p = { r.ports p with
        drainTag := (r'.ports p).drainTag
        reqHid := if n.edge p then (r.ports p).reqHid else (r.ports p).reqHid + 1 }) →
      PowerMove n r r'

theorem announce_ok {n : Node k} {fill : Port → Handshake → Handshake} {r r' : Router}
    (hok : r.announce n fill = .ok r') : (∀ p, r.outQueueHandshakes p = none) ∧
      r' = r.queueHandshakes n.inner fun p h =>
        { fill p h with srcState := some r.powerState, id := n.val } := by
  obtain ⟨hempty, hok⟩ := require_bind_ok.mp hok
  exact ⟨by simpa [Router.outQueueEmpty] using hempty, (pure_ok.mp hok).symm⟩

/-- An announcement, made after the state and the drain tags have been set. -/
theorem announce_powerMove {n : Node k} {fill : Port → Handshake → Handshake} {r mid r' : Router}
    (hok : mid.announce n fill = .ok r') (hchange : Transition r.powerState mid.powerState)
    (hports : ∀ p, mid.ports p = { r.ports p with drainTag := (mid.ports p).drainTag })
    (hfill : ∀ p hid, { fill p {} with srcState := some mid.powerState, id := n.val, hid := hid } =
      announcement n r.powerState mid.powerState (r.ports p.opp).view hid) :
    PowerMove n r r' := by
  obtain ⟨hempty, rfl⟩ := announce_ok hok
  have hreq : ∀ p, (mid.ports p).reqHid = (r.ports p).reqHid := fun p => by rw [hports p]
  refine .change hchange (fun p => ?_) (fun p => ?_)
  · cases hedge : n.edge p with
    | true => simp [Router.queueHandshakes, Node.inner, hedge, hempty]
    | false =>
        simp only [Router.queueHandshakes, Node.inner, hedge, hempty, Option.getD_none,
          ← hfill, hreq]
        rfl
  · cases hedge : n.edge p with
    | true => simpa [Router.queueHandshakes, Node.inner, hedge] using hports p
    | false =>
        simp only [Router.queueHandshakes, Node.inner, hedge, hreq]
        rw [hports p]
        rfl

/-- The same entries but for the drain tags. -/
def SameButTags (r s : Router) : Prop :=
  ∀ p, s.ports p = { r.ports p with drainTag := (s.ports p).drainTag }

section PowerStateEvaluate

variable {cfg : Config k} {n : Node k} {d : Datapath} {r mid r' : Router}

theorem startDraining_ok {tags : Port → Bool} (hstate : r.powerState = .powerOn)
    (hports : SameButTags r mid) (hok : mid.startDraining n tags = .ok r') : PowerMove n r r' := by
  refine announce_powerMove hok (hstate ▸ .startDraining) (fun p => ?_) fun p hid => ?_
  · simp only [Router.setDrainTags, Router.clearDrainTags]
    rw [hports p]
  · simp [hstate, announcement, Router.setDrainTags]

theorem stopDraining_ok (hstate : r.powerState = .draining) (hports : SameButTags r mid)
    (hok : mid.stopDraining n = .ok r') : PowerMove n r r' := by
  refine announce_powerMove hok (hstate ▸ .stopDraining) (fun p => ?_) fun p hid => ?_
  · simp only [Router.clearDrainTags]
    rw [hports p]
  · simp [hstate, announcement]

theorem powerDown_ok (hstate : r.powerState = .draining) (hports : SameButTags r mid)
    (hok : mid.powerDown n = .ok r') : PowerMove n r r' := by
  refine announce_powerMove hok (hstate ▸ .powerDown) (fun p => ?_) fun p hid => ?_
  · simp only [Router.clearDrainTags]
    rw [hports p]
  · rw [hports p.opp]
    simp [announcement, PortState.view]

theorem startWakeup_ok {tags : Port → Bool} (hstate : r.powerState = .powerOff)
    (hports : SameButTags r mid) (hok : mid.startWakeup n tags = .ok r') : PowerMove n r r' := by
  refine announce_powerMove hok (hstate ▸ .startWakeup) (fun p => ?_) fun p hid => ?_
  · simp only [Router.setDrainTags, Router.clearDrainTags]
    rw [hports p]
  · simp [hstate, announcement, Router.setDrainTags]

theorem finishWakeup_ok (hstate : r.powerState = .wakeup) (hports : SameButTags r mid)
    (hok : mid.finishWakeup n = .ok r') : PowerMove n r r' := by
  refine announce_powerMove hok (hstate ▸ .finishWakeup) (fun p => ?_) fun p hid => ?_
  · simp only [Router.clearDrainTags]
    rw [hports p]
  · simp [hstate, announcement]

theorem drainingEvaluate_ok {stop : Bool} (hstate : r.powerState = .draining)
    (hok : r.drainingEvaluate cfg n d stop = .ok r') : PowerMove n r r' := by
  dsimp only [Router.drainingEvaluate] at hok
  split at hok
  next => exact stopDraining_ok hstate (fun _ => by rfl) hok
  next =>
    split at hok
    next => exact powerDown_ok hstate (fun _ => by rfl) hok
    next =>
      split at hok
      next => exact stopDraining_ok hstate (fun _ => by rfl) hok
      next =>
        obtain rfl := pure_ok.mp hok
        exact .stay rfl rfl fun _ => rfl

theorem wakeupEvaluate_ok (hstate : r.powerState = .wakeup)
    (hsame : mid.powerState = r.powerState) (hqueue : mid.outQueueHandshakes = r.outQueueHandshakes)
    (hports : SameButTags r mid) (hok : mid.wakeupEvaluate cfg n d = .ok r') :
    PowerMove n r r' := by
  dsimp only [Router.wakeupEvaluate] at hok
  split at hok
  next => exact finishWakeup_ok hstate hports hok
  next =>
    obtain rfl := pure_ok.mp hok
    exact .stay hsame hqueue hports

theorem gflovPowerStateEvaluate_ok (hok : gflovPowerStateEvaluate cfg n d r = .ok r') :
    PowerMove n r r' := by
  unfold gflovPowerStateEvaluate at hok
  split at hok
  next hstate =>
    split at hok
    next =>
      obtain rfl := pure_ok.mp hok
      exact .stay rfl rfl fun _ => rfl
    next =>
      split at hok
      next => exact startDraining_ok hstate (fun _ => by rfl) hok
      next =>
        obtain rfl := pure_ok.mp hok
        exact .stay rfl rfl fun _ => rfl
  next hstate => exact drainingEvaluate_ok hstate hok
  next =>
    obtain rfl := pure_ok.mp hok
    exact .stay rfl rfl fun _ => rfl
  next hstate => exact wakeupEvaluate_ok hstate (by rfl) (by rfl) (fun _ => by rfl) hok

theorem rflovPowerStateEvaluate_ok (hok : rflovPowerStateEvaluate cfg n d r = .ok r') :
    PowerMove n r r' := by
  unfold rflovPowerStateEvaluate at hok
  split at hok
  next hstate =>
    split at hok
    next =>
      obtain rfl := pure_ok.mp hok
      exact .stay rfl rfl fun _ => rfl
    next =>
      split at hok
      next => exact startDraining_ok hstate (fun _ => by rfl) hok
      next =>
        obtain rfl := pure_ok.mp hok
        exact .stay rfl rfl fun _ => rfl
  next hstate => exact drainingEvaluate_ok hstate hok
  next hstate =>
    split at hok
    next =>
      dsimp only at hok
      split at hok
      next => exact startWakeup_ok hstate (fun _ => by rfl) hok
      next =>
        obtain rfl := pure_ok.mp hok
        exact .stay rfl rfl fun _ => rfl
    next =>
      obtain rfl := pure_ok.mp hok
      exact .stay rfl rfl fun _ => rfl
  next hstate => exact wakeupEvaluate_ok hstate (by rfl) (by rfl) (fun _ => by rfl) hok

theorem noflovPowerStateEvaluate_ok (hok : noflovPowerStateEvaluate cfg n d r = .ok r') :
    PowerMove n r r' := by
  unfold noflovPowerStateEvaluate at hok
  split at hok
  next =>
    obtain rfl := pure_ok.mp hok
    exact .stay rfl rfl fun _ => rfl
  next hstate => exact stopDraining_ok hstate (fun _ => by rfl) hok
  next hstate =>
    dsimp only at hok
    split at hok
    next => exact startWakeup_ok hstate (fun _ => by rfl) hok
    next =>
      obtain rfl := pure_ok.mp hok
      exact .stay rfl rfl fun _ => rfl
  next hstate => exact wakeupEvaluate_ok hstate (by rfl) (by rfl) (fun _ => by rfl) hok

/-- Whatever the policy, the power state machine moves by these rules. -/
theorem powerStateEvaluate_ok {policy : FLOVPolicy}
    (hok : powerStateEvaluate policy cfg n d r = .ok r') : PowerMove n r r' := by
  obtain ⟨-, hok⟩ := require_bind_ok.mp hok
  cases policy with
  | gflov => exact gflovPowerStateEvaluate_ok hok
  | rflov => exact rflovPowerStateEvaluate_ok hok
  | noflov => exact noflovPowerStateEvaluate_ok hok

end PowerStateEvaluate

/-- The answer, if one is due, joins what is queued. -/
inductive Responds (n : Node k) (ps : PowerState) (e : PortState) (queued : Option Handshake) :
    PortState → Option Handshake → Prop where
  | silent : Responds n ps e queued e queued
  | answer :
      ps = .powerOn ∨ ps = .draining →
      Waiting e →
      e.drainDoneSent = false →
      (∀ h ∈ queued, h.newState = some ps) →
      Responds n ps e queued { e with drainDoneSent := true }
        (some { queued.getD {} with drainDone := true, id := n.val, hid := e.respHid })

/-- The entries of a router, as far as they say something about other routers. -/
theorem Responds.kept {n : Node k} {ps : PowerState} {e e' : PortState}
    {queued tx : Option Handshake} (h : Responds n ps e queued e' tx) :
    e'.view = e.view ∧ e'.reqHid = e.reqHid ∧ e'.respHid = e.respHid ∧
      e'.drainTag = e.drainTag := by
  cases h <;> exact ⟨rfl, rfl, rfl, rfl⟩

theorem Responds.mem {n : Node k} {ps : PowerState} {e e' : PortState}
    {queued tx : Option Handshake} (h : Responds n ps e queued e' tx) :
    ∀ t ∈ tx, t ∈ queued ∨ Waiting e ∧ t.id = n.val := by
  cases h with
  | silent => exact fun t ht => .inl ht
  | answer _ hwaiting =>
      intro t ht
      obtain rfl := Option.mem_some.mp ht
      exact .inr ⟨hwaiting, rfl⟩

theorem internalStep_ok {n : Node k} {d : Datapath} {r r' : Router}
    (hok : r.internalStep n d = .ok r') :
    r'.powerState = r.powerState ∧ ∀ p, Responds n r.powerState (r.ports p)
      (r.outQueueHandshakes p) (r'.ports p) (r'.outQueueHandshakes p) := by
  unfold Router.internalStep at hok
  split at hok
  next =>
    obtain rfl := pure_ok.mp hok
    exact ⟨rfl, fun _ => .silent⟩
  next hon =>
    obtain ⟨hqueued, hok⟩ := require_bind_ok.mp hok
    obtain rfl := pure_ok.mp hok
    refine ⟨rfl, fun p => ?_⟩
    simp only [Router.sendDrainDone]
    split
    next hanswer =>
      have hall := hqueued p (Port.mem_all p) hanswer
      simp only [Router.answers, Router.waiting, Bool.and_eq_true, Bool.or_eq_true,
        decide_eq_true_eq, Bool.not_eq_true'] at hanswer
      refine .answer ?_ hanswer.1.1 hanswer.1.2 hall
      cases hstate : r.powerState <;> simp_all
    next => exact .silent

/-- The policy does not touch what a router keeps of its neighbours. -/
theorem changePolicy_router (n : Node k) (calls : List PolicyCall) (r : FLOVRouter) :
    (changePolicy n calls r).powerState = r.powerState ∧
      (changePolicy n calls r).ports = r.ports := by
  unfold changePolicy
  induction calls generalizing r with
  | nil => exact ⟨rfl, rfl⟩
  | cons call calls ih =>
      rw [List.foldl_cons]
      refine (ih _).imp (fun h => h.trans ?_) fun h => h.trans ?_ <;>
      cases call <;> simp only [aggressFLOVPolicy, regressFLOVPolicy] <;> cases r.flovPolicy <;> rfl

/-- A cycle in its parts, whatever the policy and the inputs. -/
structure CycleParts (n : Node k) (r : Router) (rx : Port → Option Handshake) (r' : Router)
    (tx : Port → Option Handshake) (base heard moved : Router) : Prop where
  powerState : base.powerState = r.powerState
  ports : base.ports = r.ports
  evaluated : Evaluated n rx base heard
  move : PowerMove n heard moved
  final : r'.powerState = moved.powerState
  outQueue : ∀ p, r'.outQueueHandshakes p = none
  responds : ∀ p, Responds n moved.powerState (moved.ports p) (moved.outQueueHandshakes p)
    (r'.ports p) (tx p)

theorem cycle_ok {cfg : Config k} {n : Node k} {r r' : FLOVRouter} {inp : FLOVInputs}
    {rx tx : Port → Option Handshake} (hinner : ∀ p, n.edge p = true → rx p = none)
    (hok : cycle cfg n r inp rx = .ok (r', tx)) :
    ∃ base heard moved, CycleParts n r.toRouter rx r'.toRouter tx base heard moved := by
  obtain ⟨⟨s, sent⟩, hrouter, hend⟩ := bind_ok.mp hok
  obtain ⟨rfl, rfl⟩ := Prod.mk.inj (pure_ok.mp hend)
  simp only [routerCycle, bind_ok] at hrouter
  obtain ⟨heard, hheard, moved, hmoved, done, hdone, hend⟩ := hrouter
  obtain ⟨rfl, rfl⟩ := Router.outputQueuing_ok hend
  obtain ⟨hstate, hresponds⟩ := internalStep_ok hdone
  obtain ⟨hpolicy, hports⟩ := changePolicy_router n inp.policyCalls r
  exact ⟨_, heard, moved, by simpa using hpolicy, by simpa using hports,
    handshakeEvaluate_ok hinner hheard, powerStateEvaluate_ok hmoved, hstate, fun _ => rfl,
    hresponds⟩

theorem PowerMove.view {n : Node k} {r r' : Router} (h : PowerMove n r r') (p : Port) :
    (r'.ports p).view = (r.ports p).view := by
  cases h with
  | stay _ _ hports => rw [hports p]; rfl
  | change _ _ hports => rw [hports p]; rfl

/-- What is received is all that changes the view of a port. -/
theorem CycleParts.view {n : Node k} {r r' base heard moved : Router}
    {rx tx : Port → Option Handshake} (h : CycleParts n r rx r' tx base heard moved) (p : Port) :
    (r'.ports p).view = (rx p).elim (r.ports p).view ((r.ports p).view.update n) := by
  rw [(h.responds p).kept.1, h.move.view, (h.evaluated.received p).view, h.ports]

/-- A handshake at an inner port that the router made itself or passes on. -/
def Originates (n : Node k) (rx : Port → Option Handshake) (p : Port) (t : Handshake) : Prop :=
  n.edge p = false ∧ (t.id = n.val ∨ ∃ h ∈ rx p.opp, t.id = h.id)

theorem Evaluated.originates {n : Node k} {rx : Port → Option Handshake} {r r' : Router}
    (h : Evaluated n rx r r') (p : Port) : ∀ q ∈ r'.outQueueHandshakes p, Originates n rx p q := by
  intro q hq
  have hqueued := h.queued p
  unfold Queued at hqueued
  split at hqueued
  next => simp [hqueued] at hq
  next => simp [hqueued] at hq
  next =>
    cases hedge : n.edge p with
    | true => simp [hqueued, hedge] at hq
    | false =>
        rw [hqueued, if_neg (by simp [hedge])] at hq
        obtain ⟨h', hh', hrelayed⟩ := Option.bind_eq_some_iff.mp hq
        exact ⟨hedge, .inr ⟨h', hh', (relayed_kept hrelayed).2.2.2⟩⟩
  next => exact ⟨(hqueued q hq).inner, (hqueued q hq).id⟩

theorem PowerMove.originates {n : Node k} {rx : Port → Option Handshake} {r r' : Router}
    (h : PowerMove n r r') {p : Port} (hr : ∀ q ∈ r.outQueueHandshakes p, Originates n rx p q) :
    ∀ q ∈ r'.outQueueHandshakes p, Originates n rx p q := by
  cases h with
  | stay _ hqueue => rwa [hqueue]
  | change _ hqueue =>
      intro q hq
      rw [hqueue] at hq
      split at hq
      next => cases hq
      next hedge =>
        obtain rfl := Option.mem_some.mp hq
        exact ⟨by simpa using hedge, .inl rfl⟩

theorem CycleParts.originates {n : Node k} {r r' base heard moved : Router}
    {rx tx : Port → Option Handshake} (h : CycleParts n r rx r' tx base heard moved) {p : Port}
    (hp : n.edge p = true → ¬ Waiting (moved.ports p)) : ∀ t ∈ tx p, Originates n rx p t := by
  intro t ht
  rcases (h.responds p).mem t ht with hqueued | ⟨hwaiting, hid⟩
  · exact h.move.originates (h.evaluated.originates p) t hqueued
  · exact ⟨Bool.eq_false_iff.mpr fun hedge => hp hedge hwaiting, .inl hid⟩

end FLOVRouter

end Flyover
