import Flyover.Flov.PortMove
import Flyover.GFlov.Router

/-!
# `FLOVRouter` held at the policy `gflov`, against `GFLOVRouter`

The two classes began as one. Where a run of `GFLOVRouter`s keeps away from the
points at which they have drifted apart, the same run of `FLOVRouter`s goes
through the same states. The first such point is that nothing ever wakes an off
`FLOVRouter` up under the policy `gflov`.
-/

namespace Flyover.Comparison

variable {k : Nat}

/-- The entry's part of `GFLOVRouter`'s `receive`, for a router that does not wake up. -/
def receiveEntry (ps : PowerState) (e : PortState) (h : Handshake) :
    Except AssertFailure PortState :=
  match ps with
  | .powerOn => GFLOVRouter.receivePowerOn e h
  | .draining => GFLOVRouter.receiveDraining e h
  | .powerOff => GFLOVRouter.receivePowerOff e h
  | .wakeup => .error .unexpectedState

/-- A handshake, or none, is received and recorded. -/
def hear (n : Node k) (receive : PortState → Handshake → Except AssertFailure PortState)
    (rx : Option Handshake) (e : PortState) : Except AssertFailure PortState :=
  match rx with
  | none => pure e
  | some h => receive e h >>= fun e => Router.updateDownstream n e h

/-- A handshake of a network in which no router wakes up. -/
structure Plain (h : Handshake) : Prop where
  silent : h.srcState = none → h.newState = none
  powerOn : h.srcState = some .powerOn → h.newState = some .powerOn
  request : h.srcState = some .draining ∨ h.srcState = some .powerOff → h.drainDone = false
  asleep : h.srcState ≠ some .wakeup ∧ h.newState ≠ some .wakeup

/-- The entries of a `GFLOVRouter` and of the `FLOVRouter` in its place; `heard`
is a downstream state still to be recorded. What the entries hold about
acknowledgements matters only while the downstream router drains. -/
structure EntryAlike (n : Node k) (p : Port) (ps : PowerState) (heard : Option PowerState)
    (e e' : PortState) : Prop where
  neighborState : e.neighborState = e'.neighborState
  downstreamState : e.downstreamState = e'.downstreamState
  logicalNeighbor : e.logicalNeighbor = e'.logicalNeighbor
  drainTag : e.drainTag = e'.drainTag
  reqHid : e.reqHid = e'.reqHid
  answers : ps = .powerOn ∨ ps = .draining → heard.getD e.downstreamState = .draining →
    e.drainDoneSent = e'.drainDoneSent ∧ e.respHid = e'.respHid
  asleep : e.downstreamState ≠ .wakeup
  untagged : ps = .powerOn ∨ ps = .powerOff → e.drainTag = false
  edge : n.edge p = true → e.downstreamState = .powerOff

/-- The downstream state of a port after its handshake. -/
def heardState (e : PortState) (rx : Option Handshake) : PowerState :=
  (rx.bind Handshake.newState).getD e.downstreamState

/-- The request that a `GFLOVRouter` which is off would answer after a port's handshake. -/
def heardHid (e : PortState) (rx : Option Handshake) : Int :=
  rx.elim e.respHid fun h => if h.srcState.isSome && !h.drainDone then h.hid else e.respHid

/-- What an off `GFLOVRouter` passes on: somebody waits or not, and an
acknowledgement gets the id of the request. -/
def gflovRelays (state : PowerState) (hid : Int) (rx : Option Handshake) : Option Handshake :=
  (rx.bind (Router.relayed (GFLOVRouter.isWaiting state))).map fun h =>
    if h.drainDone then { h with hid := hid } else h

section Receive

variable {n : Node k} {p : Port} {ps : PowerState} {e e' : PortState} {h : Handshake}

/-- A handshake without `src_state` leaves the entries alone. -/
theorem EntryAlike.heard (hentry : EntryAlike n p ps none e e') (hplain : Plain h)
    (hsrc : h.srcState = none) : EntryAlike n p ps h.newState e e' := by
  rw [hplain.silent hsrc]
  exact hentry

theorem receivePowerOn_alike (hentry : EntryAlike n p .powerOn none e e') (hplain : Plain h) :
    Alike (EntryAlike n p .powerOn h.newState) (GFLOVRouter.receivePowerOn e h)
      (FLOVRouter.receivePowerOn e' h) := by
  have hasleep := hentry.downstreamState ▸ hentry.asleep
  unfold GFLOVRouter.receivePowerOn FLOVRouter.receivePowerOn
  cases hsrc : h.srcState with
  | none => exact .ok (hentry.heard hplain hsrc)
  | some src =>
      have hcheck : GFLOVRouter.checkPowerOn e h src = .ok () ↔
          FLOVRouter.checkPowerOn e' h src = .ok () := by
        have hanswers := hentry.answers (.inl rfl)
        rw [Option.getD_none, hentry.downstreamState] at hanswers
        cases src <;>
          simp only [GFLOVRouter.checkPowerOn, FLOVRouter.checkPowerOn, require_bind_ok,
            require_ok, hentry.downstreamState, hasleep, or_false] <;>
          grind
      refine (Alike.unit hcheck).bind fun _ _ hok => .ok ?_
      refine { hentry with answers := fun _ hnew => ?_ }
      dsimp only at hnew ⊢
      -- only a drain that goes on leaves something to compare
      cases src with
      | powerOn => simp [hplain.powerOn hsrc] at hnew
      | wakeup => exact absurd hsrc hplain.asleep.1
      | draining => simp [GFLOVRouter.keepsDrainDoneSent, hplain.request (.inl hsrc)]
      | powerOff =>
          simp only [GFLOVRouter.checkPowerOn, require_bind_ok, require_ok] at hok
          have hdraining := hok.1.resolve_right hentry.asleep
          simp [GFLOVRouter.keepsDrainDoneSent, hdraining, hplain.request (.inr hsrc)]

theorem recordDraining_alike (hentry : EntryAlike n p .draining none e e') (hplain : Plain h) :
    Alike (fun s s' => EntryAlike n p .draining h.newState s s' ∧
        s.drainTag = e.drainTag ∧ s.reqHid = e.reqHid)
      (GFLOVRouter.recordDraining e h) (FLOVRouter.recordDraining e' h) := by
  unfold GFLOVRouter.recordDraining FLOVRouter.recordDraining
  cases hsrc : h.srcState with
  | none => exact .ok ⟨hentry.heard hplain hsrc, rfl, rfl⟩
  | some src =>
      have hcheck : GFLOVRouter.checkDraining e src = .ok () ↔
          FLOVRouter.checkDraining e' src = .ok () := by
        cases src <;>
          simp only [GFLOVRouter.checkDraining, FLOVRouter.checkDraining, hentry.downstreamState,
            require_ok, reduceCtorEq]
      refine (Alike.unit hcheck).bind fun _ _ _ => .ok ⟨?_, rfl, rfl⟩
      refine { hentry with answers := fun _ hnew => ?_ }
      dsimp only at hnew ⊢
      cases src with
      | powerOn => simp [hplain.powerOn hsrc] at hnew
      | wakeup => exact absurd hsrc hplain.asleep.1
      | draining => simp [hplain.request (.inl hsrc)]
      | powerOff => simp [hplain.request (.inr hsrc)]

/-- `GFLOVRouter` asserts that the drain tag is not set before it compares the ids. -/
theorem receiveDraining_alike (hentry : EntryAlike n p .draining none e e') (hplain : Plain h)
    (honce : h.drainDone = true → e.drainTag = true → h.hid = e.reqHid) :
    Alike (EntryAlike n p .draining h.newState) (GFLOVRouter.receiveDraining e h)
      (FLOVRouter.receiveDraining e' h) := by
  refine (recordDraining_alike hentry hplain).bind fun s s' ⟨hs, htag, hreq⟩ => ?_
  rw [← htag, ← hreq] at honce
  cases hdone : h.drainDone with
  | false => exact .ok hs
  | true =>
      simp only [if_true, ← hs.downstreamState, ← hs.reqHid, ← hs.drainTag]
      refine (Alike.require Iff.rfl).bind fun _ _ _ => ?_
      split
      next hhid =>
        refine (Alike.require Iff.rfl).bind fun _ _ _ => .ok ?_
        exact { hs with
          downstreamState := rfl
          reqHid := rfl
          drainTag := rfl
          untagged := by simp }
      next hhid =>
        have hfree : s.drainTag = false :=
          Bool.eq_false_iff.mpr fun htag => hhid (honce hdone htag)
        rw [hfree]
        exact .ok hs

theorem receivePowerOff_alike (hentry : EntryAlike n p .powerOff none e e') (hplain : Plain h) :
    Alike (fun s s' => EntryAlike n p .powerOff h.newState s s' ∧
        s.respHid = heardHid e (some h) ∧ s.downstreamState = e.downstreamState)
      (GFLOVRouter.receivePowerOff e h) (FLOVRouter.receivePowerOff e' h) := by
  unfold GFLOVRouter.receivePowerOff FLOVRouter.receivePowerOff
  cases hsrc : h.srcState with
  | none => exact .ok ⟨hentry.heard hplain hsrc, by simp [heardHid, hsrc], rfl⟩
  | some src =>
      have hcheck : GFLOVRouter.checkPowerOff e src = .ok () ↔
          FLOVRouter.checkPowerOff e' src = .ok () := by
        cases src with
        | wakeup => exact absurd hsrc hplain.asleep.1
        | powerOn | powerOff | draining =>
            simp only [GFLOVRouter.checkPowerOff, FLOVRouter.checkPowerOff,
              hentry.downstreamState, require_ok]
      refine (Alike.unit hcheck).bind fun _ _ _ => .ok ⟨?_, ?_, rfl⟩
      · exact { hentry with answers := by simp }
      · cases hdone : h.drainDone <;> simp [heardHid, hsrc, hdone]

theorem updateStates_alike (hentry : EntryAlike n p ps h.newState e e') (hplain : Plain h)
    (hp : n.edge p = false) :
    Alike (EntryAlike n p ps none) (Router.updateStates n e h) (Router.updateStates n e' h) := by
  unfold Router.updateStates
  cases hnew : h.newState with
  | none => exact .ok (hnew ▸ hentry)
  | some new =>
      have hanswers := hentry.answers
      have hasleep : new ≠ .wakeup := fun hwakeup => hplain.asleep.2 (hwakeup ▸ hnew)
      rw [hnew] at hanswers
      dsimp only
      split
      next =>
        cases h.srcState with
        | none => exact .error _ _
        | some src =>
            exact .ok { hentry with
              neighborState := rfl
              downstreamState := rfl
              answers := hanswers
              asleep := hasleep
              edge := by simp [hp] }
      next =>
        exact .ok { hentry with
          downstreamState := rfl
          answers := hanswers
          asleep := hasleep
          edge := by simp [hp] }

theorem updateDownstream_alike (hentry : EntryAlike n p ps h.newState e e') (hplain : Plain h)
    (hp : n.edge p = false) :
    Alike (EntryAlike n p ps none) (Router.updateDownstream n e h)
      (Router.updateDownstream n e' h) := by
  refine (updateStates_alike hentry hplain hp).bind fun s s' hs => .ok ?_
  rw [← hs.downstreamState]
  split
  next => exact { hs with downstreamState := rfl, logicalNeighbor := rfl }
  next =>
    split
    next => exact { hs with downstreamState := rfl, logicalNeighbor := rfl }
    next => exact hs

theorem receive_alike (hentry : EntryAlike n p ps none e e') (hplain : Plain h)
    (hasleep : ps ≠ .wakeup)
    (honce : ps = .draining → h.drainDone = true → e.drainTag = true → h.hid = e.reqHid) :
    Alike (fun s s' => EntryAlike n p ps h.newState s s' ∧
        (ps = .powerOff → s.respHid = heardHid e (some h) ∧ s.downstreamState = e.downstreamState))
      (receiveEntry ps e h) (FLOVRouter.receive ps false e' h) := by
  cases ps with
  | wakeup => exact absurd rfl hasleep
  | powerOn => exact (receivePowerOn_alike hentry hplain).mono fun _ _ hs => ⟨hs, nofun⟩
  | draining =>
      exact (receiveDraining_alike hentry hplain (honce rfl)).mono fun _ _ hs => ⟨hs, nofun⟩
  | powerOff =>
      exact (receivePowerOff_alike hentry hplain).mono fun _ _ hs => ⟨hs.1, fun _ => hs.2⟩

theorem hear_alike {rx : Option Handshake} (hentry : EntryAlike n p ps none e e')
    (hplain : ∀ h ∈ rx, n.edge p = false ∧ Plain h) (hasleep : ps ≠ .wakeup)
    (honce : ps = .draining → ∀ h ∈ rx, h.drainDone = true → e.drainTag = true → h.hid = e.reqHid) :
    Alike (fun s s' => EntryAlike n p ps none s s' ∧
        (ps = .powerOff → s.respHid = heardHid e rx ∧ s.downstreamState = heardState e rx))
      (hear n (receiveEntry ps) rx e) (hear n (FLOVRouter.receive ps false) rx e') := by
  cases rx with
  | none => exact .ok ⟨hentry, fun _ => ⟨rfl, rfl⟩⟩
  | some h =>
      obtain ⟨hp, hplain⟩ := hplain h rfl
      refine (receive_alike hentry hplain hasleep fun hd => honce hd h rfl).bind fun s s' hs => ?_
      refine ((updateDownstream_alike hs.1 hplain hp).outcome).mono fun t t' ht => ⟨ht.1, ?_⟩
      intro hoff
      obtain ⟨hresp, hstate⟩ := hs.2 hoff
      rw [Router.updateDownstream_ok ht.2.1]
      refine ⟨hresp, ?_⟩
      simp [heardState, View.update, PortState.view, hstate]

theorem setThrough_none {s : Router} (hnone : s.outQueueHandshakes p.opp = none) :
    s.setThrough p e none = s.setPort p e := by
  simp only [Router.setThrough, Router.setPort, ← hnone, Function.update_eq_self]

theorem relayOff_eq {old : Port → PowerState} {s : Router}
    (hnone : s.outQueueHandshakes p.opp = none) :
    GFLOVRouter.relayOff n old p h (s.setPort p e) = pure (s.setThrough p e
      (if n.edge p.opp = false then
        gflovRelays (old p.opp) (s.ports p.opp).respHid (some h) else none)) := by
  rw [GFLOVRouter.relayOff, Router.setPort_outQueueHandshakes, require_of hnone, pure_bind]
  cases hedge : n.edge p.opp with
  | true => simp [setThrough_none hnone]
  | false =>
      simp only [gflovRelays, Option.bind]
      cases hrelayed : Router.relayed (GFLOVRouter.isWaiting (old p.opp)) h with
      | none => simp [setThrough_none hnone]
      | some t => simp [Router.setQueued, Router.setPort, Router.setThrough]

/-- `GFLOVRouter`'s `_HandshakeEvaluate` as one loop over independent entries. -/
theorem gflov_handshakeEvaluate {n : Node k} {rx : Port → Option Handshake} {r : Router}
    (hempty : ∀ p, r.outQueueHandshakes p = none) (hasleep : r.powerState ≠ .wakeup) :
    GFLOVRouter.handshakeEvaluate n rx r =
      (traversePorts fun p => hear n (receiveEntry r.powerState) (rx p) (r.ports p)) >>= fun es =>
        pure { r with
          ports := es
          outQueueHandshakes := fun p =>
            if r.powerState = .powerOff ∧ n.edge p = false then
              gflovRelays (r.ports p).downstreamState
                (if p.beforeOpp then es p else r.ports p).respHid (rx p.opp)
            else none } := by
  rw [GFLOVRouter.handshakeEvaluate, require_of (by simp [Router.outQueueEmpty, hempty]), pure_bind]
  refine forPorts_eq (fun p => hear n (receiveEntry r.powerState) (rx p))
    (fun p e => if r.powerState = .powerOff ∧ n.edge p = false then
      gflovRelays (r.ports p).downstreamState e.respHid (rx p.opp) else none) hempty ?_
  intro p s hstate hnone
  cases hrx : rx p with
  | none =>
      simp [hear, gflovRelays, hrx, setThrough_none hnone]
  | some h =>
      simp only [hear, GFLOVRouter.processHandshake, GFLOVRouter.receive, hstate, receiveEntry,
        GFLOVRouter.relayHandshake, bind_assoc, Port.opp_opp, hrx]
      cases hps : r.powerState with
      | wakeup => exact absurd hps hasleep
      | powerOn | draining => simp [setThrough_none hnone, hstate, hps]
      | powerOff => simp [relayOff_eq hnone, hstate, hps]

theorem receive_awake {outputTag : Bool} (hasleep : ps ≠ .wakeup) :
    FLOVRouter.receive ps outputTag e h = FLOVRouter.receive ps false e h := by
  cases ps with
  | wakeup => exact absurd rfl hasleep
  | powerOn | draining | powerOff => rfl

theorem flov_relayOff_eq {s : Router} (hnone : s.outQueueHandshakes p.opp = none) :
    FLOVRouter.relayOff n p h s = pure (s.setThrough p (s.ports p)
      (if n.edge p.opp = false then Router.relayed (s.waiting p.opp) h else none)) := by
  rw [FLOVRouter.relayOff, require_of hnone, pure_bind]
  cases hedge : n.edge p.opp with
  | true => simp [setThrough_none hnone]
  | false =>
      cases hrelayed : Router.relayed (s.waiting p.opp) h with
      | none => simp [setThrough_none hnone]
      | some t => simp [Router.setQueued, Router.setThrough]

/-- `FLOVRouter`'s `_HandshakeEvaluate` as one loop over independent entries. -/
theorem flov_handshakeEvaluate {n : Node k} {rx : Port → Option Handshake} {r : Router}
    (hempty : ∀ p, r.outQueueHandshakes p = none) (hasleep : r.powerState ≠ .wakeup) :
    FLOVRouter.handshakeEvaluate n rx r =
      (traversePorts fun p =>
        hear n (FLOVRouter.receive r.powerState false) (rx p) (r.ports p)) >>= fun es =>
        pure { r with
          ports := es
          outQueueHandshakes := fun p =>
            if r.powerState = .powerOff ∧ n.edge p = false then
              (rx p.opp).bind (Router.relayed (GFLOVRouter.isWaiting (es p).downstreamState))
            else none } := by
  rw [FLOVRouter.handshakeEvaluate, require_of (by simp [Router.outQueueEmpty, hempty]), pure_bind,
    forPorts_eq (fun p => hear n (FLOVRouter.receive r.powerState false) (rx p))
      (fun _ _ => none) hempty, bind_assoc]
  · refine bind_congr fun es => ?_
    rw [pure_bind, forPorts_eq (fun _ e => pure e) (fun p e =>
      if r.powerState = .powerOff ∧ n.edge p = false then
        (rx p.opp).bind (Router.relayed (GFLOVRouter.isWaiting e.downstreamState)) else none)
      (fun _ => rfl), traversePorts_pure, pure_bind]
    · simp
    · intro p s hstate hnone
      dsimp only at hstate
      cases hrx : rx p with
      | none => simp [hrx, setThrough_none hnone]
      | some h =>
          simp only [FLOVRouter.relayHandshake, hstate, pure_bind, Port.opp_opp, hrx]
          cases hps : r.powerState with
          | wakeup => exact absurd hps hasleep
          | powerOn | draining => simp [setThrough_none hnone]
          | powerOff =>
              simp only [flov_relayOff_eq hnone]
              simp
              rfl
  · intro p s hstate hnone
    cases hrx : rx p with
    | none => simp [hear, setThrough_none hnone]
    | some h =>
        simp [hear, FLOVRouter.receiveHandshake, hstate, receive_awake hasleep, setThrough_none hnone]

end Receive

/-- A `GFLOVRouter` and the `FLOVRouter` in its place, at some point of a cycle. -/
structure RouterAlike (n : Node k) (r r' : Router) : Prop where
  powerState : r.powerState = r'.powerState
  drainTimer : r.drainTimer = r'.drainTimer
  wakeupSignal : r.wakeupSignal = r'.wakeupSignal
  routerState : r.routerState = r'.routerState
  outQueueHandshakes : r.outQueueHandshakes = r'.outQueueHandshakes
  ports : ∀ p, EntryAlike n p r.powerState none (r.ports p) (r'.ports p)
  asleep : r.powerState ≠ .wakeup

/-- What is queued in a network in which no router wakes up; no answer is due
where a request is queued. -/
structure PlainQueue (n : Node k) (r : Router) : Prop where
  plain : ∀ p, ∀ t ∈ r.outQueueHandshakes p, n.edge p = false ∧ Plain t
  request : r.powerState = .powerOn ∨ r.powerState = .draining → ∀ p,
    ∀ t ∈ r.outQueueHandshakes p, t.srcState = some .draining ∨ t.srcState = some .powerOff →
      (r.ports p).downstreamState ≠ .draining

/-- A `GFLOVRouter` that receives `rx` keeps away from what the two classes do
differently. -/
structure Conforming (cfg : Config k) (n : Node k) (r : Router) (rx : Port → Option Handshake) :
    Prop where
  /-- A router that is off and wanted is not due to wake up. -/
  asleep : r.powerState = .powerOff → r.routerState = true → cfg.betThreshold ≤ r.offTimer + 1 →
    (∃ p, GFLOVRouter.isWaiting (heardState (r.ports p) (rx p)) = true) ∨
      ∃ p, n.edge p = false ∧
        ((rx p.opp).bind
          (Router.relayed (GFLOVRouter.isWaiting (r.ports p).downstreamState))).isSome = true
  /-- Only an acknowledgement of the current request arrives where the tag is set. -/
  once : r.powerState = .draining → ∀ p, ∀ h ∈ rx p, h.drainDone = true →
    (r.ports p).drainTag = true → h.hid = (r.ports p).reqHid
  /-- An acknowledgement meets no change of the state that it is relayed to, and
  carries the id of the request that the relay has recorded. -/
  relays : r.powerState = .powerOff → ∀ p, n.edge p = false → ∀ h ∈ rx p.opp, h.drainDone = true →
    GFLOVRouter.isWaiting (r.ports p).downstreamState =
        GFLOVRouter.isWaiting (heardState (r.ports p) (rx p)) ∧
      (GFLOVRouter.isWaiting (r.ports p).downstreamState = true →
        h.hid = if p.beforeOpp then heardHid (r.ports p) (rx p) else (r.ports p).respHid)

theorem relayed_congr {w w' : Bool} {h : Handshake} (hw : h.drainDone = true → w = w') :
    Router.relayed w h = Router.relayed w' h := by
  cases hdone : h.drainDone with
  | true => rw [hw hdone]
  | false => simp [Router.relayed, hdone]

/-- An acknowledgement is relayed as it is, and only to somebody who waits. -/
theorem eq_of_relayed {w : Bool} {h t : Handshake} (ht : Router.relayed w h = some t)
    (hdone : t.drainDone = true) : w = true ∧ t = h := by
  unfold Router.relayed at ht
  simp only [Option.ite_none_right_eq_some, Option.some.injEq] at ht
  obtain ⟨-, rfl⟩ := ht
  split at hdone
  next => cases hdone
  next hrelayed =>
    rw [if_neg hrelayed]
    simp only [Bool.and_eq_true, Bool.not_eq_true', not_and] at hrelayed
    exact ⟨by simpa using mt hrelayed (by simpa using hdone), rfl⟩

theorem relayed_map {w : Bool} {h : Handshake} {hid : Int}
    (hhid : h.drainDone = true → w = true → h.hid = hid) :
    ((Router.relayed w h).map fun t => if t.drainDone then { t with hid := hid } else t) =
      Router.relayed w h := by
  cases hrelayed : Router.relayed w h with
  | none => rfl
  | some t =>
      rw [Option.map_some]
      split
      next hdone =>
        obtain ⟨hw, rfl⟩ := eq_of_relayed hrelayed hdone
        rw [← hhid hdone hw]
      next => rfl

theorem Plain.relayed {w : Bool} {h t : Handshake} (hplain : Plain h)
    (ht : Router.relayed w h = some t) : Plain t := by
  unfold Router.relayed at ht
  simp only [Option.ite_none_right_eq_some, Option.some.injEq] at ht
  obtain ⟨-, rfl⟩ := ht
  split
  next => exact { hplain with request := fun _ => rfl }
  next => exact hplain

section Cycle

variable {cfg : Config k} {n : Node k} {d : Datapath} {r r' : Router}
  {rx : Port → Option Handshake}

theorem gflovRelays_eq (hconforming : Conforming cfg n r rx)
    (hoff : r.powerState = .powerOff) {p : Port} (hp : n.edge p = false) {e e' : PortState}
    (he : EntryAlike n p .powerOff none e e') (hhid : e.respHid = heardHid (r.ports p) (rx p))
    (hstate : e.downstreamState = heardState (r.ports p) (rx p)) :
    gflovRelays (r.ports p).downstreamState (if p.beforeOpp then e else r.ports p).respHid
        (rx p.opp) =
      (rx p.opp).bind (Router.relayed (GFLOVRouter.isWaiting e'.downstreamState)) := by
  cases hrx : rx p.opp with
  | none => rfl
  | some h =>
      have hrelays := hconforming.relays hoff p hp h hrx
      rw [← he.downstreamState, hstate]
      simp only [gflovRelays, Option.bind_some]
      rw [relayed_map, relayed_congr fun hdone => (hrelays hdone).1]
      intro hdone hwaiting
      rw [(hrelays hdone).2 hwaiting, apply_ite PortState.respHid, hhid]

/-- The change from `power_off` to `wakeup` is not due. -/
def StaysAsleep (cfg : Config k) (r : Router) : Prop :=
  r.powerState = .powerOff → r.routerState = true →
    GFLOVRouter.dueToWake cfg { r with offTimer := r.offTimer + 1 } = false

theorem Conforming.staysAsleep (hconforming : Conforming cfg n r rx) {es : Port → PortState}
    {queue : Port → Option Handshake}
    (hes : r.powerState = .powerOff → (∀ p, (es p).downstreamState = heardState (r.ports p) (rx p)) ∧
      ∀ p, queue p = if r.powerState = .powerOff ∧ n.edge p = false then
        gflovRelays (r.ports p).downstreamState
          (if p.beforeOpp then es p else r.ports p).respHid (rx p.opp) else none) :
    StaysAsleep cfg { r with ports := es, outQueueHandshakes := queue } := by
  intro hoff hwanted
  obtain ⟨hstate, hqueue⟩ := hes hoff
  cases hdue : GFLOVRouter.dueToWake cfg _ with
  | false => rfl
  | true =>
      simp only [GFLOVRouter.dueToWake, Bool.and_eq_true, Bool.not_eq_true', Bool.or_eq_false_iff,
        Router.anyDownstream, Port.any_eq_false, decide_eq_false_iff_not, decide_eq_true_eq,
        Router.outQueueEmpty, List.all_eq_true, Option.isNone_iff_eq_none] at hdue
      obtain ⟨⟨⟨hwakeup, hdraining⟩, htimer⟩, hempty⟩ := hdue
      exfalso
      rcases hconforming.asleep hoff hwanted htimer with ⟨p, hwaiting⟩ | ⟨p, hp, hrelayed⟩
      · rw [← hstate] at hwaiting
        simp [GFLOVRouter.isWaiting, hwakeup, hdraining] at hwaiting
      · have hnone := (hqueue p).symm.trans (hempty p (Port.mem_all p))
        rw [if_pos ⟨hoff, hp⟩, gflovRelays, Option.map_eq_none_iff] at hnone
        simp [hnone] at hrelayed

theorem handshakeEvaluate_alike (hr : RouterAlike n r r')
    (hempty : ∀ p, r.outQueueHandshakes p = none)
    (hplain : ∀ p, ∀ h ∈ rx p, n.edge p = false ∧ Plain h)
    (hconforming : Conforming cfg n r rx) :
    Alike (fun s s' => RouterAlike n s s' ∧ PlainQueue n s ∧ StaysAsleep cfg s)
      (GFLOVRouter.handshakeEvaluate n rx r) (FLOVRouter.handshakeEvaluate n rx r') := by
  have hempty' : ∀ p, r'.outQueueHandshakes p = none := by rwa [← hr.outQueueHandshakes]
  rw [gflov_handshakeEvaluate hempty hr.asleep,
    flov_handshakeEvaluate hempty' (hr.powerState ▸ hr.asleep), ← hr.powerState]
  refine (traversePorts_alike fun p => hear_alike (hr.ports p) (hplain p) hr.asleep
    fun hd => hconforming.once hd p).bind fun es es' hes => .ok ?_
  have hrelays : r.powerState = .powerOff → ∀ p, n.edge p = false → _ := fun hoff p hp =>
    gflovRelays_eq hconforming hoff hp (hoff ▸ (hes p).1) ((hes p).2 hoff).1 ((hes p).2 hoff).2
  refine ⟨?_, ⟨?_, ?_⟩, hconforming.staysAsleep fun hoff =>
    ⟨fun p => ((hes p).2 hoff).2, fun p => rfl⟩⟩
  · refine { hr with powerState := rfl, outQueueHandshakes := ?_, ports := fun p => (hes p).1 }
    funext p
    dsimp only
    split
    next hp => exact hrelays hp.1 p hp.2
    next => rfl
  · intro p t ht
    dsimp only at ht
    split at ht
    next hp =>
      rw [hrelays hp.1 p hp.2] at ht
      obtain ⟨h, hh, ht⟩ := Option.bind_eq_some_iff.mp ht
      exact ⟨hp.2, (hplain p.opp h hh).2.relayed ht⟩
    next => cases ht
  · rintro hon p t ht
    dsimp only at hon ht
    rcases hon with hon | hon <;> simp [hon] at ht

theorem EntryAlike.change {p : Port} {ps ps' : PowerState} {e e' : PortState}
    (h : EntryAlike n p ps none e e') {tag : Bool} {hid hid' : Int} (hhid : hid = hid')
    (hon : ps' = .powerOn ∨ ps' = .draining → ps = .powerOn ∨ ps = .draining)
    (htag : ps' = .powerOn ∨ ps' = .powerOff → tag = false) :
    EntryAlike n p ps' none { e with drainTag := tag, reqHid := hid }
      { e' with drainTag := tag, reqHid := hid' } where
  neighborState := h.neighborState
  downstreamState := h.downstreamState
  logicalNeighbor := h.logicalNeighbor
  drainTag := rfl
  reqHid := hhid
  answers := fun hps' => h.answers (hon hps')
  asleep := h.asleep
  untagged := htag
  edge := h.edge

/-- Two routers announce the same, if they have nothing queued. -/
theorem announce_alike {fill fill' : Port → Handshake → Handshake} (hr : RouterAlike n r r')
    (hfill : fill = fill')
    (hplain : ∀ p id hid, Plain { fill p {} with srcState := some r.powerState, id := id, hid := hid })
    (hrequest : r.powerState = .draining → ∀ p, (r.ports p).downstreamState ≠ .draining) :
    Alike (fun s s' => RouterAlike n s s' ∧ PlainQueue n s)
      (r.announce n fill) (r'.announce n fill') := by
  subst hfill
  have hempty : r.outQueueEmpty = true ↔ r'.outQueueEmpty = true := by
    rw [Router.outQueueEmpty, Router.outQueueEmpty, hr.outQueueHandshakes]
  have hreq : ∀ p, (r.ports p).reqHid = (r'.ports p).reqHid := fun p => (hr.ports p).reqHid
  refine (Alike.require hempty).bind fun _ _ hnone => .ok ?_
  have hnone : ∀ p, r.outQueueHandshakes p = none := by simpa [Router.outQueueEmpty] using hnone
  refine ⟨{ hr with outQueueHandshakes := ?_, ports := fun p => ?_ }, ⟨fun p t ht => ?_, ?_⟩⟩
  · simp only [Router.queueHandshakes, hr.outQueueHandshakes, hreq, hr.powerState]
  · have hp := hr.ports p
    simp only [Router.queueHandshakes]
    split
    next => exact { hp with reqHid := congrArg (· + 1) hp.reqHid }
    next => exact hp
  · simp only [Router.queueHandshakes, hnone, Option.getD_none] at ht
    split at ht
    next hp =>
      obtain rfl := Option.some.inj ht
      exact ⟨by simpa [Node.inner] using hp, hplain p _ _⟩
    next => cases ht
  · intro hon p t ht hasked
    simp only [Router.queueHandshakes, hnone, Option.getD_none] at hon ht ⊢
    split at ht
    next hp =>
      obtain rfl := Option.some.inj ht
      simp only [Option.some.injEq] at hasked
      have hdraining : r.powerState = .draining :=
        hasked.resolve_right fun hoff => by simp [hoff] at hon
      simpa [hp] using hrequest hdraining p
    next => cases ht

theorem startDraining_alike {tags tags' : Port → Bool} (hr : RouterAlike n r r')
    (hon : r.powerState = .powerOn) (htags : tags = tags')
    (hfree : ∀ p, (r.ports p).downstreamState ≠ .draining) :
    Alike (fun s s' => RouterAlike n s s' ∧ PlainQueue n s)
      (r.startDraining n tags) (r'.startDraining n tags') := by
  subst htags
  refine announce_alike { hr with
    powerState := rfl
    drainTimer := rfl
    ports := fun p => ?_
    asleep := nofun } rfl (fun p id hid => ?_) fun _ p => ?_
  · exact (hr.ports p).change (hr.ports p).reqHid (fun _ => .inl hon) nofun
  · constructor <;> simp [Router.setDrainTags]
  · exact hfree p

theorem stopDraining_alike (hr : RouterAlike n r r') (hdraining : r.powerState = .draining) :
    Alike (fun s s' => RouterAlike n s s' ∧ PlainQueue n s)
      (r.stopDraining n) (r'.stopDraining n) := by
  refine announce_alike { hr with
    powerState := rfl
    drainTimer := rfl
    ports := fun p => ?_
    asleep := nofun } rfl (fun p id hid => ?_) nofun
  · exact (hr.ports p).change (hr.ports p).reqHid (fun _ => .inr hdraining) fun _ => rfl
  · constructor <;> simp

theorem powerDown_alike (hr : RouterAlike n r r') :
    Alike (fun s s' => RouterAlike n s s' ∧ PlainQueue n s)
      (r.powerDown n) (r'.powerDown n) := by
  refine announce_alike { hr with
    powerState := rfl
    drainTimer := rfl
    ports := fun p => ?_
    asleep := nofun } ?_ (fun p id hid => ?_) nofun
  · exact (hr.ports p).change (hr.ports p).reqHid (by simp) fun _ => rfl
  · funext out h
    rw [(hr.ports out.opp).downstreamState, (hr.ports out.opp).logicalNeighbor]
  · constructor <;> simp [(hr.ports p.opp).asleep]

theorem RouterAlike.anyDownstream (hr : RouterAlike n r r') (state : PowerState) :
    r.anyDownstream state = r'.anyDownstream state := by
  simp only [Router.anyDownstream, fun p => (hr.ports p).downstreamState]

theorem RouterAlike.allDrainTags (hr : RouterAlike n r r') :
    r.allDrainTags = r'.allDrainTags := by
  simp only [Router.allDrainTags, fun p => (hr.ports p).drainTag]

theorem drainingEvaluate_alike {stop stop' : Bool} (hr : RouterAlike n r r')
    (hqueue : PlainQueue n r) (hdraining : r.powerState = .draining) (hstop : stop = stop') :
    Alike (fun s s' => RouterAlike n s s' ∧ PlainQueue n s)
      (r.drainingEvaluate cfg n d stop) (r'.drainingEvaluate cfg n d stop') := by
  have hcounted : RouterAlike n { r with drainTimer := r.drainTimer + 1 }
      { r' with drainTimer := r'.drainTimer + 1 } :=
    { hr with drainTimer := congrArg (· + 1) hr.drainTimer }
  refine .ite (by rw [hcounted.wakeupSignal, hstop]) (fun _ => ?_) fun _ => ?_
  · exact stopDraining_alike { hcounted with wakeupSignal := rfl } hdraining
  refine .ite (by rw [hcounted.allDrainTags]) (fun _ => powerDown_alike hcounted) fun _ => ?_
  refine .ite (by rw [hcounted.drainTimer]) (fun _ => ?_) fun _ => ?_
  · exact stopDraining_alike hcounted hdraining
  · exact .ok ⟨hcounted, ⟨hqueue.plain, hqueue.request⟩⟩

/-- The cleared tags were clear already. -/
theorem RouterAlike.clearDrainTags (hr : RouterAlike n r r')
    (hps : r.powerState = .powerOn ∨ r.powerState = .powerOff) : r.clearDrainTags = r := by
  have hports : (fun p => { r.ports p with drainTag := false }) = r.ports := by
    funext p
    rw [← (hr.ports p).untagged hps]
  simp only [Router.clearDrainTags, hports]

theorem powerStateEvaluate_alike (hr : RouterAlike n r r') (hqueue : PlainQueue n r)
    (hasleep : StaysAsleep cfg r) :
    Alike (fun s s' => RouterAlike n s s' ∧ PlainQueue n s)
      (GFLOVRouter.powerStateEvaluate cfg n d r)
      (FLOVRouter.powerStateEvaluate .gflov cfg n d r') := by
  refine (Alike.require (by rw [hr.powerState])).bind fun _ _ _ => ?_
  simp only [FLOVRouter.gflovPowerStateEvaluate, ← hr.powerState]
  cases hps : r.powerState with
  | wakeup => exact absurd hps hr.asleep
  | powerOn =>
      simp only [GFLOVRouter.powerOnEvaluate, hr.clearDrainTags (.inl hps)]
      refine .ite (by rw [hr.wakeupSignal]) (fun _ => ?_) fun _ => ?_
      · exact .ok ⟨{ hr with powerState := hps, wakeupSignal := rfl },
          ⟨hqueue.plain, hqueue.request⟩⟩
      refine .ite (by simp only [hr.routerState, hr.anyDownstream]) (fun hfree => ?_) fun _ => ?_
      · refine startDraining_alike hr hps ?_ fun p => ?_
        · funext out
          have hout := hr.ports out
          -- only `FLOVRouter` asks for the boundary, where everything is off anyway
          cases hedge : n.edge out with
          | true =>
              simp [Router.downstreamOff, FLOVRouter.drainedAtOnce, hedge, hout.edge hedge]
          | false =>
              simp [Router.downstreamOff, FLOVRouter.drainedAtOnce, hedge, hout.downstreamState]
        · simp only [Router.anyDownstream, Bool.and_eq_true, Bool.not_eq_true',
            Bool.or_eq_false_iff, Port.any_eq_false, decide_eq_false_iff_not] at hfree
          exact hfree.2.1 p
      · exact .ok ⟨hr, hqueue⟩
  | draining =>
      refine drainingEvaluate_alike hr hqueue hps ?_
      simp only [hr.anyDownstream, Router.priorityDraining, fun p => (hr.ports p).downstreamState]
  | powerOff =>
      simp only [GFLOVRouter.powerOffEvaluate, hr.clearDrainTags (.inr hps)]
      split
      next hwanted =>
        rw [hasleep hps hwanted]
        exact .ok ⟨{ hr with powerState := hr.powerState }, ⟨hqueue.plain, hqueue.request⟩⟩
      next => exact .ok ⟨hr, hqueue⟩

theorem answers_alike (hr : RouterAlike n r r')
    (hon : r.powerState = .powerOn ∨ r.powerState = .draining) (p : Port) :
    r.answers d p = r'.answers d p := by
  have hp := hr.ports p
  have hasleep := hp.asleep
  simp only [Router.answers, Router.waiting, ← hp.downstreamState, hasleep, decide_false,
    Bool.or_false]
  by_cases hdraining : (r.ports p).downstreamState = .draining
  · rw [(hp.answers hon hdraining).1]
  · simp [hdraining]

theorem RouterAlike.draining_of_answers (hr : RouterAlike n r r') {p : Port}
    (hanswer : r.answers d p = true) : (r.ports p).downstreamState = .draining := by
  simp only [Router.answers, Router.waiting, Bool.and_eq_true, Bool.or_eq_true,
    decide_eq_true_eq] at hanswer
  exact hanswer.1.1.resolve_right (hr.ports p).asleep

/-- An answer makes what is queued an acknowledgement, which no request is. -/
theorem PlainQueue.sendDrainDone (hqueue : PlainQueue n r) (hr : RouterAlike n r r')
    (hon : r.powerState = .powerOn ∨ r.powerState = .draining) :
    PlainQueue n (r.sendDrainDone n (r.answers d)) := by
  have hnot : ∀ p, r.answers d p = true → ∀ t ∈ r.outQueueHandshakes p,
      ¬ (t.srcState = some .draining ∨ t.srcState = some .powerOff) := fun p hp t ht hasked =>
    hqueue.request hon p t ht hasked (hr.draining_of_answers hp)
  constructor
  · intro p t ht
    simp only [Router.sendDrainDone] at ht
    split at ht
    next hanswer =>
      have hinner : n.edge p = false := Bool.eq_false_iff.mpr fun hedge => by
        have hoff := (hr.ports p).edge hedge
        rw [hr.draining_of_answers hanswer] at hoff
        cases hoff
      obtain rfl := Option.some.inj ht
      refine ⟨hinner, ?_⟩
      cases hqueued : r.outQueueHandshakes p with
      | none => constructor <;> simp
      | some t =>
          have ht := (hqueue.plain p t hqueued).2
          exact ⟨ht.silent, ht.powerOn, fun h => absurd h (hnot p hanswer t hqueued), ht.asleep⟩
    next => exact hqueue.plain p t ht
  · intro _ p t ht hasked
    simp only [Router.sendDrainDone] at ht ⊢
    split at ht
    next hanswer =>
      obtain rfl := Option.some.inj ht
      cases hqueued : r.outQueueHandshakes p with
      | none => simp [hqueued] at hasked
      | some t =>
          rw [hqueued] at hasked
          exact absurd hasked (hnot p hanswer t hqueued)
    next hanswer =>
      rw [if_neg hanswer]
      exact hqueue.request hon p t ht hasked

theorem internalStep_alike (hr : RouterAlike n r r') (hqueue : PlainQueue n r) :
    Alike (fun s s' => RouterAlike n s s' ∧ PlainQueue n s)
      (r.internalStep n d) (r'.internalStep n d) := by
  refine .ite (by rw [hr.powerState]) (fun _ => .ok ⟨hr, hqueue⟩) fun hps => ?_
  have hon : r.powerState = .powerOn ∨ r.powerState = .draining := by
    cases hstate : r.powerState <;> simp [hstate] at hps ⊢
  have hdue := answers_alike (d := d) hr hon
  refine (Alike.require ?_).bind fun _ _ _ => .ok ⟨?_, hqueue.sendDrainDone hr hon⟩
  · simp only [hr.outQueueHandshakes, hr.powerState, hdue]
  refine { hr with outQueueHandshakes := ?_, ports := fun p => ?_ }
  · funext p
    simp only [Router.sendDrainDone, ← hdue, hr.outQueueHandshakes]
    split
    next hanswer =>
      rw [((hr.ports p).answers hon (hr.draining_of_answers hanswer)).2]
    next => rfl
  · have hp := hr.ports p
    simp only [Router.sendDrainDone, ← hdue]
    split
    next => exact { hp with answers := fun hon hdraining => ⟨rfl, (hp.answers hon hdraining).2⟩ }
    next => exact hp

/-- The routers between two cycles, with nothing queued. -/
structure Held (n : Node k) (r : Router) (r' : FLOVRouter) : Prop where
  policy : r'.flovPolicy = .gflov
  router : RouterAlike n r r'.toRouter
  empty : ∀ p, r.outQueueHandshakes p = none

/-- The inputs of a cycle in which nobody changes the policy. -/
def held (inp : Inputs) : FLOVInputs := { inp with }

theorem outputQueuing_alike (hr : RouterAlike n r r') (hqueue : PlainQueue n r) :
    Alike (fun a b => RouterAlike n a.1 b.1 ∧ (∀ p, a.1.outQueueHandshakes p = none) ∧
        a.2 = b.2 ∧ ∀ p, ∀ t ∈ a.2 p, (n.neighbor p).edge p.opp = false ∧ Plain t)
      r.outputQueuing r'.outputQueuing := by
  refine (Alike.require (by rw [hr.outQueueHandshakes])).bind fun _ _ _ => .ok ?_
  refine ⟨{ hr with outQueueHandshakes := rfl }, fun _ => rfl, hr.outQueueHandshakes, ?_⟩
  intro p t ht
  obtain ⟨hp, hplain⟩ := hqueue.plain p t ht
  exact ⟨Node.edge_neighbor_eq_false hp, hplain⟩

theorem RouterAlike.setInputs (hr : RouterAlike n r r') (inp : Inputs) :
    RouterAlike n (r.setInputs inp) (r'.setInputs inp) := by
  have hcounted : RouterAlike n r.idleDetected r'.idleDetected := by
    refine { hr with drainTimer := ?_ }
    simp only [Router.idleDetected, hr.powerState, hr.drainTimer]
  unfold Router.setInputs
  dsimp only
  split
  next => exact { hcounted with routerState := rfl, wakeupSignal := by rw [hr.wakeupSignal] }
  next => exact { hr with routerState := rfl, wakeupSignal := by rw [hr.wakeupSignal] }

theorem cycle_alike {r' : FLOVRouter} {inp : Inputs} (hr : Held n r r')
    (hplain : ∀ p, ∀ h ∈ rx p, n.edge p = false ∧ Plain h)
    (hconforming : Conforming cfg n (r.setInputs inp) rx) :
    Alike (fun a b => Held n a.1 b.1 ∧ a.2 = b.2 ∧
        ∀ p, ∀ t ∈ a.2 p, (n.neighbor p).edge p.opp = false ∧ Plain t)
      (GFLOVRouter.cycle cfg n r inp rx) (FLOVRouter.cycle cfg n r' (held inp) rx) := by
  have hempty : ∀ p, (r.setInputs inp).outQueueHandshakes p = none := by simpa using hr.empty
  have hrouter : Alike (fun a b => RouterAlike n a.1 b.1 ∧ (∀ p, a.1.outQueueHandshakes p = none) ∧
        a.2 = b.2 ∧ ∀ p, ∀ t ∈ a.2 p, (n.neighbor p).edge p.opp = false ∧ Plain t)
      (GFLOVRouter.cycle cfg n r inp rx)
      (FLOVRouter.routerCycle .gflov cfg n r'.toRouter inp rx) :=
    (handshakeEvaluate_alike (hr.router.setInputs inp) hempty hplain hconforming).bind
      fun _ _ ⟨hs, hqueue, hasleep⟩ => (powerStateEvaluate_alike hs hqueue hasleep).bind
        fun _ _ ⟨hs, hqueue⟩ => (internalStep_alike hs hqueue).bind
          fun _ _ ⟨hs, hqueue⟩ => outputQueuing_alike hs hqueue
  have hpolicy : FLOVRouter.changePolicy n (held inp).policyCalls r' = r' := rfl
  simp only [FLOVRouter.cycle, hpolicy, hr.policy]
  rw [← bind_pure (GFLOVRouter.cycle cfg n r inp rx)]
  exact hrouter.bind fun _ _ ⟨hs, hnone, hsent, hfits⟩ => .ok ⟨⟨rfl, hs, hnone⟩, hsent, hfits⟩

end Cycle

/-- The steps of a run of `GFLOVRouter`s keep away from what the two classes do
differently. -/
def Conforms (cfg : Config k) : Net k Router → List (Node k → Inputs) → Prop
  | _, [] => True
  | net, inputs :: rest =>
      (∀ n, Conforming cfg n ((net.router n).setInputs (inputs n)) (net.received n)) ∧
        ∀ next, net.step (GFLOVRouter.cycle cfg) cfg.latency inputs = .ok next →
          Conforms cfg next rest

instance (cfg : Config k) (n : Node k) (r : Router) (rx : Port → Option Handshake) :
    Decidable (Conforming cfg n r rx) :=
  have hasleep : Decidable (r.powerState = .powerOff → _) := inferInstance
  have honce : Decidable (r.powerState = .draining → _) := inferInstance
  have hrelays : Decidable (r.powerState = .powerOff → _) := inferInstance
  @decidable_of_iff _ (_ ∧ _ ∧ _)
    ⟨fun h => ⟨h.1, h.2.1, h.2.2⟩, fun h => ⟨h.asleep, h.once, h.relays⟩⟩
    (@instDecidableAnd _ _ hasleep (@instDecidableAnd _ _ honce hrelays))

/-- Whether a run conforms can be found out by running it. -/
instance decidableConforms (cfg : Config k) :
    (net : Net k Router) → (schedule : List (Node k → Inputs)) →
      Decidable (Conforms cfg net schedule)
  | _, [] => .isTrue trivial
  | net, inputs :: rest =>
      have : Decidable (∀ next, net.step (GFLOVRouter.cycle cfg) cfg.latency inputs = .ok next →
          Conforms cfg next rest) :=
        match net.step (GFLOVRouter.cycle cfg) cfg.latency inputs with
        | .error _ => .isTrue (by simp)
        | .ok next =>
            have := decidableConforms cfg next rest
            decidable_of_iff (Conforms cfg next rest) (by simp)
      inferInstanceAs (Decidable (_ ∧ _))

/-- The same power states, downstream states, logical neighbours and drain tags. -/
structure SameStates (net : Net k Router) (net' : Net k FLOVRouter) : Prop where
  powerState : ∀ n, (net.router n).powerState = (net'.router n).powerState
  downstreamState : ∀ n p,
    ((net.router n).ports p).downstreamState = ((net'.router n).ports p).downstreamState
  logicalNeighbor : ∀ n p,
    ((net.router n).ports p).logicalNeighbor = ((net'.router n).ports p).logicalNeighbor
  drainTag : ∀ n p, ((net.router n).ports p).drainTag = ((net'.router n).ports p).drainTag

/-- The networks between two cycles. -/
abbrev NetsAlike (net : Net k Router) (net' : Net k FLOVRouter) : Prop :=
  Net.Related Held (fun n p h => n.edge p = false ∧ Plain h) net net'

theorem NetsAlike.sameStates {net : Net k Router} {net' : Net k FLOVRouter}
    (h : NetsAlike net net') : SameStates net net' where
  powerState := fun n => (h.router n).router.powerState
  downstreamState := fun n p => ((h.router n).router.ports p).downstreamState
  logicalNeighbor := fun n p => ((h.router n).router.ports p).logicalNeighbor
  drainTag := fun n p => ((h.router n).router.ports p).drainTag

theorem start_alike : NetsAlike (GFLOVRouter.start k) (FLOVRouter.start k) where
  time := rfl
  router := fun n => by
    refine ⟨rfl, ⟨rfl, rfl, rfl, rfl, rfl, fun p => ?_, nofun⟩, fun _ => rfl⟩
    cases hedge : n.edge p <;>
      constructor <;> simp [GFLOVRouter.start, FLOVRouter.start, Router.initial, hedge]
  handshakeBuffer := rfl
  channel := rfl
  inFlight := by
    intro n p h hh
    cases hh

theorem run_alike {cfg : Config k} {net : Net k Router} {net' : Net k FLOVRouter}
    (h : NetsAlike net net') {schedule : List (Node k → Inputs)}
    (hconforms : Conforms cfg net schedule) :
    Alike NetsAlike (net.run (GFLOVRouter.cycle cfg) cfg.latency schedule)
      (net'.run (FLOVRouter.cycle cfg) cfg.latency
        (schedule.map fun inputs n => held (inputs n))) := by
  induction schedule generalizing net net' with
  | nil => exact .ok h
  | cons inputs rest ih =>
      obtain ⟨hnow, hlater⟩ := hconforms
      have hstep : Alike NetsAlike (net.step (GFLOVRouter.cycle cfg) cfg.latency inputs)
          (net'.step (FLOVRouter.cycle cfg) cfg.latency fun n => held (inputs n)) :=
        h.step fun n hrx => cycle_alike (h.router n) hrx (hnow n)
      exact hstep.outcome.bind fun next _ ⟨hnext, hok, _⟩ => ih hnext (hlater next hok)

/-- A run of `GFLOVRouter`s that keeps away from the differences and the run of
`FLOVRouter`s held at `gflov` go through the same states, or fail together. -/
theorem flov_held_refines_gflov (cfg : Config k) (schedule : List (Node k → Inputs))
    (hconforms : Conforms cfg (GFLOVRouter.start k) schedule) :
    Alike SameStates ((GFLOVRouter.start k).run (GFLOVRouter.cycle cfg) cfg.latency schedule)
      ((FLOVRouter.start k).run (FLOVRouter.cycle cfg) cfg.latency
        (schedule.map fun inputs n => held (inputs n))) :=
  (run_alike start_alike hconforms).mono fun _ _ h => h.sameStates

/-- Router 0 is not wanted for six cycles, and then for some cycles it is. -/
def nap (wanted : Nat) : List (Node 2 → Inputs) :=
  List.replicate 6 (fun n => .quiet (decide (n.val ≠ 0))) ++
    List.replicate wanted fun _ => .quiet true

/-- The two runs agree until the router that is off is due to wake up. -/
theorem flov_held_refines_gflov_nap :
    Alike SameStates ((GFLOVRouter.start 2).run (GFLOVRouter.cycle (Config.short 2)) 1 (nap 1))
      ((FLOVRouter.start 2).run (FLOVRouter.cycle (Config.short 2)) 1
        ((nap 1).map fun inputs n => held (inputs n))) :=
  flov_held_refines_gflov (Config.short 2) (nap 1) (by decide +kernel)

/-- A cycle later only the `GFLOVRouter` wakes up. -/
theorem flov_held_sleeps_on : ∃ net net',
    (GFLOVRouter.start 2).run (GFLOVRouter.cycle (Config.short 2)) 1 (nap 2) = .ok net ∧
      (FLOVRouter.start 2).run (FLOVRouter.cycle (Config.short 2)) 1
        ((nap 2).map fun inputs n => held (inputs n)) = .ok net' ∧
      (net.router 0).powerState = .wakeup ∧ (net'.router 0).powerState = .powerOff ∧
      ¬ SameStates net net' := by
  obtain ⟨net, hrun, hwakeup⟩ := exists_of_succeeds
    ((GFLOVRouter.start 2).run (GFLOVRouter.cycle (Config.short 2)) 1 (nap 2))
    (fun net => decide ((net.router 0).powerState = .wakeup)) (by decide +kernel)
  obtain ⟨net', hrun', hoff⟩ := exists_of_succeeds
    ((FLOVRouter.start 2).run (FLOVRouter.cycle (Config.short 2)) 1
      ((nap 2).map fun inputs n => held (inputs n)))
    (fun net => decide ((net.router 0).powerState = .powerOff)) (by decide +kernel)
  rw [decide_eq_true_eq] at hwakeup hoff
  refine ⟨net, net', hrun, hrun', hwakeup, hoff, fun hsame => ?_⟩
  have hstate := hsame.powerState 0
  rw [hwakeup, hoff] at hstate
  cases hstate

end Flyover.Comparison
