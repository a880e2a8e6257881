import Flyover.Downstream
import Flyover.Network

/-!
# `FLOVRouter`

The adaptive router: the generalised protocol, with a policy that decides which
of three power state machines runs. The policy may change at any time, at each
router by itself.
-/

namespace Flyover

/-- `eFLOVPolicy` -/
inductive FLOVPolicy where
  | gflov
  | rflov
  | noflov
  deriving DecidableEq, Repr

/-- A router with its policy. -/
structure FLOVRouter extends Router where
  flovPolicy : FLOVPolicy := .gflov

/-- The calls that change the policy. -/
inductive PolicyCall where
  /-- `AggressFLOVPolicy` -/
  | aggress
  /-- `RegressFLOVPolicy` -/
  | regress
  deriving DecidableEq, Repr

/-- The inputs of one cycle, with the calls that change the policy before it. -/
structure FLOVInputs extends Inputs where
  policyCalls : List PolicyCall := []

namespace FLOVRouter

variable {k : Nat}

/-- The assertions of `_HandshakeEvaluate` about `src_state`, case `power_on` -/
def checkPowerOn (e : PortState) (h : Handshake) : PowerState → Except AssertFailure Unit
  | .powerOn => do
      require (h.newState = some .powerOn) .newStateMismatch
      require (e.downstreamState = .draining ∨ e.downstreamState = .wakeup) .unexpectedState
      require (e.downstreamState = .wakeup → e.drainDoneSent = true) .drainDoneNotSent
  | .draining => do
      require (h.newState = some .draining) .newStateMismatch
      require (e.downstreamState = .powerOn) .unexpectedState
  | .wakeup => require (e.downstreamState ≠ .wakeup) .unexpectedState
  | .powerOff => do
      require (e.downstreamState = .draining) .unexpectedState
      require (e.drainDoneSent = true) .drainDoneNotSent

/-- `_HandshakeEvaluate`, case `power_on` -/
def receivePowerOn (e : PortState) (h : Handshake) : Except AssertFailure PortState :=
  match h.srcState with
  | none => pure e
  | some src => do
      checkPowerOn e h src
      pure { e with drainDoneSent := false, respHid := h.hid }

/-- The assertions about `src_state`, case `draining` -/
def checkDraining (e : PortState) : PowerState → Except AssertFailure Unit
  | .powerOn => require (e.downstreamState = .draining) .unexpectedState
  | .draining => require (e.downstreamState = .powerOn) .unexpectedState
  | .wakeup => require (e.downstreamState ≠ .wakeup) .unexpectedState
  | .powerOff => .error .offWhileDraining

/-- What a draining router records of `src_state`. -/
def recordDraining (e : PortState) (h : Handshake) : Except AssertFailure PortState :=
  match h.srcState with
  | none => pure e
  | some src => do
      checkDraining e src
      pure { e with drainDoneSent := false, respHid := h.hid }

/-- `_HandshakeEvaluate`, case `draining` -/
def receiveDraining (e : PortState) (h : Handshake) : Except AssertFailure PortState := do
  let e ← recordDraining e h
  if h.drainDone then do
    require (e.downstreamState = .powerOn ∨ h.newState = some .powerOn ∨
      h.srcState = none ∧ h.newState = none) .unexpectedDrainDone
    if h.hid = e.reqHid then do
      require (e.drainTag = false) .drainTagSet
      pure { e with drainTag := true }
    else pure e
  else pure e

/-- The assertions about `src_state`, case `power_off` -/
def checkPowerOff (e : PortState) : PowerState → Except AssertFailure Unit
  | .powerOn | .powerOff =>
      require (e.downstreamState = .draining ∨ e.downstreamState = .wakeup) .unexpectedState
  | .draining => require (e.downstreamState = .powerOn) .unexpectedState
  | .wakeup =>
      require (e.downstreamState ≠ .wakeup ∧ e.downstreamState ≠ .draining) .unexpectedState

/-- `_HandshakeEvaluate`, case `power_off` -/
def receivePowerOff (e : PortState) (h : Handshake) : Except AssertFailure PortState :=
  match h.srcState with
  | none => pure e
  | some src => do
      checkPowerOff e src
      pure { e with respHid := h.hid }

/-- The assertions about `src_state`, case `wakeup`; `outputTag` is `_drain_tags[output]`. -/
def checkWakeup (outputTag : Bool) (e : PortState) (h : Handshake) :
    PowerState → Except AssertFailure Unit
  | .powerOn => do
      require (e.downstreamState = .draining ∨ e.downstreamState = .wakeup) .unexpectedState
      require (e.downstreamState = .wakeup → outputTag = true) .drainTagNotSet
  | .draining => do
      require (h.drainDone = false) .unexpectedDrainDone
      require (e.downstreamState = .powerOn) .unexpectedState
  | .wakeup => do
      require (h.drainDone = false) .unexpectedDrainDone
      require (e.downstreamState ≠ .wakeup) .unexpectedState
  | .powerOff =>
      require (e.downstreamState = .draining ∨ e.downstreamState = .wakeup) .unexpectedState

/-- What a waking router records of `src_state`. -/
def recordWakeup (outputTag : Bool) (e : PortState) (h : Handshake) :
    Except AssertFailure PortState :=
  match h.srcState with
  | none => pure e
  | some src => do
      checkWakeup outputTag e h src
      pure { e with
        drainDoneSent := if src = .wakeup then false else e.drainDoneSent
        respHid := h.hid }

/-- `_HandshakeEvaluate`, case `wakeup` -/
def receiveWakeup (outputTag : Bool) (e : PortState) (h : Handshake) :
    Except AssertFailure PortState := do
  let e ← recordWakeup outputTag e h
  if h.drainDone then do
    require (h.newState = none ∨ h.newState = some .powerOn) .unexpectedDrainDone
    pure (if h.hid = e.reqHid then { e with drainTag := true } else e)
  else pure e

/-- The switch of `_HandshakeEvaluate` on the power state. -/
def receive (powerState : PowerState) (outputTag : Bool) (e : PortState) (h : Handshake) :
    Except AssertFailure PortState :=
  match powerState with
  | .powerOn => receivePowerOn e h
  | .draining => receiveDraining e h
  | .powerOff => receivePowerOff e h
  | .wakeup => receiveWakeup outputTag e h

/-- The first loop of `_HandshakeEvaluate`, one iteration. The downstream state of
a port is read in the port's own iteration only, before it is updated, so that
the copy `new_downstream_states` is not needed. -/
def receiveHandshake (n : Node k) (input : Port) (h : Handshake) (r : Router) :
    Except AssertFailure Router := do
  let e ← receive r.powerState (r.ports input.opp).drainTag (r.ports input) h
  let e ← Router.updateDownstream n e h
  pure (r.setPort input e)

/-- A waking router passes an acknowledgement on to one that wakes up on its
other side, under the id of that one's request. -/
def passDrainDone (n : Node k) (p : Port) (r : Router) : Router :=
  let queued := (r.outQueueHandshakes p).getD { id := n.val }
  (r.setQueued p { queued with drainDone := true, hid := (r.ports p).respHid }).setPort p
    { r.ports p with drainDoneSent := true }

/-- The acknowledgements that a waking router passes on. -/
def passDrainDones (n : Node k) (input : Port) (h : Handshake) (r : Router) : Router :=
  let output := input.opp
  if h.drainDone && (r.ports input).drainTag && (r.ports input).downstreamState ≠ .powerOff &&
      (r.ports output).downstreamState = .wakeup && !(r.ports output).drainDoneSent then
    passDrainDone n output r
  else if (r.ports output).drainTag && (r.ports output).downstreamState ≠ .powerOff &&
      (r.ports input).downstreamState = .wakeup && !(r.ports input).drainDoneSent then
    passDrainDone n input r
  else r

/-- A waking router relays `power_off` for the sake of the credits, without the
change of the downstream state. -/
def relaySourceOff (n : Node k) (input : Port) (h : Handshake) (r : Router) :
    Except AssertFailure Router :=
  match r.outQueueHandshakes input.opp with
  | none =>
      if h.srcState = some .powerOff then
        pure (r.setQueued input.opp { h with newState := none })
      else pure r
  | some queued =>
      if queued.id ≠ h.id then do
        require (queued.id = n.val) .relayMismatch
        require (queued.drainDone = true) .relayMismatch
        if h.srcState = some .powerOff then
          pure (r.setQueued input.opp { queued with srcState := some .powerOff })
        else pure r
      else do
        require (h.drainDone = true) .relayMismatch
        pure (r.setQueued input.opp
          { queued with
            newState := none
            srcState := if h.srcState = some .powerOff then some .powerOff else none
            hid := (r.ports input.opp).respHid })

/-- An off router relays what concerns the other side. -/
def relayOff (n : Node k) (input : Port) (h : Handshake) (r : Router) :
    Except AssertFailure Router := do
  require (r.outQueueHandshakes input.opp = none) .outQueueNotEmpty
  if n.edge input.opp then pure r
  else
    match Router.relayed (r.waiting input.opp) h with
    | none => pure r
    | some h => pure (r.setQueued input.opp h)

/-- The second loop of `_HandshakeEvaluate`, one iteration: free the handshake or
relay it. -/
def relayHandshake (n : Node k) (input : Port) (h : Handshake) (r : Router) :
    Except AssertFailure Router :=
  match r.powerState with
  | .powerOn | .draining => pure r
  | .wakeup =>
      if n.edge input.opp then pure r
      else relaySourceOff n input h (passDrainDones n input h r)
  | .powerOff => relayOff n input h r

/-- `_HandshakeEvaluate` -/
def handshakeEvaluate (n : Node k) (rx : Port → Option Handshake) (r : Router) :
    Except AssertFailure Router := do
  require (r.outQueueEmpty = true) .outQueueNotEmpty
  let r ← forPorts (fun input r => match rx input with
    | none => pure r
    | some h => receiveHandshake n input h r) r
  forPorts (fun input r => match rx input with
    | none => pure r
    | some h => relayHandshake n input h r) r

/-- Ports without a mesh neighbour, and directions in which everything is off. -/
def drainedAtOnce (n : Node k) (r : Router) (out : Port) : Bool :=
  n.edge out || r.downstreamOff out

/-- `_GFLOVPowerStateEvaluate` -/
def gflovPowerStateEvaluate (cfg : Config k) (n : Node k) (d : Datapath) (r : Router) :
    Except AssertFailure Router :=
  match r.powerState with
  | .powerOn =>
      if r.wakeupSignal then pure { r with wakeupSignal := false }
      else if !r.routerState && !(r.anyDownstream .draining || r.anyDownstream .wakeup) then
        r.startDraining n (drainedAtOnce n r)
      else pure r
  | .draining => r.drainingEvaluate cfg n d (r.priorityDraining || r.anyDownstream .wakeup)
  | .powerOff => pure r
  | .wakeup => r.wakeupEvaluate cfg n d

/-- A mesh neighbour in one of these states. -/
def anyNeighbor (n : Node k) (test : Port → PowerState → Bool) (r : Router) : Bool :=
  Port.any fun out => !n.edge out && test out (r.ports out).neighborState

/-- `_RFLOVPowerStateEvaluate` -/
def rflovPowerStateEvaluate (cfg : Config k) (n : Node k) (d : Datapath) (r : Router) :
    Except AssertFailure Router :=
  match r.powerState with
  | .powerOn =>
      if r.wakeupSignal then pure { r with wakeupSignal := false }
      else if !r.routerState && !anyNeighbor n (fun _ state =>
          state = .draining || state = .wakeup || state = .powerOff) r then
        r.startDraining n (drainedAtOnce n r)
      else pure r
  | .draining =>
      r.drainingEvaluate cfg n d (anyNeighbor n (fun out state =>
        state = .draining && out.higherPriority || state = .wakeup || state = .powerOff) r)
  | .powerOff =>
      if r.routerState || r.wakeupSignal then
        let r := { r with offTimer := r.offTimer + 1 }
        let busy := Port.any fun out => !n.edge out &&
          ((r.ports out).downstreamState = .wakeup || (r.ports out).downstreamState = .draining)
        if !busy && r.offTimer ≥ cfg.betThreshold && r.outQueueEmpty then
          r.startWakeup n (drainedAtOnce n r)
        else pure r
      else pure r
  | .wakeup =>
      -- the only machine that looks again for directions that went off since
      (r.setDrainTags r.downstreamOff).wakeupEvaluate cfg n d

/-- `_NoFLOVPowerStateEvaluate` -/
def noflovPowerStateEvaluate (cfg : Config k) (n : Node k) (d : Datapath) (r : Router) :
    Except AssertFailure Router :=
  match r.powerState with
  | .powerOn => pure { r with wakeupSignal := false }
  | .draining => { r with wakeupSignal := false }.stopDraining n
  | .powerOff =>
      let r := { r with offTimer := r.offTimer + 1 }
      if !(r.anyDownstream .wakeup || r.anyDownstream .draining) &&
          r.offTimer ≥ cfg.betThreshold && r.outQueueEmpty then
        { r with wakeupSignal := false }.startWakeup n (drainedAtOnce n r)
      else pure r
  | .wakeup => r.wakeupEvaluate cfg n d

/-- `PowerStateEvaluate` -/
def powerStateEvaluate (policy : FLOVPolicy) (cfg : Config k) (n : Node k) (d : Datapath)
    (r : Router) : Except AssertFailure Router := do
  require (Router.bottomRow n = true → r.powerState = .powerOn) .bottomRowNotOn
  match policy with
  | .gflov => gflovPowerStateEvaluate cfg n d r
  | .rflov => rflovPowerStateEvaluate cfg n d r
  | .noflov => noflovPowerStateEvaluate cfg n d r

/-- `AggressFLOVPolicy` -/
def aggressFLOVPolicy (r : FLOVRouter) : FLOVRouter :=
  match r.flovPolicy with
  | .noflov => { r with flovPolicy := .rflov }
  | .rflov => { r with flovPolicy := .gflov }
  | .gflov => r

/-- `RegressFLOVPolicy` -/
def regressFLOVPolicy (n : Node k) (r : FLOVRouter) : FLOVRouter :=
  match r.flovPolicy with
  | .gflov =>
      { r with
        flovPolicy := .rflov
        wakeupSignal := r.wakeupSignal ||
          (r.powerState = .powerOff && anyNeighbor n (fun _ state => state = .powerOff) r.toRouter) }
  | .rflov =>
      { r with
        flovPolicy := .noflov
        wakeupSignal := r.wakeupSignal || r.powerState = .powerOff }
  | .noflov => r

/-- The policy changes before a cycle. -/
def changePolicy (n : Node k) (calls : List PolicyCall) (r : FLOVRouter) : FLOVRouter :=
  calls.foldl (fun r call => match call with
    | .aggress => r.aggressFLOVPolicy
    | .regress => r.regressFLOVPolicy n) r

/-- The part of a cycle that comes after the policy is fixed. -/
def routerCycle (policy : FLOVPolicy) (cfg : Config k) : Cycle k Router Inputs :=
  fun n r inp rx => do
    let r ← handshakeEvaluate n rx (r.setInputs inp)
    let r ← powerStateEvaluate policy cfg n inp.datapath r
    let r ← r.internalStep n inp.datapath
    r.outputQueuing

/-- One cycle of the router. -/
def cycle (cfg : Config k) : Cycle k FLOVRouter FLOVInputs := fun n r inp rx => do
  let changed := changePolicy n inp.policyCalls r
  let (r', tx) ← routerCycle changed.flovPolicy cfg n changed.toRouter inp.toInputs rx
  pure ({ changed with toRouter := r' }, tx)

/-- Every router on, under the policy that the constructor sets. -/
def start (k : Nat) : Net k FLOVRouter where
  router n := { Router.initial n with }

/-- Bottom row routers are never asked to switch off. -/
def Admissible (n : Node k) (inp : FLOVInputs) : Prop :=
  Router.bottomRow n = true → inp.routerState = true

instance (n : Node k) (inp : FLOVInputs) : Decidable (Admissible n inp) :=
  inferInstanceAs (Decidable (_ → _))

/-- The reachable states of a network of `FLOVRouter`s. -/
abbrev Reachable (cfg : Config k) : Net k FLOVRouter → Prop :=
  Net.Reachable (cycle cfg) cfg.latency Admissible (start k)

end FLOVRouter

end Flyover
