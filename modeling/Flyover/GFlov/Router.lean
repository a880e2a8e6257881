import Flyover.Downstream
import Flyover.Network

/-!
# `GFLOVRouter`

The generalised variant: any set of routers may be off at the same time, and
handshakes travel along the rows and columns through the routers that are off.
One loop receives a handshake and relays it before it turns to the next; it
compares with the downstream states from before the loop.
-/

namespace Flyover.GFLOVRouter

variable {k : Nat}

/-- The assertions of `_HandshakeEvaluate` about `src_state`, case `power_on` -/
def checkPowerOn (e : PortState) (h : Handshake) : PowerState → Except AssertFailure Unit
  | .powerOn => do
      require (h.newState = some .powerOn) .newStateMismatch
      require (e.downstreamState = .draining ∨ e.downstreamState = .wakeup) .unexpectedState
      require (e.downstreamState = .wakeup → e.drainDoneSent = true) .drainDoneNotSent
  | .draining => do
      require (h.newState = some .draining) .newStateMismatch
      require (e.downstreamState = .powerOn) .unexpectedState
  | .wakeup => require (e.downstreamState ≠ .wakeup) .unexpectedState
  | .powerOff => do
      require (e.downstreamState = .draining ∨ e.downstreamState = .wakeup) .unexpectedState
      require (e.downstreamState = .draining → e.drainDoneSent = true) .drainDoneNotSent

/-- Whether `_drain_done_sent` survives in a router that is on: it does when a
drain is given up, and when `power_off` comes from behind a waking router. -/
def keepsDrainDoneSent (e : PortState) : PowerState → Bool
  | .powerOn => e.downstreamState ≠ .wakeup
  | .draining | .wakeup => false
  | .powerOff => e.downstreamState ≠ .draining

/-- `_HandshakeEvaluate`, case `power_on` -/
def receivePowerOn (e : PortState) (h : Handshake) : Except AssertFailure PortState :=
  match h.srcState with
  | none => pure e
  | some src => do
      checkPowerOn e h src
      pure { e with
        drainDoneSent := keepsDrainDoneSent e src && e.drainDoneSent
        respHid := if h.drainDone then e.respHid else h.hid }

/-- The assertions about `src_state`, case `draining` -/
def checkDraining (e : PortState) : PowerState → Except AssertFailure Unit
  | .powerOn => require (e.downstreamState = .draining) .unexpectedState
  | .draining => require (e.downstreamState = .powerOn) .unexpectedState
  | .wakeup => require (e.downstreamState ≠ .wakeup) .unexpectedState
  | .powerOff => .error .offWhileDraining

/-- What a draining router records of `src_state`. -/
def recordDraining (e : PortState) (h : Handshake) : Except AssertFailure PortState :=
  match h.srcState with
  | none => pure e
  | some src => do
      checkDraining e src
      pure { e with
        drainDoneSent := false
        respHid := if h.drainDone then e.respHid else h.hid }

/-- `_HandshakeEvaluate`, case `draining` -/
def receiveDraining (e : PortState) (h : Handshake) : Except AssertFailure PortState := do
  let e ← recordDraining e h
  if h.drainDone then do
    require (e.downstreamState = .powerOn ∨ h.newState = some .powerOn ∨
      h.srcState = none ∧ h.newState = none) .unexpectedDrainDone
    require (e.drainTag = false) .drainTagSet
    pure (if h.hid = e.reqHid then { e with drainTag := true } else e)
  else pure e

/-- The assertions about `src_state`, case `power_off`. The one about `wakeup`,
`_downstream_states[input] != wakeup || _downstream_states[input] != draining`,
cannot fail. -/
def checkPowerOff (e : PortState) : PowerState → Except AssertFailure Unit
  | .powerOn | .powerOff =>
      require (e.downstreamState = .draining ∨ e.downstreamState = .wakeup) .unexpectedState
  | .draining => require (e.downstreamState = .powerOn) .unexpectedState
  | .wakeup => pure ()

/-- `_HandshakeEvaluate`, case `power_off` -/
def receivePowerOff (e : PortState) (h : Handshake) : Except AssertFailure PortState :=
  match h.srcState with
  | none => pure e
  | some src => do
      checkPowerOff e src
      pure { e with respHid := if h.drainDone then e.respHid else h.hid }

/-- The assertions about `src_state`, case `wakeup`; `outputTag` is `_drain_tags[output]`. -/
def checkWakeup (outputTag : Bool) (e : PortState) (h : Handshake) :
    PowerState → Except AssertFailure Unit
  | .powerOn => do
      require (e.downstreamState = .draining ∨ e.downstreamState = .wakeup) .unexpectedState
      require (e.downstreamState = .wakeup → outputTag = true) .drainTagNotSet
  | .draining => do
      require (h.drainDone = false) .unexpectedDrainDone
      require (e.downstreamState = .powerOn) .unexpectedState
  | .wakeup => do
      require (h.drainDone = false) .unexpectedDrainDone
      require (e.downstreamState ≠ .wakeup) .unexpectedState
  | .powerOff =>
      require (e.downstreamState = .draining ∨ e.downstreamState = .wakeup) .unexpectedState

/-- A waking router that has the acknowledgement of the other side passes it on
to one that starts to wake up. -/
def passDrainDone (n : Node k) (input : Port) (h : Handshake) (r : Router) : Router :=
  let queued := (r.outQueueHandshakes input).getD { id := n.val }
  (r.setQueued input { queued with drainDone := true, hid := h.hid }).setPort input
    { r.ports input with drainDoneSent := true }

/-- What a waking router records of `src_state`; `old` are the downstream states
from before the loop. -/
def recordWakeup (n : Node k) (old : Port → PowerState) (input : Port) (h : Handshake)
    (r : Router) : Except AssertFailure Router :=
  match h.srcState with
  | none => pure r
  | some src => do
      checkWakeup (r.ports input.opp).drainTag (r.ports input) h src
      let r := if src = .wakeup && (r.ports input.opp).drainTag && old input.opp ≠ .powerOff then
        passDrainDone n input h r else r
      pure (if h.drainDone then r
        else r.setPort input { r.ports input with respHid := h.hid })

/-- An acknowledgement reaches a waking router, and goes on to one that wakes up
behind it. -/
def takeDrainDone (old : Port → PowerState) (input : Port) (h : Handshake) (r : Router) :
    Except AssertFailure Router :=
  if h.drainDone then do
    let r := if h.hid = (r.ports input).reqHid then
      r.setPort input { r.ports input with drainTag := true } else r
    require (h.newState = none ∨ h.newState = some .powerOn) .unexpectedDrainDone
    if old input.opp = .wakeup then
      let r := if r.outQueueHandshakes input.opp = none then
        r.setQueued input.opp { h with hid := (r.ports input.opp).respHid } else r
      pure (r.setPort input.opp { r.ports input.opp with drainDoneSent := true })
    else pure r
  else pure r

/-- The switch of `_HandshakeEvaluate` on the power state. -/
def receive (n : Node k) (old : Port → PowerState) (input : Port) (h : Handshake) (r : Router) :
    Except AssertFailure Router :=
  match r.powerState with
  | .powerOn => do
      let e ← receivePowerOn (r.ports input) h
      pure (r.setPort input e)
  | .draining => do
      let e ← receiveDraining (r.ports input) h
      pure (r.setPort input e)
  | .powerOff => do
      let e ← receivePowerOff (r.ports input) h
      pure (r.setPort input e)
  | .wakeup => do
      let r ← recordWakeup n old input h r
      takeDrainDone old input h r

/-- A waking router relays `power_off` for the sake of the credits, without the
change of the downstream state. -/
def relaySourceOff (n : Node k) (input : Port) (h : Handshake) (r : Router) :
    Except AssertFailure Router :=
  match r.outQueueHandshakes input.opp with
  | none =>
      if h.srcState = some .powerOff then
        pure (r.setQueued input.opp { h with newState := none })
      else pure r
  | some queued =>
      if queued.id ≠ h.id then do
        require (queued.id = n.val) .relayMismatch
        require (queued.drainDone = true) .relayMismatch
        if h.srcState = some .powerOff then
          pure (r.setQueued input.opp { queued with srcState := some .powerOff })
        else pure r
      else do
        require (h.drainDone = true) .relayMismatch
        pure (r.setQueued input.opp
          { queued with
            newState := none
            srcState := if h.srcState = some .powerOff then some .powerOff else none
            hid := (r.ports input.opp).respHid })

/-- The downstream state `state` waits for an acknowledgement. -/
def isWaiting (state : PowerState) : Bool := state = .draining || state = .wakeup

/-- An off router relays what concerns the other side; an acknowledgement gets the
id of the last request from there. -/
def relayOff (n : Node k) (old : Port → PowerState) (input : Port) (h : Handshake) (r : Router) :
    Except AssertFailure Router := do
  require (r.outQueueHandshakes input.opp = none) .outQueueNotEmpty
  if n.edge input.opp then pure r
  else
    match Router.relayed (isWaiting (old input.opp)) h with
    | none => pure r
    | some h => pure (r.setQueued input.opp
        (if h.drainDone then { h with hid := (r.ports input.opp).respHid } else h))

/-- Free the handshake or relay it. -/
def relayHandshake (n : Node k) (old : Port → PowerState) (input : Port) (h : Handshake)
    (r : Router) : Except AssertFailure Router :=
  match r.powerState with
  | .powerOn | .draining => pure r
  | .wakeup => if n.edge input.opp then pure r else relaySourceOff n input h r
  | .powerOff => relayOff n old input h r

/-- One iteration of the loop of `_HandshakeEvaluate`. -/
def processHandshake (n : Node k) (old : Port → PowerState) (input : Port) (h : Handshake)
    (r : Router) : Except AssertFailure Router := do
  let r ← receive n old input h r
  let e ← Router.updateDownstream n (r.ports input) h
  relayHandshake n old input h (r.setPort input e)

/-- `_HandshakeEvaluate`; the entries of `r` take the place of `new_downstream_states`. -/
def handshakeEvaluate (n : Node k) (rx : Port → Option Handshake) (r : Router) :
    Except AssertFailure Router := do
  require (r.outQueueEmpty = true) .outQueueNotEmpty
  forPorts (fun input s => match rx input with
    | none => pure s
    | some h => processHandshake n (fun p => (r.ports p).downstreamState) input h s) r

/-- "set drain_done_tag based on my downstream information" -/
def presumeAnswered (r : Router) : Router :=
  { r with
    ports := fun out =>
      if isWaiting (r.ports out).downstreamState && r.downstreamOff out.opp then
        { r.ports out with drainDoneSent := true }
      else r.ports out }

/-- `PowerStateEvaluate`, case `power_on` -/
def powerOnEvaluate (n : Node k) (r : Router) : Except AssertFailure Router :=
  let r := r.clearDrainTags
  if r.wakeupSignal then pure { r with wakeupSignal := false }
  else if !r.routerState && !(r.anyDownstream .draining || r.anyDownstream .wakeup) then
    r.startDraining n r.downstreamOff
  else pure r

/-- The guard of the change from `power_off` to `wakeup`. -/
def dueToWake (cfg : Config k) (r : Router) : Bool :=
  !(r.anyDownstream .wakeup || r.anyDownstream .draining) && r.offTimer ≥ cfg.betThreshold &&
    r.outQueueEmpty

/-- `PowerStateEvaluate`, case `power_off` -/
def powerOffEvaluate (cfg : Config k) (n : Node k) (r : Router) : Except AssertFailure Router :=
  let r := r.clearDrainTags
  if r.routerState then
    let r := { r with offTimer := r.offTimer + 1 }
    if dueToWake cfg r then Router.startWakeup n r.downstreamOff { r with wakeupSignal := false }
    else pure r
  else pure r

/-- `PowerStateEvaluate`, case `wakeup` -/
def wakeupEvaluate (cfg : Config k) (n : Node k) (d : Datapath) (r : Router) :
    Except AssertFailure Router :=
  let r := { r.setDrainTags r.downstreamOff with wakeupTimer := r.wakeupTimer + 1 }
  if r.readyToWake cfg d then do
    let r ← r.finishWakeup n
    pure (presumeAnswered r)
  else pure r

/-- `PowerStateEvaluate` -/
def powerStateEvaluate (cfg : Config k) (n : Node k) (d : Datapath) (r : Router) :
    Except AssertFailure Router := do
  require (Router.bottomRow n = true → r.powerState = .powerOn) .bottomRowNotOn
  match r.powerState with
  | .powerOn => powerOnEvaluate n r
  | .draining => r.drainingEvaluate cfg n d (r.priorityDraining || r.anyDownstream .wakeup)
  | .powerOff => powerOffEvaluate cfg n r
  | .wakeup => wakeupEvaluate cfg n d r

/-- One cycle of the router. -/
def cycle (cfg : Config k) : Cycle k Router Inputs := fun n r inp rx => do
  let r ← handshakeEvaluate n rx (r.setInputs inp)
  let r ← powerStateEvaluate cfg n inp.datapath r
  let r ← r.internalStep n inp.datapath
  r.outputQueuing

/-- Every router on, nothing sent. -/
def start (k : Nat) : Net k Router where
  router := Router.initial

/-- Bottom row routers are never asked to switch off. -/
def Admissible (n : Node k) (inp : Inputs) : Prop :=
  Router.bottomRow n = true → inp.routerState = true

instance (n : Node k) (inp : Inputs) : Decidable (Admissible n inp) :=
  inferInstanceAs (Decidable (_ → _))

/-- The reachable states of a network of `GFLOVRouter`s. -/
abbrev Reachable (cfg : Config k) : Net k Router → Prop :=
  Net.Reachable (cycle cfg) cfg.latency Admissible (start k)

end Flyover.GFLOVRouter
