import Flyover.Network

/-!
# `RFLOVRouter`

The restricted variant: a router may only switch off between routers that stay
on, so each needs to know no more than the state of its mesh neighbours. Where
the functions below speak of `power_off` at a boundary port, it is the value
that the constructor gave to the missing neighbour.
-/

namespace Flyover.RFLOVRouter

variable {k : Nat}

/-- The first half of an iteration of `_HandshakeEvaluate`: what the neighbour
announces. -/
def updateNeighborState (entry : PortState) (newState : Option PowerState) :
    Except AssertFailure PortState :=
  match newState with
  | some .powerOff => do
      require (entry.neighborState = .draining) .unexpectedState
      require (entry.drainDoneSent = true) .drainDoneNotSent
      pure { entry with drainDoneSent := false, neighborState := .powerOff }
  | some .powerOn =>
      -- from `wakeup` the credits are refilled as well
      if entry.neighborState = .wakeup ∨ entry.neighborState = .draining then
        pure { entry with drainDoneSent := false, neighborState := .powerOn }
      else pure entry
  | some .draining => pure { entry with drainDoneSent := false, neighborState := .draining }
  | some .wakeup => pure { entry with drainDoneSent := false, neighborState := .wakeup }
  | none => pure entry

/-- The second half: what the neighbour answers, or the request it makes. -/
def updateRequest (powerState : PowerState) (entry : PortState) (h : Handshake) :
    Except AssertFailure PortState :=
  if h.drainDone then do
    require (powerState = .draining ∨ powerState = .wakeup ∨ powerState = .powerOn)
      .unexpectedDrainDone
    pure
      (if h.hid = entry.reqHid ∧ (powerState = .draining ∨ powerState = .wakeup) then
        { entry with drainTag := true }
      else entry)
  else pure { entry with respHid := h.hid }

/-- One handshake, received at one port. -/
def processHandshake (powerState : PowerState) (entry : PortState) :
    Option Handshake → Except AssertFailure PortState
  | none => pure entry
  | some h => do
      let updated ← updateNeighborState entry h.newState
      updateRequest powerState updated h

/-- `_HandshakeEvaluate` -/
def handshakeEvaluate (r : Router) (rx : Port → Option Handshake) :
    Except AssertFailure Router := do
  let ports ← traversePorts fun input => processHandshake r.powerState (r.ports input) (rx input)
  pure { r with ports := ports }

/-- Queue an announcement of the router's new state at each of the chosen ports. -/
def announce (n : Node k) (chosen : Port → Bool) (r : Router) : Except AssertFailure Router := do
  require (r.outQueueEmpty = true) .outQueueNotEmpty
  pure (r.queueHandshakes chosen fun _ h =>
    { h with newState := some r.powerState, id := n.val })

/-- `neighbor_draining || neighbor_off` of the `power_on` case. -/
def neighborBusy (n : Node k) (r : Router) : Bool :=
  Port.any fun out =>
    (r.ports out).neighborState = .draining ||
      (((r.ports out).neighborState = .powerOff || (r.ports out).neighborState = .wakeup) &&
        !n.edge out)

/-- `neighbor_draining || neighbor_off_wakeup` of the `draining` case: draining and
sleeping neighbours count on the ports `out == 1 || out == 3` only. -/
def mustYield (n : Node k) (r : Router) : Bool :=
  Port.any fun out =>
    ((r.ports out).neighborState = .draining && out.higherPriority) ||
      (r.ports out).neighborState = .wakeup ||
      ((r.ports out).neighborState = .powerOff && out.higherPriority && !n.edge out)

def powerOnEvaluate (n : Node k) (r : Router) : Except AssertFailure Router :=
  let r := r.clearDrainTags
  if r.wakeupSignal then pure { r with wakeupSignal := false }
  else if !r.routerState && !neighborBusy n r then
    announce n n.inner
      ({ r with powerState := .draining, drainTimer := 0 }.setDrainTags n.edge)
  else pure r

def drainingEvaluate (cfg : Config k) (n : Node k) (d : Datapath) (r : Router) :
    Except AssertFailure Router :=
  let r := { r with drainTimer := r.drainTimer + 1 }
  let drainDone := r.allDrainTags && d.locallyDrained
  if r.wakeupSignal then
    announce n n.inner
      { r.clearDrainTags with wakeupSignal := false, powerState := .powerOn, drainTimer := 0 }
  else if mustYield n r then
    announce n (fun _ => true) { r.clearDrainTags with powerState := .powerOn, drainTimer := 0 }
  else if drainDone then
    announce n n.inner
      { r.clearDrainTags with powerState := .powerOff, offTimer := 0, drainTimer := 0 }
  else if r.drainTimer > cfg.drainThreshold then
    announce n n.inner { r.clearDrainTags with powerState := .powerOn, drainTimer := 0 }
  else pure r

def powerOffEvaluate (cfg : Config k) (n : Node k) (r : Router) : Except AssertFailure Router :=
  let r := r.clearDrainTags
  if r.routerState then
    let r := { r with offTimer := r.offTimer + 1 }
    if r.offTimer ≥ cfg.betThreshold then
      announce n n.inner
        ({ r with
          wakeupSignal := false
          powerState := .wakeup
          wakeupTimer := 0
          offTimer := 0 }.setDrainTags n.edge)
    else pure r
  else pure r

def wakeupEvaluate (cfg : Config k) (n : Node k) (d : Datapath) (r : Router) :
    Except AssertFailure Router :=
  let drainDone := r.allDrainTags && d.inQueueFlitsEmpty
  let r := { r with wakeupTimer := r.wakeupTimer + 1 }
  if drainDone && r.wakeupTimer ≥ cfg.wakeupThreshold then
    announce n (fun _ => true)
      { r.clearDrainTags with wakeupSignal := false, wakeupTimer := 0, powerState := .powerOn }
  else pure r

/-- `PowerStateEvaluate` -/
def powerStateEvaluate (cfg : Config k) (n : Node k) (d : Datapath) (r : Router) :
    Except AssertFailure Router := do
  require (Router.bottomRow n = true → r.powerState = .powerOn) .bottomRowNotOn
  match r.powerState with
  | .powerOn => powerOnEvaluate n r
  | .draining => drainingEvaluate cfg n d r
  | .powerOff => powerOffEvaluate cfg n r
  | .wakeup => wakeupEvaluate cfg n d r

/-- `_HandshakeResponse`: answer the neighbours that drain or wake up, once the
data plane holds nothing for them. -/
def handshakeResponse (n : Node k) (d : Datapath) (r : Router) : Router :=
  r.sendDrainDone n fun out =>
    ((r.ports out).neighborState = .draining || (r.ports out).neighborState = .wakeup) &&
      !(r.ports out).drainDoneSent && d.portDrained out

/-- `_InternalStep` as far as handshakes are concerned: a router that is off or
waking up takes the `_RFlovStep` path and answers nobody. -/
def internalStep (n : Node k) (d : Datapath) (r : Router) : Router :=
  if r.powerState = .powerOff ∨ r.powerState = .wakeup then r else handshakeResponse n d r

/-- One cycle of the router. -/
def cycle (cfg : Config k) : Cycle k Router Inputs := fun n r inp rx => do
  let r ← handshakeEvaluate (r.setInputs inp) rx
  let r ← powerStateEvaluate cfg n inp.datapath r
  (internalStep n inp.datapath r).outputQueuing

/-- Every router on, nothing sent. -/
def start (k : Nat) : Net k Router where
  router := Router.initial

/-- Bottom row routers are never asked to switch off. -/
def Admissible (n : Node k) (inp : Inputs) : Prop :=
  Router.bottomRow n = true → inp.routerState = true

instance (n : Node k) (inp : Inputs) : Decidable (Admissible n inp) :=
  inferInstanceAs (Decidable (_ → _))

/-- The reachable states of a network of `RFLOVRouter`s. -/
abbrev Reachable (cfg : Config k) : Net k Router → Prop :=
  Net.Reachable (cycle cfg) cfg.latency Admissible (start k)

end Flyover.RFLOVRouter
