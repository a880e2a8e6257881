import Flyover.Injection.NoRD
import Flyover.NoRD.Ring

/-!
# `NoRDRouter`

Its power state machine, the packets that it bypasses, and its request monitor. The rest
of the pipeline enters through the flits that come and go, the tests that are made on it, and
the requests for virtual channels that it takes from its queue. What `_HandshakeEvaluate`
makes of the ports of a cycle may be anything.

Of the buffer of the network interface at port 4 only its size is kept.
-/

namespace Flyover

variable {k : Nat}

/-- What the router reads of a flit. -/
structure PassingFlit where
  pid : Nat
  src : Nat
  dest : Nat
  head : Bool
  tail : Bool

structure NoRDRouterConfig (k : Nat) extends Config k where
  idleThreshold : Int
  /-- the settings that the traffic manager reads, too -/
  wakeup : Injection.NoRDConfig
  vcs : Nat
  vcBufSize : Nat

/-- What the constructor of `BufferState` makes `_size`. -/
def NoRDRouterConfig.fullSize (cfg : NoRDRouterConfig k) : Nat := cfg.vcs * cfg.vcBufSize

/-- Small buffers, and epochs of two cycles in which one request is enough, for runs on fixed
inputs. -/
def NoRDRouterConfig.short (k : Nat) : NoRDRouterConfig k where
  toConfig := .short k
  idleThreshold := 0
  wakeup := {
    holdSwitchForPacket := true
    networkAgeBased := false
    performanceCentricWakeupThreshold := 1
    powerCentricWakeupThreshold := 1
    wakeupMonitorEpoch := 2 }
  vcs := 1
  vcBufSize := 2

/-- The fields of `NoRDRouter`, and `_idle_timer` of `Router`. -/
structure NoRDRouter extends Router where
  idleTimer : Int := 0
  outstandingBypassPackets : List Nat := []
  wakeupMonitorVCRequests : Int := 0
  /-- `_next_buf[4]->Size()` -/
  ejectionSize : Nat

/-- The tests of `PowerStateEvaluate` on the data plane. -/
structure NoRDDatapath extends Datapath where
  /-- `dest_buf->Occupancy() == 0` at every output -/
  destBuffersEmpty : Bool

inductive NoRDFailure where
  | handshake (failure : AssertFailure)
  /-- `assert(_wakeup_timer == 0)` -/
  | wakeupTimerRuns
  /-- the assertion of `SetVCBufferSize` -/
  | otherSize
  /-- `assert(router_states[n] == false)` -/
  | routerWanted

/-- `_performance_centric_routers`; the constructor of the router makes the same test. -/
def Node.performanceCentric (n : Node k) : Bool :=
  n.y = 1 || (k > 4 && n.y % 2 = 1 && n.y < k - 1) || (n.y = k - 1 && n.x > 0 && n.x < k - 1)

namespace NoRDRouter

variable (cfg : NoRDRouterConfig k) (n : Node k) (r : NoRDRouter)

/-- `_nord_wakeup_threshold` -/
def nordWakeupThreshold : Int :=
  if n.performanceCentric then cfg.wakeup.performanceCentricWakeupThreshold
  else cfg.wakeup.powerCentricWakeupThreshold

/-! ### The power state -/

/-- `router_empty` -/
def routerEmpty (d : NoRDDatapath) : Bool :=
  d.inQueueFlitsEmpty && d.crossbarFlitsEmpty && d.vcsIdle && d.outputBuffersEmpty &&
    d.destBuffersEmpty

/-- Queue an announcement of the new state for every neighbour. -/
def announce : Except NoRDFailure NoRDRouter := do
  let router ← (RFLOVRouter.announce n n.inner r.toRouter).mapError .handshake
  pure { r with toRouter := router }

/-- `_drain_tags.clear(); _drain_tags.resize(4, false);` -/
def clearDrainTags : NoRDRouter := { r with toRouter := r.toRouter.clearDrainTags }

/-- `_next_buf[4]->SetVCBufferSize(1)` -/
def setEjectionSize : Except NoRDFailure NoRDRouter :=
  if r.ejectionSize ≠ cfg.fullSize then
    if r.ejectionSize = cfg.vcs then .ok r else .error .otherSize
  else .ok { r with ejectionSize := cfg.vcs }

/-- Back to `power_on`. -/
def turnOn : Except NoRDFailure NoRDRouter :=
  { r.clearDrainTags with powerState := .powerOn, idleTimer := 0 }.announce n

def powerOnEvaluate (d : NoRDDatapath) : Except NoRDFailure NoRDRouter :=
  let r := { r with idleTimer := r.idleTimer + 1 }
  if r.wakeupSignal then .ok { r with wakeupSignal := false, idleTimer := 0 }
  else if !r.routerState && decide (r.idleTimer > cfg.idleThreshold) && routerEmpty d &&
      !Port.any (fun out => (r.ports out).neighborState = .draining ||
        (r.ports out).neighborState = .wakeup) then
    let drains := { r.clearDrainTags with powerState := .draining, idleTimer := 0, drainTimer := 0 }
    { drains with toRouter := drains.toRouter.setDrainTags n.edge }.announce n
  else .ok r

def drainingEvaluate (d : NoRDDatapath) : Except NoRDFailure NoRDRouter :=
  let r := { r with drainTimer := r.drainTimer + 1 }
  let neighborWakeup := Port.any fun out => (r.ports out).neighborState = .wakeup
  let neighborDraining := Port.any fun out =>
    (r.ports out).neighborState = .draining && out.higherPriority
  if r.wakeupSignal || !routerEmpty d || neighborWakeup || neighborDraining then do
    let r ← r.turnOn n
    pure { r with wakeupSignal := false }
  else if r.allDrainTags then do
    let r ← { r.clearDrainTags with powerState := .powerOff, offTimer := 0 }.setEjectionSize cfg
    let r := { r with wakeupMonitorVCRequests := 0 }
    r.announce n
  else if r.drainTimer > cfg.drainThreshold then r.turnOn n
  else .ok r

/-- The request monitor of a router that is off looks at its count in every cycle but the
last of an epoch. -/
def monitor (time : Int) : NoRDRouter :=
  if nordWakeupThreshold cfg n > 0 then
    if time % cfg.wakeup.wakeupMonitorEpoch ≠ 0 then
      { r with
        wakeupSignal :=
          r.wakeupSignal || decide (r.wakeupMonitorVCRequests ≥ nordWakeupThreshold cfg n)
        wakeupMonitorVCRequests := 0 }
    else r
  else r

/-- `power_off`, as far as the state is concerned. -/
def leaveOff : Except NoRDFailure NoRDRouter :=
  let r := { r with offTimer := r.offTimer + 1 }
  if r.wakeupSignal && decide (r.offTimer ≥ cfg.betThreshold) then
    if r.wakeupTimer = 0 then
      .ok { r.clearDrainTags with powerState := .wakeup, offTimer := 0 }
    else .error .wakeupTimerRuns
  else .ok r

def powerOffEvaluate (time : Int) : Except NoRDFailure NoRDRouter := do
  let r ← r.leaveOff cfg
  pure (r.monitor cfg n time)

def wakeupEvaluate : Except NoRDFailure NoRDRouter :=
  let r := { r with wakeupTimer := r.wakeupTimer + 1 }
  if r.wakeupTimer ≥ cfg.wakeupThreshold then
    { r with wakeupSignal := false, wakeupTimer := 0, powerState := .powerOn }.announce n
  else .ok r

/-- `PowerStateEvaluate` -/
def powerStateEvaluate (time : Int) (d : NoRDDatapath) : Except NoRDFailure NoRDRouter :=
  if Router.bottomRow n then
    if r.powerState = .powerOn then .ok r else .error (.handshake .bottomRowNotOn)
  else
    match r.powerState with
    | .powerOn => r.powerOnEvaluate cfg n d
    | .draining => r.drainingEvaluate cfg n d
    | .powerOff => r.powerOffEvaluate cfg n time
    | .wakeup => r.wakeupEvaluate cfg n

/-! ### Flits and requests -/

/-- The flit at an input, in `_ReceiveFlits`. -/
def receiveFlit (input : Fin 5) (f : PassingFlit) : NoRDRouter :=
  { r with
    idleTimer := 0
    outstandingBypassPackets :=
      if (r.powerState = .powerOff ∨ r.powerState = .wakeup) ∧ input < 4 ∧ f.head = true then
        r.outstandingBypassPackets ++ [f.pid]
      else r.outstandingBypassPackets }

/-- The flit at an output, in `_SendFlits`. -/
def sendFlit (output : Fin 5) (f : PassingFlit) : NoRDRouter :=
  if output < 4 ∧ f.tail = true then
    let packets := r.outstandingBypassPackets.erase f.pid
    { r with
      outstandingBypassPackets := packets
      ejectionSize :=
        if (r.powerState = .powerOn ∨ r.powerState = .draining) ∧ r.ejectionSize = cfg.vcs ∧
            packets = [] then cfg.fullSize
        else r.ejectionSize }
  else r

/-- `_VCAllocUpdate` takes a request from its queue. -/
def takeRequest : NoRDRouter :=
  { r with
    wakeupMonitorVCRequests :=
      if r.powerState = .powerOff then r.wakeupMonitorVCRequests + 1
      else r.wakeupMonitorVCRequests }

/-- `_HandshakeResponse`, and `_OutputQueuing` of its answers. -/
def respond (d : NoRDDatapath) : NoRDRouter :=
  let router := r.toRouter.sendDrainDone n fun out =>
    decide ((r.ports out).neighborState = .draining) && !(r.ports out).drainDoneSent &&
      (d.portDrained out && (out != n.ringOutput || r.outstandingBypassPackets.isEmpty))
  { r with toRouter := { router with outQueueHandshakes := fun _ => none } }

end NoRDRouter

end Flyover
