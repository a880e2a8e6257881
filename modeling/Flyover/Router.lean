import Flyover.Mesh
import Flyover.Checked

/-!
# Power gating state of a router

The part of `Router` that the handshakes of the FLOV family read and write, the
handshake message, and the loops that all of its power state machines share.

The data plane (virtual channels, crossbar, output buffers) enters through the
tests that the handshake code makes on it; their results are inputs of a cycle
and may be anything. Statistics counters and `_idle_timer`, which nothing here
reads, are left out. A handshake calls for changes of the credit state; those
are the subject of another layer and are left out here.
-/

namespace Flyover

/-- `Router::ePowerState` -/
inductive PowerState where
  | powerOff
  | powerOn
  | draining
  | wakeup
  deriving DecidableEq, Repr

/-- A handshake message; `none` and `-1` are the source's "not set". -/
structure Handshake where
  newState : Option PowerState := none
  srcState : Option PowerState := none
  drainDone : Bool := false
  id : Int := -1
  hid : Int := -1
  logicalNeighbor : Int := -1
  deriving DecidableEq, Repr

/-- What a router keeps for each mesh port: one entry of `_neighbor_states`,
`_downstream_states`, `_logical_neighbors`, `_drain_done_sent`, `_drain_tags`,
`_req_hids` and `_resp_hids`. -/
structure PortState where
  neighborState : PowerState := .powerOn
  downstreamState : PowerState := .powerOn
  logicalNeighbor : Int := -1
  drainDoneSent : Bool := false
  drainTag : Bool := false
  reqHid : Int := -1
  respHid : Int := -1
  deriving DecidableEq, Repr

/-- The power gating fields of a router. -/
structure Router where
  powerState : PowerState := .powerOn
  drainTimer : Int := 0
  offTimer : Int := 0
  wakeupTimer : Int := 0
  wakeupSignal : Bool := false
  routerState : Bool := true
  ports : Port → PortState
  outQueueHandshakes : Port → Option Handshake := fun _ => none

/-- The parameters the routers read from the configuration, and the latency of
the channels. -/
structure Config (k : Nat) where
  drainThreshold : Int
  betThreshold : Int
  wakeupThreshold : Int
  latency : Nat

/-- Short timers and channels, for runs on fixed inputs. -/
def Config.short (k : Nat) : Config k where
  drainThreshold := 100
  betThreshold := 2
  wakeupThreshold := 2
  latency := 1

/-- The tests of one cycle on the data plane. -/
structure Datapath where
  /-- `_in_queue_flits.empty()` -/
  inQueueFlitsEmpty : Bool
  /-- `_crossbar_flits.empty()` -/
  crossbarFlitsEmpty : Bool
  /-- every virtual channel is `VC::idle` -/
  vcsIdle : Bool
  /-- every output buffer is empty -/
  outputBuffersEmpty : Bool
  /-- `_HandshakeResponse` finds no active VC, crossbar flit or buffered flit for the port -/
  portDrained : Port → Bool

/-- What happens to a router from outside in one cycle. -/
structure Inputs where
  /-- the last `SetRouterState` -/
  routerState : Bool
  /-- `WakeUp()` is called -/
  wakeUp : Bool
  /-- `IdleDetected()` is called -/
  idleDetected : Bool
  datapath : Datapath

/-- A loop over the ports whose iterations do not depend on each other; the first
failure ends it. -/
def traversePorts {α : Type} (f : Port → Except AssertFailure α) :
    Except AssertFailure (Port → α) := do
  let east ← f .east
  let west ← f .west
  let south ← f .south
  let north ← f .north
  pure fun
    | .east => east
    | .west => west
    | .south => south
    | .north => north

theorem traversePorts_ok {α : Type} {f : Port → Except AssertFailure α} {g : Port → α} :
    traversePorts f = .ok g ↔ ∀ p, f p = .ok (g p) := by
  simp only [traversePorts, bind_ok, pure_ok]
  constructor
  · rintro ⟨east, heast, west, hwest, south, hsouth, north, hnorth, rfl⟩ p
    cases p <;> assumption
  · intro h
    refine ⟨_, h .east, _, h .west, _, h .south, _, h .north, ?_⟩
    funext p
    cases p <;> rfl

theorem traversePorts_pure {α : Type} (g : Port → α) : traversePorts (fun p => pure (g p)) = pure g := by
  rw [show (pure g : Except AssertFailure (Port → α)) = .ok g from rfl, traversePorts_ok]
  exact fun _ => rfl

theorem traversePorts_alike {α β : Type} {R : Port → α → β → Prop}
    {f : Port → Except AssertFailure α} {g : Port → Except AssertFailure β}
    (h : ∀ p, Alike (R p) (f p) (g p)) :
    Alike (fun a b => ∀ p, R p (a p) (b p)) (traversePorts f) (traversePorts g) where
  forth := by
    intro a ha
    have hall : ∀ p, ∃ b, g p = .ok b ∧ R p (a p) b := fun p =>
      (h p).forth (a p) (traversePorts_ok.mp ha p)
    choose b hb using hall
    exact ⟨b, traversePorts_ok.mpr fun p => (hb p).1, fun p => (hb p).2⟩
  back := by
    intro b hb
    have hall : ∀ p, ∃ a, f p = .ok a ∧ R p a (b p) := fun p =>
      (h p).back (b p) (traversePorts_ok.mp hb p)
    choose a ha using hall
    exact ⟨a, traversePorts_ok.mpr fun p => (ha p).1, fun p => (ha p).2⟩

/-- A data plane with nothing in it. -/
def Datapath.empty : Datapath where
  inQueueFlitsEmpty := true
  crossbarFlitsEmpty := true
  vcsIdle := true
  outputBuffersEmpty := true
  portDrained _ := true

/-- A cycle without traffic, in which the router is wanted or not. -/
def Inputs.quiet (wanted : Bool) : Inputs where
  routerState := wanted
  wakeUp := false
  idleDetected := false
  datapath := .empty

namespace Router

/-- The identifier of the neighbour on an inner port, as the constructor computes it. -/
def adjacentId {k : Nat} (n : Node k) : Port → Int
  | .east => n.val + 1
  | .west => n.val - 1
  | .south => n.val + k
  | .north => n.val - k

/-- `Router::Router` -/
def initial {k : Nat} (n : Node k) : Router where
  ports := fun p =>
    if n.edge p then
      { neighborState := .powerOff, downstreamState := .powerOff, logicalNeighbor := -1 }
    else { logicalNeighbor := adjacentId n p }

theorem adjacentId_eq {k : Nat} {n : Node k} {p : Port} (hp : n.edge p = false) :
    adjacentId n p = (n.neighbor p).val := by
  have hdistance := Node.distance_pos hp
  have hx := n.x_lt
  have hval := n.val_eq
  have hid : (n.neighbor p).val = n.neighborId p := rfl
  rw [hid]
  have hcol : n.val % k = n.x := rfl
  have hrow : n.val / k = n.y := rfl
  cases p <;> simp only [adjacentId, Node.neighborId, Node.distance, hcol, hrow] at hdistance ⊢ <;>
    rw [if_neg (by omega)]
  · omega
  · have hpos : 1 ≤ n.val := by
      rw [hval]
      omega
    omega
  · omega
  · have hrow : k * 1 ≤ k * n.y := Nat.mul_le_mul_left k hdistance
    omega

/-- `_id >= gNodes - gK` -/
def bottomRow {k : Nat} (n : Node k) : Bool := k * k - k ≤ n.val

/-- `Router::IdleDetected` -/
def idleDetected (r : Router) : Router :=
  { r with
    drainTimer :=
      if r.powerState = .draining ∨ r.powerState = .wakeup then r.drainTimer + 1
      else r.drainTimer
    offTimer := if r.powerState = .powerOff then r.offTimer + 1 else r.offTimer }

/-- The calls that the traffic manager makes on a router before a cycle. -/
def setInputs (r : Router) (inp : Inputs) : Router :=
  let counted := if inp.idleDetected then r.idleDetected else r
  { counted with
    routerState := inp.routerState
    wakeupSignal := r.wakeupSignal || inp.wakeUp }

/-- `_drain_tags.clear(); _drain_tags.resize(4, false);` -/
def clearDrainTags (r : Router) : Router :=
  { r with ports := fun p => { r.ports p with drainTag := false } }

/-- `_drain_tags[out] = true` at some of the ports -/
def setDrainTags (r : Router) (chosen : Port → Bool) : Router :=
  { r with
    ports := fun p =>
      { r.ports p with drainTag := chosen p || (r.ports p).drainTag } }

/-- The loop that queues a handshake at each of the chosen ports: take the one
that is queued already or a new one, fill it in, and number it with
`++_req_hids[out]`. -/
def queueHandshakes (r : Router) (chosen : Port → Bool)
    (fill : Port → Handshake → Handshake) : Router :=
  { r with
    ports := fun p =>
      if chosen p then { r.ports p with reqHid := (r.ports p).reqHid + 1 } else r.ports p
    outQueueHandshakes := fun p =>
      if chosen p then
        some { fill p ((r.outQueueHandshakes p).getD {}) with hid := (r.ports p).reqHid + 1 }
      else r.outQueueHandshakes p }

/-- `_out_queue_handshakes.empty()` -/
def outQueueEmpty (r : Router) : Bool := Port.all.all fun p => (r.outQueueHandshakes p).isNone

/-- `_drain_tags[0] && _drain_tags[1] && _drain_tags[2] && _drain_tags[3]` -/
def allDrainTags (r : Router) : Bool := Port.all.all fun p => (r.ports p).drainTag

/-- Replace the entry of one port. -/
def setPort (r : Router) (p : Port) (entry : PortState) : Router :=
  { r with ports := Function.update r.ports p entry }

@[simp] theorem setPort_powerState (r : Router) (p : Port) (e : PortState) :
    (r.setPort p e).powerState = r.powerState := rfl

@[simp] theorem setPort_outQueueHandshakes (r : Router) (p : Port) (e : PortState) :
    (r.setPort p e).outQueueHandshakes = r.outQueueHandshakes := rfl

@[simp] theorem setPort_ports_self (r : Router) (p : Port) (e : PortState) :
    (r.setPort p e).ports p = e := Function.update_self ..

theorem setPort_ports_of_ne (r : Router) {p q : Port} (e : PortState) (h : q ≠ p) :
    (r.setPort p e).ports q = r.ports q := Function.update_of_ne h ..

@[simp] theorem setPort_setPort (r : Router) (p : Port) (e e' : PortState) :
    (r.setPort p e).setPort p e' = r.setPort p e' := by
  simp [setPort]

@[simp] theorem setPort_self (r : Router) (p : Port) : r.setPort p (r.ports p) = r := by
  simp [setPort]

/-- Replace the queued handshake of one port. -/
def setQueued (r : Router) (p : Port) (h : Handshake) : Router :=
  { r with outQueueHandshakes := Function.update r.outQueueHandshakes p (some h) }

/-- The part of `_HandshakeResponse` after its tests: at each of the chosen ports,
add `drain_done` to the handshake that is queued already or to a new one, under
the id of the request that is answered. -/
def sendDrainDone {k : Nat} (r : Router) (n : Node k) (chosen : Port → Bool) : Router :=
  { r with
    ports := fun p => if chosen p then { r.ports p with drainDoneSent := true } else r.ports p
    outQueueHandshakes := fun p =>
      if chosen p then
        some { (r.outQueueHandshakes p).getD {} with
          drainDone := true
          id := n.val
          hid := (r.ports p).respHid }
      else r.outQueueHandshakes p }

/-- `_OutputQueuing`: hand over the queued handshakes and clear the queue. The
assertion's other half, `new_state >= 0 || drain_done || wakeup`, cannot fail:
`wakeup` is never set and -1 counts as true. -/
def outputQueuing (r : Router) :
    Except AssertFailure (Router × (Port → Option Handshake)) := do
  require (∀ p ∈ Port.all, ∀ h ∈ r.outQueueHandshakes p, 0 ≤ h.id) .handshakeWithoutId
  pure ({ r with outQueueHandshakes := fun _ => none }, r.outQueueHandshakes)

@[simp] theorem setInputs_ports (r : Router) (inp : Inputs) :
    (r.setInputs inp).ports = r.ports := by
  unfold setInputs
  split <;> rfl

@[simp] theorem setInputs_powerState (r : Router) (inp : Inputs) :
    (r.setInputs inp).powerState = r.powerState := by
  unfold setInputs
  split <;> rfl

@[simp] theorem setInputs_outQueueHandshakes (r : Router) (inp : Inputs) :
    (r.setInputs inp).outQueueHandshakes = r.outQueueHandshakes := by
  unfold setInputs
  split <;> rfl

theorem outputQueuing_ok {r r' : Router} {tx : Port → Option Handshake}
    (hok : r.outputQueuing = .ok (r', tx)) :
    r' = { r with outQueueHandshakes := fun _ => none } ∧ tx = r.outQueueHandshakes := by
  obtain ⟨-, hok⟩ := require_bind_ok.mp hok
  obtain ⟨hr', htx⟩ := Prod.mk.inj (pure_ok.mp hok)
  exact ⟨hr'.symm, htx.symm⟩

end Router

theorem Node.bottomRow_iff {k : Nat} (n : Node k) : Router.bottomRow n = true ↔ n.y = k - 1 := by
  have hval := n.val_eq
  have hx := n.x_lt
  have hy := n.y_lt
  have hrow : k * (k - 1) = k * k - k := by rw [Nat.mul_sub, Nat.mul_one]
  rw [Router.bottomRow, decide_eq_true_eq]
  constructor
  · intro hbottom
    by_contra hne
    have hstep : k * (n.y + 1) ≤ k * (k - 1) := Nat.mul_le_mul_left k (by omega)
    rw [Nat.mul_add] at hstep
    omega
  · intro hlast
    rw [hlast] at hval
    omega

/-- The bottom row is where no router lies to the south. -/
theorem Node.edge_south {k : Nat} (n : Node k) : n.edge .south = Router.bottomRow n := by
  rw [Bool.eq_iff_iff, n.bottomRow_iff]
  exact decide_eq_true_iff

/-- The local part of `drain_done` in the draining state. -/
def Datapath.locallyDrained (d : Datapath) : Bool :=
  d.inQueueFlitsEmpty && d.crossbarFlitsEmpty && d.vcsIdle && d.outputBuffersEmpty

end Flyover
