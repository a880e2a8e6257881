import Flyover.Router

/-!
# What `GFLOVRouter` and `FLOVRouter` have in common

Both keep, for each direction, the state of the downstream router: the nearest
one that is not off. A router that is off relays the handshakes that arrive on
one side to the other. The two classes are separate copies of the same code; the
parts that are still identical are defined here once.
-/

namespace Flyover

variable {k : Nat}

/-- A loop over the ports, in the order of the source. -/
def forPorts (f : Port → Router → Except AssertFailure Router) (r : Router) :
    Except AssertFailure Router := do
  let r ← f .east r
  let r ← f .west r
  let r ← f .south r
  f .north r

theorem forPorts_ok {f : Port → Router → Except AssertFailure Router} {r r' : Router} :
    forPorts f r = .ok r' ↔ ∃ r₁ r₂ r₃, f .east r = .ok r₁ ∧ f .west r₁ = .ok r₂ ∧
      f .south r₂ = .ok r₃ ∧ f .north r₃ = .ok r' := by
  simp only [forPorts, bind_ok]
  constructor
  · rintro ⟨r₁, h₁, r₂, h₂, r₃, h₃, h₄⟩
    exact ⟨r₁, r₂, r₃, h₁, h₂, h₃, h₄⟩
  · rintro ⟨r₁, r₂, r₃, h₁, h₂, h₃, h₄⟩
    exact ⟨r₁, h₁, r₂, h₂, r₃, h₃, h₄⟩

/-- What every iteration preserves, the loop preserves. -/
theorem forPorts_induction {f : Port → Router → Except AssertFailure Router} {r r' : Router}
    {motive : Router → Prop} (hok : forPorts f r = .ok r') (hinit : motive r)
    (hstep : ∀ p s s', motive s → f p s = .ok s' → motive s') : motive r' := by
  obtain ⟨r₁, r₂, r₃, h₁, h₂, h₃, h₄⟩ := forPorts_ok.mp hok
  exact hstep _ _ _ (hstep _ _ _ (hstep _ _ _ (hstep _ _ _ hinit h₁) h₂) h₃) h₄

/-- A loop whose iterations each replace the entry of their own port. -/
theorem forPorts_setPort {f : Port → Router → Except AssertFailure Router} {r r' : Router}
    {R : Port → PortState → PortState → Prop} (hok : forPorts f r = .ok r')
    (hstep : ∀ p s s', s.powerState = r.powerState → f p s = .ok s' →
      ∃ e, s' = s.setPort p e ∧ R p (s.ports p) e) :
    (∀ p, R p (r.ports p) (r'.ports p)) ∧ r' = { r with ports := r'.ports } := by
  obtain ⟨r₁, r₂, r₃, h₁, h₂, h₃, h₄⟩ := forPorts_ok.mp hok
  obtain ⟨e₁, rfl, hR₁⟩ := hstep _ _ _ (by rfl) h₁
  obtain ⟨e₂, rfl, hR₂⟩ := hstep _ _ _ (by rfl) h₂
  obtain ⟨e₃, rfl, hR₃⟩ := hstep _ _ _ (by rfl) h₃
  obtain ⟨e₄, rfl, hR₄⟩ := hstep _ _ _ (by rfl) h₄
  refine ⟨fun p => ?_, rfl⟩
  cases p <;> simpa [Router.setPort, Function.update] using by assumption

/-- A loop whose iterations each decide what is queued at the opposite port. -/
theorem forPorts_queue {f : Port → Router → Except AssertFailure Router} {r r' : Router}
    {R : Port → Option Handshake → Option Handshake → Prop} (hok : forPorts f r = .ok r')
    (hstep : ∀ p s s', s.powerState = r.powerState → s.ports = r.ports → f p s = .ok s' →
      ∃ q, s' = { s with outQueueHandshakes := Function.update s.outQueueHandshakes p.opp q } ∧
        R p (s.outQueueHandshakes p.opp) q) :
    (∀ p, R p (r.outQueueHandshakes p.opp) (r'.outQueueHandshakes p.opp)) ∧
      r' = { r with outQueueHandshakes := r'.outQueueHandshakes } := by
  obtain ⟨r₁, r₂, r₃, h₁, h₂, h₃, h₄⟩ := forPorts_ok.mp hok
  obtain ⟨q₁, rfl, hR₁⟩ := hstep _ _ _ (by rfl) (by rfl) h₁
  obtain ⟨q₂, rfl, hR₂⟩ := hstep _ _ _ (by rfl) (by rfl) h₂
  obtain ⟨q₃, rfl, hR₃⟩ := hstep _ _ _ (by rfl) (by rfl) h₃
  obtain ⟨q₄, rfl, hR₄⟩ := hstep _ _ _ (by rfl) (by rfl) h₄
  refine ⟨fun p => ?_, rfl⟩
  cases p <;> simpa [Port.opp, Function.update] using by assumption

/-- The ports that a loop reaches before the opposite ones. -/
def Port.beforeOpp : Port → Bool
  | .east | .south => true
  | .west | .north => false

/-- Replace the entry of one port and what is queued at the opposite one. -/
def Router.setThrough (r : Router) (p : Port) (entry : PortState) (queued : Option Handshake) :
    Router :=
  { r with
    ports := Function.update r.ports p entry
    outQueueHandshakes := Function.update r.outQueueHandshakes p.opp queued }

/-- A loop whose iterations each replace the entry of their own port, and then
decide from the entry of the opposite port what is queued there. -/
theorem forPorts_eq {f : Port → Router → Except AssertFailure Router} {r : Router}
    (entry : Port → PortState → Except AssertFailure PortState)
    (queued : Port → PortState → Option Handshake) (hempty : ∀ p, r.outQueueHandshakes p = none)
    (hstep : ∀ p s, s.powerState = r.powerState → s.outQueueHandshakes p.opp = none →
      f p s = entry p (s.ports p) >>= fun e =>
        pure (s.setThrough p e (queued p.opp (s.ports p.opp)))) :
    forPorts f r = (traversePorts fun p => entry p (r.ports p)) >>= fun entries =>
      pure { r with
        ports := entries
        outQueueHandshakes := fun p => queued p (if p.beforeOpp then entries p else r.ports p) } := by
  simp only [forPorts, traversePorts, bind_assoc, pure_bind]
  rw [hstep .east r rfl (hempty _), bind_assoc]
  refine bind_congr fun east => ?_
  rw [pure_bind, hstep .west, bind_assoc]
  · refine bind_congr fun west => ?_
    rw [pure_bind, hstep .south, bind_assoc]
    · refine bind_congr fun south => ?_
      rw [pure_bind, hstep .north]
      · refine bind_congr fun north => congrArg pure ?_
        simp only [Router.setThrough, Port.opp, Router.mk.injEq, true_and]
        constructor <;>
        · funext p
          cases p <;> rfl
      · rfl
      · exact hempty _
    · rfl
    · exact hempty _
  · rfl
  · exact hempty _

namespace Router

/-- Queue an announcement of the router's new state at each inner port, with
`src_state` set; `fill` sets what goes beyond that. -/
def announce (n : Node k) (fill : Port → Handshake → Handshake) (r : Router) :
    Except AssertFailure Router := do
  require (r.outQueueEmpty = true) .outQueueNotEmpty
  pure (r.queueHandshakes n.inner fun p h =>
    { fill p h with srcState := some r.powerState, id := n.val })

/-- Announce the state itself. -/
def announceState (n : Node k) (r : Router) : Except AssertFailure Router :=
  r.announce n fun _ h => { h with newState := some r.powerState }

/-- `power_on` to `draining` -/
def startDraining (n : Node k) (tags : Port → Bool) (r : Router) : Except AssertFailure Router :=
  ({ r.clearDrainTags with powerState := .draining, drainTimer := 0 }.setDrainTags tags).announceState n

/-- `draining` to `power_on` -/
def stopDraining (n : Node k) (r : Router) : Except AssertFailure Router :=
  { r.clearDrainTags with powerState := .powerOn, drainTimer := 0 }.announceState n

/-- `draining` to `power_off`: upstream routers are told what lies behind. -/
def powerDown (n : Node k) (r : Router) : Except AssertFailure Router :=
  { r.clearDrainTags with powerState := .powerOff, offTimer := 0, drainTimer := 0 }.announce n
    fun out h =>
      { h with
        newState := some (r.ports out.opp).downstreamState
        logicalNeighbor := (r.ports out.opp).logicalNeighbor }

/-- `power_off` to `wakeup` -/
def startWakeup (n : Node k) (tags : Port → Bool) (r : Router) : Except AssertFailure Router :=
  ({ r.clearDrainTags with
    powerState := .wakeup
    wakeupTimer := 0
    offTimer := 0 }.setDrainTags tags).announceState n

/-- `wakeup` to `power_on` -/
def finishWakeup (n : Node k) (r : Router) : Except AssertFailure Router :=
  { r.clearDrainTags with wakeupSignal := false, wakeupTimer := 0, powerState := .powerOn }.announce n
    fun _ h => { h with newState := some .powerOn, logicalNeighbor := n.val }

/-- Some downstream router is in this state. -/
def anyDownstream (state : PowerState) (r : Router) : Bool :=
  Port.any fun out => (r.ports out).downstreamState = state

/-- A downstream router with a higher priority drains. -/
def priorityDraining (r : Router) : Bool :=
  Port.any fun out => (r.ports out).downstreamState = .draining && out.higherPriority

/-- The directions in which all routers are off. -/
def downstreamOff (r : Router) (out : Port) : Bool := (r.ports out).downstreamState = .powerOff

/-- The `draining` case; `stop` is what makes the router give up. -/
def drainingEvaluate (cfg : Config k) (n : Node k) (d : Datapath) (stop : Bool) (r : Router) :
    Except AssertFailure Router :=
  let r := { r with drainTimer := r.drainTimer + 1 }
  let drainDone := r.allDrainTags && d.locallyDrained
  if r.wakeupSignal || stop then stopDraining n { r with wakeupSignal := false }
  else if drainDone then powerDown n r
  else if r.drainTimer > cfg.drainThreshold then stopDraining n r
  else pure r

/-- The guard of the `wakeup` case: everything is drained and there is nothing to
relay, which has precedence. -/
def readyToWake (cfg : Config k) (d : Datapath) (r : Router) : Bool :=
  r.allDrainTags && d.inQueueFlitsEmpty && r.wakeupTimer ≥ cfg.wakeupThreshold && r.outQueueEmpty

/-- The `wakeup` case. -/
def wakeupEvaluate (cfg : Config k) (n : Node k) (d : Datapath) (r : Router) :
    Except AssertFailure Router :=
  let r := { r with wakeupTimer := r.wakeupTimer + 1 }
  if r.readyToWake cfg d then finishWakeup n r else pure r

/-- The identifiers that `_HandshakeEvaluate` takes for a mesh neighbour's. -/
def adjacentTo (n : Node k) (id : Int) : Bool :=
  n.val - id = -1 || n.val - id = 1 || n.val - id = -k || n.val - id = k

theorem adjacentTo_neighbor {n : Node k} {p : Port} (hp : n.edge p = false) :
    adjacentTo n (n.neighbor p).val = true := by
  have hn := n.val_eq
  have hm := (n.neighbor p).val_eq
  have hdistance := Node.distance_pos hp
  have hx := n.x_lt
  have hy := n.y_lt
  rw [Node.neighbor_x, Node.neighbor_y] at hm
  simp only [adjacentTo, Bool.or_eq_true, decide_eq_true_eq]
  cases p <;> simp only [Node.neighborX, Node.neighborY, Node.distance] at hm hdistance
  · rw [if_neg (by omega)] at hm
    omega
  · rw [if_neg (by omega)] at hm
    omega
  · rw [if_neg (by omega), Nat.mul_add] at hm
    omega
  · rw [if_neg (by omega)] at hm
    have hrow : k * n.y = k * (n.y - 1) + k := by
      conv_lhs => rw [show n.y = (n.y - 1) + 1 by omega, Nat.mul_add, Nat.mul_one]
    omega

theorem not_adjacentTo_of_ahead {n m : Node k} {p : Port} (hp : n.edge p = false)
    (h : (n.neighbor p).Ahead m p) : adjacentTo n m.val = false := by
  have hn := n.val_eq
  have hm := m.val_eq
  have hdistance := Node.distance_pos hp
  have hx := n.x_lt
  have hmx := m.x_lt
  rw [← Bool.not_eq_true]
  simp only [adjacentTo, Bool.or_eq_true, decide_eq_true_eq]
  cases p <;> simp only [Node.Ahead, Node.neighbor_x, Node.neighbor_y, Node.neighborX,
    Node.neighborY, Node.distance] at h hdistance
  · rw [if_neg (by omega)] at h
    rw [h.1] at hm
    omega
  · rw [if_neg (by omega)] at h
    rw [h.1] at hm
    omega
  · rw [if_neg (by omega)] at h
    have hrow : k * (n.y + 2) ≤ k * m.y := Nat.mul_le_mul_left k h.2
    rw [Nat.mul_add] at hrow
    omega
  · rw [if_neg (by omega)] at h
    have hrow : k * (m.y + 2) ≤ k * n.y := Nat.mul_le_mul_left k (by omega)
    rw [Nat.mul_add] at hrow
    omega

/-- "update downstream state" -/
def updateStates (n : Node k) (e : PortState) (h : Handshake) : Except AssertFailure PortState :=
  match h.newState with
  | none => pure e
  | some new =>
      if adjacentTo n h.id then
        match h.srcState with
        | none => .error .sourceStateMissing
        | some src => pure { e with downstreamState := new, neighborState := src }
      else pure { e with downstreamState := new }

/-- "update downstream state" and "update logical neighbor" -/
def updateDownstream (n : Node k) (e : PortState) (h : Handshake) :
    Except AssertFailure PortState := do
  let e ← updateStates n e h
  pure
    (if 0 ≤ h.logicalNeighbor then { e with logicalNeighbor := h.logicalNeighbor }
    else if e.downstreamState = .powerOff then { e with logicalNeighbor := -1 }
    else e)

/-- The downstream router in this direction waits for an acknowledgement. -/
def waiting (r : Router) (out : Port) : Bool :=
  (r.ports out).downstreamState = .draining || (r.ports out).downstreamState = .wakeup

/-- What an off router passes on: the acknowledgement only if somebody waits for
it, and nothing if nothing is left. -/
def relayed (isWaiting : Bool) (h : Handshake) : Option Handshake :=
  let h := if !isWaiting && h.drainDone then { h with drainDone := false } else h
  if h.newState ≠ none ∨ h.srcState ≠ none ∨ h.drainDone = true then some h else none

/-- The downstream routers that wait for an answer of the data plane, and get it
now. -/
def answers (d : Datapath) (r : Router) (out : Port) : Bool :=
  r.waiting out && !(r.ports out).drainDoneSent && d.portDrained out

/-- `_HandshakeResponse` -/
def handshakeResponse (n : Node k) (d : Datapath) (r : Router) : Except AssertFailure Router := do
  require (∀ out ∈ Port.all, r.answers d out = true → ∀ h ∈ r.outQueueHandshakes out,
    h.newState = some r.powerState) .newStateMismatch
  pure (r.sendDrainDone n (r.answers d))

/-- `_InternalStep` as far as handshakes are concerned: a router that is off or
waking up takes the `_FlovStep` path. -/
def internalStep (n : Node k) (d : Datapath) (r : Router) : Except AssertFailure Router :=
  if r.powerState = .powerOff ∨ r.powerState = .wakeup then pure r
  else handshakeResponse n d r

end Router

end Flyover
