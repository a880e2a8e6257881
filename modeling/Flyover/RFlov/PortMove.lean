import Flyover.RFlov.Router

/-!
# A cycle of `RFLOVRouter`, seen from one port

An inner port sees a cycle in three parts: what is received there, the change
of the power state, and what is sent. The relations below say all that each part
can do to the port's entry, guards included; what holds between two neighbours
is derived from them and never from the functions.
-/

namespace Flyover.RFLOVRouter

variable {k : Nat}

/-- The neighbour's state after an announcement. -/
def hear (recorded : PowerState) (h : Handshake) : PowerState :=
  match h.newState with
  | some .powerOn => if recorded = .wakeup ∨ recorded = .draining then .powerOn else recorded
  | some s => s
  | none => recorded

/-- What one port asks of a draining router. -/
def YieldsAt (p : Port) (e : PortState) : Prop :=
  e.neighborState = .wakeup ∨
    p.higherPriority = true ∧ (e.neighborState = .draining ∨ e.neighborState = .powerOff)

/-- A handshake is received. -/
structure Received (e : PortState) (h : Handshake) (e' : PortState) : Prop where
  neighborState : e'.neighborState = hear e.neighborState h
  reqHid : e'.reqHid = e.reqHid
  respHid : e'.respHid = if h.drainDone then e.respHid else h.hid
  drainTag : e'.drainTag = true → e.drainTag = true ∨ h.drainDone = true ∧ h.hid = e.reqHid

/-- What comes in, if anything. -/
def Receives (e : PortState) : Option Handshake → PortState → Prop
  | none, e' => e' = e
  | some h, e' => Received e h e'

/-- The changes of the power state, with what each demands of an inner port. -/
inductive Transition (p : Port) : PowerState → PortState → PowerState → Prop where
  | startDraining {e} : e.neighborState = .powerOn → Transition p .powerOn e .draining
  | stopDraining {e} : Transition p .draining e .powerOn
  | powerOff {e} : e.drainTag = true → ¬ YieldsAt p e → Transition p .draining e .powerOff
  | startWakeup {e} : Transition p .powerOff e .wakeup
  | wakeUp {e} : Transition p .wakeup e .powerOn

/-- The announcement of a change under a new request id. -/
def announcement (n : Node k) (ps : PowerState) (e : PortState) : Handshake :=
  { newState := some ps, id := n.val, hid := e.reqHid + 1 }

/-- The power state machine, at an inner port. -/
inductive PowerMove (n : Node k) (p : Port) :
    PowerState → PortState → PowerState → PortState → Option Handshake → Prop where
  | stay {ps e e'} :
      (ps = .draining → ¬ YieldsAt p e) →
      e'.neighborState = e.neighborState → e'.reqHid = e.reqHid → e'.respHid = e.respHid →
      (e'.drainTag = true → e.drainTag = true) →
      PowerMove n p ps e ps e' none
  | change {ps e ps' e'} :
      Transition p ps e ps' →
      e'.neighborState = e.neighborState → e'.reqHid = e.reqHid + 1 →
      e'.respHid = e.respHid → e'.drainTag = false →
      PowerMove n p ps e ps' e' (some (announcement n ps' e))

/-- The answer, if one is due, joins what is queued. -/
inductive Responds (n : Node k) (ps : PowerState) (e : PortState) (queued : Option Handshake) :
    PortState → Option Handshake → Prop where
  | silent : Responds n ps e queued e queued
  | answer :
      ps = .powerOn ∨ ps = .draining →
      e.neighborState = .draining ∨ e.neighborState = .wakeup →
      Responds n ps e queued { e with drainDoneSent := true }
        (some { queued.getD {} with drainDone := true, id := n.val, hid := e.respHid })

/-- One cycle, seen from an inner port. -/
def PortMove (n : Node k) (p : Port) (ps : PowerState) (e : PortState) (rx : Option Handshake)
    (ps' : PowerState) (e' : PortState) (tx : Option Handshake) : Prop :=
  ∃ received moved queued, Receives e rx received ∧
    PowerMove n p ps received ps' moved queued ∧ Responds n ps' moved queued e' tx

theorem updateNeighborState_ok {e e' : PortState} {newState : Option PowerState}
    (h : updateNeighborState e newState = .ok e') :
    e'.neighborState = hear e.neighborState { newState := newState } ∧
      e'.reqHid = e.reqHid ∧ e'.respHid = e.respHid ∧ e'.drainTag = e.drainTag := by
  unfold updateNeighborState at h
  split at h
  next =>
    simp only [require_bind_ok, pure_ok] at h
    obtain ⟨-, -, rfl⟩ := h
    exact ⟨rfl, rfl, rfl, rfl⟩
  next =>
    split at h <;> obtain rfl := pure_ok.mp h
    next hwaiting => simp [hear, hwaiting]
    next hwaiting => simp [hear, hwaiting]
  all_goals
    obtain rfl := pure_ok.mp h
    exact ⟨rfl, rfl, rfl, rfl⟩

theorem processHandshake_ok {ps : PowerState} {e e' : PortState} {rx : Option Handshake}
    (hok : processHandshake ps e rx = .ok e') : Receives e rx e' := by
  cases rx with
  | none => exact (pure_ok.mp hok).symm
  | some h =>
      obtain ⟨updated, hupdate, hrequest⟩ := bind_ok.mp hok
      obtain ⟨hneighbor, hreq, hresp, htag⟩ := updateNeighborState_ok hupdate
      unfold updateRequest at hrequest
      split at hrequest
      next hdone =>
        rw [require_bind_ok, pure_ok] at hrequest
        obtain ⟨-, rfl⟩ := hrequest
        constructor
        · split <;> exact hneighbor
        · split <;> exact hreq
        · rw [if_pos hdone]
          split <;> exact hresp
        · split
          next hanswer => exact fun _ => .inr ⟨hdone, hreq ▸ hanswer.1⟩
          next => exact fun h => .inl (htag ▸ h)
      next hdone =>
        obtain rfl := pure_ok.mp hrequest
        exact ⟨hneighbor, hreq, (if_neg hdone).symm, fun h => .inl (htag ▸ h)⟩

theorem handshakeEvaluate_ok {r r' : Router} {rx : Port → Option Handshake}
    (hok : handshakeEvaluate r rx = .ok r') :
    (∀ p, Receives (r.ports p) (rx p) (r'.ports p)) ∧ r' = { r with ports := r'.ports } := by
  obtain ⟨ports, hports, hr'⟩ := bind_ok.mp hok
  obtain rfl := pure_ok.mp hr'
  exact ⟨fun p => processHandshake_ok (traversePorts_ok.mp hports p), rfl⟩

theorem announce_ok {n : Node k} {chosen : Port → Bool} {r r' : Router}
    (hok : announce n chosen r = .ok r') :
    r' = r.queueHandshakes chosen fun _ h =>
      { h with newState := some r.powerState, id := n.val } := by
  obtain ⟨-, hr'⟩ := require_bind_ok.mp hok
  exact (pure_ok.mp hr').symm

/-- Every change of state ends in an announcement. -/
theorem announce_powerMove {n : Node k} {p : Port} {chosen : Port → Bool} {ps : PowerState}
    {e : PortState} {r r' : Router} (hok : announce n chosen r = .ok r')
    (hchosen : chosen p = true) (hqueue : r.outQueueHandshakes p = none)
    (hentry : r.ports p = { e with drainTag := false }) (hchange : Transition p ps e r.powerState) :
    PowerMove n p ps e r'.powerState (r'.ports p) (r'.outQueueHandshakes p) := by
  obtain rfl := announce_ok hok
  have hqueued : (r.queueHandshakes chosen fun _ h =>
      { h with newState := some r.powerState, id := n.val }).outQueueHandshakes p =
      some (announcement n r.powerState e) := by
    simp [Router.queueHandshakes, hchosen, hqueue, hentry, announcement]
  rw [hqueued]
  apply PowerMove.change hchange <;> simp [Router.queueHandshakes, hchosen, hentry]

theorem neighborBusy_eq_false {n : Node k} {p : Port} {r : Router} (hp : n.edge p = false)
    (hbusy : neighborBusy n r = false) : (r.ports p).neighborState = .powerOn := by
  have hport := (Port.any_eq_false _).mp hbusy p
  cases h : (r.ports p).neighborState <;> simp_all

theorem mustYield_eq_false {n : Node k} {p : Port} {r : Router} (hp : n.edge p = false)
    (hyield : mustYield n r = false) : ¬ YieldsAt p (r.ports p) := by
  have hport := (Port.any_eq_false _).mp hyield p
  unfold YieldsAt
  cases h : (r.ports p).neighborState <;> simp_all

section PowerStateEvaluate

variable {cfg : Config k} {n : Node k} {p : Port} {d : Datapath} {r r' : Router}

theorem powerOnEvaluate_ok (hp : n.edge p = false) (hqueue : r.outQueueHandshakes p = none)
    (hstate : r.powerState = .powerOn) (hok : powerOnEvaluate n r = .ok r') :
    PowerMove n p .powerOn (r.ports p) r'.powerState (r'.ports p) (r'.outQueueHandshakes p) := by
  dsimp only [powerOnEvaluate] at hok
  split at hok
  next =>
    obtain rfl := pure_ok.mp hok
    exact hqueue ▸ hstate ▸ .stay (by simp [hstate]) rfl rfl rfl nofun
  next =>
    split at hok
    next hdrain =>
      simp only [Bool.and_eq_true, Bool.not_eq_true'] at hdrain
      apply announce_powerMove hok (by simp [Node.inner, hp]) hqueue
      · simp [Router.setDrainTags, Router.clearDrainTags, hp]
      · exact .startDraining (neighborBusy_eq_false (r := r.clearDrainTags) hp hdrain.2)
    next =>
      obtain rfl := pure_ok.mp hok
      exact hqueue ▸ hstate ▸ .stay (by simp [hstate]) rfl rfl rfl nofun

theorem drainingEvaluate_ok (hp : n.edge p = false) (hqueue : r.outQueueHandshakes p = none)
    (hstate : r.powerState = .draining) (hok : drainingEvaluate cfg n d r = .ok r') :
    PowerMove n p .draining (r.ports p) r'.powerState (r'.ports p)
      (r'.outQueueHandshakes p) := by
  dsimp only [drainingEvaluate] at hok
  split at hok
  next => exact announce_powerMove hok (by simp [Node.inner, hp]) hqueue rfl .stopDraining
  next =>
    split at hok
    next => exact announce_powerMove hok rfl hqueue rfl .stopDraining
    next hyield =>
      have hstay := mustYield_eq_false (r := r) hp (Bool.eq_false_iff.mpr hyield)
      split at hok
      next hdone =>
        apply announce_powerMove hok (by simp [Node.inner, hp]) hqueue rfl
        refine .powerOff ?_ hstay
        simp only [Bool.and_eq_true, Router.allDrainTags, List.all_eq_true] at hdone
        exact hdone.1 p (Port.mem_all p)
      next =>
        split at hok
        next => exact announce_powerMove hok (by simp [Node.inner, hp]) hqueue rfl .stopDraining
        next =>
          obtain rfl := pure_ok.mp hok
          exact hqueue ▸ hstate ▸ .stay (fun _ => hstay) rfl rfl rfl id

theorem powerOffEvaluate_ok (hp : n.edge p = false) (hqueue : r.outQueueHandshakes p = none)
    (hstate : r.powerState = .powerOff) (hok : powerOffEvaluate cfg n r = .ok r') :
    PowerMove n p .powerOff (r.ports p) r'.powerState (r'.ports p)
      (r'.outQueueHandshakes p) := by
  dsimp only [powerOffEvaluate] at hok
  split at hok
  next =>
    split at hok
    next =>
      apply announce_powerMove hok (by simp [Node.inner, hp]) hqueue
      · simp [Router.setDrainTags, Router.clearDrainTags, hp]
      · exact .startWakeup
    next =>
      obtain rfl := pure_ok.mp hok
      exact hqueue ▸ hstate ▸ .stay (by simp [hstate]) rfl rfl rfl nofun
  next =>
    obtain rfl := pure_ok.mp hok
    exact hqueue ▸ hstate ▸ .stay (by simp [hstate]) rfl rfl rfl nofun

theorem wakeupEvaluate_ok (hqueue : r.outQueueHandshakes p = none)
    (hstate : r.powerState = .wakeup) (hok : wakeupEvaluate cfg n d r = .ok r') :
    PowerMove n p .wakeup (r.ports p) r'.powerState (r'.ports p)
      (r'.outQueueHandshakes p) := by
  dsimp only [wakeupEvaluate] at hok
  split at hok
  next => exact announce_powerMove hok rfl hqueue rfl .wakeUp
  next =>
    obtain rfl := pure_ok.mp hok
    exact hqueue ▸ hstate ▸ .stay (by simp [hstate]) rfl rfl rfl id

theorem powerStateEvaluate_ok (hp : n.edge p = false) (hqueue : r.outQueueHandshakes p = none)
    (hok : powerStateEvaluate cfg n d r = .ok r') :
    PowerMove n p r.powerState (r.ports p) r'.powerState (r'.ports p)
      (r'.outQueueHandshakes p) := by
  obtain ⟨-, hok⟩ := require_bind_ok.mp hok
  cases hstate : r.powerState <;> rw [hstate] at hok
  case powerOn => exact powerOnEvaluate_ok hp hqueue hstate hok
  case draining => exact drainingEvaluate_ok hp hqueue hstate hok
  case powerOff => exact powerOffEvaluate_ok hp hqueue hstate hok
  case wakeup => exact wakeupEvaluate_ok hqueue hstate hok

end PowerStateEvaluate

@[simp] theorem internalStep_powerState (n : Node k) (d : Datapath) (r : Router) :
    (internalStep n d r).powerState = r.powerState := by
  unfold internalStep
  split <;> rfl

theorem internalStep_responds (n : Node k) (p : Port) (d : Datapath) (r : Router) :
    Responds n r.powerState (r.ports p) (r.outQueueHandshakes p)
      ((internalStep n d r).ports p) ((internalStep n d r).outQueueHandshakes p) := by
  unfold internalStep
  split
  next => exact .silent
  next hon =>
    simp only [handshakeResponse, Router.sendDrainDone]
    split
    next hanswer =>
      simp only [Bool.and_eq_true, Bool.or_eq_true, decide_eq_true_eq] at hanswer
      refine .answer ?_ hanswer.1.1
      cases hstate : r.powerState <;> simp_all
    next => exact .silent

/-- A cycle starts and ends with no handshake queued inside the router. -/
theorem cycle_outQueue {cfg : Config k} {n : Node k} {r r' : Router} {inp : Inputs}
    {rx tx : Port → Option Handshake} (hok : cycle cfg n r inp rx = .ok (r', tx)) (p : Port) :
    r'.outQueueHandshakes p = none := by
  simp only [cycle, bind_ok] at hok
  obtain ⟨_, _, _, _, hend⟩ := hok
  obtain ⟨rfl, -⟩ := Router.outputQueuing_ok hend
  rfl

theorem cycle_portMove {cfg : Config k} {n : Node k} {r r' : Router} {inp : Inputs}
    {rx tx : Port → Option Handshake} (hqueue : ∀ p, r.outQueueHandshakes p = none)
    (hok : cycle cfg n r inp rx = .ok (r', tx)) {p : Port} (hp : n.edge p = false) :
    PortMove n p r.powerState (r.ports p) (rx p) r'.powerState (r'.ports p) (tx p) := by
  simp only [cycle, bind_ok] at hok
  obtain ⟨heard, hheard, moved, hmoved, hend⟩ := hok
  obtain ⟨rfl, rfl⟩ := Router.outputQueuing_ok hend
  obtain ⟨hreceives, hkept⟩ := handshakeEvaluate_ok hheard
  have hstate : heard.powerState = r.powerState := by rw [hkept]; simp
  refine ⟨heard.ports p, moved.ports p, moved.outQueueHandshakes p, ?_, ?_, ?_⟩
  · simpa using hreceives p
  · rw [← hstate]
    have hnone : heard.outQueueHandshakes p = none := by
      rw [hkept]
      simpa using hqueue p
    simpa using powerStateEvaluate_ok hp hnone hmoved
  · simpa using internalStep_responds n p inp.datapath moved

end Flyover.RFLOVRouter
