import Flyover.RFlov.Soundness
import Flyover.Timeline

/-!
# A router that is wanted comes on and stays on

A waking router waits for its timer and for the answers of its neighbours. By
`Obliged` no request is lost, so once the request has arrived a neighbour whose
data plane drains answers it, and once the answer has arrived the tag is set for
good. A sleeping router that is wanted begins to wake when its timer is up, a
drain ends one way or the other, and a router that is on and wanted stays on.
-/

namespace Flyover.RFLOVRouter

variable {k : Nat}

/-- The runs of a network of `RFLOVRouter`s. -/
abbrev Execution (cfg : Config k) : Type :=
  Net.Execution (cycle cfg) cfg.latency Admissible (start k)

theorem Execution.reachable {cfg : Config k} (run : Execution cfg) (t : Nat) :
    Reachable cfg (run.net t) :=
  Net.Execution.reachable run t

/-- Every schedule has a run. -/
theorem exists_execution (cfg : Config k) (inputs : Nat → Node k → Inputs)
    (hadmissible : ∀ t n, Admissible n (inputs t n)) :
    ∃ run : Execution cfg, run.inputs = inputs := by
  choose next hnext using fun (t : Nat) (net : { net : Net k Router // Reachable cfg net }) =>
    net.2.exists_next (inputs t)
  let nets : Nat → { net : Net k Router // Reachable cfg net } := fun t =>
    Nat.rec ⟨start k, .initial⟩
      (fun t net => ⟨next t net, .step (inputs t) net.2 (hadmissible t) (hnext t net)⟩) t
  exact ⟨{
    net := fun t => (nets t).1
    inputs := inputs
    net_zero := rfl
    admissible := hadmissible
    step := fun t => hnext t (nets t) }, rfl⟩

/-! ### One cycle of a router that is wanted -/

section Cycle

variable {cfg : Config k} {n : Node k} {r r' : Router} {inp : Inputs}
  {rx tx : Port → Option Handshake}

/-- A router after `_HandshakeEvaluate`. -/
def received (r : Router) (inp : Inputs) (rx : Port → Option Handshake) : Router :=
  { r.setInputs inp with ports := fun p => heardEntry r.powerState (r.ports p) (rx p) }

/-- A cycle, without the assertions. -/
theorem cycle_parts (hok : cycle cfg n r inp rx = .ok (r', tx)) :
    ∃ moved, powerStateEvaluate cfg n inp.datapath (received r inp rx) = .ok moved ∧
      r' = { internalStep n inp.datapath moved with outQueueHandshakes := fun _ => none } ∧
      tx = (internalStep n inp.datapath moved).outQueueHandshakes := by
  simp only [cycle, bind_ok] at hok
  obtain ⟨heard, hheard, moved, hmoved, hend⟩ := hok
  obtain ⟨ports, hports, hkept⟩ := bind_ok.mp hheard
  obtain rfl := pure_ok.mp hkept
  have hentries : ports = fun p => heardEntry r.powerState (r.ports p) (rx p) := by
    funext p
    have hentry := processHandshake_heardEntry (traversePorts_ok.mp hports p)
    simpa using hentry
  obtain ⟨hr', htx⟩ := Router.outputQueuing_ok hend
  rw [hentries] at hmoved
  exact ⟨moved, hmoved, hr', htx⟩

theorem internalStep_timers (d : Datapath) :
    (internalStep n d r).drainTimer = r.drainTimer ∧ (internalStep n d r).offTimer = r.offTimer := by
  unfold internalStep
  split <;> exact ⟨rfl, rfl⟩

theorem announce_powerState {chosen : Port → Bool} (hok : announce n chosen r = .ok r') :
    r'.powerState = r.powerState := by
  rw [announce_ok hok, Router.queueHandshakes]

theorem setInputs_wakeupTimer : (r.setInputs inp).wakeupTimer = r.wakeupTimer := by
  unfold Router.setInputs Router.idleDetected
  split <;> rfl

/-- What a waking router waits for. -/
def WakesNow (cfg : Config k) (r : Router) (inp : Inputs) (rx : Port → Option Handshake) : Prop :=
  (∀ p, (heardEntry r.powerState (r.ports p) (rx p)).drainTag = true) ∧
    inp.datapath.inQueueFlitsEmpty = true ∧ cfg.wakeupThreshold ≤ r.wakeupTimer + 1

/-- A waking router comes on, or waits and tells nobody anything. -/
theorem cycle_waking (hwaking : r.powerState = .wakeup) (hqueue : ∀ p, r.outQueueHandshakes p = none)
    (hok : cycle cfg n r inp rx = .ok (r', tx)) :
    r'.powerState = .powerOn ∨
      ¬ WakesNow cfg r inp rx ∧ r'.powerState = .wakeup ∧ r'.wakeupTimer = r.wakeupTimer + 1 ∧
        (∀ p, r'.ports p = heardEntry r.powerState (r.ports p) (rx p)) ∧ ∀ p, tx p = none := by
  obtain ⟨moved, hmoved, rfl, rfl⟩ := cycle_parts hok
  have hstate : (received r inp rx).powerState = .wakeup := by simp [received, hwaking]
  obtain ⟨-, hmoved⟩ := require_bind_ok.mp hmoved
  rw [hstate] at hmoved
  dsimp only [wakeupEvaluate] at hmoved
  split at hmoved
  next =>
    left
    rw [internalStep_powerState, announce_powerState hmoved]
  next hnot =>
    right
    obtain rfl := pure_ok.mp hmoved
    have hkept (d : Datapath) :
        internalStep n d { received r inp rx with wakeupTimer := (received r inp rx).wakeupTimer + 1 } =
          { received r inp rx with wakeupTimer := (received r inp rx).wakeupTimer + 1 } :=
      if_pos (.inr hstate)
    rw [hkept]
    refine ⟨fun ⟨htags, hempty, htimer⟩ => hnot ?_, hstate, ?_, fun _ => rfl, fun p => ?_⟩
    · have hall : (received r inp rx).allDrainTags = true := by
        simpa [Router.allDrainTags, received] using fun p => htags p
      have htimer' : (received r inp rx).wakeupTimer = r.wakeupTimer := setInputs_wakeupTimer
      simpa [hall, hempty, htimer'] using htimer
    · exact congrArg (· + 1) setInputs_wakeupTimer
    · simp [received, hqueue p]

/-- A router that is on and wanted stays on. -/
theorem cycle_wanted_on (hon : r.powerState = .powerOn) (hwanted : inp.routerState = true)
    (hok : cycle cfg n r inp rx = .ok (r', tx)) : r'.powerState = .powerOn := by
  obtain ⟨moved, hmoved, rfl, -⟩ := cycle_parts hok
  rw [internalStep_powerState]
  exact powerStateEvaluate_bottomRow (by simp [received, hon]) hwanted hmoved

/-- A router that sleeps and is wanted counts, or begins to wake. -/
theorem cycle_wanted_off (hoff : r.powerState = .powerOff) (hwanted : inp.routerState = true)
    (hok : cycle cfg n r inp rx = .ok (r', tx)) :
    r'.powerState = .wakeup ∨ r'.powerState = .powerOff ∧ r.offTimer + 1 ≤ r'.offTimer ∧
      r'.offTimer < cfg.betThreshold := by
  obtain ⟨moved, hmoved, rfl, -⟩ := cycle_parts hok
  have hstate : (received r inp rx).powerState = .powerOff := by simp [received, hoff]
  have htimer : r.offTimer ≤ (received r inp rx).offTimer := by
    simp only [received, Router.setInputs, Router.idleDetected]
    split <;> simp
  obtain ⟨-, hmoved⟩ := require_bind_ok.mp hmoved
  rw [hstate] at hmoved
  have hcleared : (received r inp rx).clearDrainTags.routerState = true := hwanted
  dsimp only [powerOffEvaluate] at hmoved
  rw [if_pos hcleared] at hmoved
  rw [internalStep_powerState]
  split at hmoved
  next => exact .inl (announce_powerState hmoved)
  next hcounting =>
    right
    obtain rfl := pure_ok.mp hmoved
    rw [(internalStep_timers _).2]
    exact ⟨hstate, Int.add_le_add_right htimer 1, Int.not_le.mp hcounting⟩

/-- A drain ends, or goes on. -/
theorem cycle_draining (hdraining : r.powerState = .draining)
    (hok : cycle cfg n r inp rx = .ok (r', tx)) :
    r'.powerState = .powerOn ∨ r'.powerState = .powerOff ∨
      r'.powerState = .draining ∧ r.drainTimer + 1 ≤ r'.drainTimer ∧
        r'.drainTimer ≤ cfg.drainThreshold := by
  obtain ⟨moved, hmoved, rfl, -⟩ := cycle_parts hok
  have hstate : (received r inp rx).powerState = .draining := by simp [received, hdraining]
  have htimer : r.drainTimer ≤ (received r inp rx).drainTimer := by
    simp only [received, Router.setInputs, Router.idleDetected]
    split
    · simp [hdraining]
    · simp
  obtain ⟨-, hmoved⟩ := require_bind_ok.mp hmoved
  rw [hstate] at hmoved
  rw [internalStep_powerState]
  dsimp only [drainingEvaluate] at hmoved
  split at hmoved
  next => exact .inl (announce_powerState hmoved)
  next =>
    split at hmoved
    next => exact .inl (announce_powerState hmoved)
    next =>
      split at hmoved
      next => exact .inr (.inl (announce_powerState hmoved))
      next =>
        split at hmoved
        next => exact .inl (announce_powerState hmoved)
        next hcounting =>
          obtain rfl := pure_ok.mp hmoved
          rw [(internalStep_timers _).1]
          exact .inr (.inr ⟨hstate, Int.add_le_add_right htimer 1, Int.not_lt.mp hcounting⟩)

/-- A router that is awake answers who asks, once its data plane is drained. -/
theorem cycle_answers {p : Port} (hawake : r'.powerState = .powerOn ∨ r'.powerState = .draining)
    (hasked : (r'.ports p).neighborState = .draining ∨ (r'.ports p).neighborState = .wakeup)
    (hdrained : inp.datapath.portDrained p = true) (hok : cycle cfg n r inp rx = .ok (r', tx)) :
    (r'.ports p).drainDoneSent = true := by
  obtain ⟨moved, -, rfl, -⟩ := cycle_parts hok
  rw [internalStep_powerState] at hawake
  have hgated : ¬ (moved.powerState = .powerOff ∨ moved.powerState = .wakeup) := by
    rcases hawake with h | h <;> simp [h]
  simp only [internalStep, if_neg hgated, handshakeResponse, Router.sendDrainDone] at hasked ⊢
  split
  next => rfl
  next hchosen =>
    rw [if_neg hchosen] at hasked
    simpa [hasked, hdrained] using hchosen

/-! ### The boundary of a waking router -/

theorem heardEntry_reqHid (ps : PowerState) (e : PortState) (m : Option Handshake) :
    (heardEntry ps e m).reqHid = e.reqHid := by
  cases m <;> rfl

theorem heardEntry_drainTag {ps : PowerState} {e : PortState} {m : Option Handshake}
    (htag : e.drainTag = true) : (heardEntry ps e m).drainTag = true := by
  cases m with
  | none => exact htag
  | some m => simp [heardEntry, processed, htag]

/-- Nobody is waited for at the boundary. -/
def EdgeTagged (n : Node k) (r : Router) : Prop :=
  r.powerState = .wakeup → ∀ p, n.edge p = true → (r.ports p).drainTag = true

theorem powerStateEvaluate_edgeTagged {d : Datapath} (htagged : EdgeTagged n r)
    (hok : powerStateEvaluate cfg n d r = .ok r') : EdgeTagged n r' := by
  have hother (hne : r'.powerState ≠ .wakeup) : EdgeTagged n r' := fun h => absurd h hne
  obtain ⟨-, hok⟩ := require_bind_ok.mp hok
  cases hstate : r.powerState <;> rw [hstate] at hok
  case powerOn =>
    dsimp only [powerOnEvaluate] at hok
    split at hok
    next =>
      obtain rfl := pure_ok.mp hok
      exact hother (by simp [Router.clearDrainTags, hstate])
    next =>
      split at hok
      next => exact hother (by simp [announce_powerState hok, Router.setDrainTags])
      next =>
        obtain rfl := pure_ok.mp hok
        exact hother (by simp [Router.clearDrainTags, hstate])
  case draining =>
    dsimp only [drainingEvaluate] at hok
    split at hok
    next => exact hother (by simp [announce_powerState hok])
    next =>
      split at hok
      next => exact hother (by simp [announce_powerState hok])
      next =>
        split at hok
        next => exact hother (by simp [announce_powerState hok])
        next =>
          split at hok
          next => exact hother (by simp [announce_powerState hok])
          next =>
            obtain rfl := pure_ok.mp hok
            exact hother (by simp [hstate])
  case powerOff =>
    dsimp only [powerOffEvaluate] at hok
    split at hok
    next =>
      split at hok
      next =>
        intro _ p hp
        obtain rfl := announce_ok hok
        simp [Router.queueHandshakes, Router.setDrainTags, Node.inner, hp]
      next =>
        obtain rfl := pure_ok.mp hok
        exact hother (by simp [Router.clearDrainTags, hstate])
    next =>
      obtain rfl := pure_ok.mp hok
      exact hother (by simp [Router.clearDrainTags, hstate])
  case wakeup =>
    dsimp only [wakeupEvaluate] at hok
    split at hok
    next => exact hother (by simp [announce_powerState hok])
    next =>
      obtain rfl := pure_ok.mp hok
      exact fun _ => htagged hstate

theorem cycle_edgeTagged (htagged : EdgeTagged n r) (hok : cycle cfg n r inp rx = .ok (r', tx)) :
    EdgeTagged n r' := by
  obtain ⟨moved, hmoved, rfl, -⟩ := cycle_parts hok
  have hreceived : EdgeTagged n (received r inp rx) := by
    intro hwaking p hp
    exact heardEntry_drainTag (htagged (by simpa [received] using hwaking) p hp)
  intro hwaking
  rw [internalStep_powerState] at hwaking
  have hkept : internalStep n inp.datapath moved = moved := if_pos (.inr hwaking)
  have hmovedTagged := powerStateEvaluate_edgeTagged hreceived hmoved hwaking
  rwa [hkept]

end Cycle

theorem Reachable.edgeTagged {cfg : Config k} {net : Net k Router} (hreach : Reachable cfg net)
    (n : Node k) : EdgeTagged n (net.router n) := by
  induction hreach with
  | initial => exact fun h => by simp [start, Router.initial] at h
  | step inputs _ _ hok ih =>
      obtain ⟨tx, hcycle, -⟩ := Net.step_ok hok
      exact cycle_edgeTagged ih (hcycle n)

/-! ### The end of a wakeup -/

/-- A counter that goes up in every cycle passes every bound. -/
theorem exists_passes (counter : Nat → Int) {t : Nat} (bound : Int)
    (hcounts : ∀ u ≥ t, counter u + 1 ≤ counter (u + 1)) : ∃ u ≥ t, bound < counter u := by
  have hgrows : ∀ i : Nat, counter t + i ≤ counter (t + i) := by
    intro i
    induction i with
    | zero => simp
    | succ i ih =>
        have hnext := hcounts (t + i) (Nat.le_add_right t i)
        rw [← Nat.add_assoc]
        push_cast
        omega
  refine ⟨t + (bound - counter t + 1).toNat, Nat.le_add_right _ _, ?_⟩
  have hlast := hgrows (bound - counter t + 1).toNat
  omega

/-- The data planes that a waking router waits for drain again and again: its own
input queue, and at each neighbour what is meant for the router. -/
structure DrainsAgain {cfg : Config k} (run : Execution cfg) (n : Node k) : Prop where
  inQueueFlitsEmpty : ∀ t, ∃ u ≥ t, (run.inputs u n).datapath.inQueueFlitsEmpty = true
  portDrained : ∀ p, n.edge p = false → ∀ t, ∃ u ≥ t,
    (run.inputs u (n.neighbor p)).datapath.portDrained p.opp = true

section Waking

variable {cfg : Config k} {run : Execution cfg} {n : Node k} {t : Nat}

/-- A router that never comes on goes on waking up. -/
theorem waking_forever (hwaking : ((run.net t).router n).powerState = .wakeup)
    (hnever : ∀ u > t, ((run.net u).router n).powerState ≠ .powerOn) :
    ∀ u ≥ t, ((run.net u).router n).powerState = .wakeup := by
  intro u hu
  induction u, hu using Nat.le_induction with
  | base => exact hwaking
  | succ u hu ih =>
      obtain ⟨tx, hcycle, -⟩ := Net.step_ok (run.step u)
      have hqueue := ((run.reachable u).boundary.node n).1
      rcases cycle_waking ih hqueue (hcycle n) with hon | ⟨-, hstill, -⟩
      · exact absurd hon (hnever (u + 1) (by omega))
      · exact hstill

/-- What a router does while it goes on waking up. -/
theorem waking_step (hwaking : ∀ u ≥ t, ((run.net u).router n).powerState = .wakeup)
    {sent : Port → Option Handshake} {u : Nat} (hu : t ≤ u)
    (hcycle : cycle cfg n ((run.net u).router n) (run.inputs u n) ((run.net u).received n) =
      .ok ((run.net (u + 1)).router n, sent)) :
    ¬ WakesNow cfg ((run.net u).router n) (run.inputs u n) ((run.net u).received n) ∧
      ((run.net (u + 1)).router n).wakeupTimer = ((run.net u).router n).wakeupTimer + 1 ∧
      (∀ p, ((run.net (u + 1)).router n).ports p =
        heardEntry .wakeup (((run.net u).router n).ports p) ((run.net u).received n p)) ∧
      ∀ p, sent p = none := by
  have hqueue := ((run.reachable u).boundary.node n).1
  rcases cycle_waking (hwaking u hu) hqueue hcycle with hon | ⟨hwaits, -, htimer, hports, hsent⟩
  · exact absurd (hwaking (u + 1) (by omega)) (by simp [hon])
  · rw [hwaking u hu] at hports
    exact ⟨hwaits, htimer, hports, hsent⟩

/-- The tag of an inner port is set for good. -/
theorem waking_tagged (hlatency : 0 < cfg.latency)
    (hwaking : ∀ u ≥ t, ((run.net u).router n).powerState = .wakeup) {p : Port}
    (hp : n.edge p = false)
    (hdrains : ∀ t, ∃ u ≥ t, (run.inputs u (n.neighbor p)).datapath.portDrained p.opp = true) :
    ∃ u, ∀ v ≥ u, (((run.net v).router n).ports p).drainTag = true := by
  obtain ⟨sent, hcycle, harrives⟩ := run.exists_sent hlatency rfl (fun _ _ => rfl) (fun _ _ => rfl)
  have hstep (u : Nat) (hu : t ≤ u) := waking_step hwaking hu (hcycle u n)
  have hkept : ∀ u ≥ t, (((run.net u).router n).ports p).drainTag = true →
      ∀ v ≥ u, (((run.net v).router n).ports p).drainTag = true := by
    intro u hu htag v hv
    induction v, hv using Nat.le_induction with
    | base => exact htag
    | succ v hv ih =>
        rw [(hstep v (by omega)).2.2.1 p]
        exact heardEntry_drainTag ih
  -- at `u` the request has arrived, and the neighbour answers
  obtain ⟨u, hu, hdrained⟩ := hdrains (t + (cfg.latency + 1))
  have hempty : (run.net (u + 1)).inFlight (n.neighbor p) p.opp = [] := by
    rw [(harrives (u + 1) _ _).2, List.filterMap_eq_nil_iff]
    intro i hi
    have hi' := List.mem_range.mp hi
    have hback : (Net.wiring k).peer (n.neighbor p) p.opp = (n, p) := by
      rw [Net.wiring_peer, n.neighbor_neighbor, Port.opp_opp]
    rw [Lockstep.arriving, if_neg (by omega), hback]
    exact (hstep _ (by omega)).2.2.2 p
  by_cases htag : (((run.net (u + 1)).router n).ports p).drainTag = true
  · exact ⟨u + 1, hkept (u + 1) (by omega) htag⟩
  have hstate := hwaking (u + 1) (by omega)
  have hreach := run.reachable (u + 1)
  have hnotOn : ((run.net (u + 1)).router n).powerState ≠ .powerOn := by simp [hstate]
  obtain ⟨-, hout, -⟩ := hreach.obligations n p hp
  cases hout.pending (.inr hstate) (Bool.not_eq_true _ ▸ htag) with
  | @asked before after m hsplit _ _ _ _ =>
      have hqueue : (run.net (u + 1)).inFlight (n.neighbor p) p.opp = before ++ m :: after := hsplit
      simp [hempty] at hqueue
  | heard _ hknown _ hsent =>
      have hanswered := cycle_answers (neighbor_awake hreach hp hnotOn) (.inr (hknown.trans hstate))
        hdrained (hcycle u (n.neighbor p))
      exact absurd (hsent.symm.trans hanswered) Bool.false_ne_true
  | @answered m hm hdone hhid =>
      -- the answer arrives, and finds the same request id
      change m ∈ (run.net (u + 1)).inFlight n p at hm
      rw [(harrives (u + 1) n p).2, List.mem_filterMap] at hm
      obtain ⟨i, -, hreceived⟩ := hm
      rw [← (harrives _ n p).1] at hreceived
      have hreq : (((run.net (u + 1 + i)).router n).ports p).reqHid =
          (((run.net (u + 1)).router n).ports p).reqHid := by
        clear hreceived
        induction i with
        | zero => rfl
        | succ i ih =>
            rw [← ih, ← Nat.add_assoc, (hstep _ (by omega)).2.2.1 p, heardEntry_reqHid]
      refine ⟨u + 1 + i + 1, hkept _ (by omega) ?_⟩
      change m.hid = (((run.net (u + 1)).router n).ports p).reqHid at hhid
      rw [(hstep (u + 1 + i) (by omega)).2.2.1 p, hreceived]
      simp [heardEntry, processed, hdone, hhid, hreq]

/-- A waking router comes on. -/
theorem wakeup_ends (hlatency : 0 < cfg.latency) (hdrains : DrainsAgain run n)
    (hwaking : ((run.net t).router n).powerState = .wakeup) :
    ∃ u > t, ((run.net u).router n).powerState = .powerOn := by
  by_contra hnever
  have hforever := waking_forever hwaking fun u hu hon => hnever ⟨u, hu, hon⟩
  have htags : ∃ u, ∀ p, ∀ v ≥ u, v ≥ t → (((run.net v).router n).ports p).drainTag = true := by
    have hport : ∀ p, ∃ u, ∀ v ≥ u, v ≥ t → (((run.net v).router n).ports p).drainTag = true := by
      intro p
      cases hp : n.edge p with
      | true => exact ⟨t, fun v _ hv => (run.reachable v).edgeTagged n (hforever v hv) p hp⟩
      | false =>
          obtain ⟨u, hu⟩ := waking_tagged hlatency hforever hp (hdrains.portDrained p hp)
          exact ⟨u, fun v hv _ => hu v hv⟩
    choose last hlast using hport
    refine ⟨last .east + last .west + last .south + last .north, fun p v hv => hlast p v ?_⟩
    cases p <;> omega
  obtain ⟨tagged, htagged⟩ := htags
  have hstep (u : Nat) (hu : t ≤ u) :
      ¬ WakesNow cfg ((run.net u).router n) (run.inputs u n) ((run.net u).received n) ∧
        ((run.net (u + 1)).router n).wakeupTimer = ((run.net u).router n).wakeupTimer + 1 := by
    obtain ⟨tx, hcycle, -⟩ := Net.step_ok (run.step u)
    obtain ⟨hwaits, htimer, -⟩ := waking_step hforever hu (hcycle n)
    exact ⟨hwaits, htimer⟩
  obtain ⟨due, hdue, htimer⟩ := exists_passes (fun u => ((run.net u).router n).wakeupTimer)
    cfg.wakeupThreshold fun u (hu : t ≤ u) => le_of_eq (hstep u hu).2.symm
  have hlater : ∀ u ≥ due, cfg.wakeupThreshold ≤ ((run.net u).router n).wakeupTimer := by
    intro u hu
    induction u, hu using Nat.le_induction with
    | base => exact htimer.le
    | succ u hu ih =>
        rw [(hstep u (by omega)).2]
        exact Int.le_add_one ih
  obtain ⟨u, hu, hempty⟩ := hdrains.inQueueFlitsEmpty (due + tagged)
  refine (hstep u (by omega)).1 ⟨fun p => ?_, hempty, Int.le_add_one (hlater u (by omega))⟩
  exact heardEntry_drainTag (htagged p u (by omega) (by omega))

end Waking

/-! ### From any state -/

section Wanted

variable {cfg : Config k} {run : Execution cfg} {n : Node k} {t : Nat}

/-- A router that is on and wanted from then on stays on. -/
theorem stays_on (hwanted : ∀ u ≥ t, (run.inputs u n).routerState = true)
    (hon : ((run.net t).router n).powerState = .powerOn) :
    ∀ u ≥ t, ((run.net u).router n).powerState = .powerOn := by
  intro u hu
  induction u, hu using Nat.le_induction with
  | base => exact hon
  | succ u hu ih =>
      obtain ⟨tx, hcycle, -⟩ := Net.step_ok (run.step u)
      exact cycle_wanted_on ih (hwanted u hu) (hcycle n)

/-- A sleeping router that is wanted wakes up. -/
theorem sleep_ends (hwanted : ∀ u ≥ t, (run.inputs u n).routerState = true)
    (hoff : ((run.net t).router n).powerState = .powerOff) :
    ∃ u ≥ t, ((run.net u).router n).powerState = .wakeup := by
  by_contra hnever
  have hforever : ∀ u ≥ t, ((run.net u).router n).powerState = .powerOff := by
    intro u hu
    induction u, hu using Nat.le_induction with
    | base => exact hoff
    | succ u hu ih =>
        obtain ⟨tx, hcycle, -⟩ := Net.step_ok (run.step u)
        rcases cycle_wanted_off ih (hwanted u hu) (hcycle n) with hwaking | ⟨hstill, -⟩
        · exact absurd ⟨u + 1, by omega, hwaking⟩ hnever
        · exact hstill
  have hcounts : ∀ u ≥ t, ((run.net u).router n).offTimer + 1 ≤ ((run.net (u + 1)).router n).offTimer ∧
      ((run.net (u + 1)).router n).offTimer < cfg.betThreshold := by
    intro u hu
    obtain ⟨tx, hcycle, -⟩ := Net.step_ok (run.step u)
    rcases cycle_wanted_off (hforever u hu) (hwanted u hu) (hcycle n) with hwaking | ⟨-, hcounts⟩
    · exact absurd ⟨u + 1, by omega, hwaking⟩ hnever
    · exact hcounts
  obtain ⟨u, hu, hpasses⟩ := exists_passes (fun u => ((run.net u).router n).offTimer)
    cfg.betThreshold fun u hu => (hcounts u hu).1
  have hnext := hcounts u hu
  omega

/-- A drain ends. -/
theorem drain_ends (hdraining : ((run.net t).router n).powerState = .draining) :
    ∃ u ≥ t, ((run.net u).router n).powerState = .powerOn ∨
      ((run.net u).router n).powerState = .powerOff := by
  by_contra hnever
  have hforever : ∀ u ≥ t, ((run.net u).router n).powerState = .draining := by
    intro u hu
    induction u, hu using Nat.le_induction with
    | base => exact hdraining
    | succ u hu ih =>
        obtain ⟨tx, hcycle, -⟩ := Net.step_ok (run.step u)
        rcases cycle_draining ih (hcycle n) with hon | hoff | ⟨hstill, -⟩
        · exact absurd ⟨u + 1, by omega, .inl hon⟩ hnever
        · exact absurd ⟨u + 1, by omega, .inr hoff⟩ hnever
        · exact hstill
  have hcounts : ∀ u ≥ t,
      ((run.net u).router n).drainTimer + 1 ≤ ((run.net (u + 1)).router n).drainTimer ∧
        ((run.net (u + 1)).router n).drainTimer ≤ cfg.drainThreshold := by
    intro u hu
    obtain ⟨tx, hcycle, -⟩ := Net.step_ok (run.step u)
    rcases cycle_draining (hforever u hu) (hcycle n) with hon | hoff | ⟨-, hcounts⟩
    · exact absurd ⟨u + 1, by omega, .inl hon⟩ hnever
    · exact absurd ⟨u + 1, by omega, .inr hoff⟩ hnever
    · exact hcounts
  obtain ⟨u, hu, hpasses⟩ := exists_passes (fun u => ((run.net u).router n).drainTimer)
    cfg.drainThreshold fun u hu => (hcounts u hu).1
  have hnext := hcounts u hu
  omega

/-- A router that is wanted from some time on is on from some time on, whatever state
it is in and whatever the other routers are asked to do. -/
theorem wanted_settles_on (hlatency : 0 < cfg.latency) (hdrains : DrainsAgain run n)
    (hwanted : ∀ u ≥ t, (run.inputs u n).routerState = true) :
    ∃ u, ∀ v ≥ u, ((run.net v).router n).powerState = .powerOn := by
  have hlater {u : Nat} (hu : t ≤ u) : ∀ v ≥ u, (run.inputs v n).routerState = true :=
    fun v hv => hwanted v (hu.trans hv)
  have hwaking {u : Nat} (hu : t ≤ u) (h : ((run.net u).router n).powerState = .wakeup) :
      ∃ v ≥ t, ((run.net v).router n).powerState = .powerOn := by
    obtain ⟨v, hv, hon⟩ := wakeup_ends hlatency hdrains h
    exact ⟨v, by omega, hon⟩
  have hoff {u : Nat} (hu : t ≤ u) (h : ((run.net u).router n).powerState = .powerOff) :
      ∃ v ≥ t, ((run.net v).router n).powerState = .powerOn := by
    obtain ⟨v, hv, hwakes⟩ := sleep_ends (hlater hu) h
    exact hwaking (hu.trans hv) hwakes
  have hon : ∃ u ≥ t, ((run.net u).router n).powerState = .powerOn := by
    cases hstate : ((run.net t).router n).powerState with
    | powerOn => exact ⟨t, le_rfl, hstate⟩
    | powerOff => exact hoff le_rfl hstate
    | wakeup => exact hwaking le_rfl hstate
    | draining =>
        obtain ⟨u, hu, hended⟩ := drain_ends hstate
        exact hended.elim (fun h => ⟨u, hu, h⟩) (hoff hu)
  obtain ⟨u, hu, hon⟩ := hon
  exact ⟨u, stays_on (hlater hu) hon⟩

/-- A router that may sleep for six cycles. -/
theorem wanted_settles_on_nap : ∃ run : Execution (Config.short 2),
    ((run.net 6).router 0).powerState = .powerOff ∧
      ∃ u, ∀ v ≥ u, ((run.net v).router 0).powerState = .powerOn := by
  obtain ⟨run, hinputs⟩ := exists_execution (Config.short 2)
    (fun t n => Inputs.quiet (decide (6 ≤ t ∨ n.val ≠ 0))) (by
      intro t n hbottom
      have hrow : ∀ n : Node 2, Router.bottomRow n = true → n.val ≠ 0 := by decide
      simp [Inputs.quiet, hrow n hbottom])
  have hasleep : ((run.net 6).router 0).powerState = .powerOff := by
    obtain ⟨net, hrun, hoff⟩ := exists_of_succeeds
      ((start 2).run (cycle (Config.short 2)) 1
        ((List.range' 0 6).map fun t n => Inputs.quiet (decide (6 ≤ t ∨ n.val ≠ 0))))
      (fun net => decide ((net.router 0).powerState = .powerOff)) (by decide +kernel)
    have hfirst := run.run_inputs 0 6
    rw [run.net_zero, hinputs] at hfirst
    obtain rfl := Except.ok.inj (hfirst.symm.trans hrun)
    exact of_decide_eq_true hoff
  refine ⟨run, hasleep, wanted_settles_on (t := 6) (by decide) ⟨?_, ?_⟩ ?_⟩
  · exact fun t => ⟨t, le_rfl, by rw [hinputs]; rfl⟩
  · exact fun p _ t => ⟨t, le_rfl, by rw [hinputs]; rfl⟩
  · intro u hu
    rw [hinputs]
    simp [Inputs.quiet, hu]

end Wanted

end Flyover.RFLOVRouter
