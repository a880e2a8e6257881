import Flyover.Injection.NoRDTurn
import Flyover.NoRD.Router
import Flyover.Progress.Runs
import Mathlib.Logic.Function.Iterate

/-!
# The request monitors of NoRD

A router that is off counts the requests for virtual channels, and so does the network
interface for the packets that wait in its latches. At the end of an epoch the router is to
be woken if the requests of this epoch reach a threshold, and the counting begins anew.

The monitor of the router looks at its count in the other cycles, and that of the interface
keeps its count until the router is on again. A reference count, which begins anew in every
epoch, goes along with the run and says when the router is due to wake.
-/

namespace Flyover

/-! ### The monitor of the network interface -/

namespace Injection

/-- The count of the monitor, and whether `WakeUp` has been called. -/
structure RequestMonitor where
  requests : Int
  wakeupSignal : Bool

/-- `wakeup_threshold` -/
def NoRDConfig.wakeupThreshold (cfg : NoRDConfig) (performanceCentric : Bool) : Int :=
  if performanceCentric then cfg.performanceCentricWakeupThreshold
  else cfg.powerCentricWakeupThreshold

/-- Both thresholds are positive; the monitor is off otherwise. -/
def NoRDConfig.Monitors (cfg : NoRDConfig) : Prop :=
  cfg.performanceCentricWakeupThreshold > 0 ∧ cfg.powerCentricWakeupThreshold > 0

instance (cfg : NoRDConfig) : Decidable cfg.Monitors := inferInstanceAs (Decidable (_ ∧ _))

namespace RequestMonitor

variable {cfg : NoRDConfig} {performanceCentric : Bool} {time : Int}

/-- A head flit asks for a virtual channel. -/
def ask (cfg : NoRDConfig) (performanceCentric : Bool) (time : Int) (m : RequestMonitor) :
    RequestMonitor :=
  if cfg.Monitors then
    { requests := m.requests + 1
      wakeupSignal := m.wakeupSignal ||
        (time % cfg.wakeupMonitorEpoch = 0 &&
          m.requests + 1 ≥ cfg.wakeupThreshold performanceCentric) }
  else m

/-- Only the last one to ask decides. -/
theorem iterate_ask (hmonitors : cfg.Monitors) (m : RequestMonitor) (heads : Nat) :
    (ask cfg performanceCentric time)^[heads] m =
      { requests := m.requests + heads
        wakeupSignal := m.wakeupSignal ||
          (time % cfg.wakeupMonitorEpoch = 0 && 0 < heads &&
            m.requests + heads ≥ cfg.wakeupThreshold performanceCentric) } := by
  induction heads with
  | zero => simp
  | succ heads ih =>
      rw [Function.iterate_succ_apply', ih, ask, if_pos hmonitors]
      congr 1
      · push_cast
        omega
      · rw [Bool.eq_iff_iff]
        simp only [Bool.or_eq_true, Bool.and_eq_true, decide_eq_true_eq, Nat.cast_add,
          Nat.cast_one]
        constructor
        · rintro ((hsignal | ⟨⟨hend, -⟩, hle⟩) | ⟨hend, hle⟩)
          · exact .inl hsignal
          · exact .inr ⟨⟨hend, heads.succ_pos⟩, by omega⟩
          · exact .inr ⟨⟨hend, heads.succ_pos⟩, by omega⟩
        · rintro (hsignal | ⟨⟨hend, -⟩, hle⟩)
          · exact .inl (.inl hsignal)
          · exact .inr ⟨hend, by omega⟩

end RequestMonitor

variable {subnets classes vcs : Nat}

/-- In the loop over the latches. -/
def BypassLoop.requestMonitor (l : BypassLoop subnets classes vcs) : RequestMonitor :=
  ⟨l.wakeupMonitorVCRequests, l.wakeupSignal⟩

def NoRDInterface.requestMonitor (s : NoRDInterface subnets classes vcs) : RequestMonitor :=
  ⟨s.wakeupMonitorVCRequests, s.wakeupSignal⟩

/-- Some heads have asked. -/
def Asked (cfg : NoRDConfig) (inputs : NoRDInputs subnets classes vcs) (m m' : RequestMonitor) :
    Prop :=
  ∃ heads, m' = (RequestMonitor.ask cfg inputs.performanceCentricRouter inputs.time)^[heads] m

namespace Asked

variable {cfg : NoRDConfig} {inputs : NoRDInputs subnets classes vcs} {m m' m'' : RequestMonitor}

theorem refl : Asked cfg inputs m m := ⟨0, rfl⟩

theorem trans (h : Asked cfg inputs m m') (h' : Asked cfg inputs m' m'') : Asked cfg inputs m m'' := by
  obtain ⟨heads, rfl⟩ := h
  obtain ⟨heads', rfl⟩ := h'
  exact ⟨heads' + heads, (Function.iterate_add_apply _ heads' heads m).symm⟩

end Asked

namespace BypassLoop

variable {l l' : BypassLoop subnets classes vcs} {cfg : NoRDConfig}
  {inputs : NoRDInputs subnets classes vcs} {buf : BufferState vcs} {lastVC : Option (Fin vcs)}
  {vc : Fin vcs} {cf : BypassFlit subnets classes vcs} {leaves : Bool}

theorem requestMonitor_monitor : (l.monitor cfg inputs).requestMonitor =
    l.requestMonitor.ask cfg inputs.performanceCentricRouter inputs.time := by
  unfold monitor RequestMonitor.ask
  by_cases hmonitors : cfg.Monitors
  · rw [if_pos hmonitors]
    exact congrArg requestMonitor (if_pos hmonitors)
  · rw [if_neg hmonitors]
    exact congrArg requestMonitor (if_neg hmonitors)

theorem allocate_asked (h : l.allocate cfg inputs buf lastVC vc cf = .ok l') :
    Asked cfg inputs l.requestMonitor l'.requestMonitor := by
  unfold allocate at h
  dsimp only at h
  split at h
  next =>
    have hone : Asked cfg inputs l.requestMonitor (l.monitor cfg inputs).requestMonitor :=
      ⟨1, requestMonitor_monitor⟩
    split at h
    next =>
      split at h
      next =>
        cases h
        exact hone
      next =>
        cases h
        exact hone
    next => cases h
  next =>
    split at h
    next =>
      split at h
      next => cases h
      next =>
        cases h
        exact .refl
    next =>
      cases h
      exact .refl

theorem requestMonitor_retry {time : Int} :
    (l.retry time vc cf).requestMonitor = l.requestMonitor := by
  unfold retry
  split
  · rfl
  · rfl

theorem examine_asked (h : l.examine cfg inputs buf lastVC vc = .ok (l', leaves)) :
    Asked cfg inputs l.requestMonitor l'.requestMonitor := by
  obtain ⟨-, rfl, -⟩ | ⟨cf, l₁, -, -, -, hallocate, hdecide⟩ := examine_ok h
  · exact .refl
  · have hasked := allocate_asked hallocate
    obtain ⟨cf', -, ⟨-, rfl, -⟩ | ⟨-, rfl, -⟩⟩ := decideOn_ok hdecide
    · exact hasked
    · rw [requestMonitor_retry]
      exact hasked

theorem run_asked {order : List (Fin vcs)} (h : l.run cfg inputs buf lastVC order = .ok l') :
    Asked cfg inputs l.requestMonitor l'.requestMonitor := by
  induction order generalizing l with
  | nil =>
      cases h
      exact .refl
  | cons vc order ih =>
      obtain ⟨⟨l₁, leaves⟩, hexamine, h⟩ := bind_ok.mp h
      have hasked := examine_asked hexamine
      cases leaves with
      | true =>
          cases h
          exact hasked
      | false => exact hasked.trans (ih h)

end BypassLoop

namespace NoRDInterface

variable {s s' : NoRDInterface subnets classes vcs} {cfg : NoRDConfig}
  {inputs : NoRDInputs subnets classes vcs} {subnet : Fin subnets}
  {f : BypassFlit subnets classes vcs} {bypassVC : Option (Fin vcs)}

theorem requestMonitor_removeFlit {c : Fin classes}
    (h : s.removeFlit subnet c bypassVC = .ok s') : s'.requestMonitor = s.requestMonitor := by
  cases removeFlit_ok h with
  | latch vc _ _ heq =>
      rw [heq]
      rfl
  | queue f rest _ _ heq =>
      rw [heq]
      rfl

theorem requestMonitor_passBack (h : s.passBack f = .ok s') :
    s'.requestMonitor = s.requestMonitor := by
  unfold passBack at h
  split at h
  next =>
    cases h
    rfl
  next =>
    split at h
    next =>
      split at h
      next =>
        cases h
        rfl
      next => cases h
    next =>
      cases h
      rfl

theorem requestMonitor_endPacket (h : s.endPacket subnet f bypassVC = .ok s') :
    s'.requestMonitor = s.requestMonitor := by
  unfold endPacket at h
  split at h
  next =>
    obtain ⟨s₁, hclose, h⟩ := bind_ok.mp h
    cases h
    unfold closeLatch at hclose
    split at hclose
    next =>
      split at hclose
      next => cases hclose
      next =>
        cases hclose
        rfl
    next =>
      split at hclose
      next =>
        cases hclose
        rfl
      next => cases hclose
  next =>
    cases h
    rfl

/-- Sending a flit leaves the monitor alone. -/
theorem requestMonitor_sendFlit {served : NoRDServed subnets classes vcs}
    (h : s.sendFlit cfg inputs subnet f bypassVC = .ok served) :
    served.node.requestMonitor = s.requestMonitor := by
  unfold sendFlit at h
  split at h
  next => cases h
  next =>
    split at h
    next => cases h
    next =>
      obtain ⟨s₁, htake, h⟩ := bind_ok.mp h
      obtain ⟨s₂, hremove, h⟩ := bind_ok.mp h
      obtain ⟨s₃, hsending, h⟩ := bind_ok.mp h
      obtain ⟨s₄, hback, h⟩ := bind_ok.mp h
      obtain ⟨s₅, hend, h⟩ := bind_ok.mp h
      cases h
      have htaken : s₁.requestMonitor = s.requestMonitor := by
        obtain ⟨buf, -, htake⟩ := bind_ok.mp htake
        cases htake
        rfl
      have hsent : s₃.requestMonitor = s₂.requestMonitor := by
        obtain ⟨buf, -, hsending⟩ := bind_ok.mp hsending
        cases hsending
        rfl
      calc s₅.requestMonitor = s₄.requestMonitor := requestMonitor_endPacket hend
        _ = s₃.requestMonitor := requestMonitor_passBack hback
        _ = s₂.requestMonitor := hsent
        _ = s₁.requestMonitor := requestMonitor_removeFlit hremove
        _ = s.requestMonitor := htaken

/-- In a turn of the node some heads ask. -/
theorem inject_asked {served : NoRDServed subnets classes vcs}
    (h : s.inject cfg inputs subnet = .ok served) :
    Asked cfg inputs s.requestMonitor served.node.requestMonitor := by
  unfold inject at h
  split at h
  next =>
    obtain ⟨l, hselect, h⟩ := bind_ok.mp h
    obtain ⟨held, -, hrun⟩ := bind_ok.mp hselect
    have hasked : Asked cfg inputs s.requestMonitor l.requestMonitor := BypassLoop.run_asked hrun
    unfold injectBypass at h
    dsimp only at h
    split at h
    next =>
      cases h
      exact hasked
    next =>
      rw [requestMonitor_sendFlit h]
      exact hasked
  next =>
    obtain ⟨l, -, h⟩ := bind_ok.mp h
    unfold injectQueue at h
    dsimp only at h
    split at h
    next =>
      cases h
      exact .refl
    next =>
      split at h
      next => cases h
      next =>
        rw [requestMonitor_sendFlit h]
        exact .refl

end NoRDInterface

end Injection

variable {k : Nat}

/-! ### The monitor of the router -/

namespace NoRDRouter

variable (cfg : NoRDRouterConfig k) (n : Node k) (r : NoRDRouter) {time : Int}

/-- The monitor raises the signal. -/
def wakes (time : Int) : Bool := ({ r with wakeupSignal := false }.monitor cfg n time).wakeupSignal

variable {cfg n r} {r' : NoRDRouter}

theorem wakes_iff : r.wakes cfg n time = true ↔
    0 < nordWakeupThreshold cfg n ∧ time % cfg.wakeup.wakeupMonitorEpoch ≠ 0 ∧
      nordWakeupThreshold cfg n ≤ r.wakeupMonitorVCRequests := by
  unfold wakes monitor
  split
  next hpos =>
    split
    next hinside => simp [hpos, hinside]
    next hend => simp [hend]
  next hoff => simp [hoff]

theorem wakeupSignal_monitor :
    (r.monitor cfg n time).wakeupSignal = (r.wakeupSignal || r.wakes cfg n time) := by
  unfold wakes monitor
  split
  next =>
    split
    next => simp
    next => exact (Bool.or_false _).symm
  next => exact (Bool.or_false _).symm

/-- Whether the router leaves `power_off` or not, its count and the signal stay for the monitor. -/
theorem leaveOff_ok (h : r.leaveOff cfg = .ok r') :
    r'.wakeupSignal = r.wakeupSignal ∧ r'.wakeupMonitorVCRequests = r.wakeupMonitorVCRequests := by
  unfold leaveOff at h
  dsimp only at h
  split at h
  next =>
    split at h
    next =>
      cases h
      exact ⟨rfl, rfl⟩
    next => cases h
  next =>
    cases h
    exact ⟨rfl, rfl⟩

/-- Where a router that is off has its power state evaluated, only its monitor raises the signal. -/
theorem wakeupSignal_evaluate {d : NoRDDatapath} (hoff : r.powerState = .powerOff)
    (h : r.powerStateEvaluate cfg n time d = .ok r') :
    r'.wakeupSignal = (r.wakeupSignal || r.wakes cfg n time) := by
  unfold powerStateEvaluate at h
  rw [hoff] at h
  split at h
  next => cases h
  next =>
    obtain ⟨r₁, hleave, h⟩ := bind_ok.mp h
    cases h
    obtain ⟨hsignal, hcount⟩ := leaveOff_ok hleave
    rw [wakeupSignal_monitor, hsignal]
    congr 1
    rw [Bool.eq_iff_iff, wakes_iff, wakes_iff, hcount]

end NoRDRouter

/-! ### A router and its interface -/

/-- A router, the count of its network interface, and `_time`. -/
structure NoRDNode where
  router : NoRDRouter
  /-- `_wakeup_monitor_vc_requests[n]` -/
  requests : Int
  time : Int

/-- What a cycle brings. -/
structure NoRDCycle where
  received : List (Fin 5 × PassingFlit)
  sent : List (Fin 5 × PassingFlit)
  /-- as `_HandshakeEvaluate` leaves them -/
  ports : Port → PortState
  routerState : Bool
  datapath : NoRDDatapath
  /-- the head flits that ask in the turns of the interface -/
  heads : Nat
  /-- the requests that `_VCAllocUpdate` takes from its queue -/
  requests : Nat

namespace NoRDNode

variable (cfg : NoRDRouterConfig k) (n : Node k) (s : NoRDNode) (inp : NoRDCycle)

/-- The count of the interface when `_Step` begins. -/
def resetRequests : Except NoRDFailure Int :=
  if cfg.wakeup.Monitors ∧ s.requests > cfg.wakeup.wakeupThreshold n.performanceCentric ∧
      s.router.powerState = .powerOn then
    if inp.routerState then .error .routerWanted else .ok 0
  else .ok s.requests

/-- The monitor of the interface after its turns. -/
def askAll (m : Injection.RequestMonitor) : Injection.RequestMonitor :=
  (Injection.RequestMonitor.ask cfg.wakeup n.performanceCentric s.time)^[inp.heads] m

/-- The router after `ReadInputs`. -/
def readInputs : NoRDRouter :=
  { inp.received.foldl (fun r f => r.receiveFlit f.1 f.2) s.router with
    ports := inp.ports
    routerState := inp.routerState }

/-- `Evaluate` and `WriteOutputs` -/
def evaluate (r : NoRDRouter) : NoRDRouter :=
  inp.sent.foldl (fun r f => r.sendFlit cfg f.1 f.2)
    ((NoRDRouter.takeRequest^[inp.requests] r).respond n inp.datapath)

/-- `_Step` of the traffic manager, at one node. -/
def cycle : Except NoRDFailure NoRDNode := do
  let requests ← s.resetRequests cfg n inp
  let r := s.readInputs inp
  let m := s.askAll cfg n inp ⟨requests, r.wakeupSignal⟩
  let r ← { r with wakeupSignal := m.wakeupSignal }.powerStateEvaluate cfg n s.time inp.datapath
  pure { router := evaluate cfg n inp r, requests := m.requests, time := s.time + 1 }

/-- The monitor of the interface raises the signal. -/
def interfaceWakes : Bool := (s.askAll cfg n inp ⟨s.requests, false⟩).wakeupSignal

variable {cfg n s inp} {s' : NoRDNode}

theorem askAll_eq (hmonitors : cfg.wakeup.Monitors) (m : Injection.RequestMonitor) :
    s.askAll cfg n inp m =
      { requests := m.requests + inp.heads
        wakeupSignal := m.wakeupSignal ||
          (s.time % cfg.wakeup.wakeupMonitorEpoch = 0 && 0 < inp.heads &&
            m.requests + inp.heads ≥ cfg.wakeup.wakeupThreshold n.performanceCentric) } :=
  Injection.RequestMonitor.iterate_ask hmonitors m inp.heads

theorem interfaceWakes_iff (hmonitors : cfg.wakeup.Monitors) :
    s.interfaceWakes cfg n inp = true ↔
      s.time % cfg.wakeup.wakeupMonitorEpoch = 0 ∧ 0 < inp.heads ∧
        cfg.wakeup.wakeupThreshold n.performanceCentric ≤ s.requests + inp.heads := by
  rw [interfaceWakes, askAll_eq hmonitors, Bool.false_or]
  simp only [Bool.and_eq_true, decide_eq_true_eq, ge_iff_le, and_assoc]

theorem wakeupSignal_askAll (hmonitors : cfg.wakeup.Monitors) (signal : Bool) :
    (s.askAll cfg n inp ⟨s.requests, signal⟩).wakeupSignal =
      (signal || s.interfaceWakes cfg n inp) := by
  rw [interfaceWakes, askAll_eq hmonitors, askAll_eq hmonitors, Bool.false_or]

/-- Flits that come leave the power state, the signal and the monitor as they are. -/
structure SameMonitor (r r' : NoRDRouter) : Prop where
  powerState : r'.powerState = r.powerState
  wakeupSignal : r'.wakeupSignal = r.wakeupSignal
  requests : r'.wakeupMonitorVCRequests = r.wakeupMonitorVCRequests

theorem sameMonitor_receive (received : List (Fin 5 × PassingFlit)) (r : NoRDRouter) :
    SameMonitor r (received.foldl (fun r f => r.receiveFlit f.1 f.2) r) := by
  induction received generalizing r with
  | nil => exact ⟨rfl, rfl, rfl⟩
  | cons f rest ih => exact ⟨(ih _).powerState, (ih _).wakeupSignal, (ih _).requests⟩

theorem sameMonitor_readInputs : SameMonitor s.router (s.readInputs inp) :=
  have h := sameMonitor_receive inp.received s.router
  ⟨h.powerState, h.wakeupSignal, h.requests⟩

theorem sameMonitor_send (sent : List (Fin 5 × PassingFlit)) (r : NoRDRouter) :
    SameMonitor r (sent.foldl (fun r f => r.sendFlit cfg f.1 f.2) r) := by
  induction sent generalizing r with
  | nil => exact ⟨rfl, rfl, rfl⟩
  | cons f rest ih =>
      have hone : SameMonitor r (r.sendFlit cfg f.1 f.2) := by
        unfold NoRDRouter.sendFlit
        split
        · exact ⟨rfl, rfl, rfl⟩
        · exact ⟨rfl, rfl, rfl⟩
      have hrest := ih (r.sendFlit cfg f.1 f.2)
      exact ⟨hrest.powerState.trans hone.powerState, hrest.wakeupSignal.trans hone.wakeupSignal,
        hrest.requests.trans hone.requests⟩

theorem takeRequests (requests : Nat) (r : NoRDRouter) :
    (NoRDRouter.takeRequest^[requests] r).powerState = r.powerState ∧
      (NoRDRouter.takeRequest^[requests] r).wakeupSignal = r.wakeupSignal := by
  induction requests with
  | zero => exact ⟨rfl, rfl⟩
  | succ requests ih =>
      rw [Function.iterate_succ_apply']
      exact ih

/-- In a cycle at whose beginning the router is off, the monitors raise the signal and nobody
takes it down. -/
theorem wakeupSignal_cycle (hmonitors : cfg.wakeup.Monitors)
    (hoff : s.router.powerState = .powerOff) (h : s.cycle cfg n inp = .ok s') :
    s'.router.wakeupSignal =
      (s.router.wakeupSignal || s.interfaceWakes cfg n inp || s.router.wakes cfg n s.time) := by
  obtain ⟨requests, hreset, h⟩ := bind_ok.mp h
  obtain ⟨r, hevaluate, h⟩ := bind_ok.mp h
  cases h
  -- the count is kept while the router is off
  have hkept : requests = s.requests := by
    unfold resetRequests at hreset
    rw [if_neg (by rw [hoff]; exact fun h => nomatch h.2.2)] at hreset
    cases hreset
    rfl
  subst hkept
  have hread : SameMonitor s.router (s.readInputs inp) := sameMonitor_readInputs
  have hsignal : r.wakeupSignal = _ :=
    NoRDRouter.wakeupSignal_evaluate (by exact hread.powerState.trans hoff) hevaluate
  have hwakes : ∀ signal, { s.readInputs inp with wakeupSignal := signal }.wakes cfg n s.time =
      s.router.wakes cfg n s.time := by
    intro signal
    rw [Bool.eq_iff_iff, NoRDRouter.wakes_iff, NoRDRouter.wakes_iff, hread.requests]
  calc (evaluate cfg n inp r).wakeupSignal
      = (NoRDRouter.takeRequest^[inp.requests] r).wakeupSignal :=
        (sameMonitor_send inp.sent _).wakeupSignal
    _ = r.wakeupSignal := (takeRequests inp.requests r).2
    _ = (s.router.wakeupSignal || s.interfaceWakes cfg n inp || s.router.wakes cfg n s.time) := by
        rw [hsignal, hwakes, wakeupSignal_askAll hmonitors, hread.wakeupSignal]

end NoRDNode

/-! ### The reference -/

/-- A node and the reference: how many requests each monitor has counted in the epoch so far,
and in which cycles the monitors have woken the router and were due to. -/
structure MonitoredNode extends NoRDNode where
  routerEpoch : Int
  interfaceEpoch : Int
  routerWoken : List Int
  routerDue : List Int
  interfaceWoken : List Int
  interfaceDue : List Int

namespace MonitoredNode

variable (cfg : NoRDRouterConfig k) (n : Node k) (s : MonitoredNode) (inp : NoRDCycle)

/-- An epoch ends in this cycle. -/
def EpochEnds : Prop := s.time % cfg.wakeup.wakeupMonitorEpoch = 0

instance : Decidable (s.EpochEnds cfg) := inferInstanceAs (Decidable (_ = _))

/-- The router has counted enough requests in the epoch that ends. -/
def DueByRouter : Prop := s.EpochEnds cfg ∧ NoRDRouter.nordWakeupThreshold cfg n ≤ s.routerEpoch

instance : Decidable (s.DueByRouter cfg n) := inferInstanceAs (Decidable (_ ∧ _))

/-- The interface has, with those of this cycle. -/
def DueByInterface : Prop :=
  s.EpochEnds cfg ∧ cfg.wakeup.wakeupThreshold n.performanceCentric ≤ s.interfaceEpoch + inp.heads

instance : Decidable (s.DueByInterface cfg n inp) := inferInstanceAs (Decidable (_ ∧ _))

/-- Note the cycle, if the router is off. -/
def note (cycles : List Int) (woken : Bool) : List Int :=
  if s.router.powerState = .powerOff && woken then cycles ++ [s.time] else cycles

/-- A cycle. -/
def perform : Except NoRDFailure MonitoredNode := do
  let node ← s.toNoRDNode.cycle cfg n inp
  let counted := if node.router.powerState = .powerOff then inp.requests else 0
  pure {
    toNoRDNode := node
    routerEpoch := (if s.EpochEnds cfg then 0 else s.routerEpoch) + counted
    interfaceEpoch := if s.EpochEnds cfg then 0 else s.interfaceEpoch + inp.heads
    routerWoken := s.note s.routerWoken (s.router.wakes cfg n s.time)
    routerDue := s.note s.routerDue (decide (s.DueByRouter cfg n))
    interfaceWoken := s.note s.interfaceWoken (s.interfaceWakes cfg n inp)
    interfaceDue := s.note s.interfaceDue (decide (s.DueByInterface cfg n inp)) }

/-- Where the router is off, its own monitor counts too few requests to wake it, and at the
end of an epoch the interface has kept the requests of this epoch, those of earlier ones do not
make up the threshold, and some head asks. -/
structure Regular : Prop where
  idle : s.router.powerState = .powerOff →
    (if s.EpochEnds cfg then s.routerEpoch else s.router.wakeupMonitorVCRequests) <
      NoRDRouter.nordWakeupThreshold cfg n
  asks : s.router.powerState = .powerOff → s.DueByInterface cfg n inp → 0 < inp.heads
  kept : s.router.powerState = .powerOff → s.DueByInterface cfg n inp →
    cfg.wakeup.wakeupThreshold n.performanceCentric ≤ s.requests + inp.heads
  carried : s.router.powerState = .powerOff → s.EpochEnds cfg → 0 < inp.heads →
    cfg.wakeup.wakeupThreshold n.performanceCentric ≤ s.requests + inp.heads →
      cfg.wakeup.wakeupThreshold n.performanceCentric ≤ s.interfaceEpoch + inp.heads

/-- The monitors have woken the router in the cycles in which it was due. -/
structure Punctual : Prop where
  router : s.routerWoken = s.routerDue
  interface : s.interfaceWoken = s.interfaceDue

variable {cfg n s inp} {s' start : MonitoredNode}

/-- In a cycle the router is woken when it is due, exactly if the cycle is regular. -/
theorem regular_iff (hmonitors : cfg.wakeup.Monitors) (hoff : s.router.powerState = .powerOff) :
    s.Regular cfg n inp ↔
      (s.router.wakes cfg n s.time = true ↔ s.DueByRouter cfg n) ∧
        (s.interfaceWakes cfg n inp = true ↔ s.DueByInterface cfg n inp) := by
  have hpos : 0 < NoRDRouter.nordWakeupThreshold cfg n := by
    unfold NoRDRouter.nordWakeupThreshold
    split
    · exact hmonitors.1
    · exact hmonitors.2
  rw [NoRDRouter.wakes_iff, NoRDNode.interfaceWakes_iff hmonitors]
  constructor
  · intro h
    have hidle := h.idle hoff
    refine ⟨?_, ?_⟩
    · by_cases hends : s.EpochEnds cfg
      · rw [if_pos hends] at hidle
        exact iff_of_false (fun hwakes => hwakes.2.1 hends) fun hdue => not_le.mpr hidle hdue.2
      · rw [if_neg hends] at hidle
        exact iff_of_false (fun hwakes => not_le.mpr hidle hwakes.2.2) fun hdue => hends hdue.1
    · constructor
      · rintro ⟨hends, hheads, hle⟩
        exact ⟨hends, h.carried hoff hends hheads hle⟩
      · intro hdue
        exact ⟨hdue.1, h.asks hoff hdue, h.kept hoff hdue⟩
  · rintro ⟨hrouter, hinterface⟩
    refine ⟨fun _ => ?_, fun _ hdue => (hinterface.mpr hdue).2.1, fun _ hdue => (hinterface.mpr hdue).2.2,
      fun _ hends hheads hle => (hinterface.mp ⟨hends, hheads, hle⟩).2⟩
    split
    next hends =>
      by_contra hle
      exact (hrouter.mpr ⟨hends, not_lt.mp hle⟩).2.1 hends
    next hinside =>
      by_contra hle
      exact hinside (hrouter.mp ⟨hpos, hinside, not_lt.mp hle⟩).1

theorem note_congr {cycles cycles' : List Int} {woken due : Bool} (hcycles : cycles = cycles')
    (h : s.router.powerState = .powerOff → (woken = true ↔ due = true)) :
    s.note cycles woken = s.note cycles' due := by
  unfold note
  by_cases hoff : s.router.powerState = .powerOff
  · rw [hcycles, Bool.eq_iff_iff.mpr (h hoff)]
  · simp [hoff, hcycles]

theorem Punctual.perform (h : s.Punctual) (hmonitors : cfg.wakeup.Monitors)
    (hregular : s.Regular cfg n inp) (hperform : s.perform cfg n inp = .ok s') : s'.Punctual := by
  obtain ⟨node, -, hperform⟩ := bind_ok.mp hperform
  cases hperform
  constructor
  · refine note_congr h.router fun hoff => ?_
    rw [decide_eq_true_eq]
    exact ((regular_iff hmonitors hoff).mp hregular).1
  · refine note_congr h.interface fun hoff => ?_
    rw [decide_eq_true_eq]
    exact ((regular_iff hmonitors hoff).mp hregular).2

/-- The router in the middle of a mesh, at the beginning or later, and nothing has been counted. -/
def uncounted (powerState : PowerState) (time : Int) : MonitoredNode where
  router := { Router.initial (k := 3) 4 with powerState := powerState, ejectionSize := 2 }
  requests := 0
  time := time
  routerEpoch := 0
  interfaceEpoch := 0
  routerWoken := []
  routerDue := []
  interfaceWoken := []
  interfaceDue := []

/-- A cycle without flits, in which the core does not want the router. -/
def countingCycle (drainTag : Bool) (heads requests : Nat) : NoRDCycle where
  received := []
  sent := []
  ports p := { (Router.initial (k := 3) 4).ports p with drainTag := drainTag }
  routerState := false
  datapath := { Datapath.empty with destBuffersEmpty := true }
  heads := heads
  requests := requests

end MonitoredNode

end Flyover
