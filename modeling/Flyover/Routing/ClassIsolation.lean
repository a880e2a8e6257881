import Flyover.NoRD.Mesh
import Flyover.Parking.Mesh
import Flyover.Routing.AdaptiveMesh
import Flyover.Routing.FlovMesh
import Flyover.Routing.MinAdaptive
import Flyover.Routing.OptMesh

/-!
# The virtual channels of a class

Requests and replies are kept apart by giving each type of packet its own range
of virtual channels. Whether the mesh routing functions offer what is in the
range of the packet only, and something always, is a matter of how each of them
splits it: the functions with power gating take the first one, or the last two,
out of it; the baselines count two from the first on, or from 0.
-/

namespace Flyover

variable {k : Nat}

/-- Something is offered, and all of it is of the range. -/
structure OutputSet.Within (vcs : VCRange) (outputs : OutputSet) : Prop where
  nonempty : ∃ e, e ∈ outputs
  range : ∀ e ∈ outputs, vcs.vcBegin ≤ e.vcStart ∧ e.vcStart ≤ e.vcEnd ∧ e.vcEnd ≤ vcs.vcEnd

/-- The call returns, and what it offers is of the range. -/
def Answers (vcs : VCRange) (answer : Option OutputSet) : Prop :=
  ∃ outputs, answer = some outputs ∧ outputs.Within vcs

theorem OutputSet.within_clear_addRange {vcs : VCRange} {outPort : OutPort}
    {vcStart vcEnd pri : Int} :
    (clear.addRange outPort vcStart vcEnd pri).Within vcs ↔
      vcs.vcBegin ≤ vcStart ∧ vcStart ≤ vcEnd ∧ vcEnd ≤ vcs.vcEnd := by
  constructor
  · intro h
    exact h.range _ (mem_clear_addRange.mpr rfl)
  · intro h
    refine ⟨⟨_, mem_clear_addRange.mpr rfl⟩, ?_⟩
    intro e he
    rw [mem_clear_addRange.mp he]
    exact h

theorem OutputSet.Within.addRange {vcs : VCRange} {outputs : OutputSet} {outPort : OutPort}
    {vcStart vcEnd pri : Int} (h : outputs.Within vcs) (hbegin : vcs.vcBegin ≤ vcStart)
    (hrange : vcStart ≤ vcEnd) (hend : vcEnd ≤ vcs.vcEnd) :
    (outputs.addRange outPort vcStart vcEnd pri).Within vcs := by
  obtain ⟨first, hfirst⟩ := h.nonempty
  refine ⟨⟨first, mem_addRange.mpr (.inl hfirst)⟩, ?_⟩
  intro e he
  rcases mem_addRange.mp he with hold | ⟨rfl, -⟩
  · exact h.range e hold
  · exact ⟨hbegin, hrange, hend⟩

theorem OutputSet.Within.addRangeIf {vcs : VCRange} {outputs : OutputSet} {cond : Bool}
    {outPort : OutPort} {vcStart vcEnd pri : Int} (h : outputs.Within vcs)
    (hbegin : vcs.vcBegin ≤ vcStart) (hrange : vcStart ≤ vcEnd) (hend : vcEnd ≤ vcs.vcEnd) :
    (outputs.addRangeIf cond outPort vcStart vcEnd pri).Within vcs := by
  unfold OutputSet.addRangeIf
  split
  · exact h.addRange hbegin hrange hend
  · exact h

/-- A single entry is of the range unless all of it is the escape channel and the
packet is kept off that. -/
theorem OutputSet.within_onePort {vcs : VCRange} {escape : Bool} {outPort : OutPort}
    (hclass : vcs.vcBegin ≤ vcs.vcEnd) (hescape : escape = false → vcs.vcBegin + 1 ≤ vcs.vcEnd) :
    (onePort vcs escape outPort).Within vcs := by
  unfold onePort
  cases escape with
  | true =>
      rw [if_pos rfl]
      exact within_clear_addRange.mpr ⟨le_rfl, le_rfl, hclass⟩
  | false =>
      rw [if_neg Bool.false_ne_true]
      exact within_clear_addRange.mpr ⟨by omega, hescape rfl, le_rfl⟩

theorem VCRange.Contains.le {vcs : VCRange} {vc : Int} (h : vcs.Contains vc) :
    vcs.vcBegin ≤ vcs.vcEnd := h.1.trans h.2

open MinimalRouting (inVC)

theorem VCRange.Contains.inVC {vcs : VCRange} {vc : Int} (h : vcs.Contains vc)
    (inChannel : Option Port) : vcs.Contains (inVC vcs vc inChannel) := by
  unfold MinimalRouting.inVC
  split
  · exact ⟨h.le, le_rfl⟩
  · exact h

/-- A packet that is not on the first virtual channel shows that there is another. -/
theorem VCRange.Contains.more {vcs : VCRange} {vc : Int} (h : vcs.Contains vc)
    (hne : vc ≠ vcs.vcBegin) : vcs.vcBegin + 1 ≤ vcs.vcEnd := by
  have hlt : vcs.vcBegin < vc := lt_of_le_of_ne h.1 hne.symm
  exact Int.add_one_le_of_lt (lt_of_lt_of_le hlt h.2)

/-! ### On the way -/

section Transit

variable {config : RoutingConfig} {f : Flit k} {n : Node k} (traffic : Traffic) (r : Router)
  (inChannel : Option Port)

/-- At injection and at the destination all of the range is offered. -/
theorem Flit.answers_of_endpoint {inject : Bool} {transit : VCRange → Option OutputSet}
    (hvc : (config.vcs f.type).Contains f.vc) (hendpoint : inject = true ∨ n = f.dest) :
    Answers (config.vcs f.type) (f.route config n inject transit) := by
  have hassert : f.assertVC (config.vcs f.type) inject = some () := if_pos (.inl hvc)
  unfold Flit.route
  dsimp only
  rw [hassert]
  cases inject with
  | true =>
      exact ⟨_, rfl, OutputSet.within_clear_addRange.mpr ⟨le_rfl, hvc.le, le_rfl⟩⟩
  | false =>
      have hdest : n = f.dest := hendpoint.resolve_left Bool.false_ne_true
      refine ⟨_, if_pos hdest, ?_⟩
      exact OutputSet.within_clear_addRange.mpr ⟨le_rfl, hvc.le, le_rfl⟩

/-- The functions that offer one port answer when they offer the escape channel to
what is on it. -/
theorem answers_of_onePort {answer : Option OutputSet}
    (hvc : (config.vcs f.type).Contains f.vc)
    (h : ∃ escape outPort, answer = some (.onePort (config.vcs f.type) escape outPort) ∧
      (inVC (config.vcs f.type) f.vc inChannel = (config.vcs f.type).vcBegin → escape = true)) :
    Answers (config.vcs f.type) answer := by
  obtain ⟨escape, outPort, hanswer, hescape⟩ := h
  refine ⟨_, hanswer, OutputSet.within_onePort hvc.le ?_⟩
  intro hoff
  apply (hvc.inVC inChannel).more
  intro hfirst
  rw [hescape hfirst] at hoff
  cases hoff

theorem flovMesh_onePort (hvc : (config.vcs f.type).Contains f.vc) (hne : n ≠ f.dest) :
    ∃ escape outPort, flovMesh config traffic n r f inChannel false =
        some (.onePort (config.vcs f.type) escape outPort) ∧
      (inVC (config.vcs f.type) f.vc inChannel = (config.vcs f.type).vcBegin → escape = true) := by
  unfold flovMesh
  rw [Flit.route_of_contains hvc hne, Node.dorNextMesh_xy hne, Node.dorNextMesh_yx hne]
  -- either direction is one of the mesh, so that there is a state to look up
  simp only [Router.neighborPowerState, Option.bind_eq_bind, Option.bind_some]
  by_cases hoff : (r.ports (n.xyPort f.dest)).neighborState ≠ .powerOn
  · rw [if_pos hoff]
    exact ⟨_, _, rfl, fun hfirst => decide_eq_true (.inl hfirst)⟩
  · rw [if_neg hoff]
    exact ⟨_, _, rfl, fun hfirst => decide_eq_true (.inl hfirst)⟩

theorem optMesh_onePort (detour : Router → Node k → Node k → Bool → Port)
    (hvc : (config.vcs f.type).Contains f.vc) (hne : n ≠ f.dest) :
    ∃ escape outPort, optMesh detour config traffic n r f inChannel false =
        some (.onePort (config.vcs f.type) escape outPort) ∧
      (inVC (config.vcs f.type) f.vc inChannel = (config.vcs f.type).vcBegin → escape = true) := by
  unfold optMesh
  rw [Flit.route_of_contains hvc hne, Node.dorNextMesh_xy hne]
  refine ⟨_, _, rfl, fun hfirst => ?_⟩
  unfold MinimalRouting.inVC at hfirst
  rw [hfirst, beq_self_eq_true, Bool.true_or, Bool.true_or]

theorem rpMesh_onePort (rtTbl escRtTbl : Node k → Node k → TableEntry)
    (hvc : (config.vcs f.type).Contains f.vc) (hne : n ≠ f.dest) {outPort : OutPort}
    (hport : (rpTable (rtTbl n) (escRtTbl n) (rpEscape traffic (config.vcs f.type) f inChannel)
      f.dest).outPort = some outPort) :
    ∃ escape outPort, rpMesh rtTbl escRtTbl config traffic n r f inChannel false =
        some (.onePort (config.vcs f.type) escape outPort) ∧
      (inVC (config.vcs f.type) f.vc inChannel = (config.vcs f.type).vcBegin → escape = true) := by
  unfold rpMesh
  rw [Flit.route_of_contains hvc hne]
  dsimp only
  rw [hport]
  refine ⟨_, _, rfl, fun hfirst => ?_⟩
  unfold MinimalRouting.inVC at hfirst
  unfold rpEscape
  dsimp only
  rw [hfirst, beq_self_eq_true, Bool.true_or]

/-- A table that knows no direction fails the assertion. -/
theorem rpMesh_none (rtTbl escRtTbl : Node k → Node k → TableEntry)
    (hvc : (config.vcs f.type).Contains f.vc) (hne : n ≠ f.dest)
    (hport : (rpTable (rtTbl n) (escRtTbl n) (rpEscape traffic (config.vcs f.type) f inChannel)
      f.dest).outPort = none) :
    rpMesh rtTbl escRtTbl config traffic n r f inChannel false = none := by
  unfold rpMesh
  rw [Flit.route_of_contains hvc hne]
  dsimp only
  rw [hport]
  rfl

theorem adaptiveFlovMesh_answers (hvc : (config.vcs f.type).Contains f.vc) (hne : n ≠ f.dest) :
    Answers (config.vcs f.type) (adaptiveFlovMesh config traffic n r f inChannel false) := by
  have hin : (config.vcs f.type).Contains (inVC (config.vcs f.type) f.vc inChannel) :=
    hvc.inVC inChannel
  unfold MinimalRouting.inVC at hin
  unfold adaptiveFlovMesh
  rw [Flit.route_of_contains hvc hne, Node.dorNextMesh_xy hne, Node.dorNextMesh_yx hne]
  simp only [Router.neighborPowerState, Option.bind_eq_bind, Option.bind_some]
  generalize (if inChannel = none then (config.vcs f.type).vcEnd else f.vc) = inVC at hin ⊢
  by_cases hstay : (inVC == (config.vcs f.type).vcBegin ||
      decide (f.misrouteHops > config.missRouteThreshold)) = true
  · rw [if_pos hstay]
    exact ⟨_, rfl, OutputSet.within_clear_addRange.mpr ⟨le_rfl, le_rfl, hvc.le⟩⟩
  · rw [if_neg hstay]
    have hmore : (config.vcs f.type).vcBegin + 1 ≤ (config.vcs f.type).vcEnd := by
      apply hin.more
      rintro rfl
      simp at hstay
    have hbegin : (config.vcs f.type).vcBegin ≤ (config.vcs f.type).vcBegin + 1 := by omega
    have hescape : ∀ outPort, (OutputSet.clear.addRange outPort (config.vcs f.type).vcBegin
        (config.vcs f.type).vcBegin 0).Within (config.vcs f.type) := fun outPort =>
      OutputSet.within_clear_addRange.mpr ⟨le_rfl, le_rfl, hvc.le⟩
    by_cases hdiagonal : n.Diagonal f.dest
    · have hdistinct : OutPort.mesh (n.xyPort f.dest) ≠ .mesh (n.yxPort f.dest) := fun heq =>
        Node.xyPort_ne_yxPort hdiagonal (OutPort.mesh.inj heq)
      rw [if_neg (not_not.mpr hdiagonal), if_neg hdistinct]
      refine ⟨_, rfl, ?_⟩
      iterate 3 apply OutputSet.Within.addRangeIf _ hbegin hmore le_rfl
      exact hescape _
    · rw [if_pos hdiagonal]
      exact ⟨_, rfl, (hescape _).addRange hbegin hmore le_rfl⟩

/-- The escape entry of `min_adaptive_mesh` takes two virtual channels, and the other
entries what is left, if the packet is offered them. -/
theorem minAdaptiveMesh_answers_iff (hvc : (config.vcs f.type).Contains f.vc) (hne : n ≠ f.dest) :
    Answers (config.vcs f.type) (minAdaptiveMesh config traffic n r f inChannel false) ↔
      (config.vcs f.type).vcBegin + 1 ≤ (config.vcs f.type).vcEnd ∧
        (inVC (config.vcs f.type) f.vc inChannel ≠ (config.vcs f.type).vcBegin →
          (config.vcs f.type).vcBegin + 2 ≤ (config.vcs f.type).vcEnd) := by
  obtain ⟨outputs, hroute, hoffered, hown⟩ :=
    MinimalRouting.minAdaptiveMesh_offers traffic r inChannel hvc hne
  constructor
  · rintro ⟨outputs', hroute', hwithin⟩
    obtain rfl : outputs' = outputs := Option.some.inj (hroute'.symm.trans hroute)
    obtain ⟨pri, hescape⟩ := hoffered.escape
    refine ⟨(hwithin.range _ hescape).2.2, fun hoff => ?_⟩
    obtain ⟨pri, hentry⟩ := hown hoff
    exact (hwithin.range _ hentry).2.1
  · rintro ⟨hescape, hothers⟩
    refine ⟨outputs, hroute, hoffered.escape.elim fun _ hentry => ⟨_, hentry⟩, ?_⟩
    intro e he
    rcases hoffered.cases e he with ⟨-, hstart, hend⟩ | ⟨hoff, -, hstart, hend⟩
    · rw [hstart, hend]
      simp only [MinimalRouting.escape]
      omega
    · have hmore := hothers hoff
      rw [hstart, hend]
      simp only [MinimalRouting.own]
      omega

/-- The escape entry of `min_adapt_mesh` begins at 0. -/
theorem minAdaptMesh_answers_iff (hvc : (config.vcs f.type).Contains f.vc) (hne : n ≠ f.dest) :
    Answers (config.vcs f.type) (minAdaptMesh config traffic n r f inChannel false) ↔
      (config.vcs f.type).vcBegin = 0 := by
  obtain ⟨outputs, hroute, hoffered⟩ :=
    MinimalRouting.minAdaptMesh_offers traffic r inChannel hvc hne
  constructor
  · rintro ⟨outputs', hroute', hwithin⟩
    obtain rfl : outputs' = outputs := Option.some.inj (hroute'.symm.trans hroute)
    obtain ⟨pri, hescape⟩ := hoffered.escape
    obtain ⟨hbegin, hrange, -⟩ := hwithin.range _ hescape
    exact le_antisymm hbegin hrange
  · intro hzero
    refine ⟨outputs, hroute, hoffered.escape.elim fun _ hentry => ⟨_, hentry⟩, ?_⟩
    intro e he
    rcases hoffered.cases e he with ⟨-, hstart, hend⟩ | ⟨hoff, -, hstart, hend⟩
    · rw [hstart, hend]
      exact ⟨hzero.le, hzero.ge, hvc.le⟩
    · have hmore := (hvc.inVC inChannel).more hoff
      rw [hstart, hend]
      simp only [MinimalRouting.own]
      omega

end Transit

/-! ### `nord_mesh` -/

namespace NoRDFlit

variable {f : NoRDFlit k} {vcs : VCRange}

theorem escapeVC_cases (f : NoRDFlit k) (vcs : VCRange) (inEscape : Bool) (ringID : Nat) :
    f.escapeVC vcs inEscape ringID = vcs.vcEnd - 1 ∨ f.escapeVC vcs inEscape ringID = vcs.vcEnd := by
  unfold escapeVC
  split <;> split
  · exact .inl rfl
  · exact .inr rfl
  · exact .inr rfl
  · exact .inl rfl

theorem bypassRoute_within (hrange : vcs.vcEnd - vcs.vcBegin + 1 > 2) (goToEscape : Bool)
    (ringID : Nat) : (f.bypassRoute vcs goToEscape ringID).Within vcs := by
  unfold bypassRoute
  split
  next hescape =>
    have hlast : f.bypassVC = vcs.vcEnd - 1 ∨ f.bypassVC = vcs.vcEnd := by simpa using hescape
    exact OutputSet.within_clear_addRange.mpr (by omega)
  next =>
    dsimp only
    split
    next => exact OutputSet.within_clear_addRange.mpr (by omega)
    next =>
      apply OutputSet.within_clear_addRange.mpr
      split <;> omega

theorem routerRoute_answers (hrange : vcs.vcEnd - vcs.vcBegin + 1 > 2) (traffic : Traffic)
    {r : NoRDView k} (inChannel : Option Port) (goToEscape : Bool) (hne : r.id ≠ f.dest) :
    Answers vcs (f.routerRoute vcs traffic r inChannel goToEscape) := by
  obtain ⟨outputs, hroute, hescape, hall⟩ := f.routerRoute_spec vcs traffic r inChannel goToEscape hne
  refine ⟨outputs, hroute, ⟨_, hescape _ rfl⟩, ?_⟩
  intro e he
  rcases hall e he with ⟨-, hstart, hend⟩ | ⟨-, hstart, hend⟩
  · have hlast := f.escapeVC_cases vcs (f.inEscape vcs r.id inChannel) r.id.ringID
    omega
  · omega

end NoRDFlit

/-- With more than two virtual channels in the class, the last two and the rest
are all of it. -/
theorem nordMesh_answers {config : RoutingConfig} {traffic : Traffic} {r : Option (NoRDView k)}
    {f : NoRDFlit k} {inChannel : Option Port} {inject : Bool}
    (hvc : (config.vcs f.type).Contains f.vc)
    (hrange : (config.vcs f.type).vcEnd - (config.vcs f.type).vcBegin + 1 > 2)
    (hsource : r = none → inject = true) :
    Answers (config.vcs f.type) (nordMesh config traffic r f inChannel inject) := by
  have hassert : ∀ inject, f.assertVC (config.vcs f.type) inject = some () := fun inject =>
    if_pos (.inl hvc)
  have hall : ∀ outPort, (OutputSet.clear.addRange outPort (config.vcs f.type).vcBegin
      (config.vcs f.type).vcEnd 0).Within (config.vcs f.type) := fun outPort =>
    OutputSet.within_clear_addRange.mpr ⟨le_rfl, hvc.le, le_rfl⟩
  cases r with
  | none =>
      obtain rfl := hsource rfl
      refine ⟨_, ?_, hall .inject⟩
      unfold nordMesh
      dsimp only
      rw [hassert]
      exact if_pos hrange
  | some r =>
      cases inject with
      | true =>
          exact ⟨_, nordMesh_some_iff.mpr ⟨hassert true, hrange, rfl⟩,
            NoRDFlit.bypassRoute_within hrange _ _⟩
      | false =>
          by_cases hdest : r.id = f.dest
          · exact ⟨_, nordMesh_some_iff.mpr ⟨hassert false, hrange, if_pos hdest⟩, hall .eject⟩
          · obtain ⟨outputs, hroute, hwithin⟩ := NoRDFlit.routerRoute_answers hrange traffic
              inChannel (decide (f.misrouteHops > config.missRouteThreshold)) hdest
            exact ⟨outputs, nordMesh_some_iff.mpr
              ⟨hassert false, hrange, (if_neg hdest).trans hroute⟩, hwithin⟩

/-! ### All of them -/

/-- What a call reads besides the globals. `source` is a missing router, where a
source picks a virtual channel. -/
structure RoutingCall (k : Nat) where
  traffic : Traffic
  n : Node k
  r : Router
  rtTbl : Node k → TableEntry
  escRtTbl : Node k → TableEntry
  source : Bool
  f : NoRDFlit k
  inChannel : Option Port
  inject : Bool

namespace RoutingCall

/-- What `nord_mesh` sees of the router. -/
def view (call : RoutingCall k) : Option (NoRDView k) :=
  if call.source then none
  else some ⟨call.n, call.r.powerState, fun p => (call.r.ports p).neighborState⟩

/-- A call to one of the other functions. -/
def run (call : RoutingCall k) (config : RoutingConfig) (fn : RoutingFunction k) :
    Option OutputSet :=
  fn config call.traffic call.n call.r call.f.toFlit call.inChannel call.inject

/-- The packet is neither at its source nor at its destination. -/
def Transit (call : RoutingCall k) : Prop := call.inject = false ∧ call.n ≠ call.f.dest

end RoutingCall

/-- The routing functions of the mesh with power gating, and their baselines. -/
inductive MeshRouting where
  | minAdaptiveMesh
  | minAdaptMesh
  | flovMesh
  | optRflovMesh
  | optFlovMesh
  | adaptiveFlovMesh
  | rpMesh
  | nordMesh
  deriving DecidableEq, Repr

namespace MeshRouting

variable {config : RoutingConfig} {call : RoutingCall k}

def route (config : RoutingConfig) (call : RoutingCall k) : MeshRouting → Option OutputSet
  | minAdaptiveMesh => call.run config Flyover.minAdaptiveMesh
  | minAdaptMesh => call.run config Flyover.minAdaptMesh
  | flovMesh => call.run config Flyover.flovMesh
  | optRflovMesh => call.run config Flyover.optRflovMesh
  | optFlovMesh => call.run config Flyover.optFlovMesh
  | adaptiveFlovMesh => call.run config Flyover.adaptiveFlovMesh
  | rpMesh => call.run config (Flyover.rpMesh (fun _ => call.rtTbl) fun _ => call.escRtTbl)
  | nordMesh =>
      Flyover.nordMesh config call.traffic call.view call.f call.inChannel call.inject

/-- When a function offers what is of the class only: on the way the baselines need
two virtual channels for an escape entry and a third for the others, or a class
that begins at 0, and `rp_mesh` a direction in its table; `nord_mesh` asserts that
there are three, and that there is a router on the way. -/
def Keeps (config : RoutingConfig) (call : RoutingCall k) : MeshRouting → Prop
  | minAdaptiveMesh => call.Transit →
      (config.vcs call.f.type).vcBegin + 1 ≤ (config.vcs call.f.type).vcEnd ∧
        (inVC (config.vcs call.f.type) call.f.vc call.inChannel ≠ (config.vcs call.f.type).vcBegin →
          (config.vcs call.f.type).vcBegin + 2 ≤ (config.vcs call.f.type).vcEnd)
  | minAdaptMesh => call.Transit → (config.vcs call.f.type).vcBegin = 0
  | rpMesh => call.Transit → rpTable call.rtTbl call.escRtTbl
      (rpEscape call.traffic (config.vcs call.f.type) call.f.toFlit call.inChannel) call.f.dest ≠
        .invalid
  | nordMesh => (config.vcs call.f.type).vcEnd - (config.vcs call.f.type).vcBegin + 1 > 2 ∧
      (call.source = true → call.inject = true)
  | _ => True

/-- The function begins like the others. -/
def Begins (fn : RoutingFunction k) : Prop :=
  ∀ config traffic n r f inChannel inject, ∃ transit,
    fn config traffic n r f inChannel inject = f.route config n inject transit

/-- Away from the endpoints a function is called without `inject`. -/
theorem run_answers_iff {fn : RoutingFunction k} (hroute : Begins fn)
    (hvc : (config.vcs call.f.type).Contains call.f.vc) :
    Answers (config.vcs call.f.type) (call.run config fn) ↔
      (call.Transit → Answers (config.vcs call.f.type)
        (fn config call.traffic call.n call.r call.f.toFlit call.inChannel false)) := by
  by_cases htransit : call.Transit
  · rw [RoutingCall.run, htransit.1]
    exact ⟨fun h _ => h, fun h => h htransit⟩
  · refine iff_of_true ?_ fun h => absurd h htransit
    obtain ⟨transit, hrun⟩ := hroute config call.traffic call.n call.r call.f.toFlit call.inChannel
      call.inject
    rw [RoutingCall.run, hrun]
    apply Flit.answers_of_endpoint hvc
    by_cases hinject : call.inject = true
    · exact .inl hinject
    · exact .inr (not_not.mp fun hne => htransit ⟨Bool.eq_false_of_not_eq_true hinject, hne⟩)

theorem answers_of_onePort_run {fn : RoutingFunction k} (hroute : Begins fn)
    (hvc : (config.vcs call.f.type).Contains call.f.vc)
    (hport : call.n ≠ call.f.dest → ∃ escape outPort,
      fn config call.traffic call.n call.r call.f.toFlit call.inChannel false =
          some (.onePort (config.vcs call.f.type) escape outPort) ∧
        (inVC (config.vcs call.f.type) call.f.vc call.inChannel = (config.vcs call.f.type).vcBegin →
          escape = true)) :
    Answers (config.vcs call.f.type) (call.run config fn) := by
  apply (run_answers_iff hroute hvc).mpr
  intro htransit
  exact answers_of_onePort call.inChannel hvc (hport htransit.2)

theorem rpMesh_answers_iff (hvc : (config.vcs call.f.type).Contains call.f.vc)
    (hne : call.n ≠ call.f.dest) :
    Answers (config.vcs call.f.type)
        (Flyover.rpMesh (fun _ => call.rtTbl) (fun _ => call.escRtTbl) config call.traffic call.n
          call.r call.f.toFlit call.inChannel false) ↔
      rpTable call.rtTbl call.escRtTbl
        (rpEscape call.traffic (config.vcs call.f.type) call.f.toFlit call.inChannel)
        call.f.dest ≠ .invalid := by
  constructor
  · rintro ⟨outputs, hroute, -⟩ hinvalid
    rw [rpMesh_none _ _ _ _ _ hvc hne (by rw [hinvalid]; rfl)] at hroute
    cases hroute
  · intro hvalid
    have hport : ∃ outPort, (rpTable call.rtTbl call.escRtTbl
        (rpEscape call.traffic (config.vcs call.f.type) call.f.toFlit call.inChannel)
        call.f.dest).outPort = some outPort := by
      cases hentry : rpTable call.rtTbl call.escRtTbl
          (rpEscape call.traffic (config.vcs call.f.type) call.f.toFlit call.inChannel)
          call.f.dest with
      | invalid => exact absurd hentry hvalid
      | dir p => exact ⟨.mesh p, rfl⟩
      | arrived => exact ⟨.eject, rfl⟩
    obtain ⟨outPort, hport⟩ := hport
    exact answers_of_onePort call.inChannel hvc (rpMesh_onePort _ _ _ _ _ hvc hne hport)

/-- Assertions of `nord_mesh`. -/
theorem nordMesh_answers_iff (hvc : (config.vcs call.f.type).Contains call.f.vc) :
    Answers (config.vcs call.f.type) (nordMesh.route config call) ↔ nordMesh.Keeps config call := by
  have hview : call.view = none ↔ call.source = true := by
    unfold RoutingCall.view
    cases call.source <;> simp
  constructor
  · rintro ⟨outputs, hroute, -⟩
    simp only [route, Flyover.nordMesh] at hroute
    obtain ⟨⟨⟩, -, hroute⟩ := Option.bind_eq_some_iff.mp hroute
    split at hroute
    next hrange =>
      refine ⟨hrange, fun hsource => ?_⟩
      rw [hview.mpr hsource] at hroute
      by_contra hinject
      rw [if_neg hinject] at hroute
      cases hroute
    next => cases hroute
  · rintro ⟨hrange, hsource⟩
    exact Flyover.nordMesh_answers hvc hrange fun hnone => hsource (hview.mp hnone)

/-- A mesh routing function offers a packet something, and only virtual channels of
its own class, exactly under these conditions. -/
theorem answers_iff_keeps (fn : MeshRouting) (config : RoutingConfig) (call : RoutingCall k)
    (hvc : (config.vcs call.f.type).Contains call.f.vc) :
    Answers (config.vcs call.f.type) (fn.route config call) ↔ fn.Keeps config call := by
  cases fn with
  | minAdaptiveMesh =>
      apply (run_answers_iff minAdaptiveMesh_route hvc).trans
      exact forall_congr' fun htransit => minAdaptiveMesh_answers_iff _ _ _ hvc htransit.2
  | minAdaptMesh =>
      apply (run_answers_iff minAdaptMesh_route hvc).trans
      exact forall_congr' fun htransit => minAdaptMesh_answers_iff _ _ _ hvc htransit.2
  | flovMesh =>
      apply iff_true_intro
      exact answers_of_onePort_run flovMesh_route hvc (flovMesh_onePort _ _ _ hvc)
  | optRflovMesh =>
      apply iff_true_intro
      exact answers_of_onePort_run (optMesh_route rflovDetour) hvc (optMesh_onePort _ _ _ rflovDetour hvc)
  | optFlovMesh =>
      apply iff_true_intro
      exact answers_of_onePort_run (optMesh_route flovDetour) hvc (optMesh_onePort _ _ _ flovDetour hvc)
  | adaptiveFlovMesh =>
      apply iff_true_intro
      apply (run_answers_iff adaptiveFlovMesh_route hvc).mpr
      exact fun htransit => adaptiveFlovMesh_answers _ _ _ hvc htransit.2
  | rpMesh =>
      apply (run_answers_iff (rpMesh_route _ _) hvc).trans
      exact forall_congr' fun htransit => rpMesh_answers_iff hvc htransit.2
  | nordMesh => exact nordMesh_answers_iff hvc

/-- A packet at its source router, on its way to the opposite corner. -/
def cornerCall (type : FlitType) (vc : Int) : RoutingCall 2 where
  traffic := ⟨0, fun _ => 0⟩
  n := 0
  r := { ports := fun _ => {} }
  rtTbl := fun _ => .dir .east
  escRtTbl := fun _ => .dir .south
  source := false
  f := ⟨⟨type, vc, 3, 0, 0⟩, 0, 0, 0⟩
  inChannel := none
  inject := false

/-- All but `min_adaptive_mesh` on the two virtual channels of a class at 0, and
`nord_mesh` on three. -/
theorem answers_iff_keeps_corner :
    Answers ⟨0, 1⟩ (minAdaptMesh.route .twoVCs (cornerCall .anyType 0)) ∧
      Answers ⟨0, 1⟩ (flovMesh.route .twoVCs (cornerCall .anyType 0)) ∧
      Answers ⟨0, 1⟩ (rpMesh.route .twoVCs (cornerCall .anyType 0)) ∧
      Answers ⟨0, 2⟩ (nordMesh.route MinimalRouting.threeVCs (cornerCall .readRequest 0)) := by
  refine ⟨?_, ?_, ?_, ?_⟩
  · exact (answers_iff_keeps minAdaptMesh .twoVCs (cornerCall .anyType 0) (by decide)).mpr
      fun _ => rfl
  · exact (answers_iff_keeps flovMesh .twoVCs (cornerCall .anyType 0) (by decide)).mpr trivial
  · exact (answers_iff_keeps rpMesh .twoVCs (cornerCall .anyType 0) (by decide)).mpr
      fun _ => by decide
  · exact (answers_iff_keeps nordMesh MinimalRouting.threeVCs (cornerCall .readRequest 0)
      (by decide)).mpr ⟨by decide, nofun⟩

/-- Two virtual channels are not enough for `min_adaptive_mesh`, whose other entry
is the range from 2 to 1; and `min_adapt_mesh` offers a reply the virtual channels
of requests. -/
theorem not_answers_corner :
    ¬ Answers ⟨0, 1⟩ (minAdaptiveMesh.route .twoVCs (cornerCall .anyType 0)) ∧
      ¬ Answers ⟨2, 3⟩ (minAdaptMesh.route MinimalRouting.splitVCs (cornerCall .readReply 2)) := by
  constructor
  · intro h
    have htransit := (run_answers_iff minAdaptiveMesh_route (by decide)).mp h (by
      unfold RoutingCall.Transit
      decide)
    have hmore := (minAdaptiveMesh_answers_iff _ _ _ (by decide) (by decide)).mp htransit
    exact absurd (hmore.2 (by decide)) (by decide)
  · intro h
    have htransit := (run_answers_iff minAdaptMesh_route (by decide)).mp h (by
      unfold RoutingCall.Transit
      decide)
    have hzero := (minAdaptMesh_answers_iff _ _ _ (by decide) (by decide)).mp htransit
    exact absurd hzero (by decide)

end MeshRouting

end Flyover
