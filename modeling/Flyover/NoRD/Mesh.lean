import Flyover.NoRD.Ring
import Flyover.Routing.Function

/-!
# `nord_mesh`

Adaptive routing on all virtual channels of a packet but the last two; those are
for the ring, one class before the dateline and one for what crosses it. The
ring is entered at any router, at a lower priority than what is offered besides,
and left only at the destination.

A router that is off passes packets on along the ring, through its network
interface. That calls the same function for a virtual channel, with `inject` set.
-/

namespace Flyover

variable {k : Nat}

/-- What `nord_mesh` reads of a flit. -/
structure NoRDFlit (k : Nat) extends Flit k where
  src : Node k
  ringDest : Nat
  bypassVC : Int

/-- What `nord_mesh` reads of a router, besides what its identifier says. -/
structure NoRDView (k : Nat) where
  id : Node k
  powerState : PowerState
  neighborStates : Port → PowerState

namespace NoRDView

/-- `GetNeighborPowerState(port)` -/
def neighborPowerState (r : NoRDView k) : OutPort → Option PowerState
  | .mesh p => some (r.neighborStates p)
  | _ => none

/-- `xy_avaiable` and `yx_avaiable` -/
def available (r : NoRDView k) (inChannel : Option Port) (port : OutPort) (state : PowerState) :
    Bool :=
  port != inPort inChannel && (state == .powerOn || port == .mesh r.id.ringOutput) &&
    !(r.powerState == .powerOff || r.powerState == .wakeup)

end NoRDView

namespace NoRDFlit

/-- The bypass branch of `nord_mesh`: a virtual channel at the interface of a
router that is off. -/
def bypassRoute (f : NoRDFlit k) (vcs : VCRange) (goToEscape : Bool) (ringID : Nat) : OutputSet :=
  if f.bypassVC == vcs.vcEnd - 1 || f.bypassVC == vcs.vcEnd then
    OutputSet.clear.addRange .inject f.bypassVC f.bypassVC 1
  else
    let vcEnd := vcs.vcEnd - 2
    if !goToEscape then OutputSet.clear.addRange .inject vcs.vcBegin vcEnd 1
    else
      let escapeVC := if f.ringDest > ringID then vcEnd + 1 else vcEnd + 2
      OutputSet.clear.addRange .inject escapeVC escapeVC 0

/-- `in_escape` -/
def inEscape (f : NoRDFlit k) (vcs : VCRange) (n : Node k) (inChannel : Option Port) : Bool :=
  inChannel != none && (f.vc == vcs.vcEnd - 1 || f.vc == vcs.vcEnd) ||
    inChannel == none && f.src != n && (f.vc == vcs.vcEnd - 1 || f.vc == vcs.vcEnd)

/-- The escape entry of a router: the class of a packet that is on the ring, and of
one that is not yet, are written as opposite comparisons. -/
def escapeVC (f : NoRDFlit k) (vcs : VCRange) (inEscape : Bool) (ringID : Nat) : Int :=
  if inEscape then if f.ringDest > ringID then vcs.vcEnd - 1 else vcs.vcEnd
  else if f.ringDest < ringID then vcs.vcEnd else vcs.vcEnd - 1

/-- The router branch of `nord_mesh`, away from the destination. -/
def routerRoute (f : NoRDFlit k) (vcs : VCRange) (traffic : Traffic) (r : NoRDView k)
    (inChannel : Option Port) (goToEscape : Bool) : Option OutputSet := do
  let inEscape := f.inEscape vcs r.id inChannel
  let ringOutPort := OutPort.mesh r.id.ringOutput
  let xyPort := dorNextMesh k r.id f.dest false
  let yxPort := dorNextMesh k r.id f.dest true
  let xyFirst := decide (traffic.freeCredit xyPort ≥ traffic.freeCredit yxPort)
  let xyPri := if xyFirst then 3 else 2
  let yxPri := if xyPort = yxPort then xyPri else if xyFirst then 2 else 3
  let xyState ← r.neighborPowerState xyPort
  let yxState ← r.neighborPowerState yxPort
  let xyAv := r.available inChannel xyPort xyState
  let yxAv := r.available inChannel yxPort yxState
  let escapeVC := f.escapeVC vcs inEscape r.id.ringID
  let outputs := OutputSet.clear.addRange ringOutPort escapeVC escapeVC 0
  if !inEscape && !goToEscape then
    let vcEnd := vcs.vcEnd - 2
    let outputs := outputs.addRangeIf xyAv xyPort vcs.vcBegin vcEnd xyPri
    let outputs := outputs.addRangeIf (yxAv && xyPort != yxPort) yxPort vcs.vcBegin vcEnd yxPri
    pure (outputs.addRangeIf (!xyAv && !yxAv && ringOutPort != inPort inChannel) ringOutPort
      vcs.vcBegin vcEnd 1)
  else pure outputs

end NoRDFlit

/-- `nord_mesh`; `r` is missing where a source picks a virtual channel. -/
def nordMesh (config : RoutingConfig) (traffic : Traffic) (r : Option (NoRDView k))
    (f : NoRDFlit k) (inChannel : Option Port) (inject : Bool) : Option OutputSet := do
  let vcs := config.vcs f.type
  f.assertVC vcs (inject || r.isNone)
  -- `assert(vcEnd - vcBegin + 1 > 2)`
  if vcs.vcEnd - vcs.vcBegin + 1 > 2 then
    let goToEscape := decide (f.misrouteHops > config.missRouteThreshold)
    match r with
    | none =>
        if inject then pure (OutputSet.clear.addRange .inject vcs.vcBegin vcs.vcEnd 0) else none
    | some r =>
        if inject then pure (f.bypassRoute vcs goToEscape r.id.ringID)
        else if r.id = f.dest then
          pure (OutputSet.clear.addRange .eject vcs.vcBegin vcs.vcEnd 0)
        else f.routerRoute vcs traffic r inChannel goToEscape
  else none

namespace NoRDFlit

variable (f : NoRDFlit k) (vcs : VCRange)

/-- The two comparisons agree away from the destination. -/
theorem escapeVC_eq {inEscape : Bool} {ringID : Nat} (hne : f.ringDest ≠ ringID) :
    f.escapeVC vcs inEscape ringID =
      if f.ringDest > ringID then vcs.vcEnd - 1 else vcs.vcEnd := by
  unfold escapeVC
  cases inEscape with
  | true => rw [if_pos rfl]
  | false =>
      rw [if_neg Bool.false_ne_true]
      split <;> split <;> first | rfl | omega

/-- A router offers the escape channel first of all, and to a packet that is not
on the ring yet the other virtual channels besides. -/
theorem routerRoute_spec (traffic : Traffic) (r : NoRDView k) (inChannel : Option Port)
    (goToEscape : Bool) (hne : r.id ≠ f.dest) :
    ∃ outputs, f.routerRoute vcs traffic r inChannel goToEscape = some outputs ∧
      (∀ vc, vc = f.escapeVC vcs (f.inEscape vcs r.id inChannel) r.id.ringID →
        (⟨.mesh r.id.ringOutput, vc, vc, 0⟩ : OutputEntry) ∈ outputs) ∧
      ∀ entry ∈ outputs,
        entry.outputPort = .mesh r.id.ringOutput ∧
          entry.vcStart = f.escapeVC vcs (f.inEscape vcs r.id inChannel) r.id.ringID ∧
          entry.vcEnd = entry.vcStart ∨
        f.inEscape vcs r.id inChannel = false ∧ entry.vcStart = vcs.vcBegin ∧
          entry.vcEnd = vcs.vcEnd - 2 := by
  unfold routerRoute
  rw [Node.dorNextMesh_xy hne, Node.dorNextMesh_yx hne]
  simp only [NoRDView.neighborPowerState, Option.bind_eq_bind, Option.bind_some, Option.pure_def]
  generalize f.inEscape vcs r.id inChannel = inEscape
  split
  next hadaptive =>
    have hnot : inEscape = false := by
      cases inEscape with
      | true => cases hadaptive
      | false => rfl
    refine ⟨_, rfl, ?_, ?_⟩
    · rintro vc rfl
      iterate 3 apply OutputSet.mem_addRangeIf_of_mem
      exact OutputSet.mem_clear_addRange.mpr rfl
    · intro entry hentry
      rcases OutputSet.of_mem_addRangeIf hentry with hentry | ⟨-, rfl⟩
      · rcases OutputSet.of_mem_addRangeIf hentry with hentry | ⟨-, rfl⟩
        · rcases OutputSet.of_mem_addRangeIf hentry with hentry | ⟨-, rfl⟩
          · obtain rfl := OutputSet.mem_clear_addRange.mp hentry
            exact .inl ⟨rfl, rfl, rfl⟩
          · exact .inr ⟨hnot, rfl, rfl⟩
        · exact .inr ⟨hnot, rfl, rfl⟩
      · exact .inr ⟨hnot, rfl, rfl⟩
  next =>
    refine ⟨_, rfl, ?_, ?_⟩
    · rintro vc rfl
      exact OutputSet.mem_clear_addRange.mpr rfl
    · intro entry hentry
      obtain rfl := OutputSet.mem_clear_addRange.mp hentry
      exact .inl ⟨rfl, rfl, rfl⟩

variable {f vcs}

/-- The interface of a router that is off keeps an escape channel, and grants one
by the same class as a router. -/
theorem bypassRoute_spec {goToEscape : Bool} {ringID : Nat} {entry : OutputEntry}
    (h : entry ∈ f.bypassRoute vcs goToEscape ringID) :
    (f.bypassVC = vcs.vcEnd - 1 ∨ f.bypassVC = vcs.vcEnd) ∧ entry.vcStart = f.bypassVC ∧
        entry.vcEnd = f.bypassVC ∨
      ¬ (f.bypassVC = vcs.vcEnd - 1 ∨ f.bypassVC = vcs.vcEnd) ∧
        (entry.vcStart = vcs.vcBegin ∧ entry.vcEnd = vcs.vcEnd - 2 ∨
          entry.vcStart = (if f.ringDest > ringID then vcs.vcEnd - 1 else vcs.vcEnd) ∧
            entry.vcEnd = entry.vcStart) := by
  unfold bypassRoute at h
  split at h
  next hescape =>
    obtain rfl := OutputSet.mem_clear_addRange.mp h
    simp only [Bool.or_eq_true, beq_iff_eq] at hescape
    exact .inl ⟨hescape, rfl, rfl⟩
  next hnot =>
    simp only [Bool.or_eq_true, beq_iff_eq] at hnot
    refine .inr ⟨hnot, ?_⟩
    split at h
    next =>
      obtain rfl := OutputSet.mem_clear_addRange.mp h
      exact .inl ⟨rfl, rfl⟩
    next =>
      obtain rfl := OutputSet.mem_clear_addRange.mp h
      refine .inr ⟨?_, rfl⟩
      dsimp only
      split <;> omega

theorem bypassRoute_keeps {goToEscape : Bool} {ringID : Nat}
    (h : f.bypassVC = vcs.vcEnd - 1 ∨ f.bypassVC = vcs.vcEnd) :
    (⟨.inject, f.bypassVC, f.bypassVC, 1⟩ : OutputEntry) ∈
      f.bypassRoute vcs goToEscape ringID := by
  have hescape : (f.bypassVC == vcs.vcEnd - 1 || f.bypassVC == vcs.vcEnd) = true := by
    simpa using h
  rw [bypassRoute, if_pos hescape]
  exact OutputSet.mem_clear_addRange.mpr rfl

theorem bypassRoute_grants (f : NoRDFlit k) (vcs : VCRange) {ringID : Nat}
    (h : ¬ (f.bypassVC = vcs.vcEnd - 1 ∨ f.bypassVC = vcs.vcEnd)) {vc : Int}
    (hvc : vc = if f.ringDest > ringID then vcs.vcEnd - 1 else vcs.vcEnd) :
    (⟨.inject, vc, vc, 0⟩ : OutputEntry) ∈ f.bypassRoute vcs true ringID := by
  have hnot : ¬ (f.bypassVC == vcs.vcEnd - 1 || f.bypassVC == vcs.vcEnd) = true := by
    simpa using h
  have hclass : vc = if f.ringDest > ringID then vcs.vcEnd - 2 + 1 else vcs.vcEnd - 2 + 2 := by
    rw [hvc]
    split <;> omega
  rw [bypassRoute, if_neg hnot, hclass]
  exact OutputSet.mem_clear_addRange.mpr rfl

end NoRDFlit

/-- `nord_mesh` answers when its assertions hold. -/
theorem nordMesh_some_iff {config : RoutingConfig} {traffic : Traffic} {r : NoRDView k}
    {f : NoRDFlit k} {inChannel : Option Port} {inject : Bool} {outputs : OutputSet} :
    nordMesh config traffic (some r) f inChannel inject = some outputs ↔
      f.assertVC (config.vcs f.type) inject = some () ∧
        (config.vcs f.type).vcEnd - (config.vcs f.type).vcBegin + 1 > 2 ∧
        (if inject then some (f.bypassRoute (config.vcs f.type)
            (decide (f.misrouteHops > config.missRouteThreshold)) r.id.ringID)
          else if r.id = f.dest then some (OutputSet.clear.addRange .eject
            (config.vcs f.type).vcBegin (config.vcs f.type).vcEnd 0)
          else f.routerRoute (config.vcs f.type) traffic r inChannel
            (decide (f.misrouteHops > config.missRouteThreshold))) = some outputs := by
  unfold nordMesh
  rw [Option.isNone_some, Bool.or_false]
  constructor
  · intro h
    obtain ⟨⟨⟩, hassert, h⟩ := Option.bind_eq_some_iff.mp h
    split at h
    next hrange => exact ⟨hassert, hrange, h⟩
    next => cases h
  · rintro ⟨hassert, hrange, h⟩
    dsimp only
    rw [hassert]
    simp only [Option.bind_eq_bind, Option.bind_some]
    rw [if_pos hrange]
    exact h

end Flyover
