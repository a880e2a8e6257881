import Flyover.Pipeline.Updates

/-!
# Packets in the pipeline

The flits of a virtual channel form packets: what follows a flit that is no tail
is no head. A connection through the switch is held only while the packet that it
was set up for goes on, so a flit that uses a held connection is never a head.

Most of what the stages do concerns neither. What matters is the view of a state;
a stage that leaves the view as it is leaves both facts as they are.
-/

namespace Flyover

namespace Pipeline

variable {k vcs : Nat} {cfg : PipelineConfig k} {o : Outside k vcs}

theorem guard_bind {α : Type} {p : Prop} [Decidable p] {x : Unit → Option α} {a : α} :
    (guard p >>= x) = some a ↔ p ∧ x () = some a := by
  by_cases hp : p <;> simp [guard, hp, failure]

/-- Whether the flit is a head and whether it is a tail. -/
def Flit.ends (f : Flit k vcs) : Bool × Bool := (f.head, f.tail)

namespace InputVC

/-- The heads and tails among the flits. -/
def ends (c : InputVC k vcs) : List (Bool × Bool) := c.buffer.map Flit.ends

variable {c c' : InputVC k vcs} {f : Flit k vcs}

@[simp] theorem ends_setState (state : VCState) : (c.setState state).ends = c.ends := rfl

@[simp] theorem ends_setRouteSet (set : OutputSet) : (c.setRouteSet set).ends = c.ends := rfl

@[simp] theorem ends_clearRouteSet : c.clearRouteSet.ends = c.ends := rfl

@[simp] theorem ends_setOutput (port : Fin 5) (vc : Fin vcs) :
    (c.setOutput port vc).ends = c.ends := rfl

@[simp] theorem ends_removeFlit : c.removeFlit.ends = c.ends.tail := by
  simp only [ends, removeFlit, List.map_tail]

@[simp] theorem ends_setRtime (time : Int) : (c.setRtime time).ends = c.ends := by
  unfold ends setRtime
  cases c.buffer with
  | nil => rfl
  | cons f rest => rfl

theorem addFlit_some (h : c.addFlit f = some c') :
    c'.ends = c.ends ++ [f.ends] ∧ (f.tail = false → c'.expectedPid ≠ none) := by
  unfold addFlit at h
  cases hpid : c.expectedPid with
  | none =>
      simp only [hpid] at h
      cases h
      refine ⟨List.map_append, ?_⟩
      intro htail
      simp [htail]
  | some pid =>
      simp only [hpid] at h
      split at h
      next => exact nomatch h
      next =>
        cases h
        refine ⟨List.map_append, ?_⟩
        intro htail
        simp [htail]

end InputVC

/-- What the packets of the channels and the held connections depend on, and what
was sent. -/
@[ext] structure View (k vcs : Nat) where
  ends : Fin 5 → Fin vcs → List (Bool × Bool)
  expectedPid : Fin 5 → Fin vcs → Option Nat
  switchHoldVC : Nat → Option (Fin vcs)
  downstreamStates : Fin 5 → PowerState
  crossbarFlits : List (Crossing k vcs)

/-- The view of a state. -/
def view (s : Pipeline k vcs) : View k vcs where
  ends i v := (s.buf i v).ends
  expectedPid i v := (s.buf i v).expectedPid
  switchHoldVC := s.switchHoldVC
  downstreamStates := s.downstreamStates
  crossbarFlits := s.crossbarFlits

section View

variable {s s' : Pipeline k vcs} {input : Fin 5} {vc : Fin vcs}

theorem view_modifyVC {g : InputVC k vcs → InputVC k vcs}
    (hends : (g (s.buf input vc)).ends = (s.buf input vc).ends)
    (hpid : (g (s.buf input vc)).expectedPid = (s.buf input vc).expectedPid) :
    (s.modifyVC input vc g).view = s.view := by
  have hbuf (i : Fin 5) (v : Fin vcs) :
      ((s.modifyVC input vc g).buf i v).ends = (s.buf i v).ends ∧
        ((s.modifyVC input vc g).buf i v).expectedPid = (s.buf i v).expectedPid := by
    by_cases hself : i = input ∧ v = vc
    · obtain ⟨hi, hv⟩ := hself
      subst hi hv
      rw [modifyVC_self]
      exact ⟨hends, hpid⟩
    · rw [modifyVC_of_ne s g hself]
      exact ⟨rfl, rfl⟩
  apply View.ext
  · funext i v
    exact (hbuf i v).1
  · funext i v
    exact (hbuf i v).2
  · rfl
  · rfl
  · rfl

theorem view_setState (s : Pipeline k vcs) (input : Fin 5) (vc : Fin vcs) (state : VCState) :
    (s.modifyVC input vc (·.setState state)).view = s.view := view_modifyVC rfl rfl

theorem view_enterAllocation (s : Pipeline k vcs) (input : Fin 5) (vc : Fin vcs) :
    (s.enterAllocation cfg input vc).view = s.view := rfl

theorem view_enterRouting (s : Pipeline k vcs) (input : Fin 5) (vc : Fin vcs) :
    (s.enterRouting input vc).view = s.view := view_setState s input vc .routing

theorem view_dropRoute (s : Pipeline k vcs) (input : Fin 5) (vc : Fin vcs) :
    (s.dropRoute input vc).view = s.view := by
  unfold dropRoute
  rw [view_enterRouting]
  exact view_modifyVC rfl rfl

theorem view_updateNOQ {f : Flit k vcs} (h : s.updateNOQ cfg o input vc f = some s') :
    s'.view = s.view := by
  unfold updateNOQ at h
  obtain ⟨-, h⟩ := guard_bind.mp h
  split at h
  next =>
    obtain ⟨out, -, h⟩ := Option.bind_eq_some_iff.mp h
    split at h
    next =>
      cases h
      rfl
    next =>
      split at h
      next =>
        obtain ⟨next, -, h⟩ := Option.bind_eq_some_iff.mp h
        obtain ⟨-, h⟩ := guard_bind.mp h
        obtain ⟨-, h⟩ := guard_bind.mp h
        obtain ⟨-, h⟩ := guard_bind.mp h
        obtain ⟨-, h⟩ := guard_bind.mp h
        cases h
        rfl
      next => exact nomatch h
  next => exact nomatch h

theorem view_useLookahead {f : Flit k vcs} (h : s.useLookahead cfg o input vc f = some s') :
    s'.view = s.view := by
  have hbegun : ((s.modifyVC input vc fun c =>
      (c.setRouteSet f.laRouteSet).setState .vcAlloc).enterAllocation cfg input vc).view =
      s.view := by
    rw [view_enterAllocation]
    exact view_modifyVC rfl rfl
  unfold useLookahead at h
  split at h
  next => exact (view_updateNOQ h).trans hbegun
  next =>
    cases h
    exact hbegun

/-! ### Stages that send nothing -/

theorem view_evaluate (s : Pipeline k vcs) : (s.evaluate cfg o).view = s.view := rfl

theorem view_routeOne {e : Entry vcs Unit} (h : routeOne cfg o e s = some s') :
    s'.view = s.view := by
  unfold routeOne at h
  obtain ⟨-, h⟩ := guard_bind.mp h
  obtain ⟨f, -, h⟩ := Option.bind_eq_some_iff.mp h
  obtain ⟨-, h⟩ := guard_bind.mp h
  obtain ⟨-, h⟩ := guard_bind.mp h
  obtain ⟨-, -, h⟩ := Option.bind_eq_some_iff.mp h
  cases h
  have hrouted : (s.modifyVC e.input e.vc fun c =>
      ((c.setRouteSet (o.route e.input f)).setState .vcAlloc).setRtime s.now).view = s.view :=
    view_modifyVC (InputVC.ends_setRtime _) rfl
  exact hrouted

theorem view_routeUpdate (h : s.routeUpdate cfg o = some s') : s'.view = s.view := by
  obtain ⟨-, h⟩ := guard_bind.mp h
  apply Worklist.loop_induction (motive := fun t => t.view = s.view) h rfl
  intro e t t' _ ht hround
  exact (view_routeOne hround).trans ht

theorem view_vcGranted {e : Entry vcs (Fin 5 × Fin vcs)} {out : Fin 5} {outVC : Fin vcs}
    (h : s.vcGranted cfg e out outVC = some s') : s'.view = s.view := by
  unfold vcGranted at h
  split at h
  next =>
    cases h
    split <;> exact view_dropRoute s _ _
  next =>
    obtain ⟨dest, -, h⟩ := Option.bind_eq_some_iff.mp h
    cases h
    have htaken : ({ s with nextBuf := Function.update s.nextBuf out dest }.modifyVC e.input e.vc
        fun c => (c.setOutput out outVC).setState .active).view = s.view := view_modifyVC rfl rfl
    split <;> exact htaken

theorem view_vcFailed {e : Entry vcs (Fin 5 × Fin vcs)} {f : Flit k vcs}
    (h : s.vcFailed cfg e f = some s') : s'.view = s.view := by
  unfold vcFailed at h
  obtain ⟨left, -, h⟩ := Option.bind_eq_some_iff.mp h
  split at h
  next =>
    cases h
    split <;> exact view_dropRoute s _ _
  next =>
    split at h
    next =>
      cases h
      split <;> exact view_enterRouting s _ _
    next =>
      cases h
      rfl

theorem view_vcAllocOne {e : Entry vcs (Fin 5 × Fin vcs)} (h : vcAllocOne cfg e s = some s') :
    s'.view = s.view := by
  unfold vcAllocOne at h
  obtain ⟨-, h⟩ := guard_bind.mp h
  obtain ⟨f, -, h⟩ := Option.bind_eq_some_iff.mp h
  obtain ⟨-, h⟩ := guard_bind.mp h
  obtain ⟨-, h⟩ := guard_bind.mp h
  obtain ⟨t, ht, h⟩ := Option.bind_eq_some_iff.mp h
  have hdecided : t.view = s.view := by
    unfold vcDecided at ht
    split at ht
    next => exact view_vcGranted ht
    next => exact view_vcFailed ht
  cases h
  exact hdecided

theorem view_vcAllocUpdate (h : s.vcAllocUpdate cfg = some s') : s'.view = s.view := by
  obtain ⟨-, h⟩ := guard_bind.mp h
  apply Worklist.loop_induction (motive := fun t => t.view = s.view) h rfl
  intro e t t' _ ht hround
  exact (view_vcAllocOne hround).trans ht

theorem view_swTurnedBack {e : Entry vcs Nat} {output : Fin 5} {outVC : Fin vcs}
    (h : s.swTurnedBack e output outVC = some s') : s'.view = s.view := by
  unfold swTurnedBack at h
  split at h
  next =>
    cases h
    exact view_dropRoute _ _ _
  next =>
    obtain ⟨dest, -, h⟩ := Option.bind_eq_some_iff.mp h
    cases h
    exact view_dropRoute _ _ _

theorem view_swLostRoute {e : Entry vcs Nat} {f : Flit k vcs} {dropped : Option (Pipeline k vcs)}
    (h : s.swLostRoute cfg e f = some dropped) (t : Pipeline k vcs) (ht : t ∈ dropped) :
    t.view = s.view := by
  unfold swLostRoute at h
  split at h
  next =>
    cases h
    exact nomatch ht
  next =>
    split at h
    next =>
      obtain ⟨-, h⟩ := guard_bind.mp h
      obtain ⟨left, -, h⟩ := Option.bind_eq_some_iff.mp h
      cases h
      split at ht
      next =>
        cases ht
        exact view_dropRoute _ _ _
      next => exact nomatch ht
    next =>
      obtain ⟨⟨output, outVC⟩, -, h⟩ := Option.bind_eq_some_iff.mp h
      dsimp only at h
      split at h
      next =>
        obtain ⟨dest, -, h⟩ := Option.bind_eq_some_iff.mp h
        cases h
        cases ht
        exact view_dropRoute _ _ _
      next =>
        cases h
        exact nomatch ht

theorem view_swTimedOut {e : Entry vcs Nat} (h : s.swTimedOut e = some s') :
    s'.view = s.view := by
  unfold swTimedOut at h
  split at h
  next =>
    obtain ⟨⟨output, outVC⟩, -, h⟩ := Option.bind_eq_some_iff.mp h
    obtain ⟨dest, -, h⟩ := Option.bind_eq_some_iff.mp h
    cases h
    exact view_enterRouting _ _ _
  next =>
    obtain ⟨-, h⟩ := guard_bind.mp h
    cases h
    exact view_enterRouting _ _ _

theorem view_swFailed {e : Entry vcs Nat} {f : Flit k vcs} (h : s.swFailed cfg e f = some s') :
    s'.view = s.view := by
  unfold swFailed at h
  obtain ⟨dropped, hdropped, h⟩ := Option.bind_eq_some_iff.mp h
  cases dropped with
  | some t =>
      cases h
      exact view_swLostRoute hdropped s' rfl
  | none =>
      dsimp only at h
      split at h
      next => exact view_swTimedOut h
      next =>
        cases h
        rfl

end View

/-! ### Packets and held connections -/

/-- The flits of every channel form packets, also with the flit that may come next,
and a connection is held only for a flit that goes on with its packet. -/
structure View.Packets (cfg : PipelineConfig k) (v : View k vcs) : Prop where
  chain : ∀ i w, (v.ends i w).IsChain fun f next => f.2 = false → next.1 = false
  last : ∀ i w, ∀ f ∈ (v.ends i w).getLast?, f.2 = false → v.expectedPid i w ≠ none
  held : ∀ i w, v.switchHoldVC (cfg.expandedInput i w) = some w →
    ∃ f ∈ (v.ends i w).head?, f.1 = false

/-- Only one channel is different. -/
structure View.OnlyAt (input : Fin 5) (vc : Fin vcs) (v v' : View k vcs) : Prop where
  ends : ∀ i w, ¬ (i = input ∧ w = vc) → v'.ends i w = v.ends i w
  expectedPid : ∀ i w, ¬ (i = input ∧ w = vc) → v'.expectedPid i w = v.expectedPid i w

theorem onlyAt_modifyVC (s : Pipeline k vcs) (input : Fin 5) (vc : Fin vcs)
    (g : InputVC k vcs → InputVC k vcs) :
    View.OnlyAt input vc s.view (s.modifyVC input vc g).view where
  ends _ _ hne := congrArg InputVC.ends (modifyVC_of_ne s g hne)
  expectedPid _ _ hne := congrArg InputVC.expectedPid (modifyVC_of_ne s g hne)

theorem expandedInput_inj {i j : Fin 5} {w : Fin vcs}
    (h : cfg.expandedInput i w = cfg.expandedInput j w) : i = j := by
  have hmul : i.val * cfg.inputSpeedup = j.val * cfg.inputSpeedup := Nat.add_right_cancel h
  exact Fin.ext (Nat.eq_of_mul_eq_mul_right cfg.inputSpeedup_pos hmul)

namespace View.Packets

variable {v v' : View k vcs} {input : Fin 5} {vc : Fin vcs}

/-- Only the channel that changes has to be looked at. -/
theorem change (h : v.Packets cfg) (hat : View.OnlyAt input vc v v')
    (hchain : (v'.ends input vc).IsChain fun f next => f.2 = false → next.1 = false)
    (hlast : ∀ f ∈ (v'.ends input vc).getLast?, f.2 = false → v'.expectedPid input vc ≠ none)
    (hheld : v'.switchHoldVC (cfg.expandedInput input vc) = some vc →
      ∃ f ∈ (v'.ends input vc).head?, f.1 = false)
    (hother : ∀ i w, ¬ (i = input ∧ w = vc) →
      v'.switchHoldVC (cfg.expandedInput i w) = some w →
      v.switchHoldVC (cfg.expandedInput i w) = some w) : v'.Packets cfg := by
  constructor
  case chain =>
    intro i w
    by_cases hself : i = input ∧ w = vc
    · obtain ⟨hi, hw⟩ := hself
      subst hi hw
      exact hchain
    · rw [hat.ends i w hself]
      exact h.chain i w
  case last =>
    intro i w
    by_cases hself : i = input ∧ w = vc
    · obtain ⟨hi, hw⟩ := hself
      subst hi hw
      exact hlast
    · rw [hat.ends i w hself, hat.expectedPid i w hself]
      exact h.last i w
  case held =>
    intro i w hhold
    by_cases hself : i = input ∧ w = vc
    · obtain ⟨hi, hw⟩ := hself
      subst hi hw
      exact hheld hhold
    · rw [hat.ends i w hself]
      exact h.held i w (hother i w hself hhold)

/-- A flit arrives; it is no head if the packet before it is not complete. -/
theorem arrive {f : Bool × Bool} (h : v.Packets cfg) (hat : View.OnlyAt input vc v v')
    (hends : v'.ends input vc = v.ends input vc ++ [f])
    (hhead : v.expectedPid input vc ≠ none → f.1 = false)
    (htail : f.2 = false → v'.expectedPid input vc ≠ none)
    (hhold : v'.switchHoldVC = v.switchHoldVC) : v'.Packets cfg := by
  apply h.change hat
  case hchain =>
    rw [hends, List.isChain_append]
    refine ⟨h.chain input vc, List.isChain_singleton f, ?_⟩
    intro last hlast next hnext hopen
    cases hnext
    exact hhead (h.last input vc last hlast hopen)
  case hlast =>
    intro last hlast hopen
    rw [hends, List.getLast?_concat] at hlast
    cases hlast
    exact htail hopen
  case hheld =>
    intro hheld
    rw [hhold] at hheld
    obtain ⟨front, hfront, hbody⟩ := h.held input vc hheld
    refine ⟨front, ?_, hbody⟩
    rw [hends, List.head?_append, Option.mem_def.mp hfront]
    rfl
  case hother =>
    intro i w _ hheld
    rwa [hhold] at hheld

/-- The flit in front leaves. -/
theorem send (h : v.Packets cfg) (hat : View.OnlyAt input vc v v')
    (hends : v'.ends input vc = (v.ends input vc).tail)
    (hpid : v'.expectedPid input vc = v.expectedPid input vc)
    (hheld : v'.switchHoldVC (cfg.expandedInput input vc) = some vc →
      ∃ f ∈ (v'.ends input vc).head?, f.1 = false)
    (hother : ∀ i w, ¬ (i = input ∧ w = vc) →
      v'.switchHoldVC (cfg.expandedInput i w) = some w →
      v.switchHoldVC (cfg.expandedInput i w) = some w) : v'.Packets cfg := by
  apply h.change hat
  case hchain =>
    rw [hends]
    exact (h.chain input vc).tail
  case hlast =>
    intro last hlast hopen
    rw [hends, List.getLast?_tail] at hlast
    rw [hpid]
    split at hlast
    next => exact nomatch hlast
    next => exact h.last input vc last hlast hopen
  case hheld => exact hheld
  case hother => exact hother

/-- Connections are given up. -/
theorem release (h : v.Packets cfg) (hends : v'.ends = v.ends)
    (hpid : v'.expectedPid = v.expectedPid)
    (hhold : ∀ i w, v'.switchHoldVC (cfg.expandedInput i w) = some w →
      v.switchHoldVC (cfg.expandedInput i w) = some w) : v'.Packets cfg where
  chain := by
    rw [hends]
    exact h.chain
  last := by
    rw [hends, hpid]
    exact h.last
  held := by
    intro i w hheld
    rw [hends]
    exact h.held i w (hhold i w hheld)

end View.Packets

end Pipeline

end Flyover
