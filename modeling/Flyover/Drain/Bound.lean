import Flyover.Drain.Evaluate

/-!
# Draining is bounded

A run of one router of any of the three classes. The other routers are its
environment: they may send anything at any time, and so may the core and the data
plane behave. The drain timer is at least the number of turns that a drain has
lasted, since `IdleDetected` counts on it as well.
-/

namespace Flyover

variable {k : Nat}

/-- The routers that drain. -/
inductive RouterClass where
  | flov
  | gflov
  | rflov
  deriving DecidableEq, Repr

namespace RouterClass

abbrev State : RouterClass → Type
  | .flov => FLOVRouter
  | .gflov | .rflov => Router

abbrev Inputs : RouterClass → Type
  | .flov => FLOVInputs
  | .gflov | .rflov => Flyover.Inputs

def router : (c : RouterClass) → c.State → Router
  | .flov, s => s.toRouter
  | .gflov, s => s
  | .rflov, s => s

def datapath : (c : RouterClass) → c.Inputs → Datapath
  | .flov, inp => inp.datapath
  | .gflov, inp => inp.datapath
  | .rflov, inp => inp.datapath

/-- A cycle up to `PowerStateEvaluate`. -/
def hear (n : Node k) : (c : RouterClass) → c.State → c.Inputs →
    (Port → Option Handshake) → Except AssertFailure c.State
  | .flov, s, inp, rx => do
      let changed := FLOVRouter.changePolicy n inp.policyCalls s
      let r ← FLOVRouter.handshakeEvaluate n rx (changed.toRouter.setInputs inp.toInputs)
      pure { changed with toRouter := r }
  | .gflov, s, inp, rx => GFLOVRouter.handshakeEvaluate n rx (s.setInputs inp)
  | .rflov, s, inp, rx => RFLOVRouter.handshakeEvaluate (s.setInputs inp) rx

/-- `PowerStateEvaluate` -/
def evaluate (cfg : Config k) (n : Node k) (d : Datapath) :
    (c : RouterClass) → c.State → Except AssertFailure c.State
  | .flov, s => do
      let r ← FLOVRouter.powerStateEvaluate s.flovPolicy cfg n d s.toRouter
      pure { s with toRouter := r }
  | .gflov, s => GFLOVRouter.powerStateEvaluate cfg n d s
  | .rflov, s => RFLOVRouter.powerStateEvaluate cfg n d s

/-- A cycle after `PowerStateEvaluate`. -/
def finish (n : Node k) (d : Datapath) : (c : RouterClass) → c.State →
    Except AssertFailure (c.State × (Port → Option Handshake))
  | .flov, s => do
      let r ← s.toRouter.internalStep n d
      let (r, tx) ← r.outputQueuing
      pure ({ s with toRouter := r }, tx)
  | .gflov, s => do
      let r ← Router.internalStep n d s
      r.outputQueuing
  | .rflov, s => (RFLOVRouter.internalStep n d s).outputQueuing

/-- One cycle of the router. -/
def cycle (cfg : Config k) : (c : RouterClass) → Cycle k c.State c.Inputs
  | .flov => FLOVRouter.cycle cfg
  | .gflov => GFLOVRouter.cycle cfg
  | .rflov => RFLOVRouter.cycle cfg

/-- What the router queues at an inner port when its state changes from that of `s` to
that of `s'`. -/
def announcement (n : Node k) (c : RouterClass) (s s' : c.State) (p : Port) : Handshake :=
  match c with
  | .rflov => RFLOVRouter.announcement n (router .rflov s').powerState ((router .rflov s).ports p)
  | c => downstreamAnnouncement n (c.router s) (c.router s') p

theorem cycle_eq (cfg : Config k) (n : Node k) (c : RouterClass) (s : c.State) (inp : c.Inputs)
    (rx : Port → Option Handshake) :
    c.cycle cfg n s inp rx = (do
      let heard ← c.hear n s inp rx
      let moved ← c.evaluate cfg n (c.datapath inp) heard
      c.finish n (c.datapath inp) moved) := by
  cases c with
  | flov => simp only [cycle, FLOVRouter.cycle, FLOVRouter.routerCycle, hear, evaluate, finish,
      datapath, bind_assoc, pure_bind]
  | gflov => rfl
  | rflov => rfl

end RouterClass

open Router (SameDrain)

/-- Nothing but timers, signals and what is known of the neighbours changes. -/
structure OnlyHears (r s : Router) : Prop where
  powerState : s.powerState = r.powerState
  drainTimer : r.drainTimer ≤ s.drainTimer
  reqHid : ∀ p, (s.ports p).reqHid = (r.ports p).reqHid

namespace OnlyHears

variable {r s t : Router}

theorem trans (h : OnlyHears r s) (h' : OnlyHears s t) : OnlyHears r t where
  powerState := h'.powerState.trans h.powerState
  drainTimer := h.drainTimer.trans h'.drainTimer
  reqHid := fun p => (h'.reqHid p).trans (h.reqHid p)

theorem of_same (h : SameDrain r s) : OnlyHears r s where
  powerState := h.powerState
  drainTimer := h.drainTimer.ge
  reqHid := h.reqHid

theorem setInputs (r : Router) (inp : Inputs) : OnlyHears r (r.setInputs inp) := by
  refine ⟨r.setInputs_powerState inp, ?_, fun p => by rw [r.setInputs_ports]⟩
  unfold Router.setInputs
  dsimp only
  split
  · unfold Router.idleDetected
    dsimp only
    split
    · exact Int.le_add_one le_rfl
    · exact le_rfl
  · exact le_rfl

theorem changePolicy (n : Node k) (calls : List PolicyCall) (r : FLOVRouter) :
    OnlyHears r.toRouter (FLOVRouter.changePolicy n calls r).toRouter := by
  unfold FLOVRouter.changePolicy
  induction calls generalizing r with
  | nil => exact of_same (.refl _)
  | cons call rest ih =>
      refine trans (of_same ?_) (ih _)
      cases call with
      | aggress =>
          dsimp only [FLOVRouter.aggressFLOVPolicy]
          split <;> exact .refl _
      | regress =>
          dsimp only [FLOVRouter.regressFLOVPolicy]
          split <;> exact ⟨rfl, rfl, fun _ => rfl⟩

end OnlyHears

namespace RouterClass

variable {cfg : Config k} {n : Node k} {d : Datapath} {c : RouterClass} {s s' : c.State}

theorem hear_onlyHears {inp : c.Inputs} {rx : Port → Option Handshake} :
    Ensures (c.hear n s inp rx) fun s' => OnlyHears (c.router s) (c.router s') := by
  cases c with
  | flov =>
      refine Ensures.bind (FLOVRouter.handshakeEvaluate_sameDrain n rx _) ?_
      intro r hr
      have hcalled := OnlyHears.changePolicy n inp.policyCalls s
      exact .pure ((hcalled.trans (.setInputs _ _)).trans (.of_same hr))
  | gflov =>
      exact (GFLOVRouter.handshakeEvaluate_sameDrain n rx _).mono fun r hr =>
        (OnlyHears.setInputs s inp).trans (.of_same hr)
  | rflov =>
      exact (RFLOVRouter.handshakeEvaluate_sameDrain _ rx).mono fun r hr =>
        (OnlyHears.setInputs s inp).trans (.of_same hr)

theorem evaluate_powerStep :
    Ensures (c.evaluate cfg n d s) fun s' => PowerStep (c.router s) (c.router s') := by
  cases c with
  | flov => exact (PowerStep.flov s.flovPolicy).bind fun r hr => .pure hr
  | gflov => exact PowerStep.gflov
  | rflov => exact PowerStep.rflov

/-- The calls of `PowerStateEvaluate` in the state, whichever policy is in force. -/
theorem evaluate_leaves (hstate : (c.router s).powerState = .draining)
    (hok : c.evaluate cfg n d s = .ok s') :
    LeavesDraining n d (c.announcement n s s') (c.router s) (c.router s') ∨
      KeepsDraining cfg (c.router s) (c.router s') := by
  cases c with
  | flov =>
      obtain ⟨r, hr, hs'⟩ := bind_ok.mp hok
      obtain rfl := pure_ok.mp hs'
      obtain ⟨-, hr⟩ := require_bind_ok.mp hr
      have hstate : s.powerState = .draining := hstate
      cases hpolicy : s.flovPolicy with
      | gflov =>
          rw [hpolicy] at hr
          dsimp only [FLOVRouter.gflovPowerStateEvaluate] at hr
          rw [hstate] at hr
          exact drainingEvaluate_leaves hstate hr
      | rflov =>
          rw [hpolicy] at hr
          dsimp only [FLOVRouter.rflovPowerStateEvaluate] at hr
          rw [hstate] at hr
          exact drainingEvaluate_leaves hstate hr
      | noflov =>
          rw [hpolicy] at hr
          dsimp only [FLOVRouter.noflovPowerStateEvaluate] at hr
          rw [hstate] at hr
          exact .inl (stopDraining_leaves hr rfl rfl)
  | gflov =>
      obtain ⟨-, hr⟩ := require_bind_ok.mp hok
      have hstate : Router.powerState s = .draining := hstate
      rw [hstate] at hr
      exact drainingEvaluate_leaves hstate hr
  | rflov =>
      obtain ⟨-, hr⟩ := require_bind_ok.mp hok
      have hstate : Router.powerState s = .draining := hstate
      rw [hstate] at hr
      exact RFLOVRouter.drainingEvaluate_leaves hstate hr

theorem finish_sameDrain :
    Ensures (c.finish n d s) fun out => SameDrain (c.router s) (c.router out.1) := by
  have hqueuing : ∀ r t : Router, SameDrain r t →
      Ensures t.outputQueuing fun out => SameDrain r out.1 := by
    intro r t ht out hout
    obtain ⟨hout, -⟩ := Router.outputQueuing_ok hout
    rw [hout]
    exact ⟨ht.powerState, ht.drainTimer, ht.reqHid⟩
  have hstep : ∀ r : Router, Ensures (r.internalStep n d) (SameDrain r) := by
    intro r
    refine Ensures.ite (fun _ => .pure (.refl r)) fun _ => ?_
    apply Ensures.bind_any; intro _
    exact .pure ((SameDrain.refl r).sendDrainDone n _)
  cases c with
  | flov =>
      refine Ensures.bind (hstep s.toRouter) ?_
      intro r hr
      refine Ensures.bind (hqueuing s.toRouter r hr) ?_
      intro out hout
      exact .pure hout
  | gflov => exact (hstep s).bind fun r hr => hqueuing s r hr
  | rflov =>
      apply hqueuing
      unfold RFLOVRouter.internalStep
      split
      · exact .refl _
      · exact (SameDrain.refl _).sendDrainDone n _

end RouterClass

/-- A run of `N` turns from any state, with what each call of `PowerStateEvaluate` finds
and leaves. -/
structure RouterRun (c : RouterClass) (cfg : Config k) (n : Node k) (N : Nat) where
  state : Nat → c.State
  inputs : Nat → c.Inputs
  rx : Nat → Port → Option Handshake
  heard : Nat → c.State
  moved : Nat → c.State
  tx : Nat → Port → Option Handshake
  hear : ∀ i < N, c.hear n (state i) (inputs i) (rx i) = .ok (heard i)
  evaluate : ∀ i < N, c.evaluate cfg n (c.datapath (inputs i)) (heard i) = .ok (moved i)
  finish : ∀ i < N, c.finish n (c.datapath (inputs i)) (moved i) = .ok (state (i + 1), tx i)

namespace RouterRun

variable {c : RouterClass} {cfg : Config k} {n : Node k} {N : Nat}

/-- The runs are the sequences of cycles. -/
theorem exists_of_cycle (state : Nat → c.State) (inputs : Nat → c.Inputs)
    (rx tx : Nat → Port → Option Handshake)
    (h : ∀ i < N, c.cycle cfg n (state i) (inputs i) (rx i) = .ok (state (i + 1), tx i)) :
    ∃ run : RouterRun c cfg n N, run.state = state := by
  have hparts : ∀ i, ∃ heard moved, i < N →
      c.hear n (state i) (inputs i) (rx i) = .ok heard ∧
      c.evaluate cfg n (c.datapath (inputs i)) heard = .ok moved ∧
      c.finish n (c.datapath (inputs i)) moved = .ok (state (i + 1), tx i) := by
    intro i
    by_cases hi : i < N
    · have hcycle := h i hi
      rw [c.cycle_eq] at hcycle
      obtain ⟨heard, hheard, hcycle⟩ := bind_ok.mp hcycle
      obtain ⟨moved, hmoved, hcycle⟩ := bind_ok.mp hcycle
      exact ⟨heard, moved, fun _ => ⟨hheard, hmoved, hcycle⟩⟩
    · exact ⟨state i, state i, fun hlt => absurd hlt hi⟩
  choose heard moved hparts using hparts
  exact ⟨{
    state := state
    inputs := inputs
    rx := rx
    heard := heard
    moved := moved
    tx := tx
    hear := fun i hi => (hparts i hi).1
    evaluate := fun i hi => (hparts i hi).2.1
    finish := fun i hi => (hparts i hi).2.2 }, rfl⟩

variable (run : RouterRun c cfg n N)

theorem cycle {i : Nat} (hi : i < N) :
    c.cycle cfg n (run.state i) (run.inputs i) (run.rx i) = .ok (run.state (i + 1), run.tx i) := by
  rw [c.cycle_eq, run.hear i hi]
  change (do
    let moved ← c.evaluate cfg n (c.datapath (run.inputs i)) (run.heard i)
    c.finish n (c.datapath (run.inputs i)) moved) = _
  rw [run.evaluate i hi]
  exact run.finish i hi

/-- The router between two turns. -/
def router (i : Nat) : Router := c.router (run.state i)

/-- The router when `PowerStateEvaluate` is called. -/
def before (i : Nat) : Router := c.router (run.heard i)

/-- The router after this call. -/
def after (i : Nat) : Router := c.router (run.moved i)

/-- The router begins to drain in this turn. -/
def EntersDraining (i : Nat) : Prop :=
  (run.router i).powerState ≠ .draining ∧ (run.router (i + 1)).powerState = .draining

/-- The router stops draining in this turn and tells its neighbours under an id that it
has not used before. -/
structure ExitsDraining (i : Nat) : Prop where
  draining : (run.before i).powerState = .draining
  leaves : LeavesDraining n (c.datapath (run.inputs i))
    (c.announcement n (run.heard i) (run.moved i)) (run.before i) (run.after i)
  unused : ∀ p, n.edge p = false → ∀ j ≤ i, ((run.router j).ports p).reqHid <
    (c.announcement n (run.heard i) (run.moved i) p).hid

variable {run} {i j : Nat}

theorem before_onlyHears (hi : i < N) : OnlyHears (run.router i) (run.before i) :=
  RouterClass.hear_onlyHears _ (run.hear i hi)

theorem after_powerStep (hi : i < N) : PowerStep (run.before i) (run.after i) :=
  RouterClass.evaluate_powerStep _ (run.evaluate i hi)

theorem next_sameDrain (hi : i < N) : SameDrain (run.after i) (run.router (i + 1)) :=
  RouterClass.finish_sameDrain _ (run.finish i hi)

/-- The counters of the request ids only go up. -/
theorem reqHid_mono (hij : i ≤ j) (hj : j ≤ N) (p : Port) :
    ((run.router i).ports p).reqHid ≤ ((run.router j).ports p).reqHid := by
  induction j, hij using Nat.le_induction with
  | base => exact le_rfl
  | succ j hij ih =>
      calc ((run.router i).ports p).reqHid
        _ ≤ ((run.router j).ports p).reqHid := ih (Nat.le_of_succ_le hj)
        _ = ((run.before j).ports p).reqHid := ((before_onlyHears hj).reqHid p).symm
        _ ≤ ((run.after j).ports p).reqHid := (after_powerStep hj).reqHid p
        _ = ((run.router (j + 1)).ports p).reqHid := ((next_sameDrain hj).reqHid p).symm

/-- One call in the state. -/
theorem exits_or_keeps (hi : i < N) (hstate : (run.router i).powerState = .draining) :
    run.ExitsDraining i ∨ KeepsDraining cfg (run.before i) (run.after i) := by
  have hbefore : (run.before i).powerState = .draining :=
    (before_onlyHears hi).powerState.trans hstate
  rcases RouterClass.evaluate_leaves hbefore (run.evaluate i hi) with hleaves | hkeeps
  · refine .inl ⟨hbefore, hleaves, fun p hp j hj => ?_⟩
    rw [(hleaves.fresh p hp).1]
    apply Int.lt_add_one_of_le
    have hheard : ((run.before i).ports p).reqHid = ((run.router i).ports p).reqHid :=
      (before_onlyHears hi).reqHid p
    exact (reqHid_mono hj hi.le p).trans hheard.ge
  · exact .inr hkeeps

/-- How long a drain has lasted: as long as the router does not leave the state, the
timer is at least the number of turns since it began and at most the threshold. -/
theorem exits_or_drains (henters : run.EntersDraining i) {m : Nat} (hm : i + m < N) :
    (∃ j, i < j ∧ j ≤ i + m ∧ run.ExitsDraining j) ∨
      (run.router (i + m + 1)).powerState = .draining ∧
        (m : Int) ≤ (run.router (i + m + 1)).drainTimer ∧
        (0 < m → (run.router (i + m + 1)).drainTimer ≤ cfg.drainThreshold) := by
  induction m with
  | zero =>
      refine .inr ⟨henters.2, ?_, nofun⟩
      have hnext : SameDrain (run.after (i + 0)) (run.router (i + 0 + 1)) := next_sameDrain hm
      have hbefore : (run.before (i + 0)).powerState ≠ .draining := by
        rw [(before_onlyHears hm).powerState]
        exact henters.1
      rw [hnext.drainTimer, (after_powerStep hm).starts hbefore (hnext.powerState ▸ henters.2)]
      exact le_rfl
  | succ m ih =>
      rcases ih (Nat.lt_of_succ_lt hm) with ⟨j, hij, hjm, hexits⟩ | ⟨hstate, htimer, -⟩
      · exact .inl ⟨j, hij, hjm.trans (Nat.le_succ _), hexits⟩
      · rcases exits_or_keeps hm hstate with hexits | hkeeps
        · exact .inl ⟨i + (m + 1), Nat.lt_add_of_pos_right m.succ_pos, le_rfl, hexits⟩
        · have hnext : SameDrain (run.after (i + (m + 1))) (run.router (i + (m + 1) + 1)) :=
            next_sameDrain hm
          refine .inr ⟨hnext.powerState.trans hkeeps.powerState, ?_, fun _ => ?_⟩
          · rw [hnext.drainTimer, hkeeps.drainTimer, Nat.cast_add_one]
            exact Int.add_le_add_right (htimer.trans (before_onlyHears hm).drainTimer) 1
          · rw [hnext.drainTimer]
            exact hkeeps.threshold

end RouterRun

/-- A drain lasts for one call more than the threshold, and for one call in any case. -/
def drainBound (cfg : Config k) : Nat := max 1 (cfg.drainThreshold + 1).toNat

theorem drainBound_of_nonneg {cfg : Config k} (h : 0 ≤ cfg.drainThreshold) :
    (drainBound cfg : Int) = cfg.drainThreshold + 1 := by
  unfold drainBound
  omega

/-- Draining is bounded, and no exit from it leaves anything behind. -/
theorem RouterRun.draining_bounded {c : RouterClass} {cfg : Config k} {n : Node k} {N : Nat}
    (run : RouterRun c cfg n N) :
    (∀ i < N, (run.before i).powerState = .draining → (run.after i).powerState ≠ .draining →
      run.ExitsDraining i) ∧
    ∀ i, run.EntersDraining i → i + drainBound cfg < N →
      ∃ j, i < j ∧ j ≤ i + drainBound cfg ∧ run.ExitsDraining j := by
  constructor
  · intro i hi hbefore hafter
    rw [(before_onlyHears hi).powerState] at hbefore
    rcases exits_or_keeps hi hbefore with hexits | hkeeps
    · exact hexits
    · exact absurd hkeeps.powerState hafter
  · intro i henters hbound
    rcases exits_or_drains henters hbound with hexits | ⟨-, htimer, hthreshold⟩
    · exact hexits
    · have hpositive : 0 < drainBound cfg := Nat.lt_of_lt_of_le Nat.one_pos (Nat.le_max_left _ _)
      have hlasts := htimer.trans (hthreshold hpositive)
      unfold drainBound at hlasts
      omega

/-- A router gives up a drain at once. -/
def Config.impatient (k : Nat) : Config k := { Config.short k with drainThreshold := 0 }

/-- A router in the middle of the mesh that is not wanted begins to drain, gets no answer
and gives up in the next turn. -/
theorem RouterRun.draining_bounded_impatient :
    ∃ run : RouterRun .rflov (Config.impatient 3) 4 2,
      run.EntersDraining 0 ∧ ∃ j, 0 < j ∧ j ≤ 0 + 1 ∧ run.ExitsDraining j := by
  obtain ⟨⟨first, tx⟩, hfirst, htest⟩ := exists_of_succeeds
    (RFLOVRouter.cycle (Config.impatient 3) 4 (Router.initial (k := 3) 4)
      (Inputs.quiet false) fun _ => none)
    (fun out => decide (out.1.powerState = .draining) &&
      succeeds (RFLOVRouter.cycle (Config.impatient 3) 4 out.1
        (Inputs.quiet false) fun _ => none) fun _ => true) rfl
  rw [Bool.and_eq_true, decide_eq_true_eq] at htest
  obtain ⟨⟨second, tx'⟩, hsecond, -⟩ := exists_of_succeeds _ _ htest.2
  let state : Nat → Router
    | 0 => Router.initial (k := 3) 4
    | 1 => first
    | _ => second
  have hcycle : ∀ i < 2, RFLOVRouter.cycle (Config.impatient 3) 4 (state i)
      (Inputs.quiet false) (fun _ => none) = .ok (state (i + 1), if i = 0 then tx else tx') := by
    intro i hi
    match i, hi with
    | 0, _ => exact hfirst
    | 1, _ => exact hsecond
  obtain ⟨run, hstate⟩ := exists_of_cycle (c := .rflov) state (fun _ => Inputs.quiet false)
    (fun _ _ => none) (fun i => if i = 0 then tx else tx') hcycle
  have henters : run.EntersDraining 0 := by
    unfold EntersDraining RouterRun.router
    rw [hstate]
    exact ⟨nofun, htest.1⟩
  exact ⟨run, henters, run.draining_bounded.2 0 henters (by decide)⟩

end Flyover
