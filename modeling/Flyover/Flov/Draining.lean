import Flyover.Flov.Views
import Flyover.Timeline

/-!
# Draining, in time

What a router looks at before it starts to drain and before it goes off, what
its neighbours hear of it and when, and how long it drains at least.
-/

namespace Flyover.FLOVRouter

variable {k : Nat}

theorem announce_powerState {n : Node k} {fill : Port → Handshake → Handshake} {r r' : Router}
    (hok : r.announce n fill = .ok r') : r'.powerState = r.powerState := by
  rw [(announce_ok hok).2]
  rfl

theorem announce_drainTag {n : Node k} {fill : Port → Handshake → Handshake} {r r' : Router}
    (hok : r.announce n fill = .ok r') (p : Port) :
    (r'.ports p).drainTag = (r.ports p).drainTag := by
  rw [(announce_ok hok).2]
  simp only [Router.queueHandshakes]
  split <;> rfl

section Guards

variable {policy : FLOVPolicy} {cfg : Config k} {n : Node k} {d : Datapath} {r r' : Router}

/-- What a router has seen to when it goes off. -/
structure Drained (policy : FLOVPolicy) (n : Node k) (r : Router) : Prop where
  tags : ∀ p, (r.ports p).drainTag = true
  priority : ∀ p, n.edge p = false → p.higherPriority = true →
    ¬ ((r.ports p).downstreamState = .draining ∧ (r.ports p).neighborState = .draining)
  alone : policy = .gflov ∨
    policy = .rflov ∧ ∀ p, n.edge p = false → (r.ports p).neighborState ≠ .powerOff

theorem drainingEvaluate_cases {stop : Bool} (hok : r.drainingEvaluate cfg n d stop = .ok r') :
    r'.powerState = .powerOn ∨ (r'.powerState = .powerOff ∧ stop = false ∧ r.allDrainTags = true) ∨
      (r'.powerState = r.powerState ∧ r'.ports = r.ports) := by
  dsimp only [Router.drainingEvaluate] at hok
  split at hok
  next => exact .inl (announce_powerState hok)
  next hstop =>
    simp only [Bool.or_eq_true, not_or, Bool.not_eq_true] at hstop
    split at hok
    next hdone =>
      rw [Bool.and_eq_true] at hdone
      exact .inr (.inl ⟨announce_powerState hok, hstop.2, hdone.1⟩)
    next =>
      split at hok
      next => exact .inl (announce_powerState hok)
      next =>
        obtain rfl := pure_ok.mp hok
        exact .inr (.inr ⟨rfl, rfl⟩)

theorem tags_of_allDrainTags (h : r.allDrainTags = true) (p : Port) :
    (r.ports p).drainTag = true :=
  List.all_eq_true.mp h p (Port.mem_all p)

theorem draining_cases (hok : powerStateEvaluate policy cfg n d r = .ok r')
    (hdraining : r.powerState = .draining) :
    r'.powerState = .powerOn ∨ (r'.powerState = .powerOff ∧ Drained policy n r) ∨
      (r'.powerState = r.powerState ∧ r'.ports = r.ports) := by
  obtain ⟨-, hok⟩ := require_bind_ok.mp hok
  cases policy with
  | gflov =>
      simp only [gflovPowerStateEvaluate, hdraining] at hok
      refine (drainingEvaluate_cases hok).imp_right (Or.imp_left ?_)
      rintro ⟨hoff, hstop, htags⟩
      rw [Bool.or_eq_false_iff, Router.priorityDraining, Port.any_eq_false] at hstop
      refine ⟨hoff, tags_of_allDrainTags htags, fun p _ hpriority hboth => ?_, .inl rfl⟩
      have hlower := hstop.1 p
      rw [hboth.1, hpriority] at hlower
      exact absurd hlower (by decide)
  | rflov =>
      simp only [rflovPowerStateEvaluate, hdraining] at hok
      refine (drainingEvaluate_cases hok).imp_right (Or.imp_left ?_)
      rintro ⟨hoff, hstop, htags⟩
      rw [anyNeighbor, Port.any_eq_false] at hstop
      refine ⟨hoff, tags_of_allDrainTags htags, fun p hp hpriority hboth => ?_,
        .inr ⟨rfl, fun p hp hneighbor => ?_⟩⟩
      · have hlower := hstop p
        rw [hp, hboth.2, hpriority] at hlower
        exact absurd hlower (by decide)
      · have halone := hstop p
        rw [hp, hneighbor] at halone
        simp at halone
  | noflov =>
      simp only [noflovPowerStateEvaluate, hdraining] at hok
      exact .inl (announce_powerState hok)

theorem startDraining_drainTag {tags : Port → Bool} (hok : r.startDraining n tags = .ok r')
    (p : Port) : (r'.ports p).drainTag = tags p := by
  rw [announce_drainTag hok]
  simp [Router.setDrainTags, Router.clearDrainTags]

/-- A router that starts to drain is not wanted, and its drain tags are set where
there is nobody to ask. -/
theorem startDraining_cases (hok : powerStateEvaluate policy cfg n d r = .ok r')
    (hon : r.powerState = .powerOn) :
    r'.powerState = .powerOn ∨
      r.routerState = false ∧ ∀ p, (r'.ports p).drainTag = drainedAtOnce n r p := by
  obtain ⟨-, hok⟩ := require_bind_ok.mp hok
  cases policy with
  | gflov =>
      simp only [gflovPowerStateEvaluate, hon] at hok
      split at hok
      next =>
        obtain rfl := pure_ok.mp hok
        exact .inl rfl
      next =>
        split at hok
        next hguard =>
          rw [Bool.and_eq_true, Bool.not_eq_true'] at hguard
          exact .inr ⟨hguard.1, startDraining_drainTag hok⟩
        next =>
          obtain rfl := pure_ok.mp hok
          exact .inl hon
  | rflov =>
      simp only [rflovPowerStateEvaluate, hon] at hok
      split at hok
      next =>
        obtain rfl := pure_ok.mp hok
        exact .inl rfl
      next =>
        split at hok
        next hguard =>
          rw [Bool.and_eq_true, Bool.not_eq_true'] at hguard
          exact .inr ⟨hguard.1, startDraining_drainTag hok⟩
        next =>
          obtain rfl := pure_ok.mp hok
          exact .inl hon
  | noflov =>
      simp only [noflovPowerStateEvaluate, hon] at hok
      obtain rfl := pure_ok.mp hok
      exact .inl rfl

/-- A router that stays off keeps its wakeup signal. -/
theorem off_keeps_signal (hok : powerStateEvaluate policy cfg n d r = .ok r')
    (hoff : r.powerState = .powerOff) (hoff' : r'.powerState = .powerOff) :
    r'.wakeupSignal = r.wakeupSignal := by
  obtain ⟨-, hok⟩ := require_bind_ok.mp hok
  have hwakes : ∀ {tags} {s : Router}, s.startWakeup n tags = .ok r' → False := by
    intro tags s hwakeup
    have hstate := announce_powerState hwakeup
    rw [hoff'] at hstate
    cases hstate
  cases policy with
  | gflov =>
      simp only [gflovPowerStateEvaluate, hoff] at hok
      rw [← pure_ok.mp hok]
  | rflov =>
      simp only [rflovPowerStateEvaluate, hoff] at hok
      split at hok
      next =>
        split at hok
        next => exact (hwakes hok).elim
        next => rw [← pure_ok.mp hok]
      next => rw [← pure_ok.mp hok]
  | noflov =>
      simp only [noflovPowerStateEvaluate, hoff] at hok
      split at hok
      next => exact (hwakes hok).elim
      next => rw [← pure_ok.mp hok]

end Guards

/-- A cycle in its parts, with the policy and the inputs it ran under. -/
structure Turn (cfg : Config k) (n : Node k) (inp : FLOVInputs) (r r' : FLOVRouter)
    (rx tx : Port → Option Handshake) (heard moved : Router) : Prop where
  parts : ∃ base, CycleParts n r.toRouter rx r'.toRouter tx base heard moved
  policy : r'.flovPolicy = (changePolicy n inp.policyCalls r).flovPolicy
  decides : powerStateEvaluate r'.flovPolicy cfg n inp.datapath heard = .ok moved
  heardState : heard.powerState = r.powerState
  heardSignal : heard.wakeupSignal =
    ((changePolicy n inp.policyCalls r).wakeupSignal || inp.wakeUp)
  routerState : heard.routerState = inp.routerState
  signal : r'.wakeupSignal = moved.wakeupSignal

theorem internalStep_wakeupSignal {n : Node k} {d : Datapath} {r r' : Router}
    (hok : r.internalStep n d = .ok r') : r'.wakeupSignal = r.wakeupSignal := by
  unfold Router.internalStep at hok
  split at hok
  next => rw [← pure_ok.mp hok]
  next =>
    obtain ⟨-, hok⟩ := require_bind_ok.mp hok
    rw [← pure_ok.mp hok]
    rfl

theorem setInputs_wakeupSignal (r : Router) (inp : Inputs) :
    (r.setInputs inp).wakeupSignal = (r.wakeupSignal || inp.wakeUp) ∧
      (r.setInputs inp).routerState = inp.routerState := ⟨rfl, rfl⟩

theorem cycle_turn {cfg : Config k} {n : Node k} {r r' : FLOVRouter} {inp : FLOVInputs}
    {rx tx : Port → Option Handshake} (hinner : ∀ p, n.edge p = true → rx p = none)
    (hok : cycle cfg n r inp rx = .ok (r', tx)) :
    ∃ heard moved, Turn cfg n inp r r' rx tx heard moved := by
  obtain ⟨⟨s, sent⟩, hrouter, hend⟩ := bind_ok.mp hok
  obtain ⟨rfl, rfl⟩ := Prod.mk.inj (pure_ok.mp hend)
  simp only [routerCycle, bind_ok] at hrouter
  obtain ⟨heard, hheard, moved, hmoved, done, hdone, hend⟩ := hrouter
  obtain ⟨rfl, rfl⟩ := Router.outputQueuing_ok hend
  obtain ⟨hstate, hresponds⟩ := internalStep_ok hdone
  obtain ⟨hpolicy, hports⟩ := changePolicy_router n inp.policyCalls r
  have hevaluated := handshakeEvaluate_ok hinner hheard
  obtain ⟨hsignal, hwanted⟩ :=
    setInputs_wakeupSignal (changePolicy n inp.policyCalls r).toRouter inp.toInputs
  have hkept := internalStep_wakeupSignal hdone
  refine ⟨heard, moved, ⟨_, by simpa using hpolicy, by simpa using hports, hevaluated,
    powerStateEvaluate_ok hmoved, hstate, fun _ => rfl, hresponds⟩, rfl, hmoved, ?_, ?_, ?_, hkept⟩
  · rw [hevaluated.same]
    simpa using hpolicy
  · rw [hevaluated.same, ← hsignal]
  · rw [hevaluated.same, ← hwanted]

/-- What goes to a neighbour in a cycle in which the power state changes from `ps`
to `ps'`, or stays; `behind` is what is known of the direction away from it. -/
inductive Sends (n : Node k) (rx : Option Handshake) (ps ps' : PowerState) (behind : View)
    (t : Handshake) : Prop where
  | announcement :
      Transition ps ps' →
      t.newState = some (if ps' = .powerOff then behind.downstreamState else ps') →
      t.srcState = some ps' →
      t.id = n.val →
      Sends n rx ps ps' behind t
  | relay (h : Handshake) :
      ps = .powerOff → ps' = .powerOff →
      h ∈ rx → t.newState = h.newState → t.id = h.id →
      Sends n rx ps ps' behind t
  | acknowledgement : ps' = ps → t.newState = none → Sends n rx ps ps' behind t

section Sends

variable {cfg : Config k} {n : Node k} {inp : FLOVInputs} {r r' : FLOVRouter}
  {rx tx : Port → Option Handshake} {heard moved : Router}

/-- A change of the power state is announced at every inner port. -/
theorem Turn.announces (h : Turn cfg n inp r r' rx tx heard moved) {p : Port}
    (hp : n.edge p = false) (hchange : r'.powerState ≠ r.powerState) :
    ∃ t, tx p = some t ∧
      t.newState = some (if r'.powerState = .powerOff then (heard.ports p.opp).downstreamState
        else r'.powerState) ∧
      t.srcState = some r'.powerState ∧ t.id = n.val := by
  obtain ⟨base, hparts⟩ := h.parts
  have hresponds := hparts.responds p
  rw [hparts.final, ← h.heardState] at hchange
  rw [hparts.final]
  cases hparts.move with
  | stay hkept => exact absurd hkept hchange
  | change _ hannounce =>
      rw [hannounce, if_neg (by simp [hp])] at hresponds
      obtain ⟨t, htx, hnew, hsrc, -, hid⟩ := hresponds.of_some
      refine ⟨t, htx, ?_, hsrc, hid.elim id id⟩
      rw [hnew, announcement]
      split <;> rfl

/-- Nothing else goes out but relayed handshakes and acknowledgements. -/
theorem Turn.sends (h : Turn cfg n inp r r' rx tx heard moved) {p : Port}
    (hp : n.edge p = false) :
    ∀ t ∈ tx p, Sends n (rx p.opp) r.powerState r'.powerState (heard.ports p.opp).view t := by
  intro t ht
  obtain ⟨base, hparts⟩ := h.parts
  have hresponds := hparts.responds p
  rw [hparts.final, ← h.heardState]
  cases hparts.move with
  | change hchange hannounce =>
      rw [hannounce, if_neg (by simp [hp])] at hresponds
      obtain ⟨t', htx, hnew, hsrc, -, hid⟩ := hresponds.of_some
      obtain rfl := Option.some.inj (htx.symm.trans ht)
      refine .announcement hchange ?_ hsrc (hid.elim id id)
      rw [hnew, announcement]
      split <;> rfl
  | stay hkept hqueue =>
      have hqueued := hparts.evaluated.queued p
      rw [hqueue] at hresponds
      have hsilent : heard.outQueueHandshakes p = none →
          Sends n (rx p.opp) heard.powerState moved.powerState (heard.ports p.opp).view t := by
        intro hnone
        rw [hnone] at hresponds
        exact .acknowledgement hkept (hresponds.of_none t ht).2.1
      cases hstate : heard.powerState with
      | powerOn =>
          rw [Queued, hstate] at hqueued
          exact hstate ▸ hsilent hqueued
      | draining =>
          rw [Queued, hstate] at hqueued
          exact hstate ▸ hsilent hqueued
      | wakeup =>
          rw [Queued, hstate] at hqueued
          rw [hresponds.of_gated (.inr (hkept.trans hstate))] at ht
          exact .acknowledgement (hkept.trans hstate) (hqueued t ht).newState
      | powerOff =>
          rw [Queued, hstate] at hqueued
          rw [hresponds.of_gated (.inl (hkept.trans hstate)), hqueued, if_neg (by simp [hp])] at ht
          obtain ⟨h', hh', hrelayed⟩ := Option.bind_eq_some_iff.mp ht
          obtain ⟨hnew, -, -, hid⟩ := relayed_kept hrelayed
          exact .relay h' rfl (hkept.trans hstate) hh' hnew hid

end Sends

/-- The bottom row stays on, and nobody north of it has ever heard that everything
to the south is off. -/
structure SouthOn (n : Node k) (r : Router) : Prop where
  bottomRow : Router.bottomRow n = true → r.powerState = .powerOn
  record : Router.bottomRow n = false → (r.ports .south).downstreamState ≠ .powerOff

theorem SouthOn.turn {cfg : Config k} {n : Node k} {inp : FLOVInputs} {r r' : FLOVRouter}
    {rx tx : Port → Option Handshake} {heard moved : Router} (h : SouthOn n r.toRouter)
    (hadmissible : Admissible n inp) (hrx : ∀ m ∈ rx .south, m.newState ≠ some .powerOff)
    (hturn : Turn cfg n inp r r' rx tx heard moved) : SouthOn n r'.toRouter := by
  obtain ⟨base, hparts⟩ := hturn.parts
  constructor
  · intro hn
    rw [hparts.final]
    refine (startDraining_cases hturn.decides (hturn.heardState.trans (h.bottomRow hn))).resolve_right ?_
    rintro ⟨hwanted, -⟩
    rw [hturn.routerState, hadmissible hn] at hwanted
    cases hwanted
  · intro hn
    have hview := congrArg View.downstreamState (hparts.view .south)
    change (r'.ports .south).downstreamState = _ at hview
    rw [hview]
    cases hin : rx .south with
    | none => exact h.record hn
    | some m =>
        have hstate := hrx m hin
        change m.newState.getD (r.ports .south).downstreamState ≠ .powerOff
        cases hnew : m.newState with
        | none => exact h.record hn
        | some s => exact fun hoff => hstate (hnew.trans (congrArg some hoff))

/-- What a router knows after a cycle it knew when it decided. -/
theorem Turn.heardView {cfg : Config k} {n : Node k} {inp : FLOVInputs} {r r' : FLOVRouter}
    {rx tx : Port → Option Handshake} {heard moved : Router}
    (h : Turn cfg n inp r r' rx tx heard moved) (p : Port) :
    (heard.ports p).view = (r'.ports p).view := by
  obtain ⟨base, hparts⟩ := h.parts
  rw [(hparts.responds p).kept.1, hparts.move.view]

/-- No router that sends north says that everything to the south is off. -/
def southOn (cfg : Config k) : Lockstep.Invariant (Net.wiring k) (Net.move (cycle cfg) Admissible) where
  node n r := (invariant cfg).node n r ∧ SouthOn n r.toRouter
  msg n p h := (invariant cfg).msg n p h ∧ (p = .south → h.newState ≠ some .powerOff)
  move_node := by
    rintro n r rx r' tx ⟨hnode, hsouth⟩ hrx ⟨inp, hadmissible, hok⟩
    have hrx' : ∀ p, ∀ h ∈ rx p, (invariant cfg).msg n p h := fun p h hh => (hrx p h hh).1
    obtain ⟨heard, moved, hturn⟩ := cycle_turn (inner_of_msg hrx') hok
    exact ⟨(invariant cfg).move_node hnode hrx' ⟨inp, hadmissible, hok⟩,
      hsouth.turn hadmissible (fun h hh => (hrx .south h hh).2 rfl) hturn⟩
  move_msg := by
    rintro n r rx r' tx ⟨hnode, hsouth⟩ hrx ⟨inp, hadmissible, hok⟩ p t ht
    have hrx' : ∀ p, ∀ h ∈ rx p, (invariant cfg).msg n p h := fun p h hh => (hrx p h hh).1
    have hmsg := (invariant cfg).move_msg hnode hrx' ⟨inp, hadmissible, hok⟩ p t ht
    refine ⟨hmsg, fun hp => ?_⟩
    have hp : p = .north := by
      have hopp : p.opp = Port.south := hp
      rw [← Port.opp_opp p, hopp]
      rfl
    subst hp
    obtain ⟨heard, moved, hturn⟩ := cycle_turn (inner_of_msg hrx') hok
    have hafter := hsouth.turn hadmissible (fun h hh => (hrx .south h hh).2 rfl) hturn
    cases hturn.sends ((n.edge_neighbor .north).symm.trans hmsg.1) t ht with
    | announcement _ hnew =>
        rw [hnew, ne_eq, Option.some.injEq]
        split
        next hoff =>
          have hn : Router.bottomRow n = false := by
            by_contra hn
            rw [hafter.bottomRow (by simpa using hn)] at hoff
            cases hoff
          have hrecord := hafter.record hn
          rw [show (r'.ports .south).downstreamState = (r'.ports .south).view.downstreamState
            from rfl, ← hturn.heardView] at hrecord
          exact hrecord
        next hon => exact hon
    | relay h _ _ hh hnew =>
        rw [hnew]
        exact (hrx .south h hh).2 rfl
    | acknowledgement _ hnew =>
        rw [hnew]
        exact nofun

end Flyover.FLOVRouter
