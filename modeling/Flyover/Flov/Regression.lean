import Flyover.Flov.Draining

/-!
# Regression to `rflov`

Under `gflov` neighbouring routers may all go off; under `rflov` no two of them
may. A router that regresses while it is off raises its own wakeup signal if it
knows of a neighbour that is off. That is enough as long as of two neighbours
that go off one has always heard of the other, and this rests on how long a
router drains: the acknowledgement from the south comes after a full round trip.
Acknowledgements are told apart by the requester's number only, and every router
counts for itself, so an acknowledgement made for somebody else may come earlier.
-/

namespace Flyover.FLOVRouter

variable {k : Nat}

/-- A run, cycle by cycle. -/
abbrev History (cfg : Config k) (len : Nat) :=
  Lockstep.Timeline (Net.wiring k) (Net.move (cycle cfg) Admissible) (cfg.latency + 1) len

section History

variable {cfg : Config k} {len : Nat} {tl : History cfg len}

theorem southOn_start : (southOn cfg).Holds (start k).view where
  node n := by
    refine ⟨⟨fun _ => rfl, fun p hp => ?_⟩, fun _ => rfl, fun hn => ?_⟩
    · simp [Net.view, start, Router.initial, hp]
    · rw [← n.edge_south] at hn
      simp [Net.view, start, Router.initial, hn]
  msg n p h hh := by cases hh

theorem History.southOn (hstart : tl.state 0 = (start k).view) {t : Nat} (ht : t ≤ len) :
    (southOn cfg).Holds (tl.state t) :=
  tl.holds (hstart ▸ southOn_start) ht

theorem History.arriving_msg (hstart : tl.state 0 = (start k).view) {t : Nat} (ht : t ≤ len)
    {n : Node k} {p : Port} {h : Handshake} (hh : tl.arriving t n p = some h) :
    (FLOVRouter.southOn cfg).msg n p h :=
  (History.southOn hstart ht).msg n p h (tl.mem_queue hh le_rfl (by omega))

theorem History.turn (hstart : tl.state 0 = (start k).view) {t : Nat} (ht : t < len)
    (n : Node k) : ∃ inp heard moved, Admissible n inp ∧ Turn cfg n inp (tl.node t n)
      (tl.node (t + 1) n) (tl.arriving t n) (tl.sent t n) heard moved := by
  obtain ⟨inp, hadmissible, hok⟩ := tl.moves t ht n
  have hrx : ∀ p, ∀ h ∈ tl.arriving t n p, (invariant cfg).msg n p h :=
    fun p h hh => (History.arriving_msg hstart ht.le hh).1
  obtain ⟨heard, moved, hturn⟩ := cycle_turn (inner_of_msg hrx) hok
  exact ⟨inp, heard, moved, hadmissible, hturn⟩

/-- What arrives is what the neighbour sent. -/
theorem History.arriving_eq (tl : History cfg len) (t : Nat) (n : Node k) (p : Port) :
    tl.arriving (t + (cfg.latency + 1)) n p = tl.sent t (n.neighbor p) p.opp := by
  have harriving := tl.arriving_of_sent t (n.neighbor p) p.opp
  simpa [Node.neighbor_neighbor] using harriving

theorem History.view_succ (hstart : tl.state 0 = (start k).view) {t : Nat} (ht : t < len)
    (n : Node k) (p : Port) : ((tl.node (t + 1) n).ports p).view =
      (tl.arriving t n p).elim ((tl.node t n).ports p).view
        (((tl.node t n).ports p).view.update n) := by
  obtain ⟨inp, heard, moved, -, hturn⟩ := History.turn hstart ht n
  obtain ⟨base, hparts⟩ := hturn.parts
  exact hparts.view p

/-- A router's change is known to its neighbour once it has been told, until the
router changes again. -/
theorem History.announced (hstart : tl.state 0 = (start k).view) {n : Node k} {p : Port}
    (hp : n.edge p = false) {s t : Nat} {ps : PowerState}
    (hchange : (tl.node s (n.neighbor p)).powerState ≠ ps)
    (hkept : ∀ u, s < u → u ≤ t → (tl.node u (n.neighbor p)).powerState = ps) {u : Nat}
    (hsu : s + cfg.latency + 1 < u) (hut : u ≤ t + cfg.latency + 1) (hu : u ≤ len) :
    ((tl.node u n).ports p).neighborState = ps ∧
      (ps ≠ .powerOff → ((tl.node u n).ports p).downstreamState = ps) := by
  have hback : (n.neighbor p).edge p.opp = false := Node.edge_neighbor_eq_false hp
  induction u with
  | zero => omega
  | succ u ih =>
      obtain ⟨v, rfl⟩ : ∃ v, u = v + (cfg.latency + 1) := ⟨u - (cfg.latency + 1), by omega⟩
      obtain ⟨inp, heard, moved, -, hturn⟩ := History.turn hstart (show v < len by omega) (n.neighbor p)
      have hview := History.view_succ hstart (show v + (cfg.latency + 1) < len by omega) n p
      rw [History.arriving_eq] at hview
      have hafter := hkept (v + 1) (by omega) (by omega)
      have hdownstream := congrArg View.downstreamState hview
      have hneighbor := congrArg View.neighborState hview
      change ((tl.node (v + (cfg.latency + 1) + 1) n).ports p).downstreamState = _ at hdownstream
      change ((tl.node (v + (cfg.latency + 1) + 1) n).ports p).neighborState = _ at hneighbor
      rw [hdownstream, hneighbor]
      rcases Nat.lt_or_ge s v with hlater | hnow
      · -- the router stays as it is, and what it sends says nothing about it
        have hbefore := hkept v hlater (by omega)
        obtain ⟨hknown, hknown'⟩ := ih (by omega) (by omega) (by omega)
        cases hsent : tl.sent v (n.neighbor p) p.opp with
        | none => exact ⟨hknown, hknown'⟩
        | some m =>
            rw [Option.elim_some]
            cases hturn.sends hback m hsent with
            | announcement htransition =>
                rw [hbefore, hafter] at htransition
                cases htransition
            | relay h hoff _ hh hnew hid =>
                obtain ⟨-, far, hfar, hhid⟩ := (History.arriving_msg hstart (by omega) hh).1
                rw [Port.opp_opp] at hfar
                have hnear : Router.adjacentTo n m.id = false := by
                  rw [hid, hhid]
                  exact Router.not_adjacentTo_of_ahead hp hfar
                refine ⟨?_, fun hon => absurd (hbefore.symm.trans hoff) hon⟩
                simpa [View.update, hnear, PortState.view] using hknown
            | acknowledgement _ hnew =>
                simpa [View.update, hnew, PortState.view] using ⟨hknown, hknown'⟩
      · -- the announcement arrives
        obtain rfl : v = s := by omega
        obtain ⟨m, hsent, hnew, hsrc, hid⟩ := hturn.announces hback (by rw [hafter]; exact hchange.symm)
        have hnear : Router.adjacentTo n m.id = true := by
          rw [hid]
          exact Router.adjacentTo_neighbor hp
        rw [hsent, Option.elim_some]
        rw [hafter] at hnew hsrc
        refine ⟨by simp [View.update, hnew, hsrc, hnear], fun hon => ?_⟩
        simp [View.update, hnew, hon]

/-- While the request of a draining router is still on its way south, no
acknowledgement with the number of this request is on its way to the router from
there. -/
def FreshRequests (net : Net k FLOVRouter) : Prop :=
  ∀ n : Node k, (net.router n).powerState = .draining →
    (∃ h ∈ net.inFlight (n.neighbor .south) .north,
      h.srcState = some .draining ∧ h.id = n.val) →
    ∀ h ∈ net.inFlight n .south, h.drainDone = true →
      h.hid ≠ ((net.router n).ports .south).reqHid

instance : DecidablePred (FreshRequests (k := k)) := fun net =>
  inferInstanceAs (Decidable (∀ n : Node k, (net.router n).powerState = .draining →
    (∃ h ∈ net.inFlight (n.neighbor .south) .north,
      h.srcState = some .draining ∧ h.id = n.val) →
    ∀ h ∈ net.inFlight n .south, h.drainDone = true →
      h.hid ≠ ((net.router n).ports .south).reqHid))

theorem Turn.stays_draining {n : Node k} {inp : FLOVInputs} {r r' : FLOVRouter}
    {rx tx : Port → Option Handshake} {heard moved : Router}
    (h : Turn cfg n inp r r' rx tx heard moved) (hbefore : r.powerState = .draining)
    (hafter : r'.powerState = .draining) (p : Port) :
    (r'.ports p).reqHid = (r.ports p).reqHid ∧
      (r'.ports p).drainTag = ((r.ports p).drainTag || (rx p).any fun m =>
        m.drainDone && m.hid = (r.ports p).reqHid) := by
  obtain ⟨base, hparts⟩ := h.parts
  have hmoved : moved.powerState = .draining := hparts.final.symm.trans hafter
  have hports : moved.ports = heard.ports := by
    rcases draining_cases h.decides (h.heardState.trans hbefore) with hon | ⟨hoff, -⟩ | ⟨-, hports⟩
    · simp [hmoved] at hon
    · simp [hmoved] at hoff
    · exact hports
  obtain ⟨-, hreq, -, htag⟩ := (hparts.responds p).kept
  have hreceived := hparts.evaluated.received p
  have hstate : base.powerState = .draining := hparts.powerState.trans hbefore
  rw [hparts.ports] at hreceived
  rw [hreq, htag, hports]
  exact ⟨hreceived.reqHid, by simpa [hstate] using hreceived.drainTag⟩

theorem Turn.drained {n : Node k} {inp : FLOVInputs} {r r' : FLOVRouter}
    {rx tx : Port → Option Handshake} {heard moved : Router}
    (h : Turn cfg n inp r r' rx tx heard moved) (hbefore : r.powerState = .draining)
    (hafter : r'.powerState = .powerOff) : Drained r'.flovPolicy n heard := by
  obtain ⟨base, hparts⟩ := h.parts
  have hmoved : moved.powerState = .powerOff := hparts.final.symm.trans hafter
  rcases draining_cases h.decides (h.heardState.trans hbefore) with hon | ⟨-, hdrained⟩ | ⟨hkept, -⟩
  · simp [hmoved] at hon
  · exact hdrained
  · rw [hmoved, h.heardState, hbefore] at hkept
    cases hkept

theorem Turn.transition {n : Node k} {inp : FLOVInputs} {r r' : FLOVRouter}
    {rx tx : Port → Option Handshake} {heard moved : Router}
    (h : Turn cfg n inp r r' rx tx heard moved) (hchange : r'.powerState ≠ r.powerState) :
    Transition r.powerState r'.powerState := by
  obtain ⟨base, hparts⟩ := h.parts
  rw [hparts.final, ← h.heardState] at hchange ⊢
  cases hparts.move with
  | stay hkept => exact absurd hkept hchange
  | change htransition => exact htransition

/-- A router that is not on has been in its state since some change. -/
theorem History.since (hstart : tl.state 0 = (start k).view) {n : Node k} {t : Nat}
    (ht : t ≤ len) {ps : PowerState} (hps : (tl.node t n).powerState = ps) (hne : ps ≠ .powerOn) :
    ∃ s < t, Transition (tl.node s n).powerState ps ∧
      ∀ u, s < u → u ≤ t → (tl.node u n).powerState = ps := by
  induction t with
  | zero =>
      have hinit := congrArg (fun s => (s.node n).powerState) hstart
      exact absurd (hps.symm.trans hinit) hne
  | succ t ih =>
      by_cases hbefore : (tl.node t n).powerState = ps
      · obtain ⟨s, hst, htransition, hkept⟩ := ih (by omega) hbefore
        refine ⟨s, by omega, htransition, fun u hsu hut => ?_⟩
        rcases Nat.lt_or_ge t u with hlast | hearlier
        · obtain rfl : u = t + 1 := by omega
          exact hps
        · exact hkept u hsu hearlier
      · obtain ⟨inp, heard, moved, -, hturn⟩ := History.turn hstart (show t < len by omega) n
        refine ⟨t, by omega, ?_, fun u htu hut => ?_⟩
        · rw [← hps]
          exact hturn.transition (by rw [hps]; exact fun heq => hbefore heq.symm)
        · obtain rfl : u = t + 1 := by omega
          exact hps

/-- A router that drains started to, with no tag to the south. -/
theorem History.started (hstart : tl.state 0 = (start k).view) {n : Node k} {t : Nat}
    (ht : t ≤ len) (hdraining : (tl.node t n).powerState = .draining) :
    ∃ s < t, (tl.node s n).powerState = .powerOn ∧
      (∀ u, s < u → u ≤ t → (tl.node u n).powerState = .draining) ∧
      ((tl.node (s + 1) n).ports .south).drainTag = false := by
  obtain ⟨s, hst, htransition, hkept⟩ := History.since hstart ht hdraining (by decide)
  have hon : (tl.node s n).powerState = .powerOn := by
    generalize (tl.node s n).powerState = ps at htransition
    cases htransition
    rfl
  refine ⟨s, hst, hon, hkept, ?_⟩
  have hafter := hkept (s + 1) (by omega) hst
  obtain ⟨inp, heard, moved, -, hturn⟩ := History.turn hstart (show s < len by omega) n
  obtain ⟨base, hparts⟩ := hturn.parts
  have hsouth := ((History.southOn hstart (show s + 1 ≤ len by omega)).node n).2
  have hn : Router.bottomRow n = false := by
    by_contra hn
    have hbottom := hsouth.bottomRow (by simpa using hn)
    exact absurd (hafter.symm.trans hbottom) (by decide)
  have hrecord := hsouth.record hn
  change ((tl.node (s + 1) n).ports .south).view.downstreamState ≠ .powerOff at hrecord
  rw [← hturn.heardView] at hrecord
  obtain ⟨-, htags⟩ := (startDraining_cases hturn.decides
    (hturn.heardState.trans hon)).resolve_left (by simp [← hparts.final, hafter])
  rw [(hparts.responds .south).kept.2.2.2, htags, drainedAtOnce, n.edge_south, hn,
    Bool.false_or, Router.downstreamOff]
  exact decide_eq_false hrecord

/-- A router that is off went off after draining. -/
theorem History.wentOff (hstart : tl.state 0 = (start k).view) {n : Node k} {t : Nat}
    (ht : t ≤ len) (hoff : (tl.node t n).powerState = .powerOff) :
    ∃ s < t, (tl.node s n).powerState = .draining ∧
      ∀ u, s < u → u ≤ t → (tl.node u n).powerState = .powerOff := by
  obtain ⟨s, hst, htransition, hkept⟩ := History.since hstart ht hoff (by decide)
  refine ⟨s, hst, ?_, hkept⟩
  generalize (tl.node s n).powerState = ps at htransition
  cases htransition
  rfl

/-- The number of a request is that of the draining router, all the time. -/
theorem History.reqHid_eq (hstart : tl.state 0 = (start k).view) {n : Node k} {s t : Nat}
    (ht : t ≤ len) (hkept : ∀ u, s < u → u ≤ t → (tl.node u n).powerState = .draining)
    {u w : Nat} (hsw : s < w) (hwu : w ≤ u) (hut : u ≤ t) (p : Port) :
    ((tl.node u n).ports p).reqHid = ((tl.node w n).ports p).reqHid := by
  induction u, hwu using Nat.le_induction with
  | base => rfl
  | succ u hwu ih =>
      obtain ⟨inp, heard, moved, -, hturn⟩ := History.turn hstart (show u < len by omega) n
      obtain ⟨hreq, -⟩ := hturn.stays_draining (hkept u (by omega) (by omega))
        (hkept (u + 1) (by omega) hut) p
      rw [hreq, ih (by omega)]

section Fresh

variable (hstart : tl.state 0 = (start k).view)
  (hfresh : ∀ t < len, ∃ before, FreshRequests before ∧ tl.state t = before.view)

include hstart hfresh

/-- For a full round trip a draining router gets no acknowledgement from the south. -/
theorem History.no_early_answer {n : Node k} {s t u : Nat} (ht : t < len)
    (hon : (tl.node s n).powerState = .powerOn)
    (hkept : ∀ u, s < u → u ≤ t → (tl.node u n).powerState = .draining) (hsu : s < u)
    (hut : u ≤ t) (hround : u < s + 2 * (cfg.latency + 1)) :
    ((tl.arriving u n .south).any fun m =>
      m.drainDone && m.hid = ((tl.node u n).ports .south).reqHid) = false := by
  cases harrives : tl.arriving u n .south with
  | none => rfl
  | some answer =>
      -- the last cycle before which both the request and the answer are on their way
      obtain ⟨w, hsw, hwu, hws, hanswer⟩ : ∃ w, s < w ∧ w ≤ u ∧ w ≤ s + (cfg.latency + 1) ∧
          u < w + (cfg.latency + 1) :=
        ⟨min u (s + (cfg.latency + 1)), by omega, by omega, by omega, by omega⟩
      obtain ⟨before, hbefore, hview⟩ := hfresh w (by omega)
      have hnode : tl.node w = before.router := congrArg Lockstep.State.node hview
      have hqueue : tl.queue w = before.inFlight := congrArg Lockstep.State.queue hview
      obtain ⟨inp, heard, moved, -, hturn⟩ := History.turn hstart (show s < len by omega) n
      have hdraining := hkept (s + 1) (by omega) (by omega)
      have hinner : n.edge .south = false :=
        (History.arriving_msg hstart (by omega) harrives).1.1
      obtain ⟨request, hsent, -, hsrc, hid⟩ :=
        hturn.announces hinner (by simp [hdraining, hon])
      have hdelivered := tl.arriving_of_sent s n .south
      rw [hsent] at hdelivered
      have hrequest := tl.mem_queue hdelivered hws (by omega)
      rw [hdraining] at hsrc
      have hother := hbefore n (hnode ▸ hkept w hsw (by omega))
        ⟨request, hqueue ▸ hrequest, hsrc, hid⟩ answer
        (hqueue ▸ tl.mem_queue harrives hwu hanswer)
      rw [← hnode, ← History.reqHid_eq hstart ht.le hkept hsw hwu hut] at hother
      rw [Option.any_some, Bool.and_eq_false_imp]
      intro hdone
      exact decide_eq_false (hother hdone)

/-- A router that goes off has been draining for a full round trip. -/
theorem History.drain_lasts {n : Node k} {s t : Nat} (hst : s < t) (ht : t < len)
    (hon : (tl.node s n).powerState = .powerOn)
    (hkept : ∀ u, s < u → u ≤ t → (tl.node u n).powerState = .draining)
    (htag : ((tl.node (s + 1) n).ports .south).drainTag = false)
    (hoff : (tl.node (t + 1) n).powerState = .powerOff) : s + 2 * (cfg.latency + 1) ≤ t := by
  by_contra hshort
  have hclear : ∀ u, s < u → u ≤ t → ((tl.node u n).ports .south).drainTag = false := by
    intro u hsu hut
    induction u, (hsu : s + 1 ≤ u) using Nat.le_induction with
    | base => exact htag
    | succ u hsu' ih =>
        obtain ⟨inp, heard, moved, -, hturn⟩ := History.turn hstart (show u < len by omega) n
        obtain ⟨-, htag'⟩ := hturn.stays_draining (hkept u hsu' (by omega))
          (hkept (u + 1) (by omega) hut) .south
        rw [htag', ih (by omega), Bool.false_or]
        exact History.no_early_answer hstart hfresh ht hon hkept hsu' (by omega) (by omega)
  obtain ⟨inp, heard, moved, -, hturn⟩ := History.turn hstart ht n
  obtain ⟨base, hparts⟩ := hturn.parts
  have hdone := (hturn.drained (hkept t hst le_rfl) hoff).tags .south
  have hreceived := (hparts.evaluated.received .south).drainTag
  rw [hdone, hparts.ports, hclear t hst le_rfl, Bool.false_or] at hreceived
  have hnone := History.no_early_answer hstart hfresh ht hon hkept hst le_rfl (by omega)
  cases harrives : tl.arriving t n .south with
  | none => simp [harrives] at hreceived
  | some m =>
      rw [harrives, Option.any_some] at hnone hreceived
      rw [hnone, Bool.false_and] at hreceived
      cases hreceived

/-- Of two neighbours that go off one has heard of the other. -/
theorem History.apart {n : Node k} {p : Port} (hp : n.edge p = false)
    (hpriority : p.higherPriority = true) {t u : Nat} (ht : t < len) (hu : u < len)
    (hdraining : (tl.node t n).powerState = .draining)
    (hoff : (tl.node (t + 1) n).powerState = .powerOff)
    (hdraining' : (tl.node u (n.neighbor p)).powerState = .draining)
    (hoff' : (tl.node (u + 1) (n.neighbor p)).powerState = .powerOff) :
    t + (cfg.latency + 1) ≤ u ∨ u + (cfg.latency + 1) ≤ t := by
  by_contra hnear
  obtain ⟨s, hsu, hon, hkept, htag⟩ := History.started hstart hu.le hdraining'
  have hlasts := History.drain_lasts hstart hfresh hsu hu hon hkept htag hoff'
  -- the neighbour has priority, and it has been draining long enough to be seen
  obtain ⟨hneighbor, hdownstream⟩ := History.announced hstart hp (by rw [hon]; decide) hkept
    (show s + cfg.latency + 1 < t + 1 by omega) (by omega) (by omega)
  obtain ⟨inp, heard, moved, -, hturn⟩ := History.turn hstart ht n
  have hview := hturn.heardView p
  refine (hturn.drained hdraining hoff).priority p hp hpriority ⟨?_, ?_⟩
  · exact (congrArg View.downstreamState hview).trans (hdownstream (by decide))
  · exact (congrArg View.neighborState hview).trans hneighbor

end Fresh

/-- A router that is off and knows of a neighbour that is off too keeps the
generalised policy, or it raises its wakeup signal. -/
def OffByPolicy (r : FLOVRouter) : Prop := r.flovPolicy = .gflov ∨ r.wakeupSignal = true

theorem changePolicy_offByPolicy {n : Node k} {p : Port} (hp : n.edge p = false)
    (calls : List PolicyCall) {r : FLOVRouter} (hoff : r.powerState = .powerOff)
    (hneighbor : (r.ports p).neighborState = .powerOff) (h : OffByPolicy r) :
    OffByPolicy (changePolicy n calls r) := by
  unfold changePolicy
  induction calls generalizing r with
  | nil => exact h
  | cons call calls ih =>
      have hknown : anyNeighbor n (fun _ state => state = .powerOff) r.toRouter = true := by
        rw [anyNeighbor, Port.any_eq_true]
        exact ⟨p, by simp [hp, hneighbor]⟩
      rw [List.foldl_cons]
      cases call with
      | aggress =>
          cases hpolicy : r.flovPolicy <;>
            refine ih ?_ ?_ ?_ <;> simp_all [aggressFLOVPolicy, OffByPolicy]
      | regress =>
          cases hpolicy : r.flovPolicy <;>
            refine ih ?_ ?_ ?_ <;> simp_all [regressFLOVPolicy, OffByPolicy]

theorem Turn.offByPolicy {n : Node k} {inp : FLOVInputs} {r r' : FLOVRouter}
    {rx tx : Port → Option Handshake} {heard moved : Router}
    (h : Turn cfg n inp r r' rx tx heard moved) {p : Port} (hp : n.edge p = false)
    (hbefore : r.powerState = .powerOff) (hafter : r'.powerState = .powerOff)
    (hneighbor : (r.ports p).neighborState = .powerOff) (hr : OffByPolicy r) : OffByPolicy r' := by
  obtain ⟨base, hparts⟩ := h.parts
  have hsignal := off_keeps_signal h.decides (h.heardState.trans hbefore)
    (hparts.final.symm.trans hafter)
  rw [OffByPolicy, h.policy, h.signal, hsignal, h.heardSignal]
  refine (changePolicy_offByPolicy hp inp.policyCalls hbefore hneighbor hr).imp_right fun hraised => ?_
  rw [hraised, Bool.true_or]

/-- The later one of two neighbours that go off knows of the earlier one. -/
theorem History.offByPolicy (hstart : tl.state 0 = (start k).view) {n : Node k} {p : Port}
    (hp : n.edge p = false) {t u : Nat} (ht : t < len) (hut : u + (cfg.latency + 1) ≤ t)
    (hdraining : (tl.node t n).powerState = .draining)
    (hoff : ∀ v, t < v → v ≤ len → (tl.node v n).powerState = .powerOff)
    (hdraining' : (tl.node u (n.neighbor p)).powerState = .draining)
    (hoff' : ∀ v, u < v → v ≤ len → (tl.node v (n.neighbor p)).powerState = .powerOff) :
    OffByPolicy (tl.node len n) := by
  have hknown : ∀ v, t < v → v ≤ len → ((tl.node v n).ports p).neighborState = .powerOff :=
    fun v htv hv => (History.announced hstart hp (by rw [hdraining']; decide) hoff'
      (by omega) (by omega) hv).1
  have hall : ∀ v, t < v → v ≤ len → OffByPolicy (tl.node v n) := by
    intro v htv
    induction v, (htv : t + 1 ≤ v) using Nat.le_induction with
    | base =>
        intro ht'
        obtain ⟨inp, heard, moved, -, hturn⟩ := History.turn hstart ht n
        have hdrained := hturn.drained hdraining (hoff (t + 1) (by omega) ht')
        refine hdrained.alone.imp_right fun halone => ?_
        refine absurd ?_ (halone.2 p hp)
        exact (congrArg View.neighborState (hturn.heardView p)).trans (hknown (t + 1) (by omega) ht')
    | succ v htv ih =>
        intro hv
        obtain ⟨inp, heard, moved, -, hturn⟩ := History.turn hstart (show v < len by omega) n
        exact hturn.offByPolicy hp (hoff v htv (by omega)) (hoff (v + 1) (by omega) hv)
          (hknown v htv (by omega)) (ih (by omega))
  exact hall len ht le_rfl

/-- A router that is off under `noflov` has raised its wakeup signal. -/
theorem changePolicy_noflov {n : Node k} (calls : List PolicyCall) {r : FLOVRouter}
    (hoff : r.powerState = .powerOff) (h : r.flovPolicy = .noflov → r.wakeupSignal = true)
    (hpolicy : (changePolicy n calls r).flovPolicy = .noflov) :
    (changePolicy n calls r).wakeupSignal = true := by
  revert hpolicy
  unfold changePolicy
  induction calls generalizing r with
  | nil => exact h
  | cons call calls ih =>
      rw [List.foldl_cons]
      cases call with
      | aggress =>
          cases hpolicy : r.flovPolicy <;>
            refine ih ?_ ?_ <;> simp_all [aggressFLOVPolicy]
      | regress =>
          cases hpolicy : r.flovPolicy <;>
            refine ih ?_ ?_ <;> simp_all [regressFLOVPolicy]

theorem History.noflov_signal (hstart : tl.state 0 = (start k).view) {n : Node k} {t : Nat}
    (ht : t ≤ len) (hoff : (tl.node t n).powerState = .powerOff)
    (hpolicy : (tl.node t n).flovPolicy = .noflov) : (tl.node t n).wakeupSignal = true := by
  induction t with
  | zero =>
      have hinit := congrArg (fun s => (s.node n).flovPolicy) hstart
      change (tl.node 0 n).flovPolicy = .gflov at hinit
      exact absurd (hpolicy.symm.trans hinit) (by decide)
  | succ t ih =>
      obtain ⟨inp, heard, moved, -, hturn⟩ := History.turn hstart (show t < len by omega) n
      obtain ⟨base, hparts⟩ := hturn.parts
      by_cases hbefore : (tl.node t n).powerState = .powerOff
      · have hsignal := off_keeps_signal hturn.decides (hturn.heardState.trans hbefore)
          (hparts.final.symm.trans hoff)
        rw [hturn.policy] at hpolicy
        rw [hturn.signal, hsignal, hturn.heardSignal,
          changePolicy_noflov inp.policyCalls hbefore (ih (by omega) hbefore) hpolicy, Bool.true_or]
      · have htransition := hturn.transition (by rw [hoff]; exact fun heq => hbefore heq.symm)
        have hdraining : (tl.node t n).powerState = .draining := by
          rw [hoff] at htransition
          generalize (tl.node t n).powerState = ps at htransition
          cases htransition
          rfl
        rcases (hturn.drained hdraining hoff).alone with hgflov | ⟨hrflov, -⟩
        · exact absurd (hpolicy.symm.trans hgflov) (by decide)
        · exact absurd (hpolicy.symm.trans hrflov) (by decide)

end History

/-- Every router under this policy, and nothing under way: no handshake in flight or
queued, no change of a power state, no wakeup signal of a router that is off. -/
structure Settled (policy : FLOVPolicy) (net : Net k FLOVRouter) : Prop where
  policy : ∀ n, (net.router n).flovPolicy = policy
  inFlight : ∀ n p, net.inFlight n p = []
  queued : ∀ n p, (net.router n).outQueueHandshakes p = none
  powerState : ∀ n, (net.router n).powerState = .powerOn ∨ (net.router n).powerState = .powerOff
  signal : ∀ n, (net.router n).powerState = .powerOff → (net.router n).wakeupSignal = false

instance (policy : FLOVPolicy) (net : Net k FLOVRouter) : Decidable (Settled policy net) :=
  decidable_of_iff
    ((∀ n, (net.router n).flovPolicy = policy) ∧ (∀ n p, net.inFlight n p = []) ∧
      (∀ n p, (net.router n).outQueueHandshakes p = none) ∧
      (∀ n, (net.router n).powerState = .powerOn ∨ (net.router n).powerState = .powerOff) ∧
      ∀ n, (net.router n).powerState = .powerOff → (net.router n).wakeupSignal = false)
    ⟨fun ⟨policy, inFlight, queued, powerState, signal⟩ =>
      ⟨policy, inFlight, queued, powerState, signal⟩,
      fun h => ⟨h.policy, h.inFlight, h.queued, h.powerState, h.signal⟩⟩

/-- The restriction that a policy stands for, once it has settled everywhere. -/
structure Restricted (net : Net k FLOVRouter) : Prop where
  rflov : Settled .rflov net → ∀ n m : Node k, n.Adjacent m →
    ¬ ((net.router n).powerState = .powerOff ∧ (net.router m).powerState = .powerOff)
  noflov : Settled .noflov net → ∀ n, (net.router n).powerState ≠ .powerOff

theorem OffByPolicy.not_settled {net : Net k FLOVRouter} {n : Node k}
    (h : OffByPolicy (net.router n)) (hsettled : Settled .rflov net)
    (hoff : (net.router n).powerState = .powerOff) : False := by
  rcases h with hgflov | hsignal
  · exact absurd (hgflov.symm.trans (hsettled.policy n)) (by decide)
  · exact absurd (hsignal.symm.trans (hsettled.signal n hoff)) (by decide)

/-- A router goes off under `gflov`, and everything regresses after that. -/
def regression (t : Nat) (n : Node 2) : FLOVInputs :=
  { Inputs.quiet (decide (n.val ≠ 0)) with
    policyCalls := if t = 9 then [.regress] else [] }

/-- Short timers, but channels of three cycles. -/
def longLinks (k : Nat) : Config k where
  drainThreshold := 100
  betThreshold := 0
  wakeupThreshold := 1
  latency := 3

/-- Routers 4 to 7 go off. While 4 and 5 sleep, the routers above and below them
start to drain and give up twice, and the acknowledgements that they get are
numbered 2 and 4. When 4 and 5 know of each other they regress: both wake up with
request 2, and drain again with request 4. -/
def collision (t : Nat) (n : Node 4) : FLOVInputs :=
  match n.val with
  | 0 | 1 | 8 | 9 =>
      { Inputs.quiet (!(t = 0 || t = 34 || t = 36)) with
        wakeUp := t = 1 || t = 35 || t = 37
        policyCalls := if t = 50 then [.regress] else [] }
  | 4 =>
      { Inputs.quiet (!(5 ≤ t && t ≤ 13 || 45 ≤ t)) with
        policyCalls := if t = 45 || t = 51 then [.regress] else if t = 46 then [.aggress] else [] }
  | 5 =>
      { Inputs.quiet (!(17 ≤ t && t ≤ 25 || 45 ≤ t)) with
        policyCalls := if t = 45 || t = 51 then [.regress] else if t = 46 then [.aggress] else [] }
  | 6 =>
      { Inputs.quiet (!(29 ≤ t && t ≤ 37)) with
        policyCalls := if t = 46 then [.regress] else [] }
  | 7 =>
      { Inputs.quiet (decide (t < 5)) with
        policyCalls := if t = 60 then [.regress] else [] }
  | _ =>
      { Inputs.quiet true with
        policyCalls := if t = 50 then [.regress] else [] }

end Flyover.FLOVRouter
