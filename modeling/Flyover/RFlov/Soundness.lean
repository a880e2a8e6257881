import Flyover.RFlov.Obligations

/-!
# No assertion of the restricted protocol fails

`Obliged` at every inner link, and a matching statement about the boundary: the
ring wiring connects boundary ports too, and what goes over those channels is the
announcement that a router is on again, which the far end ignores. Together they
meet every assertion that a cycle makes, so every run can go on.
-/

namespace Flyover.RFLOVRouter

variable {k : Nat}

/-! ### The links -/

/-- A draining router has given way where it must. -/
def Settled (p : Port) (r : Router) : Prop := r.powerState = .draining → ¬ YieldsAt p (r.ports p)

/-- Both halves of every inner link, with what is owed. -/
def obligations (cfg : Config k) : Lockstep.LinkInvariant (invariant cfg) where
  on n p := n.edge p = false
  rel n p r i o s := (link cfg).rel n p r i o s ∧
    Obliged p r.powerState (r.ports p) o i (s.ports p.opp) ∧
    Obliged p.opp s.powerState (s.ports p.opp) i o (r.ports p) ∧
    Settled p r ∧ Settled p.opp s
  on_peer hp := Node.edge_neighbor_eq_false hp
  rel_peer := by
    intro n p r i o s ⟨hlink, hout, hin, hnear, hfar⟩
    refine ⟨(link cfg).rel_peer hlink, ?_, ?_, hfar, ?_⟩
    · simpa using hin
    · simpa using hout
    · simpa using hnear
  move_rel := by
    intro n p r rx r' tx i o s hp hinv hrx hmsgs hall hmove ⟨hlink, hout, hin, hnear, hfar⟩
    have hlink' := (link cfg).move_rel hp hinv hrx hmsgs
      (fun q hq => (hall q hq).imp fun _ h => h.imp fun _ h => h.imp fun _ h => h.1) hmove hlink
    have hinv' := (invariant cfg).move_node hinv hrx hmove
    obtain ⟨inp, -, hok⟩ := hmove
    obtain ⟨moved, queued, hstep⟩ := cycle_portStep hinv.1 hok hp
    obtain ⟨hout', hin'⟩ := Obliged.portStep hout hin hlink.1 hlink.2 hnear hfar hstep
    exact ⟨hlink', hout', hin', hinv'.2 p hp, hfar⟩

theorem Reachable.obligations {cfg : Config k} {net : Net k Router} (hreach : Reachable cfg net) :
    (RFLOVRouter.obligations cfg).Holds net.view := by
  have hholds : (invariant cfg).Holds net.view ∧ (RFLOVRouter.obligations cfg).Holds net.view := by
    refine Net.Reachable.view_induction
      (motive := fun s => (invariant cfg).Holds s ∧ (RFLOVRouter.obligations cfg).Holds s)
      hreach ⟨(Reachable.link .initial).1, fun n p hp => ?_⟩ ?_
    · refine ⟨(Reachable.link .initial).2 n p hp, Obliged.initial n _, ?_, ?_, ?_⟩
      · have hback := Obliged.initial (p := p.opp) (n.neighbor p) n
        rwa [Port.opp_opp] at hback
      · exact fun h => by simp [Net.view, start, Router.initial] at h
      · exact fun h => by simp [Net.view, start, Router.initial] at h
    · rintro s s' ⟨hinv, hlink⟩ hstep
      exact ⟨hinv.step hstep, Lockstep.LinkInvariant.Holds.step hinv hlink hstep⟩
  exact hholds.2

/-! ### The boundary -/

/-- What goes over the channels of the boundary: a router is on again. -/
def OnAgain (m : Handshake) : Prop := m.newState = some .powerOn ∧ m.drainDone = false

section Edge

variable {cfg : Config k} {n : Node k} {p : Port} {d : Datapath} {r r' : Router}

theorem announce_edge {chosen : Port → Bool} {e : PortState} (hok : announce n chosen r = .ok r')
    (hqueue : r.outQueueHandshakes p = none) (hon : chosen p = true → r.powerState = .powerOn)
    (hentry : (r.ports p).neighborState = e.neighborState) :
    (r'.ports p).neighborState = e.neighborState ∧
      ∀ m ∈ r'.outQueueHandshakes p, OnAgain m := by
  obtain rfl := announce_ok hok
  rw [← hentry]
  cases hchosen : chosen p with
  | false => simp [Router.queueHandshakes, hchosen, hqueue]
  | true => simp [Router.queueHandshakes, hchosen, hqueue, OnAgain, hon hchosen]

/-- The power state machine at a boundary port. -/
theorem powerStateEvaluate_edge (hp : n.edge p = true) (hqueue : r.outQueueHandshakes p = none)
    (hok : powerStateEvaluate cfg n d r = .ok r') :
    (r'.ports p).neighborState = (r.ports p).neighborState ∧
      ∀ m ∈ r'.outQueueHandshakes p, OnAgain m := by
  have hinner : n.inner p = true → False := by simp [Node.inner, hp]
  have hkeep : ∀ m ∈ r.outQueueHandshakes p, OnAgain m := by simp [hqueue]
  obtain ⟨-, hok⟩ := require_bind_ok.mp hok
  cases hstate : r.powerState <;> rw [hstate] at hok
  case powerOn =>
    dsimp only [powerOnEvaluate] at hok
    split at hok
    next =>
      obtain rfl := pure_ok.mp hok
      exact ⟨rfl, hkeep⟩
    next =>
      split at hok
      next => exact announce_edge hok hqueue (fun h => (hinner h).elim) rfl
      next =>
        obtain rfl := pure_ok.mp hok
        exact ⟨rfl, hkeep⟩
  case draining =>
    dsimp only [drainingEvaluate] at hok
    split at hok
    next => exact announce_edge hok hqueue (fun _ => rfl) rfl
    next =>
      split at hok
      next => exact announce_edge hok hqueue (fun _ => rfl) rfl
      next =>
        split at hok
        next => exact announce_edge hok hqueue (fun h => (hinner h).elim) rfl
        next =>
          split at hok
          next => exact announce_edge hok hqueue (fun _ => rfl) rfl
          next =>
            obtain rfl := pure_ok.mp hok
            exact ⟨rfl, hkeep⟩
  case powerOff =>
    dsimp only [powerOffEvaluate] at hok
    split at hok
    next =>
      split at hok
      next => exact announce_edge hok hqueue (fun h => (hinner h).elim) rfl
      next =>
        obtain rfl := pure_ok.mp hok
        exact ⟨rfl, hkeep⟩
    next =>
      obtain rfl := pure_ok.mp hok
      exact ⟨rfl, hkeep⟩
  case wakeup =>
    dsimp only [wakeupEvaluate] at hok
    split at hok
    next => exact announce_edge hok hqueue (fun _ => rfl) rfl
    next =>
      obtain rfl := pure_ok.mp hok
      exact ⟨rfl, hkeep⟩

/-- A bottom row router that is wanted stays on. -/
theorem powerStateEvaluate_bottomRow (hon : r.powerState = .powerOn) (hwanted : r.routerState = true)
    (hok : powerStateEvaluate cfg n d r = .ok r') : r'.powerState = .powerOn := by
  obtain ⟨-, hok⟩ := require_bind_ok.mp hok
  simp only [hon] at hok
  dsimp only [powerOnEvaluate] at hok
  split at hok
  next =>
    obtain rfl := pure_ok.mp hok
    exact hon
  next =>
    rw [if_neg (by simp [Router.clearDrainTags, hwanted])] at hok
    obtain rfl := pure_ok.mp hok
    exact hon

/-- Nobody is answered over the boundary. -/
theorem internalStep_edge (hoff : (r.ports p).neighborState = .powerOff) :
    (internalStep n d r).ports p = r.ports p ∧
      (internalStep n d r).outQueueHandshakes p = r.outQueueHandshakes p := by
  unfold internalStep
  split
  · exact ⟨rfl, rfl⟩
  · simp [handshakeResponse, Router.sendDrainDone, hoff]

theorem hear_onAgain {m : Handshake} (hm : OnAgain m) : hear .powerOff m = .powerOff := by
  simp [hear, hm.1]

/-- A cycle at a boundary port. -/
theorem cycle_edge {inp : Inputs} {rx tx : Port → Option Handshake} (hp : n.edge p = true)
    (hqueue : ∀ q, r.outQueueHandshakes q = none) (hoff : (r.ports p).neighborState = .powerOff)
    (hrx : ∀ m ∈ rx p, OnAgain m) (hok : cycle cfg n r inp rx = .ok (r', tx)) :
    (r'.ports p).neighborState = .powerOff ∧ ∀ m ∈ tx p, OnAgain m := by
  simp only [cycle, bind_ok] at hok
  obtain ⟨heard, hheard, moved, hmoved, hend⟩ := hok
  obtain ⟨rfl, rfl⟩ := Router.outputQueuing_ok hend
  obtain ⟨ports, hports, hkept⟩ := bind_ok.mp hheard
  obtain rfl := pure_ok.mp hkept
  have hentry := processHandshake_heardEntry (traversePorts_ok.mp hports p)
  have hknown : (ports p).neighborState = .powerOff := by
    rw [hentry, Router.setInputs_ports]
    cases hrxp : rx p with
    | none => exact hoff
    | some m =>
        simp only [heardEntry, processed, hoff]
        exact hear_onAgain (hrx m hrxp)
  obtain ⟨hneighbor, hsent⟩ := powerStateEvaluate_edge hp (by simpa using hqueue p) hmoved
  have hmovedOff : (moved.ports p).neighborState = .powerOff := hneighbor.trans hknown
  obtain ⟨hentry', hqueue'⟩ := internalStep_edge (n := n) (d := inp.datapath) hmovedOff
  refine ⟨?_, ?_⟩
  · simpa only [hentry'] using hmovedOff
  · rw [hqueue']
    exact hsent

end Edge

/-- The bottom row is on, and nothing is known or told over the boundary. -/
def boundary (cfg : Config k) :
    Lockstep.Invariant (Net.wiring k) (Net.move (cycle cfg) Admissible) where
  node n r := (∀ p, r.outQueueHandshakes p = none) ∧
    (Router.bottomRow n = true → r.powerState = .powerOn) ∧
    ∀ p, n.edge p = true → (r.ports p).neighborState = .powerOff
  msg n p m := n.edge p = true → OnAgain m
  move_node := by
    rintro n r rx r' tx ⟨hqueue, hbottom, hedge⟩ hrx ⟨inp, hadmissible, hok⟩
    refine ⟨cycle_outQueue hok, fun hrow => ?_, fun p hp => ?_⟩
    · simp only [cycle, bind_ok] at hok
      obtain ⟨heard, hheard, moved, hmoved, hend⟩ := hok
      obtain ⟨rfl, -⟩ := Router.outputQueuing_ok hend
      obtain ⟨ports, -, hkept⟩ := bind_ok.mp hheard
      obtain rfl := pure_ok.mp hkept
      have hon := powerStateEvaluate_bottomRow (by simpa using hbottom hrow)
        (hadmissible hrow) hmoved
      simpa using hon
    · exact (cycle_edge hp hqueue (hedge p hp) (fun m hm => hrx p m hm hp) hok).1
  move_msg := by
    rintro n r rx r' tx ⟨hqueue, -, hedge⟩ hrx ⟨inp, -, hok⟩ p m hm hp
    have hp' : n.edge p = true := (n.edge_neighbor p).symm.trans hp
    exact (cycle_edge hp' hqueue (hedge p hp') (fun m hm => hrx p m hm hp') hok).2 m hm

theorem Reachable.boundary {cfg : Config k} {net : Net k Router} (hreach : Reachable cfg net) :
    (RFLOVRouter.boundary cfg).Holds net.view := by
  refine Net.Reachable.view_induction hreach ⟨fun n => ⟨fun _ => rfl, fun _ => rfl, fun p hp => ?_⟩, ?_⟩
    fun s s' h hstep => h.step hstep
  · simp [Net.view, start, Router.initial, hp]
  · intro n p m hm
    simp [Net.view, Net.inFlight, start, Channel.inFlight] at hm

/-! ### A cycle goes through -/

section Succeeds

variable {cfg : Config k} {n : Node k} {d : Datapath} {r : Router}

/-- What is queued carries an id, as `_OutputQueuing` wants it. -/
def Identified (r : Router) : Prop := ∀ p, ∀ h ∈ r.outQueueHandshakes p, 0 ≤ h.id

theorem announce_succeeds (chosen : Port → Bool) (hqueue : ∀ p, r.outQueueHandshakes p = none) :
    ∃ r', announce n chosen r = .ok r' ∧ Identified r' := by
  have hempty : r.outQueueEmpty = true := by simp [Router.outQueueEmpty, hqueue]
  refine ⟨_, by rw [announce, require_of hempty]; rfl, fun p h hh => ?_⟩
  simp only [Router.queueHandshakes] at hh
  split at hh
  · obtain rfl := Option.mem_some.mp hh
    exact Int.natCast_nonneg _
  · simp [hqueue] at hh

theorem powerStateEvaluate_succeeds (hqueue : ∀ p, r.outQueueHandshakes p = none)
    (hbottom : Router.bottomRow n = true → r.powerState = .powerOn) :
    ∃ r', powerStateEvaluate cfg n d r = .ok r' ∧ Identified r' := by
  have hpure (s : Router) (hs : s.outQueueHandshakes = r.outQueueHandshakes) :
      ∃ r', (pure s : Except AssertFailure Router) = .ok r' ∧ Identified r' :=
    ⟨s, rfl, fun p h hh => by simp [hs, hqueue] at hh⟩
  rw [powerStateEvaluate, require_of hbottom]
  cases r.powerState with
  | powerOn =>
      change ∃ r', powerOnEvaluate n r = .ok r' ∧ Identified r'
      dsimp only [powerOnEvaluate]
      split
      · exact hpure _ rfl
      · split
        · exact announce_succeeds _ hqueue
        · exact hpure _ rfl
  | draining =>
      change ∃ r', drainingEvaluate cfg n d r = .ok r' ∧ Identified r'
      dsimp only [drainingEvaluate]
      split
      · exact announce_succeeds _ hqueue
      · split
        · exact announce_succeeds _ hqueue
        · split
          · exact announce_succeeds _ hqueue
          · split
            · exact announce_succeeds _ hqueue
            · exact hpure _ rfl
  | powerOff =>
      change ∃ r', powerOffEvaluate cfg n r = .ok r' ∧ Identified r'
      dsimp only [powerOffEvaluate]
      split
      · split
        · exact announce_succeeds _ hqueue
        · exact hpure _ rfl
      · exact hpure _ rfl
  | wakeup =>
      change ∃ r', wakeupEvaluate cfg n d r = .ok r' ∧ Identified r'
      dsimp only [wakeupEvaluate]
      split
      · exact announce_succeeds _ hqueue
      · exact hpure _ rfl

theorem internalStep_identified (h : Identified r) : Identified (internalStep n d r) := by
  unfold internalStep
  split
  · exact h
  · intro p m hm
    simp only [handshakeResponse, Router.sendDrainDone] at hm
    split at hm
    · obtain rfl := Option.mem_some.mp hm
      exact Int.natCast_nonneg _
    · exact h p m hm

/-- A cycle fails no assertion if what comes in is acceptable. -/
theorem cycle_succeeds {inp : Inputs} {rx : Port → Option Handshake}
    (hqueue : ∀ p, r.outQueueHandshakes p = none)
    (hbottom : Router.bottomRow n = true → r.powerState = .powerOn)
    (haccepts : ∀ p, ∀ h ∈ rx p, Accepts r.powerState (r.ports p) h) :
    ∃ out, cycle cfg n r inp rx = .ok out := by
  have hports : traversePorts (fun input =>
      processHandshake (r.setInputs inp).powerState ((r.setInputs inp).ports input) (rx input)) =
      .ok fun p => heardEntry r.powerState (r.ports p) (rx p) := by
    rw [traversePorts_ok]
    intro p
    rw [Router.setInputs_powerState, Router.setInputs_ports]
    cases hrx : rx p with
    | none => rfl
    | some h => exact processHandshake_some.mpr ⟨haccepts p h hrx, rfl⟩
  have hheard : handshakeEvaluate (r.setInputs inp) rx = .ok
      { r.setInputs inp with ports := fun p => heardEntry r.powerState (r.ports p) (rx p) } := by
    rw [handshakeEvaluate, hports]
    rfl
  obtain ⟨moved, hmoved, hids⟩ : ∃ moved, powerStateEvaluate cfg n inp.datapath
      { r.setInputs inp with ports := fun p => heardEntry r.powerState (r.ports p) (rx p) } =
      .ok moved ∧ Identified moved :=
    powerStateEvaluate_succeeds (by simpa using hqueue) (by simpa using hbottom)
  obtain ⟨out, hout⟩ : ∃ out, (internalStep n inp.datapath moved).outputQueuing = .ok out :=
    ⟨_, by rw [Router.outputQueuing, require_of fun p _ => internalStep_identified hids p]; rfl⟩
  exact ⟨out, bind_ok.mpr ⟨_, hheard, bind_ok.mpr ⟨moved, hmoved, hout⟩⟩⟩

end Succeeds

/-- Every handshake that is received next is acceptable. -/
theorem Reachable.accepts {cfg : Config k} {net : Net k Router} (hreach : Reachable cfg net)
    (n : Node k) (p : Port) : ∀ h ∈ net.received n p,
      Accepts (net.router n).powerState ((net.router n).ports p) h := by
  intro h hh
  have hfront : net.inFlight n p = h :: net.pending n p := by
    rw [Net.inFlight_eq, hh]
    rfl
  have hmem : h ∈ net.inFlight n p := by simp [hfront]
  cases hp : n.edge p with
  | true =>
      have hon : OnAgain h := hreach.boundary.msg n p h hmem hp
      constructor
      · simp [hon.1]
      · simp [hon.2]
  | false =>
      obtain ⟨-, hout, hin, -⟩ := hreach.obligations n p hp
      have hadmitted := hin.admitted
      change Admits _ _ (net.inFlight n p) at hadmitted
      rw [hfront] at hadmitted
      refine ⟨hadmitted.1, fun hdone hoff => ?_⟩
      have hnone := (hout.asleep hoff).1 h hmem
      exact absurd (hdone.symm.trans hnone).symm Bool.false_ne_true

/-- Whatever is asked of the routers and whatever their data planes look like, a
reachable network goes through its next cycle. -/
theorem Reachable.exists_next {cfg : Config k} {net : Net k Router} (hreach : Reachable cfg net)
    (inputs : Node k → Inputs) : ∃ net', net.step (cycle cfg) cfg.latency inputs = .ok net' := by
  have hcycle : ∀ n, ∃ out, cycle cfg n (net.router n) (inputs n) (net.received n) = .ok out :=
    fun n => cycle_succeeds (hreach.boundary.node n).1 (hreach.boundary.node n).2.1
      (hreach.accepts n)
  choose out hout using hcycle
  exact ⟨_, bind_ok.mpr ⟨out, tabulate_ok.mpr hout, rfl⟩⟩

section Links

variable {cfg : Config k} {net : Net k Router} {n : Node k} {p : Port}

/-- What a router has recorded of a neighbour, brought up to date with the
handshakes on their way to it, is the neighbour's power state. -/
theorem heard_inFlight (hreach : Reachable cfg net) (hp : n.edge p = false) :
    heard ((net.router n).ports p).neighborState (net.inFlight n p) =
      (net.router (n.neighbor p)).powerState :=
  (hreach.link.2 n p hp).2.tracked

/-- A network in which an announcement is on its way. -/
theorem heard_inFlight_draining : ∃ net, Reachable (Config.short 2) net ∧
    net.inFlight 1 .west ≠ [] ∧
    heard ((net.router 1).ports .west).neighborState (net.inFlight 1 .west) =
      (net.router (Node.neighbor (k := 2) 1 .west)).powerState := by
  obtain ⟨net, hrun, hsent⟩ := exists_of_succeeds
    ((start 2).run (cycle (Config.short 2)) 1
      (List.replicate 1 fun n => Inputs.quiet (decide (n.val ≠ 0))))
    (fun net => decide (net.inFlight 1 .west ≠ [])) (by decide +kernel)
  have hreach : Reachable (Config.short 2) net := Net.Reachable.run .initial (by decide) hrun
  exact ⟨net, hreach, of_decide_eq_true hsent, heard_inFlight hreach (by decide)⟩

/-- The neighbour of a router that drains or is gated is not gated. -/
theorem neighbor_awake (hreach : Reachable cfg net) (hp : n.edge p = false)
    (hstate : (net.router n).powerState ≠ .powerOn) :
    (net.router (n.neighbor p)).powerState = .powerOn ∨
      (net.router (n.neighbor p)).powerState = .draining := by
  obtain ⟨hout, hin⟩ := hreach.link.2 n p hp
  by_contra hnot
  obtain ⟨hnotOn, hnotDraining⟩ := not_or.mp hnot
  have hgated : (net.router (n.neighbor p)).powerState = .powerOff ∨
      (net.router (n.neighbor p)).powerState = .wakeup := by
    cases h : (net.router (n.neighbor p)).powerState <;> simp_all
  exact hstate (hin.gated hgated).1

/-- No request and no acknowledgement is lost: a router that waits for the drain tag
of a port has a request on its way, or the neighbour knows of it, is awake and has
not answered, or the answer is on its way. -/
theorem request_outstanding (hreach : Reachable cfg net) (hp : n.edge p = false)
    (hstate : (net.router n).powerState = .draining ∨ (net.router n).powerState = .wakeup)
    (htag : ((net.router n).ports p).drainTag = false) :
    (∃ m ∈ net.inFlight (n.neighbor p) p.opp, m.newState = some (net.router n).powerState ∧
      m.drainDone = false ∧ m.hid = ((net.router n).ports p).reqHid) ∨
    (((net.router (n.neighbor p)).powerState = .powerOn ∨
        (net.router (n.neighbor p)).powerState = .draining) ∧
      ((net.router (n.neighbor p)).ports p.opp).neighborState = (net.router n).powerState ∧
      ((net.router (n.neighbor p)).ports p.opp).respHid = ((net.router n).ports p).reqHid ∧
      ((net.router (n.neighbor p)).ports p.opp).drainDoneSent = false) ∨
    ∃ m ∈ net.inFlight n p, m.drainDone = true ∧ m.hid = ((net.router n).ports p).reqHid := by
  obtain ⟨-, hout, -⟩ := hreach.obligations n p hp
  have hnotOn : (net.router n).powerState ≠ .powerOn := by
    rcases hstate with h | h <;> simp [h]
  cases hout.pending hstate htag with
  | @asked before after m hsplit hnew hdone hhid _ =>
      refine .inl ⟨m, ?_, hnew, hdone, hhid⟩
      change m ∈ net.view.queue (n.neighbor p) p.opp
      have hqueue : net.view.queue (n.neighbor p) p.opp = before ++ m :: after := hsplit
      simp [hqueue]
  | heard _ hknown hhid hsent =>
      exact .inr (.inl ⟨neighbor_awake hreach hp hnotOn, hknown, hhid, hsent⟩)
  | @answered m hm hdone hhid => exact .inr (.inr ⟨m, hm, hdone, hhid⟩)

/-- A router whose request is on its way. -/
theorem request_outstanding_draining : ∃ net, Reachable (Config.short 2) net ∧
    ((∃ m ∈ net.inFlight (Node.neighbor (k := 2) 0 .east) .west,
        m.newState = some (net.router 0).powerState ∧ m.drainDone = false ∧
          m.hid = ((net.router 0).ports .east).reqHid) ∨
      (((net.router (Node.neighbor (k := 2) 0 .east)).powerState = .powerOn ∨
          (net.router (Node.neighbor (k := 2) 0 .east)).powerState = .draining) ∧
        ((net.router (Node.neighbor (k := 2) 0 .east)).ports .west).neighborState =
          (net.router 0).powerState ∧
        ((net.router (Node.neighbor (k := 2) 0 .east)).ports .west).respHid =
          ((net.router 0).ports .east).reqHid ∧
        ((net.router (Node.neighbor (k := 2) 0 .east)).ports .west).drainDoneSent = false) ∨
      ∃ m ∈ net.inFlight 0 .east,
        m.drainDone = true ∧ m.hid = ((net.router 0).ports .east).reqHid) := by
  obtain ⟨net, hrun, hwaits⟩ := exists_of_succeeds
    ((start 2).run (cycle (Config.short 2)) 1
      (List.replicate 1 fun n => Inputs.quiet (decide (n.val ≠ 0))))
    (fun net => decide ((net.router 0).powerState = .draining ∧
      ((net.router 0).ports .east).drainTag = false)) (by decide +kernel)
  have hreach : Reachable (Config.short 2) net := Net.Reachable.run .initial (by decide) hrun
  obtain ⟨hdraining, htag⟩ := of_decide_eq_true hwaits
  exact ⟨net, hreach, request_outstanding hreach (by decide) (.inl hdraining) htag⟩

/-- A drain tag means what it says: the neighbour stays on, knows of the drain and has
answered it, and neither has news for the other. -/
theorem tagged_neighbor (hreach : Reachable cfg net) (hp : n.edge p = false)
    (hstate : (net.router n).powerState = .draining)
    (htag : ((net.router n).ports p).drainTag = true) :
    (net.router (n.neighbor p)).powerState = .powerOn ∧
      ((net.router n).ports p).neighborState = .powerOn ∧
      ((net.router (n.neighbor p)).ports p.opp).neighborState = .draining ∧
      ((net.router (n.neighbor p)).ports p.opp).drainDoneSent = true ∧
      (∀ m ∈ net.inFlight (n.neighbor p) p.opp, m.newState = none) ∧
      ∀ m ∈ net.inFlight n p, m.newState = none ∧ m.drainDone = false := by
  obtain ⟨hlink, hout, -, hsettled, -⟩ := hreach.obligations n p hp
  have hrequests := hlink.1
  have hyield := hsettled hstate
  obtain ⟨ho, hi, hon, hknown⟩ := (hrequests.tagged hstate htag).resolve_left hyield
  obtain ⟨hsent, hnone⟩ := (hout.tagged hstate htag).resolve_left hyield
  have hdraining : ((net.router (n.neighbor p)).ports p.opp).neighborState = .draining := by
    have htracked := hrequests.tracked
    rw [ho.heard_eq] at htracked
    exact htracked.trans hstate
  exact ⟨hon, hknown, hdraining, hsent, ho, fun m hm => ⟨hi m hm, hnone m hm⟩⟩

/-- A router that has an answer and waits for its timers. -/
theorem tagged_neighbor_draining : ∃ net, Reachable (Config.short 2) net ∧
    (net.router (Node.neighbor (k := 2) 0 .east)).powerState = .powerOn ∧
    ((net.router 0).ports .east).neighborState = .powerOn ∧
    ((net.router (Node.neighbor (k := 2) 0 .east)).ports .west).neighborState = .draining ∧
    ((net.router (Node.neighbor (k := 2) 0 .east)).ports .west).drainDoneSent = true ∧
    (∀ m ∈ net.inFlight (Node.neighbor (k := 2) 0 .east) .west, m.newState = none) ∧
    ∀ m ∈ net.inFlight 0 .east, m.newState = none ∧ m.drainDone = false := by
  obtain ⟨net, hrun, htagged⟩ := exists_of_succeeds
    ((start 2).run (cycle (Config.short 2)) 1
      (List.replicate 6 fun n =>
        { Inputs.quiet (decide (n.val ≠ 0)) with
          datapath := { Datapath.empty with vcsIdle := false } }))
    (fun net => decide ((net.router 0).powerState = .draining ∧
      ((net.router 0).ports .east).drainTag = true)) (by decide +kernel)
  have hreach : Reachable (Config.short 2) net := Net.Reachable.run .initial (by decide) hrun
  obtain ⟨hdraining, htag⟩ := of_decide_eq_true htagged
  exact ⟨net, hreach, tagged_neighbor hreach (by decide) hdraining htag⟩

end Links

end Flyover.RFLOVRouter
