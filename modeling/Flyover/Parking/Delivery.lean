import Flyover.Parking.Construction
import Flyover.Parking.Mesh
import Flyover.Routing.MinAdaptive

/-!
# Delivery by router parking

A packet follows the shortest-path tables until the routing function takes it to
the escape channel, because it has waited for too long at some router; from there
it follows the escape tables. When that happens is left open: every hop has its
own waiting time.
-/

namespace Flyover

open Search

variable {k : Nat}

/-- A connected set of routers that are on, with the tables built for it. -/
structure ParkedMesh (k : Nat) where
  on : Node k → Bool
  connected : OnConnected on
  root : Node k
  tables : Node k → RouteTbl k
  built : ∀ n, on n = true → RouteTbl.build n on root = some (tables n)
  config : RoutingConfig

namespace ParkedMesh

variable (mesh : ParkedMesh k) (pkt : Packet k)

/-- The virtual channels of the packet; the first is its escape channel. -/
def vcs : VCRange := mesh.config.vcs pkt.type

/-- `rp_mesh` with the tables of the routers. -/
def route : RoutingFunction k :=
  rpMesh (fun n => (mesh.tables n).rtTbl) fun n => (mesh.tables n).escRtTbl

/-- One hop of the packet; `escape` tells whether the routing function has taken it
to the escape channel. Times and the fields of the flit that change on the way are
left open. -/
def Hop (s : Spot k) (escape : Bool) (s' : Spot k) : Prop :=
  ∃ traffic r f outputs entry p, f.Carries pkt s ∧
    mesh.route mesh.config traffic s.router r f s.inChannel false = some outputs ∧
    rpEscape traffic (mesh.vcs pkt) f s.inChannel = escape ∧
    entry ∈ outputs ∧ entry.outputPort = .mesh p ∧
    (entry.vcStart ≤ s'.vc ∧ s'.vc ≤ entry.vcEnd) ∧
    s.router.edge p = false ∧ s'.router = s.router.neighbor p ∧ s'.inChannel = some p.opp

/-- At a router that is on, with a virtual channel of its own. -/
structure Placed (s : Spot k) : Prop where
  on : mesh.on s.router = true
  vc : (mesh.vcs pkt).Contains s.vc

/-- What the tables are built to do: to any other router that is on they lead one hop
nearer, in the mesh of the routers that are on and in a spanning tree of it. -/
structure Leads (mesh : ParkedMesh k) (T : SimpleGraph (Node k)) : Prop where
  spanning : Spanning mesh.on T
  shortest : ∀ n d, mesh.on n = true → mesh.on d = true → d ≠ n →
    ∃ p, (mesh.tables n).rtTbl d = .dir p ∧ n.edge p = false ∧
      (onGraph mesh.on).Adj n (n.neighbor p) ∧
      (onGraph mesh.on).dist n d = (onGraph mesh.on).dist (n.neighbor p) d + 1
  escape : ∀ n d, mesh.on n = true → mesh.on d = true → d ≠ n →
    ∃ p, (mesh.tables n).escRtTbl d = .dir p ∧ n.edge p = false ∧
      T.Adj n (n.neighbor p) ∧ T.dist n d = T.dist (n.neighbor p) d + 1

theorem exists_dir {n m : Node k} {entry : TableEntry} (h : entry.next n = some m) :
    ∃ p, entry = .dir p ∧ n.edge p = false ∧ m = n.neighbor p := by
  cases entry with
  | invalid => cases h
  | arrived => cases h
  | dir p =>
      rw [TableEntry.next] at h
      split at h
      next => cases h
      next hedge => exact ⟨p, rfl, Bool.eq_false_of_not_eq_true hedge, (Option.some.inj h).symm⟩

theorem exists_leads (mesh : ParkedMesh k) : ∃ T, mesh.Leads T := by
  have hshortest : ∀ n d, mesh.on n = true → mesh.on d = true → d ≠ n →
      ∃ p, (mesh.tables n).rtTbl d = .dir p ∧ n.edge p = false ∧
        (onGraph mesh.on).Adj n (n.neighbor p) ∧
        (onGraph mesh.on).dist n d = (onGraph mesh.on).dist (n.neighbor p) d + 1 := by
    intro n d hn hd hne
    obtain ⟨t₀, ht₀, -, hnext⟩ := buildRoute_spec mesh.connected hn
    obtain ⟨t, ht, hesc⟩ := Option.bind_eq_some_iff.mp (mesh.built n hn)
    obtain rfl := Option.some.inj (ht.symm.trans ht₀)
    obtain ⟨j, hj, hadj, hdist⟩ := hnext d hd hne
    obtain ⟨p, hp, hedge, rfl⟩ := exists_dir hj
    exact ⟨p, (congrFun (RouteTbl.buildEscRoute_rtTbl hesc) d).trans hp, hedge, hadj, hdist⟩
  by_cases hroot : mesh.on mesh.root = true
  · obtain ⟨T, hspanning, hbuild⟩ := build_spec mesh.connected hroot
    refine ⟨T, hspanning, hshortest, ?_⟩
    intro n d hn hd hne
    obtain ⟨t, ht, -, -, hnext⟩ := hbuild n hn
    obtain rfl := Option.some.inj (ht.symm.trans (mesh.built n hn))
    obtain ⟨j, hj, hadj, hdist⟩ := hnext d hd hne
    obtain ⟨p, hp, hedge, rfl⟩ := exists_dir hj
    exact ⟨p, hp, hedge, hadj, hdist⟩
  · -- only one router is on
    have halone : ∀ n d, mesh.on n = true → mesh.on d = true → d = n := by
      intro n d hn hd
      by_contra hne
      exact hroot (RouteTbl.root_on_of_build (mesh.built n hn) hd hne)
    refine ⟨⊥, ⟨bot_le, SimpleGraph.isAcyclic_bot, ?_⟩, hshortest, ?_⟩
    · intro n m hn hm
      rw [halone m n hm hn]
    · intro n d hn hd hne
      exact absurd (halone n d hn hd) hne

/-! ### One call and one hop -/

variable {mesh pkt} {T : SimpleGraph (Node k)}

/-- What the routing function finds in the tables. -/
theorem Leads.lookup (hT : mesh.Leads T) {n d : Node k} (hn : mesh.on n = true)
    (hd : mesh.on d = true) (hne : d ≠ n) (escape : Bool) :
    ∃ p, rpTable (mesh.tables n).rtTbl (mesh.tables n).escRtTbl escape d = .dir p ∧
      n.edge p = false ∧ mesh.on (n.neighbor p) = true ∧
      (escape = true → T.Adj n (n.neighbor p) ∧ T.dist n d = T.dist (n.neighbor p) d + 1) ∧
      (escape = false → (onGraph mesh.on).Adj n (n.neighbor p) ∧
        (onGraph mesh.on).dist n d = (onGraph mesh.on).dist (n.neighbor p) d + 1) := by
  cases escape with
  | true =>
      obtain ⟨p, hp, hedge, hadj, hdist⟩ := hT.escape n d hn hd hne
      exact ⟨p, hp, hedge, (hT.spanning.le hadj).2.1, fun _ => ⟨hadj, hdist⟩, nofun⟩
  | false =>
      obtain ⟨p, hp, hedge, hadj, hdist⟩ := hT.shortest n d hn hd hne
      exact ⟨p, hp, hedge, hadj.2.1, nofun, fun _ => ⟨hadj, hdist⟩⟩

/-- A call away from the destination. -/
theorem route_transit {s : Spot k} {f : Flit k} (hs : mesh.Placed pkt s) (hf : f.Carries pkt s)
    (hne : ¬ pkt.Arrived s) (traffic : Traffic) (r : Router) {p : Port}
    (hp : rpTable (mesh.tables s.router).rtTbl (mesh.tables s.router).escRtTbl
      (rpEscape traffic (mesh.vcs pkt) f s.inChannel) pkt.dest = .dir p) :
    mesh.route mesh.config traffic s.router r f s.inChannel false =
      some (.onePort (mesh.vcs pkt) (rpEscape traffic (mesh.vcs pkt) f s.inChannel) (.mesh p)) := by
  have hvcs : mesh.config.vcs f.type = mesh.vcs pkt := congrArg mesh.config.vcs hf.type
  have hvc : (mesh.config.vcs f.type).Contains f.vc := by
    rw [hvcs, hf.vc]
    exact hs.vc
  have hdest : s.router ≠ f.dest := by
    rw [hf.dest]
    exact hne
  rw [route, rpMesh, Flit.route_of_contains hvc hdest, hvcs, hf.dest]
  dsimp only
  rw [hp]
  rfl

theorem route_arrived {s : Spot k} {f : Flit k} (hs : mesh.Placed pkt s) (hf : f.Carries pkt s)
    (harrived : pkt.Arrived s) (traffic : Traffic) (r : Router) :
    mesh.route mesh.config traffic s.router r f s.inChannel false =
      some (OutputSet.clear.addRange .eject (mesh.vcs pkt).vcBegin (mesh.vcs pkt).vcEnd 0) := by
  have hvcs : mesh.config.vcs f.type = mesh.vcs pkt := congrArg mesh.config.vcs hf.type
  have hassert : f.assertVC (mesh.vcs pkt) false = some () := by
    apply if_pos
    rw [hf.vc]
    exact .inl hs.vc
  have hdest : s.router = f.dest := by
    rw [hf.dest]
    exact harrived
  rw [route, rpMesh, Flit.route, hvcs, hassert]
  simp [hdest]

/-- The virtual channels that are offered are channels of the packet, the first of
them just on the escape channel. -/
theorem onePort_entry {vcs : VCRange} {escape : Bool} {outPort : OutPort} {e : OutputEntry}
    {vc : Int} (he : e ∈ OutputSet.onePort vcs escape outPort) (hle : vcs.vcBegin ≤ vcs.vcEnd)
    (hvc : e.vcStart ≤ vc ∧ vc ≤ e.vcEnd) :
    e.outputPort = outPort ∧ vcs.Contains vc ∧ (escape = true → vc = vcs.vcBegin) ∧
      (escape = false → vcs.vcBegin < vc) := by
  cases escape with
  | true =>
      obtain rfl := OutputSet.mem_clear_addRange.mp he
      exact ⟨rfl, ⟨hvc.1, hvc.2.trans hle⟩, fun _ => Int.le_antisymm hvc.2 hvc.1, nofun⟩
  | false =>
      obtain rfl := OutputSet.mem_clear_addRange.mp he
      exact ⟨rfl, ⟨(Int.le_add_one (Int.le_refl _)).trans hvc.1, hvc.2⟩, nofun, fun _ =>
        Int.lt_of_lt_of_le (Int.lt_succ _) hvc.1⟩

/-- What a hop does. -/
structure HopStep (mesh : ParkedMesh k) (pkt : Packet k) (T : SimpleGraph (Node k)) (s : Spot k)
    (escape : Bool) (s' : Spot k) : Prop where
  departs : ¬ pkt.Arrived s
  placed : mesh.Placed pkt s'
  inside : s'.inChannel ≠ none
  stays : s.inChannel ≠ none → s.vc = (mesh.vcs pkt).vcBegin → escape = true
  onEscape : escape = true → s'.vc = (mesh.vcs pkt).vcBegin ∧ T.Adj s.router s'.router ∧
    T.dist s.router pkt.dest = T.dist s'.router pkt.dest + 1
  onRoute : escape = false → (onGraph mesh.on).Adj s.router s'.router ∧
    (onGraph mesh.on).dist s.router pkt.dest = (onGraph mesh.on).dist s'.router pkt.dest + 1

theorem Hop.step (hT : mesh.Leads T) (hd : mesh.on pkt.dest = true) {s s' : Spot k} {escape : Bool}
    (hs : mesh.Placed pkt s) (h : mesh.Hop pkt s escape s') :
    mesh.HopStep pkt T s escape s' := by
  obtain ⟨traffic, r, f, outputs, e, p, hf, hroute, rfl, he, hport, hvc, hedge, hnext, hin⟩ := h
  have hdeparts : ¬ pkt.Arrived s := by
    intro harrived
    rw [route_arrived hs hf harrived] at hroute
    obtain rfl := Option.some.inj hroute
    rw [OutputSet.mem_clear_addRange.mp he] at hport
    cases hport
  obtain ⟨q, hq, -, hon, hesc, hreg⟩ := hT.lookup hs.on hd (Ne.symm hdeparts)
    (rpEscape traffic (mesh.vcs pkt) f s.inChannel)
  rw [route_transit hs hf hdeparts traffic r hq] at hroute
  obtain rfl := Option.some.inj hroute
  obtain ⟨hsame, hcontains, hfirst, -⟩ := onePort_entry he (hs.vc.1.trans hs.vc.2) hvc
  obtain rfl : q = p := OutPort.mesh.inj (hsame.symm.trans hport)
  refine ⟨hdeparts, ⟨?_, hcontains⟩, ?_, ?_, ?_, ?_⟩
  · rw [hnext]
    exact hon
  · rw [hin]
    exact Option.some_ne_none _
  · intro hinside hvc
    simp [rpEscape, hinside, hf.vc, hvc]
  · intro hescape
    rw [hnext]
    exact ⟨hfirst hescape, hesc hescape⟩
  · intro hescape
    rw [hnext]
    exact hreg hescape

/-- Whatever the waiting time, a packet that is not at its destination can go on. -/
theorem exists_hop (hT : mesh.Leads T) (hd : mesh.on pkt.dest = true) {s : Spot k}
    (hs : mesh.Placed pkt s) (hne : ¬ pkt.Arrived s) (traffic : Traffic) (r : Router) {f : Flit k}
    (hf : f.Carries pkt s) :
    ∃ s', mesh.Hop pkt s (rpEscape traffic (mesh.vcs pkt) f s.inChannel) s' := by
  obtain ⟨p, hp, hedge, -⟩ := hT.lookup hs.on hd (Ne.symm hne)
    (rpEscape traffic (mesh.vcs pkt) f s.inChannel)
  have hroute := route_transit hs hf hne traffic r hp
  have hnext : ∃ e ∈ OutputSet.onePort (mesh.vcs pkt)
      (rpEscape traffic (mesh.vcs pkt) f s.inChannel) (.mesh p),
      e.outputPort = .mesh p ∧ e.vcStart ≤ e.vcEnd := by
    cases hescape : rpEscape traffic (mesh.vcs pkt) f s.inChannel with
    | true => exact ⟨_, OutputSet.mem_clear_addRange.mpr rfl, rfl, Int.le_refl _⟩
    | false =>
        -- the channel it holds is not the first, so there is another
        refine ⟨_, OutputSet.mem_clear_addRange.mpr rfl, rfl, ?_⟩
        simp only [rpEscape, Bool.or_eq_false_iff, beq_eq_false_iff_ne] at hescape
        have hbegin := hs.vc.1
        have hend := hs.vc.2
        have hother := hescape.1
        rw [hf.vc] at hother
        change (mesh.vcs pkt).vcBegin + 1 ≤ (mesh.vcs pkt).vcEnd
        split at hother <;> omega
  obtain ⟨e, he, hport, hle⟩ := hnext
  exact ⟨⟨s.router.neighbor p, some p.opp, e.vcStart⟩, traffic, r, f, _, e, p, hf, hroute, rfl, he,
    hport, ⟨Int.le_refl _, hle⟩, hedge, rfl, rfl⟩

/-! ### A whole trip -/

/-- The port that is looked up is a direction to a router that is on, or it is the
ejection port. -/
structure LooksUp (mesh : ParkedMesh k) (pkt : Packet k) (s : Spot k) : Prop where
  transit : ¬ pkt.Arrived s → ∀ traffic r f, f.Carries pkt s → ∃ p,
    mesh.route mesh.config traffic s.router r f s.inChannel false =
      some (.onePort (mesh.vcs pkt) (rpEscape traffic (mesh.vcs pkt) f s.inChannel) (.mesh p)) ∧
    s.router.edge p = false ∧ mesh.on (s.router.neighbor p) = true
  arrived : pkt.Arrived s → ∀ traffic r f, f.Carries pkt s →
    mesh.route mesh.config traffic s.router r f s.inChannel false =
      some (OutputSet.clear.addRange .eject (mesh.vcs pkt).vcBegin (mesh.vcs pkt).vcEnd 0)

theorem Leads.looksUp (hT : mesh.Leads T) (hd : mesh.on pkt.dest = true) {s : Spot k}
    (hs : mesh.Placed pkt s) : mesh.LooksUp pkt s where
  transit := by
    intro hne traffic r f hf
    obtain ⟨p, hp, hedge, hon, -⟩ := hT.lookup hs.on hd (Ne.symm hne)
      (rpEscape traffic (mesh.vcs pkt) f s.inChannel)
    exact ⟨p, route_transit hs hf hne traffic r hp, hedge, hon⟩
  arrived := fun harrived traffic r f hf => route_arrived hs hf harrived traffic r

/-- The first hops of a packet that was injected at a router that is on. -/
structure Trip (mesh : ParkedMesh k) (pkt : Packet k) (n : Nat) where
  spots : Nat → Spot k
  escapes : Nat → Bool
  injected : (spots 0).inChannel = none
  source : mesh.Placed pkt (spots 0)
  hop : ∀ i < n, mesh.Hop pkt (spots i) (escapes i) (spots (i + 1))

namespace Trip

variable {n : Nat} (trip : mesh.Trip pkt n)

/-- The packet is delivered, wherever it changes to the escape channel. -/
structure Delivers : Prop where
  looksUp : ∀ i ≤ n, mesh.LooksUp pkt (trip.spots i)
  stays : ∀ i j, i ≤ j → j < n → trip.escapes i = true →
    trip.escapes j = true ∧ (trip.spots (j + 1)).vc = (mesh.vcs pkt).vcBegin
  bound : ∃ switch ≤ n, (∀ i < switch, trip.escapes i = false) ∧
    (switch < n → trip.escapes switch = true) ∧
    (onGraph mesh.on).dist (trip.spots 0).router (trip.spots switch).router = switch ∧
    n ≤ switch + (onCount mesh.on - 1) ∧
    (¬ pkt.Arrived (trip.spots n) → n < switch + (onCount mesh.on - 1))
  goesOn : ¬ pkt.Arrived (trip.spots n) → ∀ traffic (_ : Router) f, f.Carries pkt (trip.spots n) →
    ∃ s', mesh.Hop pkt (trip.spots n)
      (rpEscape traffic (mesh.vcs pkt) f (trip.spots n).inChannel) s'

theorem placed (hT : mesh.Leads T) (hd : mesh.on pkt.dest = true) {i : Nat} (hi : i ≤ n) :
    mesh.Placed pkt (trip.spots i) := by
  induction i with
  | zero => exact trip.source
  | succ i ih => exact ((trip.hop i hi).step hT hd (ih (Nat.le_of_succ_le hi))).placed

theorem step (hT : mesh.Leads T) (hd : mesh.on pkt.dest = true) {i : Nat} (hi : i < n) :
    mesh.HopStep pkt T (trip.spots i) (trip.escapes i) (trip.spots (i + 1)) :=
  (trip.hop i hi).step hT hd (trip.placed hT hd hi.le)

/-- Once on the escape channel, the packet stays there. -/
theorem escapes_of_le (hT : mesh.Leads T) (hd : mesh.on pkt.dest = true) {i j : Nat} (hij : i ≤ j)
    (hj : j < n) (hi : trip.escapes i = true) : trip.escapes j = true := by
  induction j, hij using Nat.le_induction with
  | base => exact hi
  | succ j hij ih =>
      have hbefore := trip.step hT hd (Nat.lt_of_succ_lt hj)
      apply (trip.step hT hd hj).stays hbefore.inside
      exact (hbefore.onEscape (ih (Nat.lt_of_succ_lt hj))).1

/-- The hop at which it changes, or the end. -/
theorem exists_switch : ∃ switch ≤ n,
    (∀ i < switch, trip.escapes i = false) ∧ (switch < n → trip.escapes switch = true) := by
  by_cases hnone : ∃ i, i < n ∧ trip.escapes i = true
  · refine ⟨Nat.find hnone, (Nat.find_spec hnone).1.le, ?_, fun _ => (Nat.find_spec hnone).2⟩
    intro i hi
    have hnot := Nat.find_min hnone hi
    exact Bool.eq_false_of_not_eq_true fun h => hnot ⟨hi.trans (Nat.find_spec hnone).1, h⟩
  · push Not at hnone
    refine ⟨n, le_rfl, fun i hi => ?_, fun h => absurd h (lt_irrefl n)⟩
    exact Bool.eq_false_of_not_eq_true (hnone i hi)

end Trip

/-- Router parking delivers whatever the waiting times are: the hops up to the one
that takes the packet to the escape channel are a shortest way to that router, and
after it there are fewer than the routers that are on. -/
theorem delivers (mesh : ParkedMesh k) (pkt : Packet k) (hd : mesh.on pkt.dest = true) {n : Nat}
    (trip : mesh.Trip pkt n) : trip.Delivers := by
  obtain ⟨T, hT⟩ := mesh.exists_leads
  obtain ⟨switch, hswitch, hbefore, hafter⟩ := trip.exists_switch
  have hplaced : ∀ i ≤ n, mesh.Placed pkt (trip.spots i) := fun i hi => trip.placed hT hd hi
  have hnearer : (onGraph mesh.on).dist (trip.spots 0).router (trip.spots switch).router =
      switch := by
    have hreach := mesh.connected _ _ (hplaced switch hswitch).on hd
    exact (dist_of_nearer (fun i => (trip.spots i).router)
      (fun i hi => (trip.step hT hd (hi.trans_le hswitch)).onRoute (hbefore i hi)) hreach).1
  have hescapes : ∀ i, switch ≤ i → i < n → trip.escapes i = true := fun i hi hlt =>
    trip.escapes_of_le hT hd hi hlt (hafter (hi.trans_lt hlt))
  -- the hops left in the tree
  have htree : T.dist (trip.spots switch).router pkt.dest =
      (n - switch) + T.dist (trip.spots n).router pkt.dest := by
    have hreach := hT.spanning.reach _ _ (hplaced n le_rfl).on hd
    have hn : switch + (n - switch) = n := Nat.add_sub_cancel' hswitch
    have htotal := (dist_of_nearer (fun i => (trip.spots (switch + i)).router)
      (n := n - switch) (fun i hi => ?_) (by simpa only [hn] using hreach)).2
    · simpa only [Nat.add_zero, hn] using htotal
    · have hlt : switch + i < n := by omega
      exact ((trip.step hT hd hlt).onEscape (hescapes _ (Nat.le_add_right _ _) hlt)).2
  have hcount : T.dist (trip.spots switch).router pkt.dest + 1 ≤ onCount mesh.on := by
    have hon := (hplaced switch hswitch).on
    obtain ⟨w, hpath, hw⟩ := (hT.spanning.reach _ _ hon hd).exists_path_of_dist
    rw [← hw]
    exact length_lt_onCount hT.spanning.le hon w hpath
  refine ⟨?_, ?_, ⟨switch, hswitch, hbefore, hafter, hnearer, by omega, ?_⟩, ?_⟩
  · exact fun i hi => hT.looksUp hd (hplaced i hi)
  · intro i j hij hj hi
    have hescape := trip.escapes_of_le hT hd hij hj hi
    exact ⟨hescape, ((trip.step hT hd hj).onEscape hescape).1⟩
  · intro hne
    have hpos := (hT.spanning.reach _ _ (hplaced n le_rfl).on hd).pos_dist_of_ne hne
    omega
  · exact fun hne traffic r f hf => exists_hop hT hd (hplaced n le_rfl) hne traffic r hf

/-- The tables can be built for every connected set with the root in it. -/
theorem exists_of_connected {on : Node k → Bool} {root : Node k} (hconn : OnConnected on)
    (hroot : on root = true) (config : RoutingConfig) :
    ∃ mesh : ParkedMesh k, mesh.on = on ∧ mesh.config = config := by
  obtain ⟨-, -, hbuilt, -⟩ := build_escape on root hconn hroot
  choose tables htables using hbuilt
  refine ⟨⟨on, hconn, root, fun n => if hn : on n = true then tables n hn else .new n on, ?_,
    config⟩, rfl, rfl⟩
  exact fun n hn => (htables n hn).trans (congrArg some (dif_pos hn).symm)

/-- A packet that has waited for too long where it was injected. -/
theorem delivers_threeOn : ∃ (mesh : ParkedMesh 2) (pkt : Packet 2) (trip : mesh.Trip pkt 1),
    mesh.on pkt.dest = true ∧ trip.escapes 0 = true ∧ trip.Delivers := by
  obtain ⟨mesh, hon, hconfig⟩ := exists_of_connected threeOn_connected (by decide : threeOn 3 = true)
    .twoVCs
  let pkt : Packet 2 := ⟨.anyType, 3⟩
  let s : Spot 2 := ⟨0, none, 1⟩
  have hd : mesh.on pkt.dest = true := by
    rw [hon]
    rfl
  have hs : mesh.Placed pkt s := by
    refine ⟨?_, ?_⟩
    · rw [hon]
      rfl
    · rw [vcs, hconfig]
      exact ⟨by decide, by decide⟩
  have hne : ¬ pkt.Arrived s := fun h => absurd (congrArg Fin.val h) (by decide)
  obtain ⟨T, hT⟩ := mesh.exists_leads
  obtain ⟨s', hhop⟩ := exists_hop hT hd hs hne ⟨300, fun _ => 0⟩ { ports := fun _ => {} }
    (f := ⟨.anyType, 1, 3, 0, 0⟩) ⟨rfl, rfl, rfl⟩
  have hescape : rpEscape ⟨300, fun _ => 0⟩ (mesh.vcs pkt)
      (⟨.anyType, 1, 3, 0, 0⟩ : Flit 2) s.inChannel = true := by
    simp [rpEscape]
  let trip : mesh.Trip pkt 1 :=
    { spots := fun i => if i = 0 then s else s'
      escapes := fun _ => true
      injected := rfl
      source := hs
      hop := by
        intro i hi
        obtain rfl := Nat.lt_one_iff.mp hi
        exact hescape ▸ hhop }
  exact ⟨mesh, pkt, trip, hd, rfl, mesh.delivers pkt hd trip⟩

end ParkedMesh

end Flyover
