import Flyover.Routing.OnePort
import Flyover.Routing.Directions

/-!
# `adaptive_flov_mesh`

The escape direction is offered always, and besides it the directions along the
row and along the column that lead on without passing the destination, but not
back to where the packet came from.

In the row or the column of the destination the code does not look whether the
direction leads back. It never does on the way from a source: a packet has not
passed its destination there.
-/

namespace Flyover

variable {k : Nat}

/-- `xy_avaiable`: the neighbour along the row is on, or flying over it does not
pass the column. -/
def xyAvaiable (r : Router) (k : Nat) (xyState : PowerState) (destX : Int) : Bool :=
  xyState == .powerOn ||
    xyState == .powerOff &&
      (r.logicalNeighborX k .east != -1 && decide (destX ≥ r.logicalNeighborX k .east) ||
        r.logicalNeighborX k .west != -1 && decide (destX ≤ r.logicalNeighborX k .west))

/-- `yx_avaiable`: the neighbour along the column is on, or flying over it to the
north does not pass the row. -/
def yxAvaiable (r : Router) (k : Nat) (yxState : PowerState) (destY : Int) : Bool :=
  yxState == .powerOn ||
    yxState == .powerOff &&
      (r.logicalNeighborY k .north != -1 && decide (destY ≤ r.logicalNeighborY k .north))

/-- `adaptive_flov_mesh` -/
def adaptiveFlovMesh : RoutingFunction k := fun config traffic n r f inChannel inject =>
  f.route config n inject fun vcs => do
    let inVC := if inChannel = none then vcs.vcEnd else f.vc
    let inEscape := inVC == vcs.vcBegin
    let gotoEscape := decide (f.misrouteHops > config.missRouteThreshold)
    let xyPort := dorNextMesh k n f.dest false
    let escapeOutPort :=
      if Router.bottomRow n = false ∧ n.Diagonal f.dest ∧ xyPort ≠ .mesh .north then .mesh .south
      else xyPort
    let outputs := OutputSet.clear.addRange escapeOutPort vcs.vcBegin vcs.vcBegin 0
    if inEscape || gotoEscape then pure outputs
    else
      let vcBegin := vcs.vcBegin + 1
      let yxPort := dorNextMesh k n f.dest true
      let xyFirst := decide (traffic.freeCredit xyPort ≥ traffic.freeCredit yxPort)
      let xyPri := if xyFirst then 2 else 1
      let yxPri := if xyFirst then 1 else 2
      if ¬ n.Diagonal f.dest then pure (outputs.addRange xyPort vcBegin vcs.vcEnd 1)
      else
        let xyState ← r.neighborPowerState xyPort
        let yxState ← r.neighborPowerState yxPort
        let xyAv := xyAvaiable r k xyState f.dest.x
        let yxAv := yxAvaiable r k yxState f.dest.y
        let outputs := outputs.addRangeIf (xyAv && xyPort != inPort inChannel) xyPort vcBegin
          vcs.vcEnd xyPri
        -- `assert(xy_out_port != yx_out_port)`
        if xyPort = yxPort then none
        else
          let outputs := outputs.addRangeIf (yxAv && yxPort != inPort inChannel) yxPort vcBegin
            vcs.vcEnd yxPri
          pure (outputs.addRangeIf (!xyAv && !yxAv && escapeOutPort != inPort inChannel)
            escapeOutPort vcBegin vcs.vcEnd 1)

theorem adaptiveFlovMesh_route (config : RoutingConfig) (traffic : Traffic) (n : Node k)
    (r : Router) (f : Flit k) (inChannel : Option Port) (inject : Bool) :
    ∃ transit, adaptiveFlovMesh config traffic n r f inChannel inject =
      f.route config n inject transit :=
  ⟨_, rfl⟩

/-- The mesh routed by `adaptive_flov_mesh`. -/
abbrev adaptiveNet (map : PowerMap k) (routers : Node k → Router) (config : RoutingConfig) :
    RoutedMesh k := ⟨map, routers, config, adaptiveFlovMesh⟩

variable {map : PowerMap k} {routers : Node k → Router} {config : RoutingConfig}

/-- A direction that is offered off the escape channel. -/
structure AdaptiveChoice (map : PowerMap k) (dest : Node k) (s : Spot k) (p : Port) : Prop where
  straight : ¬ s.router.Diagonal dest → p = s.router.xyPort dest
  notBack : s.router.Diagonal dest → s.inChannel ≠ some p
  diagonal : s.router.Diagonal dest → ∃ m, map.Lands s.router p m ∧
    Between s.router.x m.x dest.x ∧ (p = .north → dest.y ≤ m.y)

/-- The entry on the escape channel. -/
def escapeEntry (vcs : VCRange) (n dest : Node k) : OutputEntry :=
  ⟨.mesh (n.escapePort dest), vcs.vcBegin, vcs.vcBegin, 0⟩

/-- Along the row. -/
theorem xyAvaiable_lands {n dest : Node k} {r : Router} (h : Informed map n r)
    (hdiagonal : n.Diagonal dest)
    (havaiable : xyAvaiable r k (r.ports (n.xyPort dest)).neighborState dest.x = true) :
    ∃ m, map.Lands n (n.xyPort dest) m ∧ Between n.x m.x dest.x := by
  have hne : n ≠ dest := fun heq => hdiagonal.1 (congrArg Node.x heq)
  have hedge := Node.edge_xyPort hne
  cases hon : map.on (n.neighbor (n.xyPort dest)) with
  | true =>
      have hlands := PowerMap.lands_neighbor hedge hon
      exact ⟨_, hlands, (hlands.between_of_next hdiagonal hon).1⟩
  | false =>
      have hstate : (r.ports (n.xyPort dest)).neighborState = .powerOff := by
        rw [h.inner _ hedge, hon]
        rfl
      simp only [xyAvaiable, hstate, Bool.or_eq_true, Bool.and_eq_true, bne_iff_ne, ne_eq,
        decide_eq_true_eq, beq_iff_eq, reduceCtorEq, false_or, true_and] at havaiable
      rcases havaiable with ⟨hsome, hx⟩ | ⟨hsome, hx⟩
      · obtain ⟨m, hlands, hm, -⟩ := (h.logical_cases .east).resolve_right fun hnone => hsome hnone.1
        obtain ⟨hp, hbetween⟩ := hlands.row (.inl ⟨rfl, (by omega : m.x ≤ dest.x)⟩)
        rw [hp]
        exact ⟨m, hlands, hbetween⟩
      · obtain ⟨m, hlands, hm, -⟩ := (h.logical_cases .west).resolve_right fun hnone => hsome hnone.1
        obtain ⟨hp, hbetween⟩ := hlands.row (.inr ⟨rfl, (by omega : dest.x ≤ m.x)⟩)
        rw [hp]
        exact ⟨m, hlands, hbetween⟩

/-- Along the column. -/
theorem yxAvaiable_lands {n dest : Node k} {r : Router} (h : Informed map n r)
    (hdiagonal : n.Diagonal dest)
    (havaiable : yxAvaiable r k (r.ports (n.yxPort dest)).neighborState dest.y = true) :
    ∃ m, map.Lands n (n.yxPort dest) m ∧ Between n.x m.x dest.x ∧
      (n.yxPort dest = .north → dest.y ≤ m.y) := by
  have hne : n ≠ dest := fun heq => hdiagonal.1 (congrArg Node.x heq)
  have hedge := Node.edge_yxPort hne
  have hcolumn := Node.yxPort_of_diagonal hdiagonal
  cases hon : map.on (n.neighbor (n.yxPort dest)) with
  | true =>
      have hlands := PowerMap.lands_neighbor hedge hon
      have hx := (hlands.closer_of_next hdiagonal hon).1
      refine ⟨_, hlands, ?_, ?_⟩
      · unfold Between
        omega
      · intro hp
        rcases hcolumn with ⟨-, hp'⟩ | ⟨hlt, -⟩
        · rw [hp] at hp'
          cases hp'
        · rw [hp, Node.neighbor_y, Node.neighborY]
          split <;> omega
  | false =>
      have hstate : (r.ports (n.yxPort dest)).neighborState = .powerOff := by
        rw [h.inner _ hedge, hon]
        rfl
      simp only [yxAvaiable, hstate, Bool.or_eq_true, Bool.and_eq_true, bne_iff_ne, ne_eq,
        decide_eq_true_eq, beq_iff_eq, reduceCtorEq, false_or, true_and] at havaiable
      obtain ⟨m, hlands, -, hm⟩ :=
        (h.logical_cases .north).resolve_right fun hnone => havaiable.1 hnone.2
      have hahead := hlands.ahead
      simp only [Node.Ahead] at hahead
      have hp : n.yxPort dest = .north := by
        rcases hcolumn with ⟨hlt, -⟩ | ⟨-, hp⟩
        · omega
        · exact hp
      rw [hp]
      refine ⟨m, hlands, ?_, fun _ => by omega⟩
      unfold Between
      omega

/-- Where there is no way along the row, the escape direction is down. -/
theorem escapePort_of_not_avaiable {n dest : Node k} {r : Router} (h : Informed map n r)
    (hdiagonal : n.Diagonal dest)
    (hnot : xyAvaiable r k (r.ports (n.xyPort dest)).neighborState dest.x = false) :
    Router.bottomRow n = false ∧ n.escapePort dest = .south := by
  have hne : n ≠ dest := fun heq => hdiagonal.1 (congrArg Node.x heq)
  have hbottom : Router.bottomRow n = false := by
    by_contra hbottom
    have hon : map.on (n.neighbor (n.xyPort dest)) = true :=
      PowerMap.on_of_bottomRow (Bool.eq_true_of_not_eq_false hbottom) hdiagonal
    rw [xyAvaiable, (h.powerOn_iff (Node.edge_xyPort hne)).mpr hon] at hnot
    cases hnot
  exact ⟨hbottom, if_pos ⟨hbottom, hdiagonal⟩⟩

/-- The code's escape direction. -/
theorem escapeOutPort_eq (n dest : Node k) :
    (if Router.bottomRow n = false ∧ n.Diagonal dest ∧
        OutPort.mesh (n.xyPort dest) ≠ .mesh .north then OutPort.mesh .south
      else .mesh (n.xyPort dest)) = .mesh (n.escapePort dest) := by
  unfold Node.escapePort
  by_cases hdiagonal : n.Diagonal dest
  · have hnorth : n.xyPort dest ≠ .north := by
      rcases Node.xyPort_of_diagonal hdiagonal with ⟨-, hp⟩ | ⟨-, hp⟩ <;> rw [hp] <;> decide
    simp only [hdiagonal, hnorth, ne_eq, OutPort.mesh.injEq, not_false_eq_true, and_true]
    split <;> rfl
  · rw [if_neg fun h => hdiagonal h.2.1, if_neg fun h => hdiagonal h.2]

theorem inPort_ne {inChannel : Option Port} {p : Port}
    (h : (OutPort.mesh p != inPort inChannel) = true) : inChannel ≠ some p := by
  rintro rfl
  simp [inPort] at h

/-- The directions that are offered beside the escape direction. -/
theorem adaptiveChoice_of_diagonal {dest : Node k} {s : Spot k} {p : Port} {m : Node k}
    (hdiagonal : s.router.Diagonal dest) (hback : (OutPort.mesh p != inPort s.inChannel) = true)
    (hlands : map.Lands s.router p m) (hcolumn : Between s.router.x m.x dest.x)
    (hrow : p = .north → dest.y ≤ m.y) : AdaptiveChoice map dest s p where
  straight := fun hstraight => absurd hdiagonal hstraight
  notBack := fun _ => inPort_ne hback
  diagonal := fun _ => ⟨m, hlands, hcolumn, hrow⟩

/-- The escape entry is offered; others are in one of the directions that may be
chosen, on the other virtual channels, and only to a packet that is not on the
escape channel. -/
theorem adaptiveFlovMesh_entries (hinformed : ∀ n, Informed map n (routers n)) {pkt : Packet k}
    (traffic : Traffic) {f : Flit k} {s : Spot k}
    (hs : (adaptiveNet map routers config).Placed pkt s) (hnot : ¬ pkt.Arrived s)
    (hf : f.Carries pkt s) :
    ∃ outputs, adaptiveFlovMesh config traffic s.router (routers s.router) f s.inChannel false =
        some outputs ∧
      escapeEntry (config.vcs pkt.type) s.router pkt.dest ∈ outputs ∧
      ∀ e ∈ outputs, e = escapeEntry (config.vcs pkt.type) s.router pkt.dest ∨
        (if s.inChannel = none then (config.vcs pkt.type).vcEnd else s.vc) ≠
            (config.vcs pkt.type).vcBegin ∧
          e.vcStart = (config.vcs pkt.type).vcBegin + 1 ∧
          e.vcEnd = (config.vcs pkt.type).vcEnd ∧
          ∃ p, e.outputPort = .mesh p ∧ AdaptiveChoice map pkt.dest s p := by
  have hne : s.router ≠ pkt.dest := hnot
  have hroute : adaptiveFlovMesh config traffic s.router (routers s.router) f s.inChannel false = _ :=
    Flit.route_transit hf hs hnot
  rw [hroute, hf.dest, hf.vc, Node.dorNextMesh_xy hne, Node.dorNextMesh_yx hne]
  simp only [escapeOutPort_eq, RoutedMesh.vcs, Router.neighborPowerState, Option.bind_eq_bind,
    Option.bind_some]
  generalize hvc : (if s.inChannel = none then (config.vcs pkt.type).vcEnd else s.vc) = inVC
  by_cases hstay : (inVC == (config.vcs pkt.type).vcBegin ||
      decide (f.misrouteHops > config.missRouteThreshold)) = true
  · rw [if_pos hstay]
    refine ⟨_, rfl, OutputSet.mem_clear_addRange.mpr rfl, ?_⟩
    exact fun e he => .inl (OutputSet.mem_clear_addRange.mp he)
  · rw [if_neg hstay]
    have hadaptive : inVC ≠ (config.vcs pkt.type).vcBegin := by
      rintro rfl
      simp at hstay
    by_cases hdiagonal : s.router.Diagonal pkt.dest
    · have hdistinct : OutPort.mesh (s.router.xyPort pkt.dest) ≠
          .mesh (s.router.yxPort pkt.dest) := fun heq =>
        Node.xyPort_ne_yxPort hdiagonal (OutPort.mesh.inj heq)
      rw [if_neg (not_not.mpr hdiagonal), if_neg hdistinct]
      refine ⟨_, rfl, ?_, ?_⟩
      · iterate 3 apply OutputSet.mem_addRangeIf_of_mem
        exact OutputSet.mem_clear_addRange.mpr rfl
      · intro e he
        rcases OutputSet.of_mem_addRangeIf he with he | ⟨hcond, rfl⟩
        · rcases OutputSet.of_mem_addRangeIf he with he | ⟨hcond, rfl⟩
          · rcases OutputSet.of_mem_addRangeIf he with he | ⟨hcond, rfl⟩
            · exact .inl (OutputSet.mem_clear_addRange.mp he)
            · rw [Bool.and_eq_true] at hcond
              obtain ⟨m, hlands, hcolumn⟩ :=
                xyAvaiable_lands (hinformed s.router) hdiagonal hcond.1
              refine .inr ⟨hadaptive, rfl, rfl, _, rfl,
                adaptiveChoice_of_diagonal hdiagonal hcond.2 hlands hcolumn fun hnorth => ?_⟩
              rcases Node.xyPort_of_diagonal hdiagonal with ⟨-, hp⟩ | ⟨-, hp⟩ <;>
                rw [hp] at hnorth <;> cases hnorth
          · rw [Bool.and_eq_true] at hcond
            obtain ⟨m, hlands, hcolumn, hrow⟩ :=
              yxAvaiable_lands (hinformed s.router) hdiagonal hcond.1
            exact .inr ⟨hadaptive, rfl, rfl, _, rfl,
              adaptiveChoice_of_diagonal hdiagonal hcond.2 hlands hcolumn hrow⟩
        · rw [Bool.and_eq_true, Bool.and_eq_true, Bool.not_eq_true'] at hcond
          obtain ⟨hbottom, hsouth⟩ :=
            escapePort_of_not_avaiable (hinformed s.router) hdiagonal hcond.1.1
          obtain ⟨m, hlands⟩ : ∃ m, map.Lands s.router .south m := PowerMap.lands_south hbottom
          rw [hsouth] at hcond ⊢
          exact .inr ⟨hadaptive, rfl, rfl, _, rfl,
            adaptiveChoice_of_diagonal hdiagonal hcond.2 hlands
              (PowerMap.escapeStep_south hdiagonal hlands).column
              fun hnorth => absurd hnorth (by decide)⟩
    · rw [if_pos hdiagonal]
      refine ⟨_, rfl, OutputSet.mem_addRange.mpr (.inl (OutputSet.mem_clear_addRange.mpr rfl)), ?_⟩
      intro e he
      rcases OutputSet.mem_addRange.mp he with he | ⟨rfl, -⟩
      · exact .inl (OutputSet.mem_clear_addRange.mp he)
      · exact .inr ⟨hadaptive, rfl, rfl, _, rfl, fun _ => rfl, fun h => absurd h hdiagonal,
          fun h => absurd h hdiagonal⟩

/-- The packet has not passed its destination on the way to where it is: not its
column, going north not its row, and going south not its row in its column. -/
def Heading (dest : Node k) (s : Spot k) : Prop :=
  match s.inChannel with
  | none => True
  | some .west => s.router.x ≤ dest.x
  | some .east => dest.x ≤ s.router.x
  | some .south => dest.y ≤ s.router.y
  | some .north => s.router.x = dest.x → s.router.y ≤ dest.y

/-- A hop that does not pass the destination. -/
structure NotPast (map : PowerMap k) (dest n : Node k) (p : Port) (m : Node k) : Prop where
  lands : map.Lands n p m
  column : Between n.x m.x dest.x
  north : p = .north → dest.y ≤ m.y
  south : p = .south → n.x = dest.x → m.y ≤ dest.y

theorem NotPast.heading {dest n m : Node k} {p : Port} {vc : Int} (h : NotPast map dest n p m) :
    Heading dest ⟨m, some p.opp, vc⟩ := by
  have hahead := h.lands.ahead
  have hcolumn := h.column
  have hnorth := h.north
  have hsouth := h.south
  unfold Between at hcolumn
  cases p <;> simp only [Heading, Port.opp, Node.Ahead] at hahead ⊢
  · omega
  · omega
  · intro hx
    exact hsouth rfl (hahead.1 ▸ hx)
  · exact hnorth rfl

theorem NotPast.of_straight {dest n m : Node k} (hon : map.on dest = true) (hne : n ≠ dest)
    (hstraight : ¬ n.Diagonal dest) (hlands : map.Lands n (n.xyPort dest) m) :
    NotPast map dest n (n.xyPort dest) m := by
  have hahead := n.ahead_xyPort hne hstraight
  have hpast := hlands.not_past hahead hon
  refine ⟨hlands, (hlands.between_of_straight hne hstraight hon).1, ?_, ?_⟩
  · intro hp
    rw [hp] at hpast
    rcases hpast with rfl | hpast
    · exact Nat.le_refl _
    · exact Nat.le_of_lt hpast.2
  · intro hp _
    rw [hp] at hpast
    rcases hpast with rfl | hpast
    · exact Nat.le_refl _
    · exact Nat.le_of_lt hpast.2

theorem NotPast.of_escape {dest n m : Node k} (hon : map.on dest = true) (hne : n ≠ dest)
    (hlands : map.Lands n (n.escapePort dest) m) : NotPast map dest n (n.escapePort dest) m := by
  by_cases hdown : Router.bottomRow n = false ∧ n.Diagonal dest
  · have hp : n.escapePort dest = .south := if_pos hdown
    have hstep := PowerMap.escapeStep_escapePort hne hon hlands
    refine ⟨hlands, hstep.column, ?_, fun _ hx => absurd hx hdown.2.1⟩
    intro hnorth
    rw [hp] at hnorth
    cases hnorth
  · have hp : n.escapePort dest = n.xyPort dest := if_neg hdown
    rw [hp] at hlands ⊢
    by_cases hdiagonal : n.Diagonal dest
    · have hbottom : Router.bottomRow n = true :=
        Bool.eq_true_of_not_eq_false fun hnot => hdown ⟨hnot, hdiagonal⟩
      have hcolumn :=
        (hlands.between_of_next hdiagonal (PowerMap.on_of_bottomRow hbottom hdiagonal)).1
      refine ⟨hlands, hcolumn, ?_, ?_⟩ <;> intro hp <;>
        rcases Node.xyPort_of_diagonal hdiagonal with ⟨-, hq⟩ | ⟨-, hq⟩ <;> rw [hq] at hp <;> cases hp
    · exact .of_straight hon hne hdiagonal hlands

theorem AdaptiveChoice.notPast {dest : Node k} {s : Spot k} {p : Port}
    (h : AdaptiveChoice map dest s p) (hon : map.on dest = true) (hne : s.router ≠ dest) :
    ∃ m, NotPast map dest s.router p m := by
  by_cases hdiagonal : s.router.Diagonal dest
  · obtain ⟨m, hlands, hcolumn, hnorth⟩ := h.diagonal hdiagonal
    exact ⟨m, hlands, hcolumn, hnorth, fun _ hx => absurd hx hdiagonal.1⟩
  · obtain ⟨m, hlands⟩ := PowerMap.lands_straight hne hdiagonal hon
    rw [h.straight hdiagonal]
    exact ⟨m, .of_straight hon hne hdiagonal hlands⟩

/-- A packet that has not passed its destination is not offered the way back. -/
theorem AdaptiveChoice.not_back {dest : Node k} {s : Spot k} {p : Port}
    (h : AdaptiveChoice map dest s p) (hne : s.router ≠ dest) (hheading : Heading dest s) :
    s.inChannel ≠ some p := by
  by_cases hdiagonal : s.router.Diagonal dest
  · exact h.notBack hdiagonal
  · intro hin
    have hahead := s.router.ahead_xyPort hne hdiagonal
    rw [← h.straight hdiagonal] at hahead
    unfold Heading at hheading
    rw [hin] at hheading
    cases p <;> simp only [Node.Ahead] at hahead hheading <;> omega

/-- What a hop of `adaptive_flov_mesh` can be. -/
theorem adaptiveNet_hop_cases (hinformed : ∀ n, Informed map n (routers n)) {pkt : Packet k}
    {s s' : Spot k} {p : Port} (hs : (adaptiveNet map routers config).Placed pkt s)
    (hnot : ¬ pkt.Arrived s) (hhop : (adaptiveNet map routers config).Hop pkt s p s') :
    map.Lands s.router p s'.router ∧ s'.inChannel = some p.opp ∧
      (p = s.router.escapePort pkt.dest ∧ s'.vc = (config.vcs pkt.type).vcBegin ∨
        AdaptiveChoice map pkt.dest s p ∧ (config.vcs pkt.type).vcBegin < s'.vc ∧
          ¬ (adaptiveNet map routers config).OnEscape pkt s) := by
  obtain ⟨outputs, entry, ⟨traffic, f, hf, houtputs⟩, hentry, hport, hvc, hlands, hin⟩ := hhop
  obtain ⟨outputs', hroute, -, hentries⟩ := adaptiveFlovMesh_entries hinformed traffic hs hnot hf
  obtain rfl := Option.some.inj (hroute.symm.trans houtputs)
  refine ⟨hlands, hin, ?_⟩
  rcases hentries entry hentry with rfl | ⟨hadaptive, hstart, -, q, hq, hchoice⟩
  · obtain rfl := OutPort.mesh.inj hport
    exact .inl ⟨rfl, Int.le_antisymm hvc.2 hvc.1⟩
  · obtain rfl := OutPort.mesh.inj (hq.symm.trans hport)
    refine .inr ⟨hchoice, by omega, ?_⟩
    rintro ⟨hmesh, hescape⟩
    rw [if_neg hmesh] at hadaptive
    exact hadaptive hescape

theorem adaptiveNet_notPast (hinformed : ∀ n, Informed map n (routers n)) {pkt : Packet k}
    (hon : map.on pkt.dest = true) {s s' : Spot k} {p : Port}
    (hs : (adaptiveNet map routers config).Placed pkt s) (hnot : ¬ pkt.Arrived s)
    (hhop : (adaptiveNet map routers config).Hop pkt s p s') :
    NotPast map pkt.dest s.router p s'.router := by
  obtain ⟨hlands, -, ⟨rfl, -⟩ | ⟨hchoice, -⟩⟩ := adaptiveNet_hop_cases hinformed hs hnot hhop
  · exact .of_escape hon hnot hlands
  · obtain ⟨m, hm⟩ := hchoice.notPast hon hnot
    rwa [hlands.unique hm.lands]

theorem adaptiveNet_answers (hinformed : ∀ n, Informed map n (routers n)) {pkt : Packet k}
    (hon : map.on pkt.dest = true) {s : Spot k}
    (hs : (adaptiveNet map routers config).Placed pkt s) (hnot : ¬ pkt.Arrived s) :
    (adaptiveNet map routers config).Answers pkt s := by
  intro traffic f hf
  obtain ⟨outputs, hroute, hescape, hentries⟩ :=
    adaptiveFlovMesh_entries hinformed traffic hs hnot hf
  have hbegin : (config.vcs pkt.type).vcBegin ≤ s.vc := hs.vcBegin_le
  have hend : s.vc ≤ (config.vcs pkt.type).vcEnd := hs.le_vcEnd
  refine ⟨outputs, hroute, ⟨_, hescape⟩, ?_⟩
  intro entry hentry
  rcases hentries entry hentry with rfl | ⟨hadaptive, hstart, hlast, p, hp, hchoice⟩
  · obtain ⟨m, hlands⟩ := PowerMap.lands_escapePort hnot hon
    exact ⟨⟨_, m, rfl, hlands⟩, Int.le_refl _, Int.le_refl _, Int.le_trans hbegin hend⟩
  · obtain ⟨m, hm⟩ := hchoice.notPast hon hnot
    have hlt : (config.vcs pkt.type).vcBegin < (config.vcs pkt.type).vcEnd := by
      split at hadaptive <;> omega
    refine ⟨⟨p, m, hp, hm.lands⟩, ?_, ?_, ?_⟩ <;> simp only [hstart, hlast, RoutedMesh.vcs] <;> omega

theorem adaptiveNet_departs {pkt : Packet k} {s s' : Spot k} {p : Port}
    (hs : (adaptiveNet map routers config).Placed pkt s)
    (hhop : (adaptiveNet map routers config).Hop pkt s p s') : ¬ pkt.Arrived s :=
  fun harrived => (RoutedMesh.ejects_of_route (fun _ _ _ => adaptiveFlovMesh_route ..) hs
    harrived).no_hop hhop

theorem adaptiveNet_placed (hinformed : ∀ n, Informed map n (routers n)) {pkt : Packet k}
    (hon : map.on pkt.dest = true) {s s' : Spot k} {p : Port}
    (hs : (adaptiveNet map routers config).Placed pkt s)
    (hhop : (adaptiveNet map routers config).Hop pkt s p s') :
    (adaptiveNet map routers config).Placed pkt s' :=
  hhop.placed (adaptiveNet_answers hinformed hon hs (adaptiveNet_departs hs hhop))

theorem adaptiveNet_followsTurns (hinformed : ∀ n, Informed map n (routers n)) :
    (adaptiveNet map routers config).FollowsTurns where
  step := by
    intro pkt s p s' hon hs hhop
    have hnot := adaptiveNet_departs hs hhop.1
    obtain ⟨hlands, -, ⟨rfl, -⟩ | ⟨-, hvc, -⟩⟩ := adaptiveNet_hop_cases hinformed hs hnot hhop.1
    · exact PowerMap.escapeStep_escapePort hnot hon hlands
    · exact absurd hhop.2 (Int.ne_of_gt hvc)
  departs := fun _ _ _ _ _ hs hhop => adaptiveNet_departs hs hhop
  placed := fun _ _ _ _ hon hs hhop => adaptiveNet_placed hinformed hon hs hhop

/-- A packet on its way from a source has not passed its destination. -/
theorem adaptiveNet_reachable (hinformed : ∀ n, Informed map n (routers n)) {pkt : Packet k}
    (hon : map.on pkt.dest = true) {s : Spot k}
    (hreach : (adaptiveNet map routers config).Reachable pkt s) :
    (adaptiveNet map routers config).Placed pkt s ∧ Heading pkt.dest s := by
  induction hreach with
  | source hs hin =>
      refine ⟨hs, ?_⟩
      unfold Heading
      rw [hin]
      trivial
  | hop hreach hhop ih =>
      rename_i s s' p
      have hnot := adaptiveNet_departs ih.1 hhop
      refine ⟨adaptiveNet_placed hinformed hon ih.1 hhop, ?_⟩
      have hpast := adaptiveNet_notPast hinformed hon ih.1 hnot hhop
      obtain ⟨-, hin, -⟩ := adaptiveNet_hop_cases hinformed ih.1 hnot hhop
      obtain ⟨m, inChannel, vc⟩ := s'
      obtain rfl : inChannel = some p.opp := hin
      exact hpast.heading

/-- An output set with a safe way out. -/
structure WayOut (mesh : RoutedMesh k) (pkt : Packet k) (s : Spot k) (outputs : OutputSet) :
    Prop where
  /-- There is an entry on the escape channel, at a port that leads to a router that is on. -/
  escape : ∃ e ∈ outputs, e.vcStart = (mesh.vcs pkt).vcBegin ∧ e.vcEnd = (mesh.vcs pkt).vcBegin ∧
    ∃ p m, e.outputPort = .mesh p ∧ mesh.map.Lands s.router p m
  /-- Any entry on another channel leads to a router that is on, not back and not
  past the destination. -/
  others : ∀ e ∈ outputs, e.vcStart = (mesh.vcs pkt).vcBegin ∧ e.vcEnd = (mesh.vcs pkt).vcBegin ∨
    (mesh.vcs pkt).vcBegin < e.vcStart ∧ ∃ p m, e.outputPort = .mesh p ∧
      s.inChannel ≠ some p ∧ mesh.map.Lands s.router p m ∧ Between s.router.x m.x pkt.dest.x ∧
      (p = .north → pkt.dest.y ≤ m.y)
  /-- On the escape channel there is nothing else. -/
  only : mesh.OnEscape pkt s →
    ∀ e ∈ outputs, e.vcStart = (mesh.vcs pkt).vcBegin ∧ e.vcEnd = (mesh.vcs pkt).vcBegin

/-- `adaptive_flov_mesh` leaves a safe way out wherever a packet can be, and the
escape channels alone deliver from everywhere without cyclic dependencies. -/
theorem adaptiveFlovMesh_wayOut (map : PowerMap k) (routers : Node k → Router)
    (config : RoutingConfig) (hinformed : ∀ n, Informed map n (routers n)) :
    let mesh := adaptiveNet map routers config
    (∀ pkt s traffic f, map.on pkt.dest = true → mesh.Reachable pkt s → ¬ pkt.Arrived s →
      f.Carries pkt s → ∃ outputs, adaptiveFlovMesh config traffic s.router (routers s.router) f
        s.inChannel false = some outputs ∧ WayOut mesh pkt s outputs) ∧
    (∀ pkt s, map.on pkt.dest = true → mesh.Placed pkt s →
      Progress.Within (fun s s' => ∃ p, mesh.EscapeHop pkt s p s') pkt.Arrived (3 * k) s) ∧
    Progress.Acyclic mesh.EscapeDep := by
  intro mesh
  have hturns : mesh.FollowsTurns := adaptiveNet_followsTurns hinformed
  refine ⟨?_, ?_, hturns.acyclic⟩
  · intro pkt s traffic f hon hreach hnot hf
    obtain ⟨hs, hheading⟩ := adaptiveNet_reachable hinformed hon hreach
    obtain ⟨outputs, hroute, hescape, hentries⟩ :=
      adaptiveFlovMesh_entries hinformed traffic hs hnot hf
    obtain ⟨m, hlands⟩ : ∃ m, map.Lands s.router (s.router.escapePort pkt.dest) m :=
      PowerMap.lands_escapePort hnot hon
    refine ⟨outputs, hroute, ⟨_, hescape, rfl, rfl, _, m, rfl, hlands⟩, ?_, ?_⟩
    · intro e he
      rcases hentries e he with rfl | ⟨-, hstart, -, p, hp, hchoice⟩
      · exact .inl ⟨rfl, rfl⟩
      · obtain ⟨m, hm⟩ := hchoice.notPast hon hnot
        refine .inr ⟨?_, p, m, hp, hchoice.not_back hnot hheading, hm.lands, hm.column, hm.north⟩
        rw [hstart]
        exact Int.lt_succ _
    · rintro ⟨hmesh, hvc⟩ e he
      rcases hentries e he with rfl | ⟨hadaptive, -⟩
      · exact ⟨rfl, rfl⟩
      · rw [if_neg hmesh] at hadaptive
        exact absurd hvc hadaptive
  · intro pkt s hon hs
    apply hturns.within (fun _ => True) hon ?_ (fun _ _ _ _ hhop => ⟨trivial, hhop⟩) hs trivial
    intro s hs _ hnot
    let f : Flit k := ⟨pkt.type, s.vc, pkt.dest, 0, 0⟩
    have hf : f.Carries pkt s := ⟨rfl, rfl, rfl⟩
    obtain ⟨outputs, hroute, hescape, -⟩ :=
      adaptiveFlovMesh_entries hinformed ⟨0, fun _ => 0⟩ hs hnot hf
    obtain ⟨m, hlands⟩ : ∃ m, map.Lands s.router (s.router.escapePort pkt.dest) m :=
      PowerMap.lands_escapePort hnot hon
    refine ⟨⟨m, some (s.router.escapePort pkt.dest).opp, (config.vcs pkt.type).vcBegin⟩,
      s.router.escapePort pkt.dest, ⟨outputs, _, ⟨_, f, hf, hroute⟩, hescape, rfl, ?_, hlands, rfl⟩, rfl⟩
    exact ⟨Int.le_refl _, Int.le_refl _⟩

/-- From the corner of a mesh in which all but that and the bottom row is off. -/
theorem adaptiveFlovMesh_wayOut_corner :
    let map := PowerMap.withCorner 3
    let mesh := adaptiveNet map map.view .twoVCs
    let pkt : Packet 3 := ⟨.anyType, 8⟩
    let s : Spot 3 := ⟨0, none, 1⟩
    (∃ outputs, adaptiveFlovMesh .twoVCs ⟨0, fun _ => 0⟩ s.router (map.view s.router)
      ⟨.anyType, 1, 8, 0, 0⟩ s.inChannel false = some outputs ∧ WayOut mesh pkt s outputs) ∧
    Progress.Within (fun s s' => ∃ p, mesh.EscapeHop pkt s p s') pkt.Arrived (3 * 3) s ∧
    Progress.Acyclic mesh.EscapeDep := by
  intro map mesh pkt s
  have hmain := adaptiveFlovMesh_wayOut map map.view .twoVCs map.informed_view
  have hs : mesh.Placed pkt s := ⟨by decide, by decide, by decide⟩
  exact ⟨hmain.1 pkt s _ _ (by decide) (.source hs rfl) (by decide : (0 : Fin 9) ≠ 8)
    ⟨rfl, rfl, rfl⟩, hmain.2.1 pkt s (by decide) hs, hmain.2.2⟩

end Flyover
