import Flyover.Routing.OnePort
import Flyover.Routing.Directions

/-!
# `opt_flov_mesh` and `opt_rflov_mesh`

Along the row while the neighbour there is on. If it is not, fly over it unless
that would pass the column of the destination; else try the north, off the
escape channel; else go south. A packet that has come from the south and is sent
back there changes to the escape channel, so that it does not go up and down
forever.

The two functions differ in how they find out what flying in a direction leads
to: from the logical neighbours, or from the neighbour states alone, where a
router that is off has neighbours that are on.
-/

namespace Flyover

variable {k : Nat}

/-- What both functions do around the choice of a detour. -/
def optMesh (detour : Router → Node k → Node k → Bool → Port) : RoutingFunction k :=
  fun config traffic n r f inChannel inject =>
    f.route config n inject fun vcs => do
      let inVC := if inChannel = none then vcs.vcEnd else f.vc
      let escape := inVC == vcs.vcBegin || decide (traffic.simTime - f.rtime > 300)
      let xyPort := dorNextMesh k n f.dest false
      let xyState ← r.neighborPowerState xyPort
      let detoured := decide (n.Diagonal f.dest) && xyState != .powerOn
      let outPort := if detoured then .mesh (detour r n f.dest escape) else xyPort
      let uTurn := detoured && inChannel == some .south && outPort == .mesh .south
      let escape := escape || uTurn
      let outPort :=
        if escape ∧ Router.bottomRow n = false ∧ n.Diagonal f.dest ∧ outPort = .mesh .north
        then .mesh .south else outPort
      pure (.onePort vcs escape outPort)

/-- The detour of `opt_rflov_mesh`. -/
def rflovDetour (_ : Router) (n dest : Node k) (escape : Bool) : Port :=
  if (dest.x : Int) > n.x + 1 then .east
  else if (dest.x : Int) < n.x - 1 then .west
  else if (dest.y : Int) < n.y - 1 ∧ escape = false then .north
  else .south

/-- The detour of `opt_flov_mesh`. -/
def flovDetour (r : Router) (_ dest : Node k) (escape : Bool) : Port :=
  if r.logicalNeighborX k .east ≠ -1 ∧ (dest.x : Int) ≥ r.logicalNeighborX k .east then .east
  else if r.logicalNeighborX k .west ≠ -1 ∧ (dest.x : Int) ≤ r.logicalNeighborX k .west then .west
  else if r.logicalNeighborY k .north ≠ -1 ∧ (dest.y : Int) ≤ r.logicalNeighborY k .north ∧
      escape = false then .north
  else .south

/-- `opt_rflov_mesh` -/
def optRflovMesh : RoutingFunction k := optMesh rflovDetour

/-- `opt_flov_mesh` -/
def optFlovMesh : RoutingFunction k := optMesh flovDetour

theorem optMesh_route (detour : Router → Node k → Node k → Bool → Port) (config : RoutingConfig)
    (traffic : Traffic) (n : Node k) (r : Router) (f : Flit k) (inChannel : Option Port)
    (inject : Bool) : ∃ transit, optMesh detour config traffic n r f inChannel inject =
      f.route config n inject transit :=
  ⟨_, rfl⟩

/-- A detour over the neighbour in the row, to the north off the escape channel,
or to the south. -/
inductive SafeDetour (map : PowerMap k) (n dest : Node k) (escape : Bool) : Port → Prop
  | row (m : Node k) : map.Lands n (n.xyPort dest) m → Between n.x m.x dest.x →
      SafeDetour map n dest escape (n.xyPort dest)
  | north (m : Node k) : escape = false → map.Lands n .north m →
      SafeDetour map n dest escape .north
  | south : SafeDetour map n dest escape .south

/-- The detours that the routers make are safe. -/
def SafeDetours (map : PowerMap k) (routers : Node k → Router)
    (detour : Router → Node k → Node k → Bool → Port) : Prop :=
  ∀ n dest escape, n.Diagonal dest → map.on (n.neighbor (n.xyPort dest)) = false →
    SafeDetour map n dest escape (detour (routers n) n dest escape)

/-- What the functions may choose. -/
structure OptChoice (map : PowerMap k) (config : RoutingConfig) (pkt : Packet k) (s : Spot k)
    (escape : Bool) (p : Port) : Prop where
  straight : ¬ s.router.Diagonal pkt.dest → p = s.router.xyPort pkt.dest
  next : s.router.Diagonal pkt.dest →
    map.on (s.router.neighbor (s.router.xyPort pkt.dest)) = true → p = s.router.xyPort pkt.dest
  detour : s.router.Diagonal pkt.dest →
    map.on (s.router.neighbor (s.router.xyPort pkt.dest)) = false →
      SafeDetour map s.router pkt.dest escape p
  uTurn : s.router.Diagonal pkt.dest → s.inChannel = some .south → p = .south → escape = true
  stays : s.inChannel ≠ none → s.vc = (config.vcs pkt.type).vcBegin → escape = true

variable {map : PowerMap k} {routers : Node k → Router} {config : RoutingConfig}
  {detour : Router → Node k → Node k → Bool → Port}

/-- The mesh routed with a detour. -/
abbrev optNet (map : PowerMap k) (routers : Node k → Router) (config : RoutingConfig)
    (detour : Router → Node k → Node k → Bool → Port) : RoutedMesh k :=
  ⟨map, routers, config, optMesh detour⟩

namespace OptMesh

/-- The port before the escape rule applies. -/
def port (map : PowerMap k) (detour : Router → Node k → Node k → Bool → Port) (r : Router)
    (n dest : Node k) (escape : Bool) : Port :=
  if n.Diagonal dest ∧ map.on (n.neighbor (n.xyPort dest)) = false then detour r n dest escape
  else n.xyPort dest

/-- When the packet has to be on the escape channel anyway. -/
def late (vcs : VCRange) (waited : Int) (s : Spot k) : Bool :=
  (if s.inChannel = none then vcs.vcEnd else s.vc) == vcs.vcBegin || decide (waited > 300)

/-- When it goes back where it has come from. -/
def uTurn (map : PowerMap k) (dest : Node k) (s : Spot k) (p : Port) : Bool :=
  decide (s.router.Diagonal dest) && !map.on (s.router.neighbor (s.router.xyPort dest)) &&
    s.inChannel == some .south && p == .south

theorem optMesh_eq (hknows : ∀ n, KnowsNeighbors map n (routers n)) {pkt : Packet k}
    (traffic : Traffic) {f : Flit k} {s : Spot k}
    (hs : (optNet map routers config detour).Placed pkt s) (hnot : ¬ pkt.Arrived s)
    (hf : f.Carries pkt s) :
    optMesh detour config traffic s.router (routers s.router) f s.inChannel false =
      let late := late (config.vcs pkt.type) (traffic.simTime - f.rtime) s
      let p := port map detour (routers s.router) s.router pkt.dest late
      let escape := late || uTurn map pkt.dest s p
      some (.onePort (config.vcs pkt.type) escape
        (if escape ∧ Router.bottomRow s.router = false ∧ s.router.Diagonal pkt.dest ∧ p = .north
          then .mesh .south else .mesh p)) := by
  have hne : s.router ≠ pkt.dest := hnot
  have hxy := (hknows s.router).powerOn_iff (Node.edge_xyPort hne)
  have hroute : optMesh detour config traffic s.router (routers s.router) f s.inChannel false = _ :=
    Flit.route_transit hf hs hnot
  rw [hroute, hf.dest, hf.vc, Node.dorNextMesh_xy hne]
  unfold late uTurn port
  by_cases hdiagonal : s.router.Diagonal pkt.dest
  · cases hon : map.on (s.router.neighbor (s.router.xyPort pkt.dest)) with
    | true =>
        have hstate := hxy.mpr hon
        simp [Router.neighborPowerState, hstate, hdiagonal, RoutedMesh.vcs]
    | false =>
        have hstate : ((routers s.router).ports (s.router.xyPort pkt.dest)).neighborState ≠
            .powerOn := by
          rw [ne_eq, hxy, hon]
          exact Bool.false_ne_true
        simp [Router.neighborPowerState, hstate, bne_iff_ne.mpr hstate, hdiagonal, RoutedMesh.vcs]
  · simp [Router.neighborPowerState, hdiagonal, RoutedMesh.vcs]

theorem late_false {vcs : VCRange} {waited : Int} {s : Spot k} (h : late vcs waited s = false) :
    (s.inChannel ≠ none → s.vc ≠ vcs.vcBegin) ∧
      (vcs.vcBegin ≤ s.vc → s.vc ≤ vcs.vcEnd → vcs.vcBegin < vcs.vcEnd) := by
  rw [late, Bool.or_eq_false_iff, beq_eq_false_iff_ne] at h
  constructor
  · intro hin
    rw [if_neg hin] at h
    exact h.1
  · intro hbegin hend
    have hne := h.1
    split at hne <;> omega

/-- A detour to the south changes to the escape channel, the one to the north is
not taken on it. -/
theorem safeDetour_port (hsafe : SafeDetours map routers detour) {n dest : Node k} (late : Bool)
    (hdiagonal : n.Diagonal dest) (hoff : map.on (n.neighbor (n.xyPort dest)) = false) :
    SafeDetour map n dest late (port map detour (routers n) n dest late) := by
  rw [port, if_pos ⟨hdiagonal, hoff⟩]
  exact hsafe n dest late hdiagonal hoff

/-- The port is never one that the escape rule overrides. -/
theorem not_overridden (hsafe : SafeDetours map routers detour) {dest : Node k} {s : Spot k}
    {late : Bool} (hdiagonal : s.router.Diagonal dest)
    (hport : port map detour (routers s.router) s.router dest late = .north) :
    late = false ∧ uTurn map dest s (port map detour (routers s.router) s.router dest late) = false := by
  have hrow : s.router.xyPort dest ≠ .north := by
    rcases Node.xyPort_of_diagonal hdiagonal with ⟨-, hp⟩ | ⟨-, hp⟩ <;> rw [hp] <;> decide
  constructor
  · cases hon : map.on (s.router.neighbor (s.router.xyPort dest)) with
    | true =>
        rw [port, if_neg (by simp [hon])] at hport
        exact absurd hport hrow
    | false =>
        have hdetour := safeDetour_port hsafe late hdiagonal hon
        rw [hport] at hdetour
        generalize hnorth : Port.north = p at hdetour
        cases hdetour with
        | row m hlands hcolumn => exact absurd hnorth.symm hrow
        | north m hlate hlands => exact hlate
        | south => cases hnorth
  · rw [hport, uTurn]
    simp

theorem choice (hknows : ∀ n, KnowsNeighbors map n (routers n))
    (hsafe : SafeDetours map routers detour) {pkt : Packet k} (traffic : Traffic) (f : Flit k)
    {s : Spot k} (hs : (optNet map routers config detour).Placed pkt s) (hnot : ¬ pkt.Arrived s)
    (hf : f.Carries pkt s) :
    ∃ escape p, optMesh detour config traffic s.router (routers s.router) f s.inChannel false =
        some (.onePort (config.vcs pkt.type) escape (.mesh p)) ∧
      OptChoice map config pkt s escape p ∧
      (escape = false → (config.vcs pkt.type).vcBegin < (config.vcs pkt.type).vcEnd) := by
  have hroute := optMesh_eq hknows traffic hs hnot hf
  dsimp only at hroute
  generalize hlate : late (config.vcs pkt.type) (traffic.simTime - f.rtime) s = late at hroute
  generalize hport : port map detour (routers s.router) s.router pkt.dest late = p at hroute
  generalize huTurn : uTurn map pkt.dest s p = back at hroute
  have hoverride : ¬ ((late || back) = true ∧ Router.bottomRow s.router = false ∧
      s.router.Diagonal pkt.dest ∧ p = .north) := by
    rintro ⟨hescape, -, hdiagonal, rfl⟩
    obtain ⟨rfl, hback⟩ := not_overridden (s := s) hsafe hdiagonal hport
    rw [hport, huTurn] at hback
    rw [hback] at hescape
    cases hescape
  refine ⟨late || back, p, ?_, ?_, ?_⟩
  · rw [hroute, if_neg hoverride]
  · exact
      { straight := by
          intro hstraight
          rw [← hport, port, if_neg fun hdetour => hstraight hdetour.1]
        next := by
          intro _ hon
          rw [← hport, port, if_neg (by simp [hon])]
        detour := by
          intro hdiagonal hoff
          have hdetour := safeDetour_port hsafe late hdiagonal hoff
          rw [hport] at hdetour
          cases hdetour with
          | row m hlands hcolumn => exact .row m hlands hcolumn
          | north m hnot hlands =>
              refine .north m ?_ hlands
              rw [hnot, ← huTurn, uTurn]
              simp
          | south => exact .south
        uTurn := by
          rintro hdiagonal hin rfl
          cases hon : map.on (s.router.neighbor (s.router.xyPort pkt.dest)) with
          | true =>
              rw [port, if_neg (by simp [hon])] at hport
              rcases Node.xyPort_of_diagonal hdiagonal with ⟨-, hp⟩ | ⟨-, hp⟩ <;>
                rw [hp] at hport <;> cases hport
          | false =>
              rw [← huTurn, uTurn, hon, hin, Bool.or_eq_true]
              exact .inr (by simp [hdiagonal])
        stays := by
          intro hin hvc
          cases late with
          | true => rfl
          | false => exact absurd hvc ((late_false hlate).1 hin) }
  · intro hescape
    rw [Bool.or_eq_false_iff] at hescape
    rw [hescape.1] at hlate
    exact (late_false hlate).2 hs.vcBegin_le hs.le_vcEnd

end OptMesh

namespace OptChoice

variable {pkt : Packet k} {s : Spot k} {escape : Bool} {p : Port}

/-- A packet that has to make a detour is not in the bottom row. -/
theorem bottomRow_of_off {n dest : Node k} (hdiagonal : n.Diagonal dest)
    (hoff : map.on (n.neighbor (n.xyPort dest)) = false) : Router.bottomRow n = false := by
  by_contra hbottom
  have hon : map.on (n.neighbor (n.xyPort dest)) = true :=
    PowerMap.on_of_bottomRow (Bool.eq_true_of_not_eq_false hbottom) hdiagonal
  rw [hoff] at hon
  cases hon

theorem lands (h : OptChoice map config pkt s escape p) (hon : map.on pkt.dest = true)
    (hnot : ¬ pkt.Arrived s) : ∃ m, map.Lands s.router p m := by
  by_cases hdiagonal : s.router.Diagonal pkt.dest
  · cases hnext : map.on (s.router.neighbor (s.router.xyPort pkt.dest)) with
    | true =>
        rw [h.next hdiagonal hnext]
        exact ⟨_, PowerMap.lands_neighbor (Node.edge_xyPort hnot) hnext⟩
    | false =>
        cases h.detour hdiagonal hnext with
        | row m hlands _ => exact ⟨m, hlands⟩
        | north m _ hlands => exact ⟨m, hlands⟩
        | south => exact PowerMap.lands_south (bottomRow_of_off hdiagonal hnext)
  · rw [h.straight hdiagonal]
    exact PowerMap.lands_straight hnot hdiagonal hon

/-- Off the escape channel too: along a row not past the column, or beside it
north or south. -/
theorem cases (h : OptChoice map config pkt s escape p) (hon : map.on pkt.dest = true)
    (hnot : ¬ pkt.Arrived s) {m : Node k} (hlands : map.Lands s.router p m) :
    p = s.router.xyPort pkt.dest ∧ Between s.router.x m.x pkt.dest.x ∨
      s.router.Diagonal pkt.dest ∧
        (p = .north ∧ escape = false ∨ p = .south ∧ (s.inChannel = some .south → escape = true)) := by
  by_cases hdiagonal : s.router.Diagonal pkt.dest
  · cases hnext : map.on (s.router.neighbor (s.router.xyPort pkt.dest)) with
    | true =>
        obtain rfl := h.next hdiagonal hnext
        exact .inl ⟨rfl, (hlands.between_of_next hdiagonal hnext).1⟩
    | false =>
        have huTurn := h.uTurn hdiagonal
        cases h.detour hdiagonal hnext with
        | row m' hlands' hcolumn =>
            rw [hlands'.unique hlands] at hcolumn
            exact .inl ⟨rfl, hcolumn⟩
        | north _ hescape _ => exact .inr ⟨hdiagonal, .inl ⟨rfl, hescape⟩⟩
        | south => exact .inr ⟨hdiagonal, .inr ⟨rfl, fun hin => huTurn hin rfl⟩⟩
  · obtain rfl := h.straight hdiagonal
    exact .inl ⟨rfl, (hlands.between_of_straight hnot hdiagonal hon).1⟩

theorem escapeStep (h : OptChoice map config pkt s true p) (hon : map.on pkt.dest = true)
    (hnot : ¬ pkt.Arrived s) {m : Node k} (hlands : map.Lands s.router p m) :
    EscapeStep map pkt.dest s.router p m := by
  rcases h.cases hon hnot hlands with ⟨rfl, hcolumn⟩ | ⟨hdiagonal, ⟨-, hescape⟩ | ⟨rfl, -⟩⟩
  · exact PowerMap.escapeStep_xyPort hlands hcolumn
  · cases hescape
  · exact PowerMap.escapeStep_south hdiagonal hlands

theorem column (h : OptChoice map config pkt s escape p) (hon : map.on pkt.dest = true)
    (hnot : ¬ pkt.Arrived s) {m : Node k} (hlands : map.Lands s.router p m) :
    Between s.router.x m.x pkt.dest.x := by
  rcases h.cases hon hnot hlands with ⟨rfl, hcolumn⟩ | ⟨-, ⟨rfl, -⟩ | ⟨rfl, -⟩⟩
  · exact hcolumn
  · have hx := hlands.ahead.1
    unfold Between
    omega
  · have hx := hlands.ahead.1
    unfold Between
    omega

end OptChoice

/-- What is left of going up, or down, beside the column of the destination: a
packet that goes up may change to going down on the escape channel only. -/
def sweep (s : Spot k) : Nat :=
  if s.inChannel = some .south then s.router.y else 2 * k - s.router.y

/-- Decreases with every hop off the escape channel. -/
def optMeasure (dest : Node k) (s : Spot k) : Nat :=
  if s.router.x = dest.x then (s.router.y - dest.y) + (dest.y - s.router.y)
  else ((s.router.x - dest.x) + (dest.x - s.router.x)) * (3 * k) + sweep s

theorem sweep_up (m : Node k) (vc : Int) : sweep ⟨m, some .south, vc⟩ = m.y := if_pos rfl

theorem sweep_down {s : Spot k} (h : s.inChannel ≠ some .south) :
    sweep s = 2 * k - s.router.y := if_neg h

theorem sweep_le_up (s : Spot k) : s.router.y ≤ sweep s := by
  have hy := s.router.y_lt
  unfold sweep
  split <;> omega

theorem sweep_lt (s : Spot k) : sweep s < 3 * k := by
  have hy := s.router.y_lt
  unfold sweep
  split <;> omega

theorem optMeasure_lt (dest : Node k) (s : Spot k) : optMeasure dest s < 3 * k * k := by
  have hx := s.router.x_lt
  have hy := s.router.y_lt
  have hdx := dest.x_lt
  have hdy := dest.y_lt
  have hsweep := sweep_lt s
  unfold optMeasure
  split
  · have hk : 3 * k * 1 ≤ 3 * k * k := Nat.mul_le_mul_left _ (by omega)
    omega
  · have hcolumns : ((s.router.x - dest.x) + (dest.x - s.router.x) + 1) * (3 * k) ≤ k * (3 * k) :=
      Nat.mul_le_mul_right _ (by omega)
    rw [Nat.add_mul, Nat.one_mul] at hcolumns
    have hcomm : 3 * k * k = k * (3 * k) := Nat.mul_comm _ _
    omega

/-- A hop nearer to the column counts for more than any number of hops beside it. -/
theorem optMeasure_lt_of_column {dest : Node k} {s s' : Spot k}
    (hcloser : (s'.router.x - dest.x) + (dest.x - s'.router.x) <
      (s.router.x - dest.x) + (dest.x - s.router.x)) : optMeasure dest s' < optMeasure dest s := by
  have hy := s'.router.y_lt
  have hdy := dest.y_lt
  have hsweep := sweep_lt s'
  have hcolumns : ((s'.router.x - dest.x) + (dest.x - s'.router.x) + 1) * (3 * k) ≤
      ((s.router.x - dest.x) + (dest.x - s.router.x)) * (3 * k) := Nat.mul_le_mul_right _ hcloser
  rw [Nat.add_mul, Nat.one_mul] at hcolumns
  unfold optMeasure
  rw [if_neg (by omega : s.router.x ≠ dest.x)]
  split <;> omega

theorem optMeasure_lt_of_sweep {dest : Node k} {s s' : Spot k} (hx : s.router.x ≠ dest.x)
    (heq : s'.router.x = s.router.x) (hsweep : sweep s' < sweep s) :
    optMeasure dest s' < optMeasure dest s := by
  unfold optMeasure
  rw [heq, if_neg hx, if_neg hx]
  omega

theorem OptChoice.measure_lt {pkt : Packet k} {s : Spot k} {p : Port} {m : Node k} {vc : Int}
    (h : OptChoice map config pkt s false p) (hon : map.on pkt.dest = true)
    (hnot : ¬ pkt.Arrived s) (hlands : map.Lands s.router p m) :
    optMeasure pkt.dest ⟨m, some p.opp, vc⟩ < optMeasure pkt.dest s := by
  have hahead := hlands.ahead
  have hy := s.router.y_lt
  have hmy := m.y_lt
  rcases h.cases hon hnot hlands with ⟨rfl, hcolumn⟩ | ⟨hdiagonal, ⟨rfl, -⟩ | ⟨rfl, hback⟩⟩
  · by_cases hx : s.router.x = pkt.dest.x
    · have hstraight : ¬ s.router.Diagonal pkt.dest := fun hdiagonal => hdiagonal.1 hx
      have hcloser := (hlands.between_of_straight hnot hstraight hon).2
      unfold Between at hcolumn
      unfold Node.hopsTo at hcloser
      unfold optMeasure
      rw [if_pos (by simp only; omega), if_pos hx]
      simp only
      omega
    · apply optMeasure_lt_of_column
      have hstep : EscapeStep map pkt.dest s.router (s.router.xyPort pkt.dest) m :=
        PowerMap.escapeStep_xyPort hlands hcolumn
      rw [Node.xyPort, if_pos hx, sidePort, if_pos rfl] at hahead
      unfold Between at hcolumn
      split at hahead <;> simp only [Node.Ahead] at hahead ⊢ <;> omega
  · -- north: the packet comes from the south now
    have hx := hahead.1
    have hlt := hahead.2
    have hsweep := sweep_le_up s
    apply optMeasure_lt_of_sweep hdiagonal.1 hx
    rw [Port.opp, sweep_up]
    omega
  · -- south: the packet has not come from there
    have hx := hahead.1
    have hlt := hahead.2
    apply optMeasure_lt_of_sweep hdiagonal.1 hx
    have hdown : sweep (⟨m, some .north, vc⟩ : Spot k) = 2 * k - m.y := sweep_down (by simp)
    rw [Port.opp, hdown, sweep_down fun hin => Bool.false_ne_true (hback hin)]
    omega

theorem optNet_onePort (hknows : ∀ n, KnowsNeighbors map n (routers n))
    (hsafe : SafeDetours map routers detour) {pkt : Packet k} (hon : map.on pkt.dest = true) :
    (optNet map routers config detour).OnePort pkt (OptChoice map config pkt)
      (optMeasure pkt.dest) where
  routes := fun traffic f _ hs hnot hf => OptMesh.choice hknows hsafe traffic f hs hnot hf
  ejects := fun _ hs harrived =>
    RoutedMesh.ejects_of_route (fun _ _ _ => optMesh_route ..) hs harrived
  lands := fun _ _ _ _ hnot hchoice => hchoice.lands hon hnot
  escape := fun _ _ _ hnot hchoice hlands => hchoice.escapeStep hon hnot hlands
  stays := fun _ _ _ hescape hchoice => hchoice.stays hescape.1 hescape.2
  column := fun _ _ _ hnot hchoice hlands => hchoice.column hon hnot hlands
  adaptive := fun _ _ _ _ hnot hchoice hlands => hchoice.measure_lt hon hnot hlands
  bound := optMeasure_lt pkt.dest

/-- Flying along the row is safe if it does not pass the column. -/
theorem SafeDetour.of_row {n dest m : Node k} {escape : Bool} {p : Port} (hlands : map.Lands n p m)
    (hp : p = .east ∧ m.x ≤ dest.x ∨ p = .west ∧ dest.x ≤ m.x) :
    SafeDetour map n dest escape p := by
  obtain ⟨rfl, hcolumn⟩ := hlands.row hp
  exact .row m hlands hcolumn

/-- Logical neighbours tell what flying in a direction leads to. -/
theorem safeDetours_flov (hinformed : ∀ n, Informed map n (routers n)) :
    SafeDetours map routers flovDetour := by
  intro n dest escape _ _
  unfold flovDetour
  split_ifs with heast hwest hnorth
  · rcases (hinformed n).logical_cases .east with ⟨m, hlands, hx, -⟩ | ⟨hx, -⟩
    · exact .of_row hlands (.inl ⟨rfl, by omega⟩)
    · exact absurd hx heast.1
  · rcases (hinformed n).logical_cases .west with ⟨m, hlands, hx, -⟩ | ⟨hx, -⟩
    · exact .of_row hlands (.inr ⟨rfl, by omega⟩)
    · exact absurd hx hwest.1
  · rcases (hinformed n).logical_cases .north with ⟨m, hlands, -⟩ | ⟨-, hy⟩
    · exact .north m hnorth.2.2 hlands
    · exact absurd hy hnorth.1
  · exact .south

/-- No two mesh neighbours are off. -/
def PowerMap.Restricted (map : PowerMap k) : Prop :=
  ∀ n m : Node k, n.Adjacent m → map.on n = true ∨ map.on m = true

instance (map : PowerMap k) : Decidable map.Restricted :=
  inferInstanceAs (Decidable (∀ n m : Node k, n.Adjacent m → map.on n = true ∨ map.on m = true))

/-- Behind a router that is off is one that is on. -/
theorem PowerMap.Restricted.lands_second (h : map.Restricted) {n : Node k} {p : Port}
    (hp : n.edge p = false) (hp' : (n.neighbor p).edge p = false)
    (hoff : map.on (n.neighbor p) = false) : map.Lands n p ((n.neighbor p).neighbor p) := by
  have hon : map.on ((n.neighbor p).neighbor p) = true := by
    rcases h _ _ (Node.adjacent_neighbor hp') with hon | hon
    · rw [hoff] at hon
      cases hon
    · exact hon
  apply Node.Nearest.over_neighbor hp (by simp [hoff])
  exact Node.Nearest.neighbor hp' hon

/-- A packet lands on the next router, or flies over it and lands one further. -/
theorem PowerMap.Restricted.lands_cases (h : map.Restricted) {n m : Node k} {p : Port}
    (hlands : map.Lands n p m) :
    m = n.neighbor p ∨ map.on (n.neighbor p) = false ∧ m = (n.neighbor p).neighbor p := by
  have hp := hlands.ahead.edge
  cases hon : map.on (n.neighbor p) with
  | true => exact .inl (hlands.eq_neighbor hon)
  | false =>
      have hbeyond : (n.neighbor p).Ahead m p := by
        apply hlands.ahead.eq_or_ahead.resolve_left
        rintro rfl
        have hholds : map.on (n.neighbor p) = true := hlands.holds
        rw [hon] at hholds
        cases hholds
      exact .inr ⟨rfl, hlands.unique (h.lands_second hp hbeyond.edge hon)⟩

/-- The neighbour of a router that is off is not past a column or row two further. -/
theorem PowerMap.Restricted.lands_near (h : map.Restricted) {n : Node k} {p : Port}
    (hdistance : 1 < n.distance p) : ∃ m, map.Lands n p m ∧
      (m = n.neighbor p ∨ m = (n.neighbor p).neighbor p) := by
  have hp : n.edge p = false := by
    by_contra hedge
    rw [Node.distance_of_edge (Bool.eq_true_of_not_eq_false hedge)] at hdistance
    omega
  have hp' : (n.neighbor p).edge p = false := by
    by_contra hedge
    rw [Node.distance_neighbor hp,
      Node.distance_of_edge (Bool.eq_true_of_not_eq_false hedge)] at hdistance
    omega
  cases hon : map.on (n.neighbor p) with
  | true => exact ⟨_, Node.Nearest.neighbor hp hon, .inl rfl⟩
  | false => exact ⟨_, h.lands_second hp hp' hon, .inr rfl⟩

/-- Neighbour states alone tell it too, where no two mesh neighbours are off. -/
theorem safeDetours_rflov (h : map.Restricted) : SafeDetours map routers rflovDetour := by
  intro n dest escape _ _
  have hdx := dest.x_lt
  unfold rflovDetour
  split_ifs with heast hwest hnorth
  · obtain ⟨m, hlands, hm⟩ := h.lands_near (by simp only [Node.distance]; omega : 1 < n.distance .east)
    have hx : m.x ≤ n.x + 2 := by
      rcases hm with rfl | rfl <;> simp only [Node.neighbor_x, Node.neighborX] <;> split <;>
        (try split) <;> omega
    exact .of_row hlands (.inl ⟨rfl, by omega⟩)
  · obtain ⟨m, hlands, hm⟩ := h.lands_near (by simp only [Node.distance]; omega : 1 < n.distance .west)
    have hx : n.x ≤ m.x + 2 := by
      rcases hm with rfl | rfl <;> simp only [Node.neighbor_x, Node.neighborX] <;> split <;>
        (try split) <;> omega
    exact .of_row hlands (.inr ⟨rfl, by omega⟩)
  · obtain ⟨m, hlands, -⟩ := h.lands_near (by simp only [Node.distance]; omega : 1 < n.distance .north)
    exact .north m hnorth.2 hlands
  · exact .south

/-- `opt_flov_mesh` delivers on every map that the logical neighbours tell: whatever
virtual channels a packet is on it arrives, and the dependencies between escape
channels are acyclic; none leads from a northbound one in another direction. -/
theorem optFlovMesh_delivers (map : PowerMap k) (routers : Node k → Router)
    (config : RoutingConfig) (hinformed : ∀ n, Informed map n (routers n)) :
    let mesh : RoutedMesh k := ⟨map, routers, config, optFlovMesh⟩
    (∀ pkt, map.on pkt.dest = true → mesh.Delivers pkt) ∧
    Progress.Acyclic mesh.EscapeDep ∧
    (∀ c c', mesh.EscapeDep c c' → c.2 = .north → c'.2 = .north) := by
  intro mesh
  have hone : ∀ pkt : Packet k, map.on pkt.dest = true →
      mesh.OnePort pkt (OptChoice map config pkt) (optMeasure pkt.dest) := fun pkt hon =>
    optNet_onePort (fun n => (hinformed n).toKnowsNeighbors) (safeDetours_flov hinformed) hon
  have hturns : mesh.FollowsTurns := RoutedMesh.followsTurns_of_onePort hone
  exact ⟨fun pkt hon => RoutedMesh.delivers_of_onePort hone hon, hturns.acyclic,
    fun c c' hdep hnorth => hturns.northbound hdep hnorth⟩

/-- In a mesh of nine routers with the bottom row and one other on. -/
theorem optFlovMesh_delivers_corner :
    let map := PowerMap.withCorner 3
    let mesh : RoutedMesh 3 := ⟨map, map.view, .twoVCs, optFlovMesh⟩
    let pkt : Packet 3 := ⟨.anyType, 8⟩
    Progress.Within (mesh.Moves pkt) pkt.Arrived (3 * 3 * 3 + 3 * 3) ⟨0, none, 1⟩ ∧
      Progress.Acyclic mesh.EscapeDep := by
  intro map mesh pkt
  have hmain := optFlovMesh_delivers map map.view .twoVCs map.informed_view
  exact ⟨(hmain.1 pkt (by decide)).within ⟨by decide, by decide, by decide⟩, hmain.2.1⟩

/-- `opt_rflov_mesh` delivers on every map without two mesh neighbours that are off. -/
theorem optRflovMesh_delivers (map : PowerMap k) (routers : Node k → Router)
    (config : RoutingConfig) (hrestricted : map.Restricted)
    (hknows : ∀ n, KnowsNeighbors map n (routers n)) :
    let mesh : RoutedMesh k := ⟨map, routers, config, optRflovMesh⟩
    (∀ pkt, map.on pkt.dest = true → mesh.Delivers pkt) ∧
    Progress.Acyclic mesh.EscapeDep ∧
    (∀ pkt s p s', mesh.Hop pkt s p s' → s'.router = s.router.neighbor p ∨
      map.on (s.router.neighbor p) = false ∧
        s'.router = (s.router.neighbor p).neighbor p) := by
  intro mesh
  have hone : ∀ pkt : Packet k, map.on pkt.dest = true →
      mesh.OnePort pkt (OptChoice map config pkt) (optMeasure pkt.dest) := fun pkt hon =>
    optNet_onePort hknows (safeDetours_rflov hrestricted) hon
  have hturns : mesh.FollowsTurns := RoutedMesh.followsTurns_of_onePort hone
  refine ⟨fun pkt hon => RoutedMesh.delivers_of_onePort hone hon, hturns.acyclic, ?_⟩
  rintro pkt s p s' ⟨outputs, entry, -, -, -, -, hlands, -⟩
  exact hrestricted.lands_cases hlands

/-- In a mesh of four routers with one of them off. -/
theorem optRflovMesh_delivers_corner :
    let map := PowerMap.withCorner 2
    let mesh : RoutedMesh 2 := ⟨map, map.view, .twoVCs, optRflovMesh⟩
    let pkt : Packet 2 := ⟨.anyType, 3⟩
    Progress.Within (mesh.Moves pkt) pkt.Arrived (3 * 2 * 2 + 3 * 2) ⟨0, none, 1⟩ ∧
      Progress.Acyclic mesh.EscapeDep := by
  intro map mesh pkt
  have hmain := optRflovMesh_delivers map map.view .twoVCs (by decide) fun n =>
    (map.informed_view n).toKnowsNeighbors
  exact ⟨(hmain.1 pkt (by decide)).within ⟨by decide, by decide, by decide⟩, hmain.2.1⟩

end Flyover
