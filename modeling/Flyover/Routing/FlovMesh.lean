import Flyover.Routing.OnePort
import Flyover.Routing.Directions

/-!
# `flov_mesh`

Along the row first; along the column if the neighbour there is not on; and if
neither neighbour is on, or the packet has waited too long, the escape channel.
-/

namespace Flyover

variable {k : Nat}

/-- `flov_mesh` -/
def flovMesh : RoutingFunction k := fun config traffic n r f inChannel inject =>
  f.route config n inject fun vcs => do
    let inVC := if inChannel = none then vcs.vcEnd else f.vc
    let xyPort := dorNextMesh k n f.dest false
    let xyState ← r.neighborPowerState xyPort
    let outPort := if xyState ≠ .powerOn then dorNextMesh k n f.dest true else xyPort
    let outState ← r.neighborPowerState outPort
    let escape : Bool := inVC = vcs.vcBegin ∨ 300 < traffic.simTime - f.rtime ∨
      (n.Diagonal f.dest ∧ outState ≠ .powerOn)
    let outPort :=
      if escape ∧ Router.bottomRow n = false ∧ n.Diagonal f.dest then .mesh .south else outPort
    pure (.onePort vcs escape outPort)

theorem flovMesh_route (config : RoutingConfig) (traffic : Traffic) (n : Node k) (r : Router)
    (f : Flit k) (inChannel : Option Port) (inject : Bool) :
    ∃ transit, flovMesh config traffic n r f inChannel inject = f.route config n inject transit :=
  ⟨_, rfl⟩

/-- What `flov_mesh` may choose: the escape direction, or off the escape channel a
direction to the destination where the neighbour is on. -/
structure FlovChoice (map : PowerMap k) (config : RoutingConfig) (pkt : Packet k) (s : Spot k)
    (escape : Bool) (p : Port) : Prop where
  onEscape : escape = true → p = s.router.escapePort pkt.dest
  straight : ¬ s.router.Diagonal pkt.dest → p = s.router.xyPort pkt.dest
  next : escape = false → s.router.Diagonal pkt.dest →
    map.on (s.router.neighbor p) = true ∧
      (p = s.router.xyPort pkt.dest ∨ p = s.router.yxPort pkt.dest)
  stays : s.inChannel ≠ none → s.vc = (config.vcs pkt.type).vcBegin → escape = true

variable {map : PowerMap k} {routers : Node k → Router} {config : RoutingConfig}

/-- The mesh routed by `flov_mesh`. -/
abbrev flovNet (map : PowerMap k) (routers : Node k → Router) (config : RoutingConfig) :
    RoutedMesh k := ⟨map, routers, config, flovMesh⟩

/-- The port before the escape rule applies. -/
def FlovMesh.port (map : PowerMap k) (n dest : Node k) : Port :=
  if map.on (n.neighbor (n.xyPort dest)) then n.xyPort dest else n.yxPort dest

/-- When the escape rule applies. -/
def FlovMesh.escape (map : PowerMap k) (vcs : VCRange) (dest : Node k) (waited : Int)
    (s : Spot k) : Bool :=
  (if s.inChannel = none then vcs.vcEnd else s.vc) = vcs.vcBegin ∨ 300 < waited ∨
    s.router.Diagonal dest ∧ map.on (s.router.neighbor (port map s.router dest)) = false

theorem flovMesh_eq (hknows : ∀ n, KnowsNeighbors map n (routers n)) {pkt : Packet k}
    (traffic : Traffic) {f : Flit k} {s : Spot k} (hs : (flovNet map routers config).Placed pkt s)
    (hnot : ¬ pkt.Arrived s) (hf : f.Carries pkt s) :
    flovMesh config traffic s.router (routers s.router) f s.inChannel false =
      let escape := FlovMesh.escape map (config.vcs pkt.type) pkt.dest
        (traffic.simTime - f.rtime) s
      some (.onePort (config.vcs pkt.type) escape
        (if escape ∧ Router.bottomRow s.router = false ∧ s.router.Diagonal pkt.dest
          then .mesh .south else .mesh (FlovMesh.port map s.router pkt.dest))) := by
  have hne : s.router ≠ pkt.dest := hnot
  have hxy := (hknows s.router).powerOn_iff (Node.edge_xyPort hne)
  have hyx := (hknows s.router).powerOn_iff (Node.edge_yxPort hne)
  have hroute : flovMesh config traffic s.router (routers s.router) f s.inChannel false = _ :=
    Flit.route_transit hf hs hnot
  rw [hroute, hf.dest, hf.vc, Node.dorNextMesh_xy hne, Node.dorNextMesh_yx hne]
  unfold FlovMesh.escape FlovMesh.port
  by_cases hon : map.on (s.router.neighbor (s.router.xyPort pkt.dest)) = true
  · simp [Router.neighborPowerState, hxy.mpr hon, hon, RoutedMesh.vcs]
  · simp [Router.neighborPowerState, hxy, hyx, hon, RoutedMesh.vcs]

theorem FlovMesh.port_cases (map : PowerMap k) (n dest : Node k) :
    port map n dest = n.xyPort dest ∨ port map n dest = n.yxPort dest := by
  unfold port
  split
  · exact .inl rfl
  · exact .inr rfl

theorem FlovMesh.port_of_straight {n dest : Node k} (hne : n ≠ dest)
    (hstraight : ¬ n.Diagonal dest) : port map n dest = n.xyPort dest := by
  rcases port_cases map n dest with hport | hport
  · exact hport
  · rw [hport, Node.yxPort_eq_xyPort hne hstraight]

/-- Where the escape rule does not send the packet down, its port is the escape direction. -/
theorem FlovMesh.port_eq_escapePort {n dest : Node k} (hne : n ≠ dest)
    (hdown : ¬ (Router.bottomRow n = false ∧ n.Diagonal dest)) :
    port map n dest = n.escapePort dest := by
  rw [Node.escapePort, if_neg hdown]
  by_cases hdiagonal : n.Diagonal dest
  · have hbottom : Router.bottomRow n = true :=
      Bool.eq_true_of_not_eq_false fun hnot => hdown ⟨hnot, hdiagonal⟩
    exact if_pos (PowerMap.on_of_bottomRow hbottom hdiagonal)
  · exact port_of_straight hne hdiagonal

theorem flovMesh_choice (hknows : ∀ n, KnowsNeighbors map n (routers n)) {pkt : Packet k}
    (traffic : Traffic) (f : Flit k) {s : Spot k} (hs : (flovNet map routers config).Placed pkt s)
    (hnot : ¬ pkt.Arrived s) (hf : f.Carries pkt s) :
    ∃ escape p, flovMesh config traffic s.router (routers s.router) f s.inChannel false =
        some (.onePort (config.vcs pkt.type) escape (.mesh p)) ∧
      FlovChoice map config pkt s escape p ∧
      (escape = false → (config.vcs pkt.type).vcBegin < (config.vcs pkt.type).vcEnd) := by
  have hne : s.router ≠ pkt.dest := hnot
  have hbegin : (config.vcs pkt.type).vcBegin ≤ s.vc := hs.vcBegin_le
  have hend : s.vc ≤ (config.vcs pkt.type).vcEnd := hs.le_vcEnd
  have hroute := flovMesh_eq hknows traffic hs hnot hf
  cases hescape : FlovMesh.escape map (config.vcs pkt.type) pkt.dest (traffic.simTime - f.rtime) s with
  | true =>
      rw [hescape] at hroute
      by_cases hdown : Router.bottomRow s.router = false ∧ s.router.Diagonal pkt.dest
      · refine ⟨true, .south, by simpa [hdown] using hroute, ?_, nofun⟩
        exact
          { onEscape := fun _ => (if_pos hdown).symm
            straight := fun hstraight => absurd hdown.2 hstraight
            next := nofun
            stays := fun _ _ => rfl }
      · refine ⟨true, FlovMesh.port map s.router pkt.dest, by simpa [hdown] using hroute, ?_, nofun⟩
        exact
          { onEscape := fun _ => FlovMesh.port_eq_escapePort hne hdown
            straight := FlovMesh.port_of_straight hne
            next := nofun
            stays := fun _ _ => rfl }
  | false =>
      rw [hescape] at hroute
      rw [FlovMesh.escape, decide_eq_false_iff_not, not_or, not_or] at hescape
      obtain ⟨hvc, -, hnext⟩ := hescape
      refine ⟨false, FlovMesh.port map s.router pkt.dest, by simpa using hroute, ?_, ?_⟩
      · exact
          { onEscape := nofun
            straight := FlovMesh.port_of_straight hne
            next := fun _ hdiagonal =>
              ⟨Bool.eq_true_of_not_eq_false fun hoff => hnext ⟨hdiagonal, hoff⟩,
                FlovMesh.port_cases map s.router pkt.dest⟩
            stays := by
              intro hin hfirst
              rw [if_neg hin] at hvc
              exact absurd hfirst hvc }
      · intro _
        split at hvc <;> omega

/-- A hop of `flov_mesh` off the escape channel is closer to the destination. -/
theorem FlovChoice.closer {pkt : Packet k} {s : Spot k} {p : Port} {m : Node k}
    (h : FlovChoice map config pkt s false p) (hon : map.on pkt.dest = true)
    (hnot : ¬ pkt.Arrived s) (hlands : map.Lands s.router p m) :
    Between s.router.x m.x pkt.dest.x ∧ m.hopsTo pkt.dest < s.router.hopsTo pkt.dest := by
  by_cases hdiagonal : s.router.Diagonal pkt.dest
  · obtain ⟨hnext, rfl | rfl⟩ := h.next rfl hdiagonal
    · exact hlands.between_of_next hdiagonal hnext
    · obtain ⟨hx, hcloser⟩ := hlands.closer_of_next hdiagonal hnext
      refine ⟨?_, hcloser⟩
      unfold Between
      omega
  · obtain rfl := h.straight hdiagonal
    exact hlands.between_of_straight hnot hdiagonal hon

theorem FlovChoice.lands {pkt : Packet k} {s : Spot k} {escape : Bool} {p : Port}
    (h : FlovChoice map config pkt s escape p) (hon : map.on pkt.dest = true)
    (hnot : ¬ pkt.Arrived s) : ∃ m, map.Lands s.router p m := by
  cases escape with
  | true =>
      rw [h.onEscape rfl]
      exact PowerMap.lands_escapePort hnot hon
  | false =>
      by_cases hdiagonal : s.router.Diagonal pkt.dest
      · obtain ⟨hnext, hp⟩ := h.next rfl hdiagonal
        refine ⟨_, PowerMap.lands_neighbor ?_ hnext⟩
        rcases hp with rfl | rfl
        · exact Node.edge_xyPort hnot
        · exact Node.edge_yxPort hnot
      · rw [h.straight hdiagonal]
        exact PowerMap.lands_straight hnot hdiagonal hon

theorem Node.hopsTo_lt (n m : Node k) : n.hopsTo m < 3 * k * k := by
  have hnx := n.x_lt
  have hny := n.y_lt
  have hmx := m.x_lt
  have hmy := m.y_lt
  have hk : 3 * k * 1 ≤ 3 * k * k := Nat.mul_le_mul_left _ n.pos
  unfold Node.hopsTo
  omega

theorem flovNet_onePort (hknows : ∀ n, KnowsNeighbors map n (routers n)) {pkt : Packet k}
    (hon : map.on pkt.dest = true) :
    (flovNet map routers config).OnePort pkt (FlovChoice map config pkt)
      (fun s => s.router.hopsTo pkt.dest) where
  routes := fun traffic f _ hs hnot hf => flovMesh_choice hknows traffic f hs hnot hf
  ejects := fun _ hs harrived => RoutedMesh.ejects_of_route (fun _ _ _ => flovMesh_route ..) hs harrived
  lands := fun _ _ _ _ hnot hchoice => hchoice.lands hon hnot
  escape := by
    intro s p m hnot hchoice hlands
    obtain rfl := hchoice.onEscape rfl
    exact PowerMap.escapeStep_escapePort hnot hon hlands
  stays := fun _ _ _ hescape hchoice => hchoice.stays hescape.1 hescape.2
  column := fun _ _ _ hnot hchoice hlands => (hchoice.closer hon hnot hlands).1
  adaptive := fun _ _ _ _ hnot hchoice hlands => (hchoice.closer hon hnot hlands).2
  bound := fun s => s.router.hopsTo_lt pkt.dest

/-- `flov_mesh` delivers: by the escape channels with the four turns only, whose
dependencies are acyclic, and off them closer at each hop. -/
theorem flovMesh_delivers (map : PowerMap k) (routers : Node k → Router) (config : RoutingConfig)
    (hknows : ∀ n, KnowsNeighbors map n (routers n)) :
    let mesh := flovNet map routers config
    (∀ pkt, map.on pkt.dest = true → mesh.Delivers pkt) ∧
    (∀ c c', mesh.EscapeDep c c' → RowTurn c.2 c'.2) ∧
    Progress.Acyclic mesh.EscapeDep ∧
    (∀ pkt s p s', map.on pkt.dest = true → mesh.Placed pkt s → mesh.Hop pkt s p s' →
      mesh.OnEscape pkt s' ∨ s'.router.hopsTo pkt.dest < s.router.hopsTo pkt.dest) := by
  intro mesh
  have hone : ∀ pkt : Packet k, map.on pkt.dest = true →
      mesh.OnePort pkt (FlovChoice map config pkt) (fun s => s.router.hopsTo pkt.dest) :=
    fun pkt hon => flovNet_onePort hknows hon
  refine ⟨fun pkt hon => RoutedMesh.delivers_of_onePort hone hon, ?_,
    (RoutedMesh.followsTurns_of_onePort hone).acyclic, ?_⟩
  · rintro c c' ⟨pkt, s, s', s'', hon, hs, hfirst, hsecond, hc, hc'⟩
    have hpkt := hone pkt hon
    have hs' := (RoutedMesh.followsTurns_of_onePort hone).placed pkt s _ s' hon hs hfirst.1
    have hport := (hpkt.allowed_of_escapeHop hs hfirst).onEscape rfl
    have hport' := (hpkt.allowed_of_escapeHop hs' hsecond).onEscape rfl
    have hlands := (hpkt.hop_cases hs hfirst.1).1
    rw [hport] at hlands
    rw [hport, hport']
    exact PowerMap.rowTurn_escapePort (hpkt.departs hs hfirst.1) hon hlands
      (hpkt.departs hs' hsecond.1)
  · intro pkt s p s' hon hs hhop
    have hpkt := hone pkt hon
    obtain ⟨hlands, hin, ⟨-, hvc⟩ | ⟨hallowed, -⟩⟩ := hpkt.hop_cases hs hhop
    · exact .inl (hpkt.onEscape hs ⟨hhop, hvc⟩)
    · exact .inr (hallowed.closer hon (hpkt.departs hs hhop) hlands).2

/-- Along the bottom row of a mesh in which everything else is off. -/
theorem flovMesh_delivers_bottomOnly :
    let map := PowerMap.bottomOnly 3
    let mesh := flovNet map map.view .twoVCs
    let pkt : Packet 3 := ⟨.anyType, 8⟩
    Progress.Within (mesh.Moves pkt) pkt.Arrived (3 * 3 * 3 + 3 * 3) ⟨6, none, 1⟩ ∧
      Progress.Acyclic mesh.EscapeDep := by
  intro map mesh pkt
  have hmain := flovMesh_delivers map map.view .twoVCs fun n =>
    (map.informed_view n).toKnowsNeighbors
  exact ⟨(hmain.1 pkt (by decide)).within ⟨by decide, by decide, by decide⟩, hmain.2.2.1⟩

end Flyover
