import Flyover.Routing.OnePort
import Flyover.Routing.Directions

/-!
# `min_adaptive_mesh` and `min_adapt_mesh`

The baselines without power gating: the first virtual channels of the class are
offered in dimension order, the others along every shortest path. A packet that
has come in on an escape channel should stay on them. The functions offer one
range as escape channels and recognise another, and which classes that goes well
for is different for the two.
-/

namespace Flyover

variable {k : Nat}

/-- `min_adaptive_mesh` -/
def minAdaptiveMesh : RoutingFunction k := fun config traffic n _ f inChannel inject =>
  f.route config n inject fun vcs =>
    let inVC := if inChannel = none then vcs.vcEnd else f.vc
    let xyPort := dorNextMesh k n f.dest false
    let outputs := OutputSet.clear.addRange xyPort vcs.vcBegin (vcs.vcBegin + 1) 0
    if inVC ≠ vcs.vcBegin then
      let yxPort := dorNextMesh k n f.dest true
      let xyFirst := decide (traffic.freeCredit xyPort ≥ traffic.freeCredit yxPort)
      let xyPri := if xyFirst then 2 else 1
      let yxPri := if xyPort = yxPort then xyPri else if xyFirst then 1 else 2
      let outputs := outputs.addRange xyPort (vcs.vcBegin + 2) vcs.vcEnd xyPri
      some (outputs.addRangeIf (xyPort != yxPort) yxPort (vcs.vcBegin + 2) vcs.vcEnd yxPri)
    else some outputs

/-- One round of the loop of `min_adapt_mesh` over the dimensions. -/
def addMinimal (k dim cur dest : Nat) (vcs : VCRange) (outputs : OutputSet) : OutputSet :=
  outputs.addRangeIf (cur % k != dest % k) (.mesh (sidePort dim (cur % k) (dest % k)))
    (vcs.vcBegin + 1) vcs.vcEnd 1

/-- `min_adapt_mesh`, where the escape entry has its arguments shifted by one: the
range starts at 0, ends at `vcBegin` and has `vcBegin` for its priority. -/
def minAdaptMesh : RoutingFunction k := fun config _ n _ f inChannel inject =>
  f.route config n inject fun vcs =>
    let inVC := if inChannel = none then vcs.vcEnd else f.vc
    let outputs :=
      OutputSet.clear.addRange (dorNextMesh k n f.dest false) 0 vcs.vcBegin vcs.vcBegin
    if inVC ≠ vcs.vcBegin then
      let outputs := addMinimal k 0 n f.dest vcs outputs
      some (addMinimal k 1 (n / k) (f.dest / k) vcs outputs)
    else some outputs

theorem minAdaptiveMesh_route (config : RoutingConfig) (traffic : Traffic) (n : Node k)
    (r : Router) (f : Flit k) (inChannel : Option Port) (inject : Bool) :
    ∃ transit, minAdaptiveMesh config traffic n r f inChannel inject =
      f.route config n inject transit := ⟨_, rfl⟩

theorem minAdaptMesh_route (config : RoutingConfig) (traffic : Traffic) (n : Node k)
    (r : Router) (f : Flit k) (inChannel : Option Port) (inject : Bool) :
    ∃ transit, minAdaptMesh config traffic n r f inChannel inject =
      f.route config n inject transit := ⟨_, rfl⟩

/-! ### Shortest paths -/

namespace Node

/-- The number of hops on a shortest path. -/
def manhattan (n m : Node k) : Nat := (n.x - m.x) + (m.x - n.x) + ((n.y - m.y) + (m.y - n.y))

/-- A direction that leads to a router one hop closer to `m`. -/
def Minimal (n m : Node k) (p : Port) : Prop :=
  n.edge p = false ∧ (n.neighbor p).manhattan m + 1 = n.manhattan m

theorem minimal_xyPort {n m : Node k} (h : n ≠ m) : n.Minimal m (n.xyPort m) := by
  refine ⟨edge_xyPort h, ?_⟩
  unfold manhattan
  simp only [neighbor_x, neighbor_y]
  have hx := m.x_lt
  have hy := m.y_lt
  rcases xyPort_cases h with ⟨hlt, hp⟩ | ⟨hlt, hp⟩ | ⟨heq, hlt, hp⟩ | ⟨heq, hlt, hp⟩ <;>
    rw [hp] <;> simp only [neighborX, neighborY] <;> (try split) <;> omega

theorem minimal_yxPort {n m : Node k} (h : n ≠ m) : n.Minimal m (n.yxPort m) := by
  refine ⟨edge_yxPort h, ?_⟩
  unfold manhattan
  simp only [neighbor_x, neighbor_y]
  have hx := m.x_lt
  have hy := m.y_lt
  rcases yxPort_cases h with ⟨hlt, hp⟩ | ⟨hlt, hp⟩ | ⟨heq, hlt, hp⟩ | ⟨heq, hlt, hp⟩ <;>
    rw [hp] <;> simp only [neighborX, neighborY] <;> (try split) <;> omega

/-- The directions of the loop over the dimensions. -/
theorem minimal_row {n m : Node k} (h : n.x ≠ m.x) : n.Minimal m (sidePort 0 n.x m.x) := by
  have hport : n.xyPort m = sidePort 0 n.x m.x := if_pos h
  rw [← hport]
  exact minimal_xyPort fun heq => h (congrArg x heq)

theorem minimal_column {n m : Node k} (h : n.y ≠ m.y) : n.Minimal m (sidePort 1 n.y m.y) := by
  have hport : n.yxPort m = sidePort 1 n.y m.y := if_pos h
  rw [← hport]
  exact minimal_yxPort fun heq => h (congrArg y heq)

end Node

/-! ### What is offered -/

/-- The virtual channel is one of the range. -/
def VCRange.Contains (vcs : VCRange) (vc : Int) : Prop := vcs.vcBegin ≤ vc ∧ vc ≤ vcs.vcEnd

instance (vcs : VCRange) (vc : Int) : Decidable (vcs.Contains vc) :=
  inferInstanceAs (Decidable (_ ∧ _))

theorem Flit.route_of_contains {f : Flit k} {config : RoutingConfig} {n : Node k}
    {transit : VCRange → Option OutputSet} (hvc : (config.vcs f.type).Contains f.vc)
    (hne : n ≠ f.dest) : f.route config n false transit = transit (config.vcs f.type) := by
  have hassert : f.assertVC (config.vcs f.type) false = some () := if_pos (.inl hvc)
  rw [Flit.route, hassert]
  simp [hne]

/-- The two functions. -/
inductive MinimalRouting where
  | adaptive
  | adapt
  deriving DecidableEq, Repr

namespace MinimalRouting

def route : MinimalRouting → RoutingFunction k
  | adaptive => minAdaptiveMesh
  | adapt => minAdaptMesh

/-- The virtual channels that are offered as escape channels. -/
def escape (vcs : VCRange) : MinimalRouting → VCRange
  | adaptive => ⟨vcs.vcBegin, vcs.vcBegin + 1⟩
  | adapt => ⟨0, vcs.vcBegin⟩

/-- The virtual channels that are offered in every direction. -/
def own (vcs : VCRange) : MinimalRouting → VCRange
  | adaptive => ⟨vcs.vcBegin + 2, vcs.vcEnd⟩
  | adapt => ⟨vcs.vcBegin + 1, vcs.vcEnd⟩

/-- The virtual channel that the packet is taken to hold. -/
def inVC (vcs : VCRange) (vc : Int) (inChannel : Option Port) : Int :=
  if inChannel = none then vcs.vcEnd else vc

/-- The entries of an output set: the escape channels in dimension order, and,
unless the packet has come in on the first of the class, the others. -/
structure Offered (fn : MinimalRouting) (vcs : VCRange) (n dest : Node k) (escaped : Prop)
    (outputs : OutputSet) : Prop where
  escape : ∃ pri, ⟨.mesh (n.xyPort dest), (fn.escape vcs).vcBegin, (fn.escape vcs).vcEnd, pri⟩ ∈
    outputs
  cases : ∀ e ∈ outputs,
    e.outputPort = .mesh (n.xyPort dest) ∧ e.vcStart = (fn.escape vcs).vcBegin ∧
      e.vcEnd = (fn.escape vcs).vcEnd ∨
    ¬ escaped ∧ (∃ p, e.outputPort = .mesh p ∧ n.Minimal dest p) ∧
      e.vcStart = (fn.own vcs).vcBegin ∧ e.vcEnd = (fn.own vcs).vcEnd

variable {config : RoutingConfig} {f : Flit k} {n : Node k}

theorem minAdaptiveMesh_offers (traffic : Traffic) (r : Router) (inChannel : Option Port)
    (hvc : (config.vcs f.type).Contains f.vc) (hne : n ≠ f.dest) :
    ∃ outputs, minAdaptiveMesh config traffic n r f inChannel false = some outputs ∧
      Offered adaptive (config.vcs f.type) n f.dest
        (inVC (config.vcs f.type) f.vc inChannel = (config.vcs f.type).vcBegin) outputs ∧
      (inVC (config.vcs f.type) f.vc inChannel ≠ (config.vcs f.type).vcBegin → ∃ pri,
        ⟨.mesh (n.xyPort f.dest), (config.vcs f.type).vcBegin + 2, (config.vcs f.type).vcEnd, pri⟩ ∈
          outputs) := by
  have hxy := Node.dorNextMesh_xy hne
  have hyx := Node.dorNextMesh_yx hne
  unfold minAdaptiveMesh
  rw [Flit.route_of_contains hvc hne, hxy, hyx]
  dsimp only
  unfold inVC
  by_cases hin : (if inChannel = none then (config.vcs f.type).vcEnd else f.vc) =
      (config.vcs f.type).vcBegin
  · rw [if_neg (not_not.mpr hin)]
    refine ⟨_, rfl, ⟨⟨0, OutputSet.mem_clear_addRange.mpr rfl⟩, ?_⟩, fun hnot => absurd hin hnot⟩
    intro e he
    obtain rfl := OutputSet.mem_clear_addRange.mp he
    exact .inl ⟨rfl, rfl, rfl⟩
  · rw [if_pos hin]
    generalize hxyPri : (if decide (traffic.freeCredit (.mesh (n.xyPort f.dest)) ≥
      traffic.freeCredit (.mesh (n.yxPort f.dest))) = true then (2 : Int) else 1) = xyPri
    have hpos : xyPri ≠ 0 := by
      rw [← hxyPri]
      split <;> decide
    refine ⟨_, rfl, ⟨⟨0, ?_⟩, ?_⟩, fun _ => ⟨xyPri, ?_⟩⟩
    · apply OutputSet.mem_addRangeIf_of_mem
      apply OutputSet.mem_addRange.mpr
      exact .inl (OutputSet.mem_clear_addRange.mpr rfl)
    · intro e he
      obtain he | ⟨-, rfl⟩ := OutputSet.of_mem_addRangeIf he
      · obtain he | ⟨rfl, -⟩ := OutputSet.mem_addRange.mp he
        · obtain rfl := OutputSet.mem_clear_addRange.mp he
          exact .inl ⟨rfl, rfl, rfl⟩
        · exact .inr ⟨hin, ⟨_, rfl, Node.minimal_xyPort hne⟩, rfl, rfl⟩
      · exact .inr ⟨hin, ⟨_, rfl, Node.minimal_yxPort hne⟩, rfl, rfl⟩
    · apply OutputSet.mem_addRangeIf_of_mem
      apply OutputSet.mem_addRange.mpr
      refine .inr ⟨rfl, fun x hx => ?_⟩
      obtain rfl := OutputSet.mem_clear_addRange.mp hx
      exact hpos.symm

theorem minAdaptMesh_offers (traffic : Traffic) (r : Router) (inChannel : Option Port)
    (hvc : (config.vcs f.type).Contains f.vc) (hne : n ≠ f.dest) :
    ∃ outputs, minAdaptMesh config traffic n r f inChannel false = some outputs ∧
      Offered adapt (config.vcs f.type) n f.dest
        (inVC (config.vcs f.type) f.vc inChannel = (config.vcs f.type).vcBegin) outputs := by
  have hxy := Node.dorNextMesh_xy hne
  unfold minAdaptMesh
  rw [Flit.route_of_contains hvc hne, hxy]
  dsimp only
  unfold inVC
  by_cases hin : (if inChannel = none then (config.vcs f.type).vcEnd else f.vc) =
      (config.vcs f.type).vcBegin
  · rw [if_neg (not_not.mpr hin)]
    refine ⟨_, rfl, ⟨⟨_, OutputSet.mem_clear_addRange.mpr rfl⟩, ?_⟩⟩
    intro e he
    obtain rfl := OutputSet.mem_clear_addRange.mp he
    exact .inl ⟨rfl, rfl, rfl⟩
  · rw [if_pos hin]
    refine ⟨_, rfl, ⟨⟨(config.vcs f.type).vcBegin, ?_⟩, ?_⟩⟩
    · apply OutputSet.mem_addRangeIf_of_mem
      apply OutputSet.mem_addRangeIf_of_mem
      exact OutputSet.mem_clear_addRange.mpr rfl
    · intro e he
      obtain he | ⟨hy, rfl⟩ := OutputSet.of_mem_addRangeIf he
      · obtain he | ⟨hx, rfl⟩ := OutputSet.of_mem_addRangeIf he
        · obtain rfl := OutputSet.mem_clear_addRange.mp he
          exact .inl ⟨rfl, rfl, rfl⟩
        · exact .inr ⟨hin, ⟨_, rfl, Node.minimal_row (bne_iff_ne.mp hx)⟩, rfl, rfl⟩
      · have hrow : ∀ n : Node k, n.val / k % k = n.y := fun n => Nat.mod_eq_of_lt n.y_lt
        rw [hrow, hrow] at hy ⊢
        exact .inr ⟨hin, ⟨_, rfl, Node.minimal_column (bne_iff_ne.mp hy)⟩, rfl, rfl⟩

/-- Both functions answer for a packet on its way. -/
theorem route_offers (fn : MinimalRouting) (traffic : Traffic) (r : Router)
    (inChannel : Option Port) (hvc : (config.vcs f.type).Contains f.vc) (hne : n ≠ f.dest) :
    ∃ outputs, fn.route config traffic n r f inChannel false = some outputs ∧
      Offered fn (config.vcs f.type) n f.dest
        (inVC (config.vcs f.type) f.vc inChannel = (config.vcs f.type).vcBegin) outputs := by
  cases fn with
  | adaptive =>
      obtain ⟨outputs, hroute, hoffered, -⟩ := minAdaptiveMesh_offers traffic r inChannel hvc hne
      exact ⟨outputs, hroute, hoffered⟩
  | adapt => exact minAdaptMesh_offers traffic r inChannel hvc hne

end MinimalRouting

/-! ### Runs of a packet -/

/-- No router is off. -/
def PowerMap.allOn (k : Nat) : PowerMap k where
  on := fun _ => true
  bottomRow := fun _ _ => rfl

namespace RoutedMesh

/-- The routing function answers for a packet of the mesh at the place. -/
def Routable (mesh : RoutedMesh k) (pkt : Packet k) (s : Spot k) : Prop :=
  ∀ traffic f, f.Carries pkt s → ∃ outputs,
    mesh.route mesh.config traffic s.router (mesh.routers s.router) f s.inChannel false = some outputs

/-- The packet is offered a virtual channel by a port. -/
def Offers (mesh : RoutedMesh k) (pkt : Packet k) (s : Spot k) (p : OutPort) (vc : Int) : Prop :=
  ∃ outputs entry, mesh.Routes pkt s outputs ∧ entry ∈ outputs ∧ entry.outputPort = p ∧
    entry.vcStart ≤ vc ∧ vc ≤ entry.vcEnd

/-- A packet that has come in on one of the virtual channels, and may hop on, is
offered only these, in dimension order, and so at all places that it gets to. -/
def Closes (mesh : RoutedMesh k) (pkt : Packet k) (vcs : VCRange) : Prop :=
  ∀ s s', mesh.Reachable pkt s → s.inChannel ≠ none → vcs.Contains s.vc →
    Relation.ReflTransGen (mesh.Moves pkt) s s' → ¬ pkt.Arrived s' →
      mesh.Routable pkt s' ∧ ∀ p vc, mesh.Offers pkt s' p vc →
        p = .mesh (s'.router.xyPort pkt.dest) ∧ vcs.Contains vc

/-- All ports that the packet is offered on its way lead one hop closer. -/
def RoutesMinimally (mesh : RoutedMesh k) (pkt : Packet k) : Prop :=
  ∀ s outputs, mesh.Reachable pkt s → ¬ pkt.Arrived s → mesh.Routes pkt s outputs →
    ∀ e ∈ outputs, ∃ p, e.outputPort = .mesh p ∧ s.router.Minimal pkt.dest p

end RoutedMesh

namespace MinimalRouting

variable {fn : MinimalRouting} {routers : Node k → Router} {config : RoutingConfig}
  {pkt : Packet k} {s s' : Spot k}

/-- The mesh without power gating, routed by one of the functions. -/
abbrev net (fn : MinimalRouting) (routers : Node k → Router) (config : RoutingConfig) :
    RoutedMesh k := ⟨.allOn k, routers, config, fn.route⟩

/-- Whether the packet has come in on the virtual channel that is recognised. -/
def Escaped (config : RoutingConfig) (pkt : Packet k) (s : Spot k) : Prop :=
  inVC (config.vcs pkt.type) s.vc s.inChannel = (config.vcs pkt.type).vcBegin

theorem offers_of_carries (fn : MinimalRouting) (routers : Node k → Router) {f : Flit k} (traffic : Traffic) (hf : f.Carries pkt s)
    (hvc : (config.vcs pkt.type).Contains s.vc) (hnot : ¬ pkt.Arrived s) :
    ∃ outputs, fn.route config traffic s.router (routers s.router) f s.inChannel false =
        some outputs ∧
      fn.Offered (config.vcs pkt.type) s.router pkt.dest (Escaped config pkt s) outputs := by
  have hne : s.router ≠ f.dest := by
    rw [hf.dest]
    exact hnot
  have hcontains : (config.vcs f.type).Contains f.vc := by
    rw [hf.type, hf.vc]
    exact hvc
  obtain ⟨outputs, hroute, hoffered⟩ :=
    fn.route_offers traffic (routers s.router) s.inChannel hcontains hne
  rw [hf.type, hf.vc, hf.dest] at hoffered
  exact ⟨outputs, hroute, hoffered⟩

/-- An assertion of the functions: the virtual channel is one of the class. -/
theorem contains_of_routes {outputs : OutputSet} (h : (net fn routers config).Routes pkt s outputs) :
    (config.vcs pkt.type).Contains s.vc := by
  obtain ⟨traffic, f, hf, hroute⟩ := h
  have hassert : f.assertVC (config.vcs f.type) false = some () := by
    by_contra hfails
    have hnone : f.assertVC (config.vcs f.type) false = none := by
      unfold Flit.assertVC at hfails ⊢
      split at hfails
      next => exact absurd rfl hfails
      next hcond => exact if_neg hcond
    cases fn with
    | adaptive =>
        simp only [route, minAdaptiveMesh, Flit.route, hnone] at hroute
        cases hroute
    | adapt =>
        simp only [route, minAdaptMesh, Flit.route, hnone] at hroute
        cases hroute
  unfold Flit.assertVC at hassert
  split at hassert
  next hcond =>
    rw [← hf.type, ← hf.vc]
    exact hcond.resolve_right fun hinject => Bool.false_ne_true hinject.1
  next => cases hassert

theorem offered_of_routes {outputs : OutputSet} (h : (net fn routers config).Routes pkt s outputs)
    (hnot : ¬ pkt.Arrived s) :
    fn.Offered (config.vcs pkt.type) s.router pkt.dest (Escaped config pkt s) outputs := by
  have hvc := contains_of_routes h
  obtain ⟨traffic, f, hf, hroute⟩ := h
  obtain ⟨outputs', hroute', hoffered⟩ := offers_of_carries fn routers traffic
    hf hvc hnot
  obtain rfl : outputs' = outputs := Option.some.inj (hroute'.symm.trans hroute)
  exact hoffered

theorem routable_of_contains (hvc : (config.vcs pkt.type).Contains s.vc) (hnot : ¬ pkt.Arrived s) :
    (net fn routers config).Routable pkt s := by
  intro traffic f hf
  obtain ⟨outputs, hroute, -⟩ := offers_of_carries fn routers traffic hf hvc hnot
  exact ⟨outputs, hroute⟩

/-- Every offered port is on a shortest path, whatever the class. -/
theorem routesMinimally (fn : MinimalRouting) (routers : Node k → Router) (config : RoutingConfig)
    (pkt : Packet k) : (net fn routers config).RoutesMinimally pkt := by
  intro s outputs _ hnot hroutes e he
  rcases (offered_of_routes hroutes hnot).cases e he with ⟨hport, -⟩ | ⟨-, hport, -⟩
  · exact ⟨_, hport, Node.minimal_xyPort hnot⟩
  · exact hport

/-- A packet can hop on any escape channel in dimension order. -/
theorem exists_escapeHop (fn : MinimalRouting) (routers : Node k → Router) {vc : Int} (hvc : (config.vcs pkt.type).Contains s.vc)
    (hnot : ¬ pkt.Arrived s) (hescape : (fn.escape (config.vcs pkt.type)).Contains vc) :
    (net fn routers config).Hop pkt s (s.router.xyPort pkt.dest)
      ⟨s.router.neighbor (s.router.xyPort pkt.dest), some (s.router.xyPort pkt.dest).opp, vc⟩ := by
  have hf : Flit.Carries (⟨pkt.type, s.vc, pkt.dest, 0, 0⟩ : Flit k) pkt s := ⟨rfl, rfl, rfl⟩
  obtain ⟨outputs, hroute, hoffered⟩ := offers_of_carries fn routers
    ⟨0, fun _ => 0⟩ hf hvc hnot
  obtain ⟨pri, hentry⟩ := hoffered.escape
  exact ⟨outputs, _, ⟨_, _, hf, hroute⟩, hentry, rfl, hescape,
    PowerMap.lands_neighbor (Node.edge_xyPort hnot) rfl, rfl⟩

/-- A packet at its destination does not hop on. -/
theorem not_arrived_of_hop {p : Port} (h : (net fn routers config).Hop pkt s p s') :
    ¬ pkt.Arrived s := by
  intro harrived
  obtain ⟨outputs, entry, hroutes, hentry, hport, -⟩ := h
  have hvc := contains_of_routes hroutes
  have hplaced : (net fn routers config).Placed pkt s := ⟨rfl, hvc.1, hvc.2⟩
  have hejects : (net fn routers config).Ejects pkt s := by
    apply RoutedMesh.ejects_of_route _ hplaced harrived
    intro traffic s f
    cases fn with
    | adaptive => exact minAdaptiveMesh_route _ _ _ (routers s.router) ..
    | adapt => exact minAdaptMesh_route _ traffic _ (routers s.router) ..
  rw [hejects outputs hroutes entry hentry] at hport
  cases hport

/-- On an escape channel of the class, all that is offered are escape channels if
the channel is recognised or the class has no others. -/
theorem offers_escape (hsafe : Escaped config pkt s ∨
      ∀ vc, ¬ (fn.own (config.vcs pkt.type)).Contains vc)
    (hnot : ¬ pkt.Arrived s) {p : OutPort} {vc : Int}
    (hoffers : (net fn routers config).Offers pkt s p vc) :
    p = .mesh (s.router.xyPort pkt.dest) ∧ (fn.escape (config.vcs pkt.type)).Contains vc := by
  obtain ⟨outputs, entry, hroutes, hentry, rfl, hstart, hend⟩ := hoffers
  rcases (offered_of_routes hroutes hnot).cases entry hentry with
    ⟨hport, hfirst, hlast⟩ | ⟨hnotEscaped, -, hfirst, hlast⟩
  · rw [hfirst] at hstart
    rw [hlast] at hend
    exact ⟨hport, hstart, hend⟩
  · rw [hfirst] at hstart
    rw [hlast] at hend
    rcases hsafe with hescaped | hnone
    · exact absurd hescaped hnotEscaped
    · exact absurd ⟨hstart, hend⟩ (hnone vc)

/-- The escape channels are closed if each is one of the class, and is recognised
or there are no others. -/
theorem closes_of_safe (hsafe : ∀ s : Spot k, s.inChannel ≠ none →
      (fn.escape (config.vcs pkt.type)).Contains s.vc →
        (config.vcs pkt.type).Contains s.vc ∧
          (Escaped config pkt s ∨ ∀ vc, ¬ (fn.own (config.vcs pkt.type)).Contains vc)) :
    (net fn routers config).Closes pkt (fn.escape (config.vcs pkt.type)) := by
  intro s s' _ hin hvc hmoves hnot
  have hkept : s'.inChannel ≠ none ∧ (fn.escape (config.vcs pkt.type)).Contains s'.vc := by
    induction hmoves with
    | refl => exact ⟨hin, hvc⟩
    | tail _ hmove ih =>
        obtain ⟨p, hhop⟩ := hmove
        have hdeparts := not_arrived_of_hop hhop
        obtain ⟨hin', hvc'⟩ := ih hdeparts
        obtain ⟨outputs, entry, hroutes, hentry, hport, hrange, -, hchannel⟩ := hhop
        refine ⟨?_, (offers_escape (hsafe _ hin' hvc').2 hdeparts
          ⟨outputs, entry, hroutes, hentry, hport, hrange.1, hrange.2⟩).2⟩
        rw [hchannel]
        exact Option.some_ne_none _
  obtain ⟨hclass, hescape⟩ := hsafe s' hkept.1 hkept.2
  exact ⟨routable_of_contains hclass hnot, fun p vc hoffers => offers_escape hescape hnot hoffers⟩

/-- A source from which a packet can hop twice. -/
theorem exists_twoHops (hk : 2 ≤ k) : ∃ n m : Node k, n ≠ m ∧ n.neighbor (n.xyPort m) ≠ m := by
  let n : Node k := Node.ofXY 0 0 (by omega) (by omega)
  let m : Node k := Node.ofXY 1 1 (by omega) (by omega)
  have hx : n.x = 0 ∧ n.y = 0 := ⟨Node.ofXY_x _ _, Node.ofXY_y _ _⟩
  have hm : m.x = 1 ∧ m.y = 1 := ⟨Node.ofXY_x _ _, Node.ofXY_y _ _⟩
  have hne : n ≠ m := by
    intro heq
    have := congrArg Node.x heq
    omega
  refine ⟨n, m, hne, ?_⟩
  intro heq
  have hcloser := (Node.minimal_xyPort hne).2
  rw [heq] at hcloser
  unfold Node.manhattan at hcloser
  omega

/-- A packet that is offered an escape channel takes it, and may hop on. -/
theorem exists_onEscape (hk : 2 ≤ k) (fn : MinimalRouting) (routers : Node k → Router)
    {type : FlitType} (hclass : (config.vcs type).vcBegin ≤ (config.vcs type).vcEnd) {vc : Int}
    (hescape : (fn.escape (config.vcs type)).Contains vc) :
    ∃ (dest : Node k) (s : Spot k), (net fn routers config).Reachable ⟨type, dest⟩ s ∧
      s.inChannel ≠ none ∧ s.vc = vc ∧ s.router ≠ dest := by
  obtain ⟨n, m, hne, hnext⟩ := exists_twoHops hk
  let pkt : Packet k := ⟨type, m⟩
  let source : Spot k := ⟨n, none, (config.vcs type).vcBegin⟩
  have hsource : (net fn routers config).Reachable pkt source :=
    .source ⟨rfl, Int.le_refl _, hclass⟩ rfl
  have hvc : (config.vcs pkt.type).Contains source.vc := ⟨Int.le_refl _, hclass⟩
  have hnot : ¬ pkt.Arrived source := hne
  have hhop := exists_escapeHop fn routers hvc hnot hescape
  exact ⟨m, _, .hop hsource hhop, Option.some_ne_none _, rfl, hnext⟩

/-- For every packet of the type, the escape channels are closed and all offered
ports are on shortest paths. -/
def Escapes (fn : MinimalRouting) (routers : Node k → Router) (config : RoutingConfig)
    (type : FlitType) : Prop :=
  ∀ dest, (net fn routers config).Closes ⟨type, dest⟩ (fn.escape (config.vcs type)) ∧
    (net fn routers config).RoutesMinimally ⟨type, dest⟩

/-- The classes for which a function recognises what it offers as escape channels. -/
def Recognises (vcs : VCRange) : MinimalRouting → Prop
  | adaptive => vcs.vcEnd = vcs.vcBegin + 1
  | adapt => vcs.vcBegin = 0

theorem escapes_of_recognises {type : FlitType} (h : fn.Recognises (config.vcs type))
    (hclass : (config.vcs type).vcBegin ≤ (config.vcs type).vcEnd) :
    Escapes fn routers config type := by
  intro dest
  refine ⟨closes_of_safe ?_, routesMinimally fn routers config _⟩
  intro s hin hvc
  cases fn with
  | adaptive =>
      have hend : (config.vcs type).vcEnd = (config.vcs type).vcBegin + 1 := h
      refine ⟨⟨hvc.1, hvc.2.trans hend.ge⟩, .inr ?_⟩
      rintro vc ⟨hstart, hlast⟩
      simp only [own] at hstart hlast
      omega
  | adapt =>
      have hbegin : (config.vcs type).vcBegin = 0 := h
      obtain ⟨hstart, hlast⟩ := hvc
      simp only [escape] at hstart hlast
      have hzero : s.vc = (config.vcs type).vcBegin := by omega
      refine ⟨⟨hzero.ge, hzero.le.trans hclass⟩, .inl ?_⟩
      rw [Escaped, inVC, if_neg hin]
      exact hzero

theorem recognises_of_escapes (hk : 2 ≤ k) {type : FlitType}
    (hbegin : 0 ≤ (config.vcs type).vcBegin)
    (hclass : (config.vcs type).vcBegin ≤ (config.vcs type).vcEnd)
    (h : Escapes fn routers config type) : fn.Recognises (config.vcs type) := by
  cases fn with
  | adaptive =>
      -- the second escape channel is not recognised
      have hsecond : (adaptive.escape (config.vcs type)).Contains ((config.vcs type).vcBegin + 1) :=
        ⟨by simp only [escape]; omega, le_rfl⟩
      obtain ⟨dest, s, hreach, hin, hvc, hne⟩ := exists_onEscape hk adaptive routers hclass hsecond
      obtain ⟨hroutable, honly⟩ := (h dest).1 s s hreach hin
        ⟨by simp only [escape]; omega, by simp only [escape]; omega⟩ .refl hne
      have hf : Flit.Carries (⟨type, s.vc, dest, 0, 0⟩ : Flit k) ⟨type, dest⟩ s := ⟨rfl, rfl, rfl⟩
      obtain ⟨outputs, hroute⟩ := hroutable ⟨0, fun _ => 0⟩ _ hf
      have hroutes : (net adaptive routers config).Routes ⟨type, dest⟩ s outputs :=
        ⟨_, _, hf, hroute⟩
      have hcontains := contains_of_routes hroutes
      by_contra hnot
      have hmore : (config.vcs type).vcBegin + 2 ≤ (config.vcs type).vcEnd := by
        have hle : s.vc ≤ (config.vcs type).vcEnd := hcontains.2
        have : ¬ (config.vcs type).vcEnd = (config.vcs type).vcBegin + 1 := hnot
        omega
      let f : Flit k := ⟨type, s.vc, dest, 0, 0⟩
      have hf' : (config.vcs f.type).Contains f.vc := hcontains
      obtain ⟨outputs', hroute', -, hown⟩ :=
        minAdaptiveMesh_offers ⟨0, fun _ => 0⟩ (routers s.router) s.inChannel hf' hne
      have hunrecognised : inVC (config.vcs type) s.vc s.inChannel ≠ (config.vcs type).vcBegin := by
        rw [inVC, if_neg hin]
        omega
      obtain ⟨pri, hentry⟩ := hown hunrecognised
      have hoffers := honly _ ((config.vcs type).vcBegin + 2)
        ⟨outputs', _, ⟨_, _, hf, hroute'⟩, hentry, rfl, le_rfl, hmore⟩
      have hlast : (config.vcs type).vcBegin + 2 ≤ (config.vcs type).vcBegin + 1 := hoffers.2.2
      omega
  | adapt =>
      -- a virtual channel below the class fails the assertion at the next router
      have hfirst : (adapt.escape (config.vcs type)).Contains 0 := ⟨le_rfl, hbegin⟩
      obtain ⟨dest, s, hreach, hin, hvc, hne⟩ := exists_onEscape hk adapt routers hclass hfirst
      obtain ⟨hroutable, -⟩ := (h dest).1 s s hreach hin ⟨hvc.ge, hvc.le.trans hbegin⟩ .refl hne
      have hf : Flit.Carries (⟨type, s.vc, dest, 0, 0⟩ : Flit k) ⟨type, dest⟩ s := ⟨rfl, rfl, rfl⟩
      obtain ⟨outputs, hroute⟩ := hroutable ⟨0, fun _ => 0⟩ _ hf
      have hroutes : (net adapt routers config).Routes ⟨type, dest⟩ s outputs :=
        ⟨_, _, hf, hroute⟩
      have hcontains := contains_of_routes hroutes
      have hle : (config.vcs type).vcBegin ≤ s.vc := hcontains.1
      have hzero : (config.vcs type).vcBegin = 0 := by omega
      exact hzero

/-- Every packet that is on an escape channel stays on them, in dimension order,
and otherwise takes shortest paths, exactly for the classes in which what is
offered as escape channels is recognised: two virtual channels for
`min_adaptive_mesh`, a class that begins at 0 for `min_adapt_mesh`. -/
theorem escapes_iff (fn : MinimalRouting) (routers : Node k → Router) (config : RoutingConfig)
    (type : FlitType) (hbegin : 0 ≤ (config.vcs type).vcBegin)
    (hclass : (config.vcs type).vcBegin ≤ (config.vcs type).vcEnd) :
    Escapes fn routers config type ↔ k ≤ 1 ∨ fn.Recognises (config.vcs type) := by
  constructor
  · intro h
    by_cases hk : k ≤ 1
    · exact .inl hk
    · exact .inr (recognises_of_escapes (Nat.lt_of_not_le hk) hbegin hclass h)
  · rintro (hk | hrecognises)
    · intro dest
      refine ⟨?_, routesMinimally fn routers config _⟩
      intro s s' _ _ _ _ hnot
      -- there is no other router
      have hsingle : s'.router = dest := by
        apply Node.ext_xy
        · exact (Nat.lt_one_iff.mp (s'.router.x_lt.trans_le hk)).trans
            (Nat.lt_one_iff.mp (dest.x_lt.trans_le hk)).symm
        · exact (Nat.lt_one_iff.mp (s'.router.y_lt.trans_le hk)).trans
            (Nat.lt_one_iff.mp (dest.y_lt.trans_le hk)).symm
      exact absurd hsingle hnot
    · exact escapes_of_recognises hrecognises hclass

/-- A class of two virtual channels, for both functions. -/
theorem escapes_iff_twoVCs :
    Escapes adaptive (PowerMap.allOn 2).view .twoVCs .anyType ∧
      Escapes adapt (PowerMap.allOn 2).view .twoVCs .anyType :=
  ⟨(escapes_iff adaptive _ .twoVCs .anyType (by decide) (by decide)).mpr (.inr rfl),
    (escapes_iff adapt _ .twoVCs .anyType (by decide) (by decide)).mpr (.inr rfl)⟩

/-- Three virtual channels: the packet goes back to the third from the second. -/
def threeVCs : RoutingConfig where
  numVCs := 3
  readReq := ⟨0, 2⟩
  writeReq := ⟨0, 2⟩
  readReply := ⟨0, 2⟩
  writeReply := ⟨0, 2⟩
  missRouteThreshold := 0

/-- Replies on the upper two of four virtual channels. -/
def splitVCs : RoutingConfig where
  numVCs := 4
  readReq := ⟨0, 1⟩
  writeReq := ⟨0, 1⟩
  readReply := ⟨2, 3⟩
  writeReply := ⟨2, 3⟩
  missRouteThreshold := 0

theorem not_escapes_threeVCs :
    ¬ Escapes adaptive (PowerMap.allOn 2).view threeVCs .readRequest ∧
      ¬ Escapes adapt (PowerMap.allOn 2).view splitVCs .readReply := by
  constructor
  · intro h
    have hrecognises := recognises_of_escapes le_rfl (by decide) (by decide) h
    exact absurd hrecognises (by unfold Recognises; decide)
  · intro h
    have hrecognises := recognises_of_escapes le_rfl (by decide) (by decide) h
    exact absurd hrecognises (by unfold Recognises; decide)

end MinimalRouting

end Flyover
