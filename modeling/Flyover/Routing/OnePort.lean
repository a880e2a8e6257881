import Flyover.Routing.Hops

/-!
# Routing functions that offer one port

`flov_mesh`, `opt_rflov_mesh` and `opt_flov_mesh` end by offering a single entry:
a port, and either the escape channel or all the others. What they choose is
stated as a relation; from a few properties of it every packet arrives.
-/

namespace Flyover

variable {k : Nat}

/-- How the routing functions of this family begin: select the virtual channels,
and offer all of them at injection and at the destination. -/
def Flit.route (f : Flit k) (config : RoutingConfig) (n : Node k) (inject : Bool)
    (transit : VCRange → Option OutputSet) : Option OutputSet := do
  let vcs := config.vcs f.type
  f.assertVC vcs inject
  if inject then
    pure (OutputSet.clear.addRange .inject vcs.vcBegin vcs.vcEnd 0)
  else if n = f.dest then
    pure (OutputSet.clear.addRange .eject vcs.vcBegin vcs.vcEnd 0)
  else transit vcs

/-- How they end: `vcEnd = vcBegin` on the escape channel, `++vcBegin` off it. -/
def OutputSet.onePort (vcs : VCRange) (escape : Bool) (outPort : OutPort) : OutputSet :=
  if escape then clear.addRange outPort vcs.vcBegin vcs.vcBegin 0
  else clear.addRange outPort (vcs.vcBegin + 1) vcs.vcEnd 0

theorem Flit.assertVC_of_placed {mesh : RoutedMesh k} {pkt : Packet k} {s : Spot k} {f : Flit k}
    {inject : Bool} (hf : f.Carries pkt s) (hs : mesh.Placed pkt s) :
    f.assertVC (mesh.config.vcs f.type) inject = some () := by
  have hbegin := hs.vcBegin_le
  have hend := hs.le_vcEnd
  rw [RoutedMesh.vcs, ← hf.type, ← hf.vc] at hbegin hend
  exact if_pos (.inl ⟨hbegin, hend⟩)

/-- Away from the destination the rest of the routing function decides. -/
theorem Flit.route_transit {mesh : RoutedMesh k} {pkt : Packet k} {s : Spot k} {f : Flit k}
    {transit : VCRange → Option OutputSet} (hf : f.Carries pkt s) (hs : mesh.Placed pkt s)
    (hnot : ¬ pkt.Arrived s) :
    f.route mesh.config s.router false transit = transit (mesh.vcs pkt) := by
  have hne : s.router ≠ f.dest := by
    rw [hf.dest]
    exact hnot
  rw [Flit.route, f.assertVC_of_placed hf hs]
  simp [hne, hf.type, RoutedMesh.vcs]

theorem Flit.route_arrived {mesh : RoutedMesh k} {pkt : Packet k} {s : Spot k} {f : Flit k}
    {transit : VCRange → Option OutputSet} (hf : f.Carries pkt s) (hs : mesh.Placed pkt s)
    (harrived : pkt.Arrived s) :
    f.route mesh.config s.router false transit =
      some (OutputSet.clear.addRange .eject (mesh.vcs pkt).vcBegin (mesh.vcs pkt).vcEnd 0) := by
  have heq : s.router = f.dest := by
    rw [hf.dest]
    exact harrived
  rw [Flit.route, f.assertVC_of_placed hf hs]
  simp [heq, hf.type, RoutedMesh.vcs]

namespace RoutedMesh

variable {mesh : RoutedMesh k} {pkt : Packet k}

/-- A routing function that begins like the others ejects the packet where it should. -/
theorem ejects_of_route (hroute : ∀ traffic (s : Spot k) (f : Flit k), ∃ transit,
      mesh.route mesh.config traffic s.router (mesh.routers s.router) f s.inChannel false =
        f.route mesh.config s.router false transit)
    {s : Spot k} (hs : mesh.Placed pkt s) (harrived : pkt.Arrived s) : mesh.Ejects pkt s := by
  rintro outputs ⟨traffic, f, hf, houtputs⟩ entry hentry
  obtain ⟨transit, htransit⟩ := hroute traffic s f
  rw [htransit, Flit.route_arrived hf hs harrived] at houtputs
  rw [← Option.some.inj houtputs, OutputSet.mem_clear_addRange] at hentry
  rw [hentry]

/-- The routing function offers one port; `allowed` says which it may be, on the
escape channel and off it, and `measure` what hops off it achieve. -/
structure OnePort (mesh : RoutedMesh k) (pkt : Packet k)
    (allowed : Spot k → Bool → Port → Prop) (measure : Spot k → Nat) : Prop where
  routes : ∀ traffic f s, mesh.Placed pkt s → ¬ pkt.Arrived s → f.Carries pkt s →
    ∃ escape p, mesh.route mesh.config traffic s.router (mesh.routers s.router) f s.inChannel
      false = some (.onePort (mesh.vcs pkt) escape (.mesh p)) ∧ allowed s escape p ∧
      (escape = false → (mesh.vcs pkt).vcBegin < (mesh.vcs pkt).vcEnd)
  ejects : ∀ s, mesh.Placed pkt s → pkt.Arrived s → mesh.Ejects pkt s
  lands : ∀ s escape p, mesh.Placed pkt s → ¬ pkt.Arrived s → allowed s escape p →
    ∃ m, mesh.map.Lands s.router p m
  escape : ∀ s p m, ¬ pkt.Arrived s → allowed s true p → mesh.map.Lands s.router p m →
    EscapeStep mesh.map pkt.dest s.router p m
  stays : ∀ s escape p, mesh.OnEscape pkt s → allowed s escape p → escape = true
  column : ∀ s p m, ¬ pkt.Arrived s → allowed s false p → mesh.map.Lands s.router p m →
    Between s.router.x m.x pkt.dest.x
  adaptive : ∀ s p m vc, ¬ pkt.Arrived s → allowed s false p → mesh.map.Lands s.router p m →
    measure ⟨m, some p.opp, vc⟩ < measure s
  bound : ∀ s, measure s < 3 * k * k

namespace OnePort

variable {allowed : Spot k → Bool → Port → Prop} {measure : Spot k → Nat}

theorem departs (h : mesh.OnePort pkt allowed measure) {s s' : Spot k} {p : Port}
    (hs : mesh.Placed pkt s) (hhop : mesh.Hop pkt s p s') : ¬ pkt.Arrived s :=
  fun harrived => (h.ejects s hs harrived).no_hop hhop

/-- What a hop can be. -/
theorem hop_cases (h : mesh.OnePort pkt allowed measure) {s s' : Spot k} {p : Port}
    (hs : mesh.Placed pkt s) (hhop : mesh.Hop pkt s p s') :
    mesh.map.Lands s.router p s'.router ∧ s'.inChannel = some p.opp ∧
      (allowed s true p ∧ s'.vc = (mesh.vcs pkt).vcBegin ∨
        allowed s false p ∧ (mesh.vcs pkt).vcBegin < s'.vc) := by
  have hnot := h.departs hs hhop
  obtain ⟨outputs, entry, ⟨traffic, f, hf, houtputs⟩, hentry, hport, hvc, hlands, hin⟩ := hhop
  obtain ⟨escape, q, hroute, hallowed, -⟩ := h.routes traffic f s hs hnot hf
  obtain rfl := Option.some.inj (hroute.symm.trans houtputs)
  refine ⟨hlands, hin, ?_⟩
  cases escape with
  | true =>
      obtain rfl := OutputSet.mem_clear_addRange.mp hentry
      obtain rfl := OutPort.mesh.inj hport
      exact .inl ⟨hallowed, Int.le_antisymm hvc.2 hvc.1⟩
  | false =>
      obtain rfl := OutputSet.mem_clear_addRange.mp hentry
      obtain rfl := OutPort.mesh.inj hport
      exact .inr ⟨hallowed, hvc.1⟩

theorem answers (h : mesh.OnePort pkt allowed measure) {s : Spot k} (hs : mesh.Placed pkt s)
    (hnot : ¬ pkt.Arrived s) : mesh.Answers pkt s := by
  intro traffic f hf
  obtain ⟨escape, p, hroute, hallowed, hrange⟩ := h.routes traffic f s hs hnot hf
  obtain ⟨m, hlands⟩ := h.lands s escape p hs hnot hallowed
  have hvcs : (mesh.vcs pkt).vcBegin ≤ (mesh.vcs pkt).vcEnd :=
    Int.le_trans hs.vcBegin_le hs.le_vcEnd
  refine ⟨_, hroute, ?_⟩
  cases escape with
  | true =>
      refine ⟨⟨_, OutputSet.mem_clear_addRange.mpr rfl⟩, ?_⟩
      intro entry hentry
      obtain rfl := OutputSet.mem_clear_addRange.mp hentry
      exact ⟨⟨p, m, rfl, hlands⟩, Int.le_refl _, Int.le_refl _, hvcs⟩
  | false =>
      refine ⟨⟨_, OutputSet.mem_clear_addRange.mpr rfl⟩, ?_⟩
      intro entry hentry
      obtain rfl := OutputSet.mem_clear_addRange.mp hentry
      exact ⟨⟨p, m, rfl, hlands⟩, Int.le_of_lt (Int.lt_succ _), hrange rfl, Int.le_refl _⟩

/-- A hop on the escape channel is one that the function allows there. -/
theorem allowed_of_escapeHop (h : mesh.OnePort pkt allowed measure) {s s' : Spot k} {p : Port}
    (hs : mesh.Placed pkt s) (hhop : mesh.EscapeHop pkt s p s') : allowed s true p := by
  obtain ⟨-, -, ⟨hallowed, -⟩ | ⟨-, hvc⟩⟩ := h.hop_cases hs hhop.1
  · exact hallowed
  · exact absurd hhop.2 (Int.ne_of_gt hvc)

theorem escapeHop (h : mesh.OnePort pkt allowed measure) {s s' : Spot k} {p : Port}
    (hs : mesh.Placed pkt s) (hescape : mesh.OnEscape pkt s) (hhop : mesh.Hop pkt s p s') :
    mesh.EscapeHop pkt s p s' := by
  obtain ⟨-, -, ⟨-, hvc⟩ | ⟨hallowed, -⟩⟩ := h.hop_cases hs hhop
  · exact ⟨hhop, hvc⟩
  · exact absurd (h.stays s false p hescape hallowed) Bool.false_ne_true

theorem onEscape (h : mesh.OnePort pkt allowed measure) {s s' : Spot k} {p : Port}
    (hs : mesh.Placed pkt s) (hhop : mesh.EscapeHop pkt s p s') : mesh.OnEscape pkt s' := by
  obtain ⟨-, hin, -⟩ := h.hop_cases hs hhop.1
  refine ⟨?_, hhop.2⟩
  rw [hin]
  exact Option.some_ne_none _

end OnePort

/-- If it is so for every packet to a router that is on, the escape channels
follow the turn model. -/
theorem followsTurns_of_onePort {allowed : Packet k → Spot k → Bool → Port → Prop}
    {measure : Packet k → Spot k → Nat}
    (h : ∀ pkt, mesh.map.on pkt.dest = true → mesh.OnePort pkt (allowed pkt) (measure pkt)) :
    mesh.FollowsTurns where
  step := by
    intro pkt s p s' hon hs hhop
    have hone := h pkt hon
    exact hone.escape s p s'.router (hone.departs hs hhop.1) (hone.allowed_of_escapeHop hs hhop)
      (hone.hop_cases hs hhop.1).1
  departs := fun pkt s p s' hon hs hhop => (h pkt hon).departs hs hhop
  placed := fun pkt s p s' hon hs hhop =>
    hhop.placed ((h pkt hon).answers hs ((h pkt hon).departs hs hhop))

theorem delivers_of_onePort {allowed : Packet k → Spot k → Bool → Port → Prop}
    {measure : Packet k → Spot k → Nat}
    (h : ∀ pkt, mesh.map.on pkt.dest = true → mesh.OnePort pkt (allowed pkt) (measure pkt))
    {pkt : Packet k} (hon : mesh.map.on pkt.dest = true) : mesh.Delivers pkt where
  answers := fun s hs hnot => (h pkt hon).answers hs hnot
  ejects := (h pkt hon).ejects
  column := by
    intro s p s' hs hhop
    have hone := h pkt hon
    have hnot := hone.departs hs hhop
    obtain ⟨hlands, -, ⟨hallowed, -⟩ | ⟨hallowed, -⟩⟩ := hone.hop_cases hs hhop
    · exact (hone.escape s p _ hnot hallowed hlands).column
    · exact hone.column s p _ hnot hallowed hlands
  staysOnEscape := by
    intro s p s' hs hescape hhop
    have hone := h pkt hon
    exact hone.onEscape hs (hone.escapeHop hs hescape hhop)
  escape := by
    intro s hs hescape
    have hone := h pkt hon
    apply (followsTurns_of_onePort h).within (mesh.OnEscape pkt) hon ?_ ?_ hs hescape
    · exact fun s hs _ hnot => exists_hop (hone.answers hs hnot)
    · rintro s s' hs hescape ⟨p, hhop⟩
      have hescapeHop := hone.escapeHop hs hescape hhop
      exact ⟨hone.onEscape hs hescapeHop, p, hescapeHop⟩
  adaptive := by
    intro s hs
    have hone := h pkt hon
    apply Progress.Within.of_measure (mesh.Placed pkt) (measure pkt) ?_ ?_ hs (hone.bound s)
    · intro s hs hnot
      exact exists_hop (hone.answers hs fun harrived => hnot (.inl harrived))
    · rintro s s' hs hnot ⟨p, hhop⟩
      have hdeparts := hone.departs hs hhop
      obtain ⟨hlands, hin, ⟨-, hvc⟩ | ⟨hallowed, -⟩⟩ := hone.hop_cases hs hhop
      · exact .inl (.inr (hone.onEscape hs ⟨hhop, hvc⟩))
      · obtain ⟨m, inChannel, vc⟩ := s'
        obtain rfl : inChannel = some p.opp := hin
        exact .inr ⟨hhop.placed (hone.answers hs hdeparts),
          hone.adaptive s p m vc hdeparts hallowed hlands⟩

end RoutedMesh

end Flyover
