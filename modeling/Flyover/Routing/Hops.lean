import Flyover.Routing.TurnModel
import Flyover.Routing.Function

/-!
# Packets hopping through a static power map

A packet is at a router, came in by some port and holds a virtual channel. The
routing function offers entries; the packet takes any virtual channel of any of
them and lands on the nearest router that is on. Times, credits and the fields
of the flit that change on the way are left open: a fact about every hop holds
whatever they are.

Two hops in a row on escape channels make the second channel a dependency of
the first.
-/

namespace Flyover

variable {k : Nat}

/-- What stays the same of a packet on its way. -/
structure Packet (k : Nat) where
  type : FlitType
  dest : Node k

/-- Where a packet is. -/
structure Spot (k : Nat) where
  router : Node k
  inChannel : Option Port
  vc : Int

/-- A mesh with a static power map, and what its routers record of it. -/
structure RoutedMesh (k : Nat) where
  map : PowerMap k
  routers : Node k → Router
  config : RoutingConfig
  route : RoutingFunction k

/-- The flit belongs to the packet and holds its virtual channel. -/
structure Flit.Carries (f : Flit k) (pkt : Packet k) (s : Spot k) : Prop where
  type : f.type = pkt.type
  dest : f.dest = pkt.dest
  vc : f.vc = s.vc

/-- The packet is at its destination. -/
def Packet.Arrived (pkt : Packet k) (s : Spot k) : Prop := s.router = pkt.dest

namespace RoutedMesh

variable (mesh : RoutedMesh k) (pkt : Packet k)

/-- The virtual channels of the packet; the first is its escape channel. -/
def vcs : VCRange := mesh.config.vcs pkt.type

/-- At a router that is on, with a virtual channel of its own. -/
structure Placed (s : Spot k) : Prop where
  on : mesh.map.on s.router = true
  vcBegin_le : (mesh.vcs pkt).vcBegin ≤ s.vc
  le_vcEnd : s.vc ≤ (mesh.vcs pkt).vcEnd

/-- The routing function gives these outputs for a flit of the packet. -/
def Routes (s : Spot k) (outputs : OutputSet) : Prop :=
  ∃ traffic f, f.Carries pkt s ∧
    mesh.route mesh.config traffic s.router (mesh.routers s.router) f s.inChannel false =
      some outputs

/-- One hop by port `p`. -/
def Hop (s : Spot k) (p : Port) (s' : Spot k) : Prop :=
  ∃ outputs entry, mesh.Routes pkt s outputs ∧ entry ∈ outputs ∧ entry.outputPort = .mesh p ∧
    (entry.vcStart ≤ s'.vc ∧ s'.vc ≤ entry.vcEnd) ∧
    mesh.map.Lands s.router p s'.router ∧ s'.inChannel = some p.opp

/-- One hop by any port. -/
def Moves (s s' : Spot k) : Prop := ∃ p, mesh.Hop pkt s p s'

/-- A hop on the escape channel. -/
def EscapeHop (s : Spot k) (p : Port) (s' : Spot k) : Prop :=
  mesh.Hop pkt s p s' ∧ s'.vc = (mesh.vcs pkt).vcBegin

/-- The packet has come in on its escape channel. -/
def OnEscape (s : Spot k) : Prop := s.inChannel ≠ none ∧ s.vc = (mesh.vcs pkt).vcBegin

/-- An escape channel, by the router it leaves and the direction, is requested by
a packet that holds another. -/
def EscapeDep (c c' : Node k × Port) : Prop :=
  ∃ pkt s s' s'', mesh.map.on pkt.dest = true ∧ mesh.Placed pkt s ∧
    mesh.EscapeHop pkt s c.2 s' ∧ mesh.EscapeHop pkt s' c'.2 s'' ∧
    s.router = c.1 ∧ s'.router = c'.1

/-- An entry leads by a mesh port to a router that is on, on virtual channels of
the packet. -/
structure Leads (s : Spot k) (entry : OutputEntry) : Prop where
  lands : ∃ p m, entry.outputPort = .mesh p ∧ mesh.map.Lands s.router p m
  vcBegin_le : (mesh.vcs pkt).vcBegin ≤ entry.vcStart
  start_le : entry.vcStart ≤ entry.vcEnd
  le_vcEnd : entry.vcEnd ≤ (mesh.vcs pkt).vcEnd

/-- Whatever the time and the credits, the routing function offers something, and
all that it offers leads on. -/
def Answers (s : Spot k) : Prop :=
  ∀ traffic f, f.Carries pkt s → ∃ outputs,
    mesh.route mesh.config traffic s.router (mesh.routers s.router) f s.inChannel false =
      some outputs ∧
    (∃ entry, entry ∈ outputs) ∧ ∀ entry ∈ outputs, mesh.Leads pkt s entry

/-- At the destination only the ejection port is offered. -/
def Ejects (s : Spot k) : Prop :=
  ∀ outputs, mesh.Routes pkt s outputs → ∀ entry ∈ outputs, entry.outputPort = .eject

/-- Where a packet can be on its way from a source at a router that is on. -/
inductive Reachable : Spot k → Prop
  | source {s : Spot k} : mesh.Placed pkt s → s.inChannel = none → Reachable s
  | hop {s s' : Spot k} {p : Port} : Reachable s → mesh.Hop pkt s p s' → Reachable s'

/-- Every packet to a router that is on gets there. -/
structure Delivers : Prop where
  answers : ∀ s, mesh.Placed pkt s → ¬ pkt.Arrived s → mesh.Answers pkt s
  ejects : ∀ s, mesh.Placed pkt s → pkt.Arrived s → mesh.Ejects pkt s
  column : ∀ s p s', mesh.Placed pkt s → mesh.Hop pkt s p s' →
    Between s.router.x s'.router.x pkt.dest.x
  staysOnEscape : ∀ s p s', mesh.Placed pkt s → mesh.OnEscape pkt s → mesh.Hop pkt s p s' →
    mesh.OnEscape pkt s'
  escape : ∀ s, mesh.Placed pkt s → mesh.OnEscape pkt s →
    Progress.Within (mesh.Moves pkt) pkt.Arrived (3 * k) s
  adaptive : ∀ s, mesh.Placed pkt s →
    Progress.Within (mesh.Moves pkt) (fun s => pkt.Arrived s ∨ mesh.OnEscape pkt s)
      (3 * k * k) s

variable {mesh pkt}

theorem exists_hop {s : Spot k} (h : mesh.Answers pkt s) : ∃ s', mesh.Moves pkt s s' := by
  let f : Flit k := ⟨pkt.type, s.vc, pkt.dest, 0, 0⟩
  have hf : f.Carries pkt s := ⟨rfl, rfl, rfl⟩
  obtain ⟨outputs, hroute, ⟨entry, hentry⟩, hleads⟩ := h ⟨0, fun _ => 0⟩ f hf
  have hlead := hleads entry hentry
  obtain ⟨p, m, hport, hlands⟩ := hlead.lands
  refine ⟨⟨m, some p.opp, entry.vcStart⟩, p, outputs, entry, ⟨_, f, hf, hroute⟩, hentry, hport, ?_⟩
  exact ⟨⟨Int.le_refl _, hlead.start_le⟩, hlands, rfl⟩

theorem Hop.placed {s s' : Spot k} {p : Port} (h : mesh.Hop pkt s p s')
    (hanswers : mesh.Answers pkt s) : mesh.Placed pkt s' := by
  obtain ⟨outputs, entry, ⟨traffic, f, hf, hroute⟩, hentry, hport, hvc, hlands, hin⟩ := h
  obtain ⟨outputs', hroute', -, hleads⟩ := hanswers traffic f hf
  obtain rfl : outputs = outputs' := Option.some.inj (hroute.symm.trans hroute')
  have hlead := hleads entry hentry
  exact
    { on := hlands.holds
      vcBegin_le := Int.le_trans hlead.vcBegin_le hvc.1
      le_vcEnd := Int.le_trans hvc.2 hlead.le_vcEnd }

theorem Ejects.no_hop {s s' : Spot k} {p : Port} (h : mesh.Ejects pkt s) :
    ¬ mesh.Hop pkt s p s' := by
  rintro ⟨outputs, entry, hroutes, hentry, hport, -⟩
  rw [h outputs hroutes entry hentry] at hport
  cases hport

namespace Delivers

theorem placed (h : mesh.Delivers pkt) {s s' : Spot k} (hs : mesh.Placed pkt s)
    (hmoves : mesh.Moves pkt s s') : mesh.Placed pkt s' := by
  obtain ⟨p, hhop⟩ := hmoves
  by_cases harrived : pkt.Arrived s
  · exact absurd hhop (h.ejects s hs harrived).no_hop
  · exact hhop.placed (h.answers s hs harrived)

/-- A packet arrives from wherever it is, on whatever virtual channel. -/
theorem within (h : mesh.Delivers pkt) {s : Spot k} (hs : mesh.Placed pkt s) :
    Progress.Within (mesh.Moves pkt) pkt.Arrived (3 * k * k + 3 * k) s := by
  refine Progress.Within.trans (fun _ _ hs hmoves => h.placed hs hmoves) (h.adaptive s hs) hs ?_
  rintro s hs (harrived | hescape)
  · exact .here harrived
  · exact h.escape s hs hescape

end Delivers

/-- The hops on escape channels follow the turn model. -/
structure FollowsTurns (mesh : RoutedMesh k) : Prop where
  step : ∀ pkt s p s', mesh.map.on pkt.dest = true → mesh.Placed pkt s →
    mesh.EscapeHop pkt s p s' → EscapeStep mesh.map pkt.dest s.router p s'.router
  departs : ∀ pkt s p s', mesh.map.on pkt.dest = true → mesh.Placed pkt s →
    mesh.Hop pkt s p s' → ¬ pkt.Arrived s
  placed : ∀ pkt s p s', mesh.map.on pkt.dest = true → mesh.Placed pkt s →
    mesh.Hop pkt s p s' → mesh.Placed pkt s'

namespace FollowsTurns

/-- A dependency between escape channels is a safe turn at the router between them. -/
theorem safeTurn (h : mesh.FollowsTurns) {c c' : Node k × Port} (hdep : mesh.EscapeDep c c') :
    SafeTurn c.2 c'.2 ∧ c.1.Ahead c'.1 c.2 := by
  obtain ⟨pkt, s, s', s'', hon, hs, hfirst, hsecond, hc, hc'⟩ := hdep
  have hs' := h.placed pkt s c.2 s' hon hs hfirst.1
  have hstep := h.step pkt s c.2 s' hon hs hfirst
  have hstep' := h.step pkt s' c'.2 s'' hon hs' hsecond
  rw [← hc, ← hc']
  exact ⟨hstep.safeTurn hstep' hon (h.departs pkt s _ _ hon hs hfirst.1)
    (h.departs pkt s' _ _ hon hs' hsecond.1), hstep.lands.ahead⟩

theorem acyclic (h : mesh.FollowsTurns) : Progress.Acyclic mesh.EscapeDep := by
  apply Progress.acyclic_of_rank channelRank
  intro c c' hdep
  obtain ⟨hsafe, hahead⟩ := h.safeTurn hdep
  exact hsafe.rank_lt hahead

theorem northbound (h : mesh.FollowsTurns) {c c' : Node k × Port} (hdep : mesh.EscapeDep c c')
    (hnorth : c.2 = .north) : c'.2 = .north := by
  rcases (h.safeTurn hdep).1 with heq | ⟨hne, -⟩
  · exact heq
  · exact absurd hnorth hne

/-- Under the turn model a packet arrives by its escape channels, from any set of
places that they do not lead out of and where there is always one. -/
theorem within (h : mesh.FollowsTurns) {step : Spot k → Spot k → Prop} (inv : Spot k → Prop)
    (hon : mesh.map.on pkt.dest = true)
    (hlive : ∀ s, mesh.Placed pkt s → inv s → ¬ pkt.Arrived s → ∃ s', step s s')
    (hstep : ∀ s s', mesh.Placed pkt s → inv s → step s s' →
      inv s' ∧ ∃ p, mesh.EscapeHop pkt s p s')
    {s : Spot k} (hs : mesh.Placed pkt s) (hinv : inv s) :
    Progress.Within step pkt.Arrived (3 * k) s := by
  apply Progress.Within.of_measure (fun s => mesh.Placed pkt s ∧ inv s)
    (fun s => escapeDistance pkt.dest s.router) ?_ ?_ ⟨hs, hinv⟩ (escapeDistance_lt _ _)
  · intro s hs hnot
    exact hlive s hs.1 hs.2 hnot
  · intro s s' hs hnot hmove
    obtain ⟨hinv', p, hhop⟩ := hstep s s' hs.1 hs.2 hmove
    have hcloser := (h.step pkt s p s' hon hs.1 hhop).closer hon hnot
    exact .inr ⟨⟨h.placed pkt s p s' hon hs.1 hhop.1, hinv'⟩, hcloser⟩

end FollowsTurns

end RoutedMesh

end Flyover
