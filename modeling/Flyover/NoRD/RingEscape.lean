import Flyover.Routing.Hops
import Flyover.NoRD.Mesh

/-!
# Escape on the NoRD ring

A packet that has been granted an escape channel once follows the ring to its
destination. A router that is on computes its class anew, one that is off keeps
the class that the packet came in with. The two differ where the numbering of
the ring starts over: a packet that has crossed the dateline changes class at
router 0, if that is on.
-/

namespace Flyover

variable {k : Nat}

/-- A mesh of NoRD routers, some of them off. -/
structure NoRDNet (k : Nat) where
  config : RoutingConfig
  off : Node k → Bool

/-- A packet and where it came from. -/
structure NoRDPacket (k : Nat) extends Packet k where
  src : Node k

/-- The flit belongs to the packet. -/
structure NoRDFlit.Carries (f : NoRDFlit k) (pkt : NoRDPacket k) : Prop where
  type : f.type = pkt.type
  dest : f.dest = pkt.dest
  src : f.src = pkt.src
  ringDest : f.ringDest = pkt.dest.ringID

namespace NoRDNet

variable (net : NoRDNet k) (pkt : NoRDPacket k)

/-- The virtual channels of the packet; the last two are for escape. -/
def vcs : VCRange := net.config.vcs pkt.type

/-- One of the last two virtual channels. -/
def LastTwo (vc : Int) : Prop := vc = (net.vcs pkt).vcEnd - 1 ∨ vc = (net.vcs pkt).vcEnd

/-- A router that is on offers this entry. What it records of its neighbours, and
the time and the credits, may be anything. -/
def RouterOffers (s : Spot k) (entry : OutputEntry) : Prop :=
  ∃ traffic view f outputs, view.id = s.router ∧ f.Carries pkt ∧ f.vc = s.vc ∧
    nordMesh net.config traffic (some view) f s.inChannel false = some outputs ∧ entry ∈ outputs

/-- The interface of a router that is off offers this entry. -/
def BypassOffers (s : Spot k) (entry : OutputEntry) : Prop :=
  ∃ traffic view f outputs, view.id = s.router ∧ f.Carries pkt ∧ f.vc = -1 ∧ f.bypassVC = s.vc ∧
    nordMesh net.config traffic (some view) f none true = some outputs ∧ entry ∈ outputs

/-- One hop. A source is a router that is on; a router that is off takes in
packets from the ring only, and sends those on that are not for it. -/
inductive Moves : Spot k → Spot k → Prop
  | router {s : Spot k} {entry : OutputEntry} {p : Port} {vc : Int} :
      net.off s.router = false → (s.inChannel = none → s.router = pkt.src) →
      net.RouterOffers pkt s entry → entry.outputPort = .mesh p →
      entry.vcStart ≤ vc → vc ≤ entry.vcEnd →
      Moves s ⟨s.router.neighbor p, some p.opp, vc⟩
  | bypass {s : Spot k} {entry : OutputEntry} {vc : Int} :
      net.off s.router = true → s.inChannel = some s.router.ringInPort → s.router ≠ pkt.dest →
      net.BypassOffers pkt s entry → entry.outputPort = .inject →
      entry.vcStart ≤ vc → vc ≤ entry.vcEnd →
      Moves s ⟨s.router.ringNext, some s.router.ringOutput.opp, vc⟩

/-- The packet has come in on an escape channel. -/
def OnEscape (s : Spot k) : Prop := s.inChannel ≠ none ∧ net.LastTwo pkt s.vc

/-- The hop on which the packet is first granted an escape channel. -/
def Grants (s s' : Spot k) : Prop :=
  ¬ net.OnEscape pkt s ∧ net.Moves pkt s s' ∧ net.LastTwo pkt s'.vc

/-- Where a packet is from its first escape grant on. -/
inductive Riding : Spot k → Prop
  | granted {s s' : Spot k} : net.Grants pkt s s' → Riding s'
  | onward {s s' : Spot k} : Riding s → net.Moves pkt s s' → Riding s'

/-- A hop on an escape channel. -/
def EscapeHop (s s' : Spot k) : Prop :=
  net.Grants pkt s s' ∨ net.Riding pkt s ∧ net.Moves pkt s s'

/-- An escape channel of the ring, by the router it leaves, is requested by a packet
that holds another. -/
def EscapeDep (c c' : Node k × Int) : Prop :=
  ∃ pkt s s' s'', net.EscapeHop pkt s s' ∧ net.EscapeHop pkt s' s'' ∧
    c = (s.router, s'.vc) ∧ c' = (s'.router, s''.vc)

/-- The class of a packet on the ring hop out of a router. -/
def classVC (n : Node k) : Int :=
  if pkt.dest.ringID > n.ringID then (net.vcs pkt).vcEnd - 1 else (net.vcs pkt).vcEnd

/-- What the escape on the ring is to achieve. -/
structure RingEscapes : Prop where
  stays : ∀ pkt s, net.Riding pkt s → net.LastTwo pkt s.vc
  follows : ∀ pkt s s', net.EscapeHop pkt s s' → s'.router = s.router.ringNext
  arrives : ∀ pkt s s', net.Grants pkt s s' →
    Progress.Within (net.Moves pkt) pkt.Arrived (k * k - 2) s'
  sameClass : ∀ pkt s s', net.EscapeHop pkt s s' → s'.vc = net.classVC pkt s.router
  acyclic : Progress.Acyclic net.EscapeDep

variable {net pkt} {s s' : Spot k} {entry : OutputEntry}

theorem ringID_ne (h : s.router ≠ pkt.dest) : pkt.dest.ringID ≠ s.router.ringID :=
  fun heq => h (Node.ringID_injective heq).symm

/-- A flit of the packet takes itself for escaping when it is, at a source too. -/
theorem inEscape_iff {f : NoRDFlit k} (hf : f.Carries pkt) (hvc : f.vc = s.vc)
    (hsrc : s.inChannel = none → s.router = pkt.src) :
    f.inEscape (net.vcs pkt) s.router s.inChannel = true ↔ net.OnEscape pkt s := by
  unfold NoRDFlit.inEscape OnEscape LastTwo
  rw [hvc, hf.src]
  cases hin : s.inChannel with
  | none =>
      rw [hsrc hin]
      simp
  | some p => simp

theorem RouterOffers.spec (h : net.RouterOffers pkt s entry)
    (hsrc : s.inChannel = none → s.router = pkt.src) :
    (net.vcs pkt).vcEnd - (net.vcs pkt).vcBegin + 1 > 2 ∧
      (entry.outputPort = .eject ∨ s.router ≠ pkt.dest ∧
        (entry.outputPort = .mesh s.router.ringOutput ∧
            entry.vcStart = net.classVC pkt s.router ∧ entry.vcEnd = entry.vcStart ∨
          ¬ net.OnEscape pkt s ∧ entry.vcEnd = (net.vcs pkt).vcEnd - 2)) := by
  obtain ⟨traffic, view, f, outputs, hview, hf, hvc, hroute, hentry⟩ := h
  obtain ⟨-, hrange, houtputs⟩ := nordMesh_some_iff.mp hroute
  rw [hf.type, ← vcs] at hrange houtputs
  refine ⟨hrange, ?_⟩
  rw [if_neg Bool.false_ne_true, hview, hf.dest] at houtputs
  by_cases hdest : s.router = pkt.dest
  · rw [if_pos hdest] at houtputs
    obtain rfl := Option.some.inj houtputs
    obtain rfl := OutputSet.mem_clear_addRange.mp hentry
    exact .inl rfl
  · rw [if_neg hdest] at houtputs
    have hne : view.id ≠ f.dest := by rwa [hview, hf.dest]
    obtain ⟨outputs', houtputs', -, hall⟩ := f.routerRoute_spec (net.vcs pkt) traffic view
      s.inChannel (decide (f.misrouteHops > net.config.missRouteThreshold)) hne
    obtain rfl := Option.some.inj (houtputs'.symm.trans houtputs)
    refine .inr ⟨hdest, ?_⟩
    rcases hall entry hentry with ⟨hport, hstart, hend⟩ | ⟨hnot, -, hend⟩
    · rw [hview] at hport hstart
      rw [NoRDFlit.escapeVC_eq _ _ (by rw [hf.ringDest]; exact ringID_ne hdest), hf.ringDest] at hstart
      exact .inl ⟨hport, hstart, hend⟩
    · refine .inr ⟨?_, hend⟩
      rw [← inEscape_iff hf hvc hsrc, ← hview, hnot]
      exact Bool.false_ne_true

theorem BypassOffers.spec (h : net.BypassOffers pkt s entry) :
    (net.vcs pkt).vcEnd - (net.vcs pkt).vcBegin + 1 > 2 ∧
      (net.LastTwo pkt s.vc ∧ entry.vcStart = s.vc ∧ entry.vcEnd = s.vc ∨
        ¬ net.LastTwo pkt s.vc ∧ (entry.vcEnd = (net.vcs pkt).vcEnd - 2 ∨
          entry.vcStart = net.classVC pkt s.router ∧ entry.vcEnd = entry.vcStart)) := by
  obtain ⟨traffic, view, f, outputs, hview, hf, -, hvc, hroute, hentry⟩ := h
  obtain ⟨-, hrange, houtputs⟩ := nordMesh_some_iff.mp hroute
  rw [hf.type, ← vcs] at hrange houtputs
  refine ⟨hrange, ?_⟩
  rw [if_pos rfl] at houtputs
  obtain rfl := Option.some.inj houtputs
  have hspec := NoRDFlit.bypassRoute_spec hentry
  rw [hvc, hview, hf.ringDest] at hspec
  exact hspec.imp_right fun ⟨hnot, hcases⟩ => ⟨hnot, hcases.imp_left And.right⟩

/-- A hop along the ring. The channel is of the class for the router it leaves, or
the one that the packet had. -/
structure RingHop (net : NoRDNet k) (pkt : NoRDPacket k) (s s' : Spot k) : Prop where
  router : s'.router = s.router.ringNext
  inChannel : s'.inChannel = some s.router.ringOutput.opp
  vc : s'.vc = net.classVC pkt s.router ∨
    net.off s.router = true ∧ net.OnEscape pkt s ∧ s'.vc = s.vc

theorem lastTwo_classVC (n : Node k) : net.LastTwo pkt (net.classVC pkt n) := by
  unfold classVC
  split
  · exact .inl rfl
  · exact .inr rfl

/-- What a hop can be. -/
theorem Moves.spec (h : net.Moves pkt s s') :
    (net.vcs pkt).vcEnd - (net.vcs pkt).vcBegin + 1 > 2 ∧ s.router ≠ pkt.dest ∧
      (¬ net.OnEscape pkt s ∧ s'.vc ≤ (net.vcs pkt).vcEnd - 2 ∨ net.RingHop pkt s s') := by
  cases h with
  | router hon hsrc hoffers hport hstart hend =>
      obtain ⟨hrange, hspec⟩ := hoffers.spec hsrc
      refine ⟨hrange, ?_⟩
      rcases hspec with heject | ⟨hne, ⟨hring, hclass, heq⟩ | ⟨hnot, hlast⟩⟩
      · rw [hport] at heject
        cases heject
      · rw [hport] at hring
        obtain rfl := OutPort.mesh.inj hring
        exact ⟨hne, .inr ⟨rfl, rfl, .inl (by dsimp only; omega)⟩⟩
      · exact ⟨hne, .inl ⟨hnot, by dsimp only; omega⟩⟩
  | bypass hoff hin hne hoffers hport hstart hend =>
      obtain ⟨hrange, hspec⟩ := hoffers.spec
      refine ⟨hrange, hne, ?_⟩
      rcases hspec with ⟨hlast, hkept, hkept'⟩ | ⟨hnot, hend' | ⟨hclass, heq⟩⟩
      · refine .inr ⟨rfl, rfl, .inr ⟨hoff, ⟨?_, hlast⟩, by dsimp only; omega⟩⟩
        rw [hin]
        exact Option.some_ne_none _
      · exact .inl ⟨fun hescape => hnot hescape.2, by dsimp only; omega⟩
      · exact .inr ⟨rfl, rfl, .inl (by dsimp only; omega)⟩

theorem RingHop.onEscape (h : net.RingHop pkt s s') : net.OnEscape pkt s' := by
  constructor
  · rw [h.inChannel]
    exact Option.some_ne_none _
  · rcases h.vc with hvc | ⟨-, hescape, hvc⟩
    · rw [hvc]
      exact lastTwo_classVC _
    · rw [hvc]
      exact hescape.2

theorem Moves.ringHop (h : net.Moves pkt s s') (hescape : net.OnEscape pkt s) :
    net.RingHop pkt s s' :=
  h.spec.2.2.resolve_left fun hnot => hnot.1 hescape

theorem Grants.ringHop (h : net.Grants pkt s s') : net.RingHop pkt s s' := by
  refine h.2.1.spec.2.2.resolve_left ?_
  rintro ⟨-, hle⟩
  rcases h.2.2 with hvc | hvc <;> omega

/-- From the first grant on a packet is on an escape channel. -/
theorem Riding.onEscape (h : net.Riding pkt s) : net.OnEscape pkt s := by
  induction h with
  | granted hgrant => exact hgrant.ringHop.onEscape
  | onward _ hmove ih => exact (hmove.ringHop ih).onEscape

theorem EscapeHop.ringHop (h : net.EscapeHop pkt s s') : net.RingHop pkt s s' := by
  rcases h with hgrant | ⟨hriding, hmove⟩
  · exact hgrant.ringHop
  · exact hmove.ringHop hriding.onEscape

theorem EscapeHop.moves (h : net.EscapeHop pkt s s') : net.Moves pkt s s' :=
  h.elim (fun hgrant => hgrant.2.1) fun hmove => hmove.2

theorem EscapeHop.riding (h : net.EscapeHop pkt s s') : net.Riding pkt s' :=
  h.elim .granted fun hmove => .onward hmove.1 hmove.2

theorem Riding.exists_hop (h : net.Riding pkt s') : ∃ s, net.EscapeHop pkt s s' := by
  cases h with
  | granted hgrant => exact ⟨_, .inl hgrant⟩
  | onward hriding hmove => exact ⟨_, .inr ⟨hriding, hmove⟩⟩

theorem classVC_eq (n : Node k) : net.classVC pkt n =
    Dateline.classAt Node.ringID ((net.vcs pkt).vcEnd - 1) ((net.vcs pkt).vcEnd - 1 + 1)
      pkt.dest n := by
  rw [classVC, Dateline.classAt, Int.sub_add_cancel]

/-- A router that is on takes a packet along the ring. -/
theorem exists_router_hop (hon : net.off s.router = false)
    (hsrc : s.inChannel = none → s.router = pkt.src) (hne : s.router ≠ pkt.dest)
    (hvc : (net.vcs pkt).vcBegin ≤ s.vc ∧ s.vc ≤ (net.vcs pkt).vcEnd)
    (hrange : (net.vcs pkt).vcEnd - (net.vcs pkt).vcBegin + 1 > 2) :
    net.Moves pkt s
      ⟨s.router.ringNext, some s.router.ringOutput.opp, net.classVC pkt s.router⟩ := by
  let view : NoRDView k := ⟨s.router, .powerOn, fun _ => .powerOn⟩
  let f : NoRDFlit k := ⟨⟨pkt.type, s.vc, pkt.dest, 0, 0⟩, pkt.src, pkt.dest.ringID, -1⟩
  have hf : f.Carries pkt := ⟨rfl, rfl, rfl, rfl⟩
  obtain ⟨outputs, hroute, hescape, -⟩ := f.routerRoute_spec (net.vcs pkt) ⟨0, fun _ => 0⟩ view
    s.inChannel (decide (f.misrouteHops > net.config.missRouteThreshold)) hne
  refine .router hon hsrc
    ⟨⟨0, fun _ => 0⟩, view, f, outputs, rfl, hf, rfl, ?_, hescape (net.classVC pkt s.router) ?_⟩
    rfl (Int.le_refl _) (Int.le_refl _)
  · exact nordMesh_some_iff.mpr ⟨if_pos (.inl hvc), hrange, (if_neg hne).trans hroute⟩
  · rw [NoRDFlit.escapeVC_eq _ _ (ringID_ne hne)]
    rfl

/-- The interface of a router that is off takes a packet along the ring. -/
theorem exists_bypass_hop (hoff : net.off s.router = true)
    (hin : s.inChannel = some s.router.ringInPort) (hne : s.router ≠ pkt.dest)
    (hrange : (net.vcs pkt).vcEnd - (net.vcs pkt).vcBegin + 1 > 2) {vc : Int}
    (hvc : net.LastTwo pkt s.vc ∧ vc = s.vc ∨
      ¬ net.LastTwo pkt s.vc ∧ vc = net.classVC pkt s.router) :
    net.Moves pkt s ⟨s.router.ringNext, some s.router.ringOutput.opp, vc⟩ := by
  let view : NoRDView k := ⟨s.router, .powerOff, fun _ => .powerOn⟩
  let f : NoRDFlit k := ⟨⟨pkt.type, -1, pkt.dest, 0, net.config.missRouteThreshold + 1⟩, pkt.src,
    pkt.dest.ringID, s.vc⟩
  have hf : f.Carries pkt := ⟨rfl, rfl, rfl, rfl⟩
  have hescape : decide (f.misrouteHops > net.config.missRouteThreshold) = true :=
    decide_eq_true (Int.lt_succ _)
  have hassert : f.assertVC (net.config.vcs f.type) true = some () :=
    if_pos (.inr ⟨rfl, show (-1 : Int) < 0 by decide⟩)
  have hoffers : ∃ entry, entry ∈ f.bypassRoute (net.vcs pkt)
      (decide (f.misrouteHops > net.config.missRouteThreshold)) s.router.ringID ∧
      entry.outputPort = .inject ∧ entry.vcStart = vc ∧ entry.vcEnd = vc := by
    rcases hvc with ⟨hlast, rfl⟩ | ⟨hnot, rfl⟩
    · exact ⟨_, NoRDFlit.bypassRoute_keeps hlast, rfl, rfl, rfl⟩
    · refine ⟨⟨.inject, net.classVC pkt s.router, net.classVC pkt s.router, 0⟩, ?_, rfl, rfl, rfl⟩
      rw [hescape]
      exact f.bypassRoute_grants (net.vcs pkt) hnot rfl
  obtain ⟨entry, hentry, hport, hstart, hend⟩ := hoffers
  exact .bypass hoff hin hne
    ⟨⟨0, fun _ => 0⟩, view, f, _, rfl, hf, rfl, rfl,
      nordMesh_some_iff.mpr ⟨hassert, hrange, rfl⟩, hentry⟩
    hport (Int.le_of_eq hstart) (Int.le_of_eq hend.symm)

section Even

variable (heven : k % 2 = 0)

include heven

theorem Riding.exists_next (h : net.Riding pkt s) (hnot : s.router ≠ pkt.dest) :
    ∃ s', net.Moves pkt s s' := by
  obtain ⟨s₀, hhop⟩ := h.exists_hop
  have hrange := hhop.moves.spec.1
  cases hoff : net.off s.router with
  | false =>
      have hsrc : s.inChannel = none → s.router = pkt.src := fun hin =>
        absurd hin h.onEscape.1
      have hvc : (net.vcs pkt).vcBegin ≤ s.vc ∧ s.vc ≤ (net.vcs pkt).vcEnd := by
        rcases h.onEscape.2 with hlast | hlast <;> omega
      exact ⟨_, exists_router_hop hoff hsrc hnot hvc hrange⟩
  | true =>
      have hin : s.inChannel = some s.router.ringInPort := by
        rw [hhop.ringHop.inChannel, hhop.ringHop.router, (s₀.router.ringLink heven).arrives]
      exact ⟨_, exists_bypass_hop hoff hin hnot hrange (.inl ⟨h.onEscape.2, rfl⟩)⟩

/-- Along the ring a packet gets nearer with every hop. -/
theorem Riding.within (h : net.Riding pkt s) {n : Nat} (hn : 0 < n)
    (hahead : Dateline.ahead Node.ringID (k * k) s.router pkt.dest ≤ n) :
    Progress.Within (net.Moves pkt) pkt.Arrived n s := by
  have hring := ring_of_even heven
  have hnearer : ∀ s s', net.Riding pkt s → ¬ pkt.Arrived s → net.Moves pkt s s' →
      Dateline.ahead Node.ringID (k * k) s'.router pkt.dest + 1 =
        Dateline.ahead Node.ringID (k * k) s.router pkt.dest := by
    intro s s' hriding hnot hmove
    rw [(hmove.ringHop hriding.onEscape).router]
    exact hring.ahead_next hnot
  apply Progress.Within.of_measure (net.Riding pkt)
    (fun s => Dateline.ahead Node.ringID (k * k) s.router pkt.dest - 1) ?_ ?_ h (by omega)
  · intro s hriding hnot
    exact hriding.exists_next heven hnot
  · intro s s' hriding hnot hmove
    have hnext := hnearer s s' hriding hnot hmove
    by_cases harrived : pkt.Arrived s'
    · exact .inl harrived
    · have hpos : 0 < Dateline.ahead Node.ringID (k * k) s'.router pkt.dest := by
        by_contra hzero
        have hreached := hring.iterate_ahead s'.router pkt.dest
        rw [Nat.eq_zero_of_not_pos hzero] at hreached
        exact harrived hreached
      exact .inr ⟨.onward hriding hmove, by omega⟩

theorem Grants.within (hk : 2 ≤ k) (h : net.Grants pkt s s') :
    Progress.Within (net.Moves pkt) pkt.Arrived (k * k - 2) s' := by
  have hring := ring_of_even heven
  have hsquare : 2 * 2 ≤ k * k := Nat.mul_le_mul hk hk
  have hlt := hring.ahead_lt s.router pkt.dest
  have hnext := hring.ahead_next h.2.1.spec.2.1
  refine Riding.within heven (.granted h) (by omega) ?_
  rw [h.ringHop.router]
  omega

/-- If router 0 is on, every packet has the class for the router it comes from. -/
theorem Riding.class_eq (hon : ∀ n : Node k, n.val = 0 → net.off n = false)
    (h : net.Riding pkt s) : ∃ prev, s.router = prev.ringNext ∧ s.vc = net.classVC pkt prev := by
  have hring := ring_of_even heven
  induction h with
  | granted hgrant =>
      refine ⟨_, hgrant.ringHop.router, hgrant.ringHop.vc.resolve_right ?_⟩
      exact fun hkept => hgrant.1 hkept.2.1
  | @onward s s' hriding hmove ih =>
      have hhop := hmove.ringHop hriding.onEscape
      refine ⟨s.router, hhop.router, ?_⟩
      rcases hhop.vc with hvc | ⟨hoff, -, hvc⟩
      · exact hvc
      · obtain ⟨prev, hprev, hclass⟩ := ih
        have hne : prev.ringNext ≠ pkt.dest := hprev ▸ hmove.spec.2.1
        rw [hvc, hclass, hprev, classVC_eq, classVC_eq]
        rcases hring.classAt_next ((net.vcs pkt).vcEnd - 1) hne with ⟨-, hsame⟩ | ⟨hlast, -⟩
        · exact hsame.symm
        · -- past the dateline the router is router 0, which is on
          have hzero : s.router.val = 0 := by
            rw [Node.val_eq_zero_iff, ← Node.ringID_eq_zero_iff, hprev]
            exact ((hring.step_cases prev).resolve_left (by omega)).2
          rw [hon _ hzero] at hoff
          cases hoff

theorem EscapeHop.class_eq (hon : ∀ n : Node k, n.val = 0 → net.off n = false)
    (h : net.EscapeHop pkt s s') : s'.vc = net.classVC pkt s.router := by
  obtain ⟨prev, hprev, hclass⟩ := h.riding.class_eq heven hon
  have hsame : prev = s.router :=
    (ring_of_even heven).next_injective (hprev.symm.trans h.ringHop.router)
  rw [hclass, hsame]

theorem EscapeDep.rank_lt (hon : ∀ n : Node k, n.val = 0 → net.off n = false)
    {c c' : Node k × Int} (h : net.EscapeDep c c') :
    Dateline.rank Node.ringID (k * k) c < Dateline.rank Node.ringID (k * k) c' := by
  obtain ⟨pkt, s, s', s'', hfirst, hsecond, rfl, rfl⟩ := h
  have hne : s.router.ringNext ≠ pkt.dest := hfirst.ringHop.router ▸ hsecond.moves.spec.2.1
  have hlt := (ring_of_even heven).rank_lt ((net.vcs pkt).vcEnd - 1) hne
  rw [← classVC_eq, ← classVC_eq] at hlt
  rw [hfirst.class_eq heven hon, hsecond.class_eq heven hon, hfirst.ringHop.router]
  exact hlt

/-- If router 0 is off, a packet crosses the dateline and keeps its class. -/
theorem exists_other_class (hk : 2 ≤ k)
    (hrange : (net.config.vcs .anyType).vcEnd - (net.config.vcs .anyType).vcBegin + 1 > 2)
    {n : Node k} (hzero : n.val = 0) (hoff : net.off n = true) :
    ∃ pkt s s', net.EscapeHop pkt s s' ∧ s'.vc ≠ net.classVC pkt s.router := by
  have hring := ring_of_even heven
  let last : Node k := Node.ofXY 0 1 (by omega) (by omega)
  let dest : Node k := Node.ofXY 1 0 (by omega) (by omega)
  let pkt : NoRDPacket k := ⟨⟨.anyType, dest⟩, last⟩
  have hvcs : (net.vcs pkt).vcEnd - (net.vcs pkt).vcBegin + 1 > 2 := hrange
  have hlast : last.ringID + 1 = k * k := Node.ringID_final hk
  have hdest : dest.ringID = 1 := by
    rw [Node.ringID_of_top (Node.ofXY_y _ _), Node.ofXY_x]
  have hnID : n.ringID = 0 := (Node.ringID_eq_zero_iff n).mpr ((Node.val_eq_zero_iff n).mp hzero)
  have hnext : last.ringNext = n := by
    apply Node.ringID_injective
    rw [hring.step, hlast, Nat.mod_self, hnID]
  have hsquare : 2 * 2 ≤ k * k := Nat.mul_le_mul hk hk
  have hnotLast : last ≠ dest := fun heq => by
    have hID := congrArg Node.ringID heq
    omega
  have hnotDest : n ≠ dest := fun heq => by
    have hID := congrArg Node.ringID heq
    omega
  -- the last router of the ring grants the class that is to cross the dateline
  have hcrossing : net.classVC pkt last = (net.vcs pkt).vcEnd := if_neg (by
    change ¬ dest.ringID > last.ringID
    omega)
  have hbefore : net.classVC pkt n = (net.vcs pkt).vcEnd - 1 := if_pos (by
    change dest.ringID > n.ringID
    omega)
  have hnot : ¬ net.LastTwo pkt (net.vcs pkt).vcBegin := by
    rintro (heq | heq) <;> omega
  have hgrant : ∃ s, net.Grants pkt s
      ⟨last.ringNext, some last.ringOutput.opp, net.classVC pkt last⟩ := by
    cases hstate : net.off last with
    | false =>
        refine ⟨⟨last, none, (net.vcs pkt).vcBegin⟩, fun hescape => hescape.1 rfl, ?_,
          lastTwo_classVC last⟩
        refine exists_router_hop hstate (fun _ => rfl) hnotLast ⟨Int.le_refl _, ?_⟩ hvcs
        change (net.vcs pkt).vcBegin ≤ _
        omega
    | true =>
        exact ⟨⟨last, some last.ringInPort, (net.vcs pkt).vcBegin⟩, fun hescape => hnot hescape.2,
          exists_bypass_hop hstate rfl hnotLast hvcs (.inr ⟨hnot, rfl⟩), lastTwo_classVC last⟩
  obtain ⟨s, hgrant⟩ := hgrant
  -- router 0 is off, and its interface keeps it
  have hkept : net.Moves pkt ⟨last.ringNext, some last.ringOutput.opp, net.classVC pkt last⟩
      ⟨last.ringNext.ringNext, some last.ringNext.ringOutput.opp, net.classVC pkt last⟩ := by
    refine exists_bypass_hop ?_ ?_ ?_ hvcs (.inl ⟨lastTwo_classVC last, rfl⟩)
    · exact hnext ▸ hoff
    · exact congrArg some (last.ringLink heven).arrives.symm
    · exact hnext ▸ hnotDest
  refine ⟨pkt, _, _, .inr ⟨.granted hgrant, hkept⟩, ?_⟩
  change net.classVC pkt last ≠ net.classVC pkt last.ringNext
  rw [hnext, hcrossing, hbefore]
  omega

end Even

/-- Three virtual channels for packets of any type, and one router of the 2 by 2 mesh off. -/
def oneOff (n : Node 2) : NoRDNet 2 where
  config := ⟨3, ⟨0, 2⟩, ⟨0, 2⟩, ⟨0, 2⟩, ⟨0, 2⟩, 2⟩
  off := fun m => m == n

theorem oneOff_vcs (n : Node 2) (type : FlitType) :
    ((oneOff n).config.vcs type).vcEnd - ((oneOff n).config.vcs type).vcBegin + 1 > 2 := by
  cases type <;> exact (by decide : (2 : Int) - 0 + 1 > 2)

end NoRDNet

end Flyover
