import Flyover.NoRD.RingEscape

/-!
# `ring_dateline_mesh`

All traffic follows the ring. Below half of the virtual channels is the class of
what has not crossed the dateline, from half of them on that of what has; the
dateline is the link that leaves the last router. The two halves are computed in
two ways, which agree for an even number of virtual channels only: of an odd
number the middle one is in both.
-/

namespace Flyover

variable {k : Nat}

/-- The virtual channels of a packet that has not crossed the dateline. -/
def firstHalf (numVCs : Int) : VCRange := ⟨0, (numVCs - 1) / 2⟩

/-- The virtual channels of a packet that crosses the dateline, or has. -/
def secondHalf (numVCs : Int) : VCRange := ⟨numVCs / 2, numVCs - 1⟩

/-- The class that a virtual channel belongs to. -/
def halfOf (numVCs vc : Int) : VCRange :=
  if vc < numVCs / 2 then firstHalf numVCs else secondHalf numVCs

/-- `ring_dateline_mesh`; `r` is missing where a source picks a virtual channel. -/
def ringDatelineMesh (numVCs : Int) (ringOutput : Node k → Port) (r : Option (Node k))
    (f : NoRDFlit k) (inject : Bool) : Option OutputSet :=
  -- `assert(gNumVCs >= 2)`
  if numVCs ≥ 2 then do
    f.assertVC ⟨0, numVCs - 1⟩ inject
    if inject then
      let vcs := if f.bypassVC ≠ -1 then halfOf numVCs f.bypassVC else firstHalf numVCs
      pure (OutputSet.clear.addRange .inject vcs.vcBegin vcs.vcEnd 0)
    else
      match r with
      | none => none
      | some r =>
          if r = f.dest then pure (OutputSet.clear.addRange .eject 0 (numVCs - 1) 0)
          else
            let vcs := if r.val + 1 = k * k then secondHalf numVCs else halfOf numVCs f.vc
            pure (OutputSet.clear.addRange (.mesh (ringOutput r)) vcs.vcBegin vcs.vcEnd 0)
  else none

/-- A ring through all routers, numbered so that the dateline comes last. Bottom
row routers are always on. -/
structure DatelineNet (k : Nat) where
  numVCs : Int
  two_le_numVCs : 2 ≤ numVCs
  ringOutput : Node k → Port
  ringNext : Node k → Node k
  ringNumber : Node k → Nat
  ring : Dateline.Ring ringNext ringNumber (k * k)
  dateline : ∀ n : Node k, n.val + 1 = k * k → ringNumber n + 1 = k * k
  off : Node k → Bool
  on_of_bottomRow : ∀ n, Router.bottomRow n = true → off n = false

/-- Where a packet is, and whether it came there over the ring. -/
structure RingSpot (k : Nat) where
  router : Node k
  onRing : Bool
  vc : Int

/-- The packet is at its destination. -/
def NoRDPacket.AtDest (pkt : NoRDPacket k) (s : RingSpot k) : Prop := s.router = pkt.dest

namespace DatelineNet

variable (net : DatelineNet k) (pkt : NoRDPacket k)

/-- The source offers this entry. -/
def SourceOffers (entry : OutputEntry) : Prop :=
  ∃ f outputs, f.Carries pkt ∧ f.vc = -1 ∧ f.bypassVC = -1 ∧
    ringDatelineMesh net.numVCs net.ringOutput none f true = some outputs ∧ entry ∈ outputs

/-- A router that is on offers this entry. -/
def RouterOffers (s : RingSpot k) (entry : OutputEntry) : Prop :=
  ∃ f outputs, f.Carries pkt ∧ f.vc = s.vc ∧
    ringDatelineMesh net.numVCs net.ringOutput (some s.router) f false = some outputs ∧
    entry ∈ outputs

/-- The interface of a router that is off offers this entry. -/
def BypassOffers (s : RingSpot k) (entry : OutputEntry) : Prop :=
  ∃ f outputs, f.Carries pkt ∧ f.vc = -1 ∧ f.bypassVC = s.vc ∧
    ringDatelineMesh net.numVCs net.ringOutput (some s.router) f true = some outputs ∧
    entry ∈ outputs

/-- An entry for the next hop. A router that is off passes on what came in over the
ring and is not for it. -/
inductive Offers (s : RingSpot k) (entry : OutputEntry) : Prop
  | router {p : Port} : net.off s.router = false → net.RouterOffers pkt s entry →
      entry.outputPort = .mesh p → Offers s entry
  | bypass : net.off s.router = true → s.onRing = true → s.router ≠ pkt.dest →
      net.BypassOffers pkt s entry → entry.outputPort = .inject → Offers s entry

/-- One hop, on any virtual channel of an entry. -/
inductive Moves : RingSpot k → RingSpot k → Prop
  | hop {s : RingSpot k} {entry : OutputEntry} {vc : Int} : net.Offers pkt s entry →
      entry.vcStart ≤ vc → vc ≤ entry.vcEnd → Moves s ⟨net.ringNext s.router, true, vc⟩

/-- Where a packet enters the network. A source is a router that is on. -/
structure Enters (s : RingSpot k) : Prop where
  src : s.router = pkt.src
  on : net.off s.router = false
  notOnRing : s.onRing = false
  granted : ∃ entry, net.SourceOffers pkt entry ∧ entry.vcStart ≤ s.vc ∧ s.vc ≤ entry.vcEnd

/-- Where a packet can be, before it has crossed the dateline and after that. -/
inductive Reaches : Bool → RingSpot k → Prop
  | enters {s : RingSpot k} : net.Enters pkt s → Reaches false s
  | onward {crossed : Bool} {s s' : RingSpot k} : Reaches crossed s → net.Moves pkt s s' →
      Reaches (crossed || decide (s.router.val + 1 = k * k)) s'

/-- A range of virtual channels is offered to a packet for a link before the
dateline, or for the dateline and after. -/
def RangeOffered (crossing : Bool) (entry : OutputEntry) : Prop :=
  ∃ pkt crossed s, net.Reaches pkt crossed s ∧ net.Offers pkt s entry ∧
    crossing = (crossed || decide (s.router.val + 1 = k * k))

/-- A channel of the ring, by the router it leaves, is requested by a packet that
holds another. -/
def RingDep (c c' : Node k × Int) : Prop :=
  ∃ pkt crossed s s' s'', net.Reaches pkt crossed s ∧ net.Moves pkt s s' ∧
    net.Moves pkt s' s'' ∧ c = (s.router, s'.vc) ∧ c' = (s'.router, s''.vc)

/-- What routing on the ring is to achieve. -/
structure RingDelivers : Prop where
  follows : ∀ pkt s entry p, net.RouterOffers pkt s entry → entry.outputPort = .mesh p →
    p = net.ringOutput s.router
  arrives : ∀ pkt s, net.Enters pkt s →
    Progress.Within (net.Moves pkt) pkt.AtDest (k * k - 1) s
  disjoint : ∀ before after, net.RangeOffered false before → net.RangeOffered true after →
    ∀ vc, before.vcStart ≤ vc → vc ≤ before.vcEnd → ¬ (after.vcStart ≤ vc ∧ vc ≤ after.vcEnd)
  upper : ∀ pkt s, net.Reaches pkt true s → net.numVCs / 2 ≤ s.vc
  acyclic : Progress.Acyclic net.RingDep

variable {net pkt} {s s' : RingSpot k} {entry : OutputEntry} {crossed : Bool}

/-- The range for the next hop. -/
def range (net : DatelineNet k) (s : RingSpot k) : VCRange :=
  if s.router.val + 1 = k * k then secondHalf net.numVCs else halfOf net.numVCs s.vc

theorem halfOf_bounds {numVCs : Int} (hvcs : 2 ≤ numVCs) (vc : Int) :
    0 ≤ (halfOf numVCs vc).vcBegin ∧ (halfOf numVCs vc).vcBegin ≤ (halfOf numVCs vc).vcEnd ∧
      (halfOf numVCs vc).vcEnd ≤ numVCs - 1 := by
  unfold halfOf firstHalf secondHalf
  split <;> dsimp only <;> omega

theorem range_bounds (net : DatelineNet k) (s : RingSpot k) :
    0 ≤ (net.range s).vcBegin ∧ (net.range s).vcBegin ≤ (net.range s).vcEnd ∧
      (net.range s).vcEnd ≤ net.numVCs - 1 := by
  have hvcs := net.two_le_numVCs
  unfold range
  split
  · unfold secondHalf
    dsimp only
    omega
  · exact halfOf_bounds hvcs s.vc

theorem not_off_last (hlast : s.router.val + 1 = k * k) : net.off s.router = false := by
  apply net.on_of_bottomRow
  have hk : 0 < k := Node.pos s.router
  rw [Router.bottomRow, decide_eq_true_eq]
  omega

theorem SourceOffers.spec (h : net.SourceOffers pkt entry) :
    entry.vcStart = 0 ∧ entry.vcEnd = (net.numVCs - 1) / 2 := by
  obtain ⟨f, outputs, -, hvc, hbypass, hroute, hentry⟩ := h
  have hassert : f.assertVC ⟨0, net.numVCs - 1⟩ true = some () :=
    if_pos (.inr ⟨rfl, by rw [hvc]; decide⟩)
  rw [ringDatelineMesh, if_pos net.two_le_numVCs, hassert, hbypass] at hroute
  obtain rfl := Option.some.inj hroute
  obtain rfl := OutputSet.mem_clear_addRange.mp hentry
  exact ⟨rfl, rfl⟩

theorem exists_sourceOffers (net : DatelineNet k) (pkt : NoRDPacket k) :
    net.SourceOffers pkt ⟨.inject, 0, (net.numVCs - 1) / 2, 0⟩ := by
  let f : NoRDFlit k := ⟨⟨pkt.type, -1, pkt.dest, 0, 0⟩, pkt.src, pkt.dest.ringID, -1⟩
  have hassert : f.assertVC ⟨0, net.numVCs - 1⟩ true = some () :=
    if_pos (.inr ⟨rfl, show (-1 : Int) < 0 by decide⟩)
  refine ⟨f, _, ⟨rfl, rfl, rfl, rfl⟩, rfl, rfl, ?_, OutputSet.mem_clear_addRange.mpr rfl⟩
  rw [ringDatelineMesh, if_pos net.two_le_numVCs, hassert]
  rfl

theorem RouterOffers.spec (h : net.RouterOffers pkt s entry) :
    s.router = pkt.dest ∧ entry.outputPort = .eject ∨
      s.router ≠ pkt.dest ∧ entry.outputPort = .mesh (net.ringOutput s.router) ∧
        entry.vcStart = (net.range s).vcBegin ∧ entry.vcEnd = (net.range s).vcEnd := by
  obtain ⟨f, outputs, hf, hvc, hroute, hentry⟩ := h
  rw [ringDatelineMesh, if_pos net.two_le_numVCs] at hroute
  cases hassert : f.assertVC ⟨0, net.numVCs - 1⟩ false with
  | none => simp [hassert] at hroute
  | some _ =>
      simp only [hassert, Option.bind_eq_bind, Option.bind_some, Bool.false_eq_true, if_false,
        hf.dest, hvc] at hroute
      by_cases hdest : s.router = pkt.dest
      · rw [if_pos hdest] at hroute
        obtain rfl := Option.some.inj hroute
        obtain rfl := OutputSet.mem_clear_addRange.mp hentry
        exact .inl ⟨hdest, rfl⟩
      · rw [if_neg hdest] at hroute
        obtain rfl := Option.some.inj hroute
        obtain rfl := OutputSet.mem_clear_addRange.mp hentry
        exact .inr ⟨hdest, rfl, rfl, rfl⟩

theorem BypassOffers.spec (h : net.BypassOffers pkt s entry) (hvc : 0 ≤ s.vc) :
    entry.vcStart = (halfOf net.numVCs s.vc).vcBegin ∧
      entry.vcEnd = (halfOf net.numVCs s.vc).vcEnd := by
  obtain ⟨f, outputs, -, hfvc, hbypass, hroute, hentry⟩ := h
  have hassert : f.assertVC ⟨0, net.numVCs - 1⟩ true = some () :=
    if_pos (.inr ⟨rfl, by rw [hfvc]; decide⟩)
  have hset : s.vc ≠ -1 := by omega
  simp only [ringDatelineMesh, if_pos net.two_le_numVCs, hassert, Option.bind_eq_bind,
    Option.bind_some, if_true, hbypass, hset, ne_eq, not_false_eq_true] at hroute
  obtain rfl := Option.some.inj hroute
  obtain rfl := OutputSet.mem_clear_addRange.mp hentry
  exact ⟨rfl, rfl⟩

theorem Offers.spec (h : net.Offers pkt s entry) (hvc : 0 ≤ s.vc) :
    s.router ≠ pkt.dest ∧ entry.vcStart = (net.range s).vcBegin ∧
      entry.vcEnd = (net.range s).vcEnd := by
  cases h with
  | router _ hoffers hport =>
      rcases hoffers.spec with ⟨-, heject⟩ | ⟨hne, -, hrange⟩
      · rw [hport] at heject
        cases heject
      · exact ⟨hne, hrange⟩
  | bypass hoff _ hne hoffers _ =>
      have hnot : ¬ s.router.val + 1 = k * k := fun hlast => by
        rw [not_off_last hlast] at hoff
        cases hoff
      rw [range, if_neg hnot]
      exact ⟨hne, hoffers.spec hvc⟩

/-- Away from its destination a packet is offered the next hop. -/
theorem exists_offers (hne : s.router ≠ pkt.dest) (hvc : 0 ≤ s.vc ∧ s.vc ≤ net.numVCs - 1)
    (hring : net.off s.router = true → s.onRing = true) :
    ∃ entry, net.Offers pkt s entry ∧ entry.vcStart = (net.range s).vcBegin ∧
      entry.vcEnd = (net.range s).vcEnd := by
  cases hoff : net.off s.router with
  | false =>
      let f : NoRDFlit k := ⟨⟨pkt.type, s.vc, pkt.dest, 0, 0⟩, pkt.src, pkt.dest.ringID, -1⟩
      have hassert : f.assertVC ⟨0, net.numVCs - 1⟩ false = some () := if_pos (.inl hvc)
      refine ⟨⟨.mesh (net.ringOutput s.router), (net.range s).vcBegin, (net.range s).vcEnd, 0⟩,
        .router hoff ⟨f, _, ⟨rfl, rfl, rfl, rfl⟩, rfl, ?_, OutputSet.mem_clear_addRange.mpr rfl⟩ rfl,
        rfl, rfl⟩
      simp only [ringDatelineMesh, if_pos net.two_le_numVCs, hassert, Option.bind_eq_bind,
        Option.bind_some, Bool.false_eq_true, if_false]
      rw [if_neg hne]
      rfl
  | true =>
      let f : NoRDFlit k := ⟨⟨pkt.type, -1, pkt.dest, 0, 0⟩, pkt.src, pkt.dest.ringID, s.vc⟩
      have hassert : f.assertVC ⟨0, net.numVCs - 1⟩ true = some () :=
        if_pos (.inr ⟨rfl, show (-1 : Int) < 0 by decide⟩)
      have hset : s.vc ≠ -1 := by omega
      have hnot : ¬ s.router.val + 1 = k * k := fun hlast => by
        rw [not_off_last hlast] at hoff
        cases hoff
      refine ⟨⟨.inject, (net.range s).vcBegin, (net.range s).vcEnd, 0⟩,
        .bypass hoff (hring hoff) hne
          ⟨f, _, ⟨rfl, rfl, rfl, rfl⟩, rfl, rfl, ?_, OutputSet.mem_clear_addRange.mpr rfl⟩ rfl,
        rfl, rfl⟩
      rw [range, if_neg hnot]
      simp only [ringDatelineMesh, if_pos net.two_le_numVCs, hassert, Option.bind_eq_bind,
        Option.bind_some, if_true, hset, ne_eq, not_false_eq_true, f]
      rfl

theorem Reaches.vc_bounds (h : net.Reaches pkt crossed s) :
    0 ≤ s.vc ∧ s.vc ≤ net.numVCs - 1 := by
  induction h with
  | enters henters =>
      obtain ⟨entry, hoffers, hstart, hend⟩ := henters.granted
      have hvcs := net.two_le_numVCs
      have hspec := hoffers.spec
      omega
  | @onward crossed s s' _ hmove ih =>
      obtain ⟨hoffers, hstart, hend⟩ := hmove
      have hspec := (hoffers.spec ih.1).2
      have hrange := net.range_bounds s
      dsimp only
      omega

/-- What a hop of a packet on its way can be. -/
theorem Moves.spec (h : net.Moves pkt s s') (hvc : 0 ≤ s.vc) :
    s.router ≠ pkt.dest ∧ s'.router = net.ringNext s.router ∧ s'.onRing = true ∧
      (net.range s).vcBegin ≤ s'.vc ∧ s'.vc ≤ (net.range s).vcEnd := by
  obtain ⟨hoffers, hstart, hend⟩ := h
  obtain ⟨hne, hbegin, hlast⟩ := hoffers.spec hvc
  exact ⟨hne, rfl, rfl, hbegin ▸ hstart, hlast ▸ hend⟩

theorem Reaches.onRing (h : net.Reaches pkt crossed s) (hoff : net.off s.router = true) :
    s.onRing = true := by
  cases h with
  | enters henters =>
      rw [henters.on] at hoff
      cases hoff
  | onward hreach hmove => exact (hmove.spec hreach.vc_bounds.1).2.2.1

/-- A packet that has crossed the dateline stays in the second half. -/
theorem Reaches.upper (h : net.Reaches pkt crossed s) (hcrossed : crossed = true) :
    net.numVCs / 2 ≤ s.vc := by
  induction h with
  | enters _ => cases hcrossed
  | @onward crossed s s' hreach hmove ih =>
      obtain ⟨-, -, -, hbegin, -⟩ := hmove.spec hreach.vc_bounds.1
      refine Int.le_trans (Int.le_of_eq ?_) hbegin
      rw [range]
      split
      next => rfl
      next hnot =>
        have hbefore : crossed = true := by simpa [hnot] using hcrossed
        rw [halfOf, if_neg (Int.not_lt.mpr (ih hbefore))]
        rfl

/-- The last router has the last number. -/
theorem dateline_iff (net : DatelineNet k) (n : Node k) :
    n.val + 1 = k * k ↔ net.ringNumber n + 1 = k * k := by
  refine ⟨net.dateline n, fun hnumber => ?_⟩
  have hpos := net.ring.size_pos n
  let last : Node k := ⟨k * k - 1, by omega⟩
  have hlast : last.val + 1 = k * k := Nat.sub_add_cancel hpos
  have hsame : n = last := net.ring.injective (by
    have hnumber' := net.dateline last hlast
    omega)
  rw [hsame, hlast]

/-- Past the dateline a packet is not beyond its destination. -/
theorem Reaches.not_beyond (h : net.Reaches pkt crossed s) (hcrossed : crossed = true) :
    net.ringNumber s.router ≤ net.ringNumber pkt.dest := by
  induction h with
  | enters _ => cases hcrossed
  | @onward crossed s s' hreach hmove ih =>
      obtain ⟨hne, hnext, -⟩ := hmove.spec hreach.vc_bounds.1
      rw [hnext]
      rcases net.ring.step_cases s.router with ⟨hlt, hstep⟩ | ⟨-, hzero⟩
      · have hnot : ¬ s.router.val + 1 = k * k := fun hlast => by
          have hnumber := net.dateline _ hlast
          omega
        have hbefore := ih (by simpa [hnot] using hcrossed)
        have hother : net.ringNumber s.router ≠ net.ringNumber pkt.dest :=
          fun heq => hne (net.ring.injective heq)
        omega
      · omega

/-- Every packet follows the ring to its destination. -/
theorem Reaches.within (h : net.Reaches pkt crossed s) {n : Nat}
    (hahead : Dateline.ahead net.ringNumber (k * k) s.router pkt.dest ≤ n) :
    Progress.Within (net.Moves pkt) pkt.AtDest n s := by
  apply Progress.Within.of_countdown (fun s => ∃ crossed, net.Reaches pkt crossed s)
    (fun s => Dateline.ahead net.ringNumber (k * k) s.router pkt.dest) ?_ ?_ ?_ ⟨_, h⟩ hahead
  · rintro s ⟨crossed, hreach⟩ hnot
    have hvc := hreach.vc_bounds
    obtain ⟨entry, hoffers, hstart, hend⟩ := exists_offers hnot hvc hreach.onRing
    have hrange := net.range_bounds s
    exact ⟨_, .hop hoffers (Int.le_refl _) (by omega)⟩
  · rintro s s' ⟨crossed, hreach⟩ hnot hmove
    refine ⟨⟨_, .onward hreach hmove⟩, ?_⟩
    rw [(hmove.spec hreach.vc_bounds.1).2.1]
    exact net.ring.ahead_next hnot
  · rintro s ⟨crossed, hreach⟩ hzero
    exact net.ring.eq_of_ahead_eq_zero hzero

/-- The position of a channel: the first half along the ring, the second half of the
dateline, and the second half along the ring again. -/
def ringRank (net : DatelineNet k) (c : Node k × Int) : Nat :=
  if c.2 < net.numVCs / 2 ∨ c.1.val + 1 = k * k then net.ringNumber c.1
  else k * k + net.ringNumber c.1

section Even

variable (heven : net.numVCs % 2 = 0)

include heven

/-- A packet that has not crossed the dateline stays in the first half. -/
theorem Reaches.lower (h : net.Reaches pkt crossed s) (hnot : crossed = false) :
    s.vc < net.numVCs / 2 := by
  induction h with
  | enters henters =>
      obtain ⟨entry, hoffers, -, hend⟩ := henters.granted
      have hspec := hoffers.spec
      omega
  | @onward crossed s s' hreach hmove ih =>
      rw [Bool.or_eq_false_iff, decide_eq_false_iff_not] at hnot
      obtain ⟨-, -, -, -, hend⟩ := hmove.spec hreach.vc_bounds.1
      rw [range, if_neg hnot.2, halfOf, if_pos (ih hnot.1), firstHalf] at hend
      dsimp only at hend
      omega

theorem Reaches.lower_iff (h : net.Reaches pkt crossed s) :
    s.vc < net.numVCs / 2 ↔ crossed = false := by
  refine ⟨fun hlt => ?_, h.lower heven⟩
  by_contra hcrossed
  have hle := h.upper (by simpa using hcrossed)
  omega

theorem RingDep.rank_lt {c c' : Node k × Int} (h : net.RingDep c c') :
    net.ringRank c < net.ringRank c' := by
  obtain ⟨pkt, crossed, s, s', s'', hreach, hfirst, hsecond, rfl, rfl⟩ := h
  have hreach' := hreach.onward hfirst
  have hreach'' := hreach'.onward hsecond
  have hlow := hreach'.lower_iff heven
  have hlow' := hreach''.lower_iff heven
  obtain ⟨-, hnext, -⟩ := hfirst.spec hreach.vc_bounds.1
  have hne := (hsecond.spec hreach'.vc_bounds.1).1
  have hstep := net.ring.step_cases s.router
  have hlast := net.dateline_iff s.router
  have hlast' := net.dateline_iff s'.router
  have hlt := net.ring.lt s.router
  rw [← hnext] at hstep
  unfold ringRank
  simp only [hlow, hlow', Bool.or_eq_false_iff, decide_eq_false_iff_not]
  by_cases hcrossed : (crossed || decide (s.router.val + 1 = k * k)) = true
  · -- past the dateline the next router is before the destination, so it is not the last
    have hbeyond := hreach'.not_beyond hcrossed
    have hother : net.ringNumber s'.router ≠ net.ringNumber pkt.dest :=
      fun heq => hne (net.ring.injective heq)
    have hdest := net.ring.lt pkt.dest
    have hnot : ¬ s'.router.val + 1 = k * k := by omega
    rw [Bool.or_eq_true, decide_eq_true_eq] at hcrossed
    have hsecondHalf : ¬ ((crossed = false ∧ ¬ s.router.val + 1 = k * k) ∧
        ¬ s'.router.val + 1 = k * k ∨ s'.router.val + 1 = k * k) := by
      rintro (⟨⟨hfalse, hfar⟩, -⟩ | hend)
      · exact hcrossed.elim (fun htrue => by simp [hfalse] at htrue) hfar
      · exact hnot hend
    rw [if_neg hsecondHalf]
    split <;> omega
  · rw [Bool.or_eq_true, decide_eq_true_eq, not_or] at hcrossed
    have hfalse : crossed = false := by simpa using hcrossed.1
    have hfirstHalf : (crossed = false ∧ ¬ s.router.val + 1 = k * k) ∨
        s.router.val + 1 = k * k := .inl ⟨hfalse, hcrossed.2⟩
    rw [if_pos hfirstHalf, if_pos]
    · omega
    · by_cases hend : s'.router.val + 1 = k * k
      · exact .inr hend
      · exact .inl ⟨⟨hfalse, hcrossed.2⟩, hend⟩

theorem disjoint_of_even {before after : OutputEntry} (hbefore : net.RangeOffered false before)
    (hafter : net.RangeOffered true after) (vc : Int) (hstart : before.vcStart ≤ vc)
    (hend : vc ≤ before.vcEnd) : ¬ (after.vcStart ≤ vc ∧ vc ≤ after.vcEnd) := by
  rintro ⟨hstart', hend'⟩
  obtain ⟨pkt, crossed, s, hreach, hoffers, hnot⟩ := hbefore
  obtain ⟨pkt', crossed', s', hreach', hoffers', hcrossing⟩ := hafter
  have hlow := (hreach.onward (.hop hoffers hstart hend)).lower heven hnot.symm
  have hhigh := (hreach'.onward (.hop hoffers' hstart' hend')).upper hcrossing.symm
  dsimp only at hlow hhigh
  omega

end Even

/-- Of an odd number of virtual channels the middle one is offered before and after
the dateline. -/
theorem overlap_of_odd (net : DatelineNet k) (hk : 2 ≤ k) (hodd : ¬ net.numVCs % 2 = 0) :
    ∃ before after, net.RangeOffered false before ∧ net.RangeOffered true after ∧
      ∃ vc, (before.vcStart ≤ vc ∧ vc ≤ before.vcEnd) ∧ after.vcStart ≤ vc ∧ vc ≤ after.vcEnd := by
  have hsquare : k * 2 ≤ k * k := Nat.mul_le_mul_left k hk
  have hvcs := net.two_le_numVCs
  let last : Node k := ⟨k * k - 1, by omega⟩
  let other : Node k := ⟨k * k - 2, by omega⟩
  have hlast : last.val + 1 = k * k := by
    change k * k - 1 + 1 = k * k
    omega
  have hother : ¬ other.val + 1 = k * k := by
    change ¬ k * k - 2 + 1 = k * k
    omega
  have hdistinct : last ≠ other := fun heq => hother (heq ▸ hlast)
  have hon : net.off other = false := by
    apply net.on_of_bottomRow
    rw [Router.bottomRow, decide_eq_true_eq]
    change k * k - k ≤ k * k - 2
    omega
  have hon' : net.off last = false := not_off_last (s := ⟨last, false, 0⟩) hlast
  have henters : ∀ src dest : Node k, net.off src = false →
      net.Enters ⟨⟨.anyType, dest⟩, src⟩ ⟨src, false, 0⟩ := fun src dest hsrc =>
    ⟨rfl, hsrc, rfl, _, exists_sourceOffers net _, Int.le_refl _, by dsimp only; omega⟩
  have hoffers : ∀ src dest : Node k, net.off src = false → src ≠ dest →
      ∃ entry, net.Offers ⟨⟨.anyType, dest⟩, src⟩ ⟨src, false, 0⟩ entry ∧
        entry.vcStart = (net.range ⟨src, false, 0⟩).vcBegin ∧
        entry.vcEnd = (net.range ⟨src, false, 0⟩).vcEnd := by
    intro src dest hsrc hne
    refine exists_offers hne ⟨Int.le_refl _, ?_⟩ fun hoff => ?_
    · dsimp only
      omega
    · rw [hsrc] at hoff
      cases hoff
  obtain ⟨before, hbefore, hstart, hend⟩ := hoffers other last hon hdistinct.symm
  obtain ⟨after, hafter, hstart', hend'⟩ := hoffers last other hon' hdistinct
  refine ⟨before, after,
    ⟨_, _, _, .enters (henters other last hon), hbefore, by simp [hother]⟩,
    ⟨_, _, _, .enters (henters last other hon'), hafter, by simp [hlast]⟩,
    net.numVCs / 2, ?_, ?_⟩
  · have hlow : (0 : Int) < net.numVCs / 2 := by omega
    rw [hstart, hend, range, if_neg hother, halfOf, if_pos hlow, firstHalf]
    dsimp only
    omega
  · rw [hstart', hend', range, if_pos hlast, secondHalf]
    dsimp only
    omega

/-- A packet on a mesh of one router is where it is to go. -/
theorem no_moves (hk : k < 2) : ¬ net.Moves pkt s s' := by
  rintro ⟨hoffers, -, -⟩
  have hone : s.router = pkt.dest := by
    have hsquare : k * k ≤ 1 * 1 := Nat.mul_le_mul (by omega) (by omega)
    exact Fin.ext (by omega)
  cases hoffers with
  | router _ hoffers hport =>
      rcases hoffers.spec with ⟨-, heject⟩ | ⟨hne, -⟩
      · rw [hport] at heject
        cases heject
      · exact hne hone
  | bypass _ _ hne _ _ => exact hne hone

/-- Routing on the ring does what it is to exactly for an even number of virtual
channels, except on a mesh of one router, where there is nothing to do. -/
theorem ringDelivers_iff (net : DatelineNet k) :
    net.RingDelivers ↔ k < 2 ∨ net.numVCs % 2 = 0 := by
  constructor
  · intro hdelivers
    by_contra hnot
    rw [not_or] at hnot
    obtain ⟨before, after, hbefore, hafter, vc, hvc, hvc'⟩ :=
      overlap_of_odd net (by omega) hnot.2
    exact hdelivers.disjoint before after hbefore hafter vc hvc.1 hvc.2 hvc'
  · intro hcond
    have hclasses : (∀ before after, net.RangeOffered false before → net.RangeOffered true after →
        ∀ vc, before.vcStart ≤ vc → vc ≤ before.vcEnd →
          ¬ (after.vcStart ≤ vc ∧ vc ≤ after.vcEnd)) ∧ Progress.Acyclic net.RingDep := by
      rcases hcond with hk | heven
      · constructor
        · rintro before after ⟨pkt, crossed, s, hreach, hoffers, -⟩ - vc hstart hend
          exact absurd (.hop hoffers hstart hend) (no_moves hk)
        · apply Progress.acyclic_of_rank net.ringRank
          rintro c c' ⟨pkt, crossed, s, s', s'', -, hmove, -⟩
          exact absurd hmove (no_moves hk)
      · exact ⟨fun before after hbefore hafter => disjoint_of_even heven hbefore hafter,
          Progress.acyclic_of_rank net.ringRank fun c c' hdep => hdep.rank_lt heven⟩
    constructor
    case follows =>
      intro pkt s entry p hoffers hport
      rcases hoffers.spec with ⟨-, heject⟩ | ⟨-, hring, -⟩
      · rw [hport] at heject
        cases heject
      · rw [hport] at hring
        exact OutPort.mesh.inj hring
    case arrives =>
      intro pkt s henters
      have hlt := net.ring.ahead_lt s.router pkt.dest
      exact (Reaches.enters henters).within (by omega)
    case disjoint => exact hclasses.1
    case upper => exact fun pkt s hreach => hreach.upper rfl
    case acyclic => exact hclasses.2

/-- The ring of the NoRD routers, all of them on, with the dateline behind the last router. -/
def ofNoRD (heven : k % 2 = 0) (numVCs : Int) (hvcs : 2 ≤ numVCs) (last : Node k)
    (hlast : last.val + 1 = k * k) : DatelineNet k where
  numVCs := numVCs
  two_le_numVCs := hvcs
  ringOutput := Node.ringOutput
  ringNext := Node.ringNext
  ringNumber := Dateline.ahead Node.ringID (k * k) last.ringNext
  ring := (ring_of_even heven).startingAt last.ringNext
  dateline n hn := by
    obtain rfl : n = last := Fin.ext (by omega)
    have hring := (ring_of_even heven).startingAt n.ringNext
    rcases hring.step_cases n with ⟨-, hstep⟩ | ⟨hsize, -⟩
    · rw [(ring_of_even heven).ahead_self] at hstep
      cases hstep
    · exact hsize
  off _ := false
  on_of_bottomRow _ _ := rfl

/-- With three virtual channels the middle one is in both classes. -/
theorem not_ringDelivers_three :
    ¬ (ofNoRD (k := 2) (by decide) 3 (by decide) 3 (by decide)).RingDelivers := by
  intro hdelivers
  obtain ⟨before, after, hbefore, hafter, vc, hvc, hvc'⟩ :=
    overlap_of_odd (ofNoRD (k := 2) (by decide) 3 (by decide) 3 (by decide)) (by decide)
      (show ¬ (3 : Int) % 2 = 0 by decide)
  exact hdelivers.disjoint before after hbefore hafter vc hvc.1 hvc.2 hvc'

end DatelineNet

end Flyover
