import Flyover.Progress.Deadlock
import Flyover.Progress.Walks
import Flyover.Routing.Dragonfly

/-!
# Minimal routes in the dragonfly

`min_dragonflynew` takes a packet to its destination in the fewest hops, and raises the
virtual channel of the packet when it goes to another group, so that packets never wait for
each other in a circle.
-/

namespace Flyover

/-! ### Packets -/

/-- Where a packet is: the router and the buffer, with `f->ph` and `f->intm`. -/
structure DragonSpot where
  router : Nat
  inPort : Nat
  vc : Int
  ph : Int
  intm : Nat

namespace DragonCall

variable {f : DragonFly}

/-- `ugal_dragonflynew` or `min_dragonflynew` -/
def route (call : DragonCall f) (adaptive : Bool) : Option DragonAnswer :=
  if adaptive then call.ugalDragonflynew else some call.minDragonflynew

/-- A call for a packet that is not being injected; `RandomInt( _network_size - 1 )` is a
node. -/
structure For (call : DragonCall f) (dest : Fin f.nodes) (s : DragonSpot) : Prop where
  id : call.id = s.router
  dest : call.dest = dest
  inChannel : call.inChannel = s.inPort
  inject : call.inject = false
  ph : call.ph = s.ph
  intm : call.intm = s.intm
  draw : call.draw < f.nodes

/-- A packet goes on from a call. -/
def Takes (call : DragonCall f) (adaptive : Bool) (s s' : DragonSpot) : Prop :=
  ∃ answer, call.route adaptive = some answer ∧ s'.router < f.size ∧
    (∃ port, answer.offer.outputPort = Int.ofNat port ∧
      f.Feeds s.router port s'.router s'.inPort) ∧
    answer.offer.vcStart ≤ s'.vc ∧ s'.vc ≤ answer.offer.vcEnd ∧
    s'.ph = answer.ph ∧ s'.intm = answer.intm

end DragonCall

namespace DragonFly

variable {f : DragonFly} {adaptive : Bool} {src dest : Fin f.nodes} {s s' : DragonSpot} {i : Nat}

/-- One hop of a packet. -/
def Hop (adaptive : Bool) (dest : Fin f.nodes) (s s' : DragonSpot) : Prop :=
  ∃ call : DragonCall f, call.For dest s ∧ call.Takes adaptive s s'

/-- A packet that has been injected at node `src`. -/
structure Source (src : Fin f.nodes) (s : DragonSpot) : Prop where
  router : s.router = src / f.gP
  inPort : s.inPort = src % f.gP

theorem gP_pos (node : Fin f.nodes) : 0 < f.gP := by
  refine Nat.pos_of_ne_zero fun hzero => ?_
  have hlt : node.val < f.gA * f.gP * f.gG := node.isLt
  rw [hzero, Nat.mul_zero, Nat.zero_mul] at hlt
  exact absurd hlt (Nat.not_lt_zero _)

theorem node_div_lt (node : Fin f.nodes) : node / f.gP < f.size := by
  refine Nat.div_lt_of_lt_mul (Nat.lt_of_lt_of_eq node.isLt ?_)
  rw [nodes, size]
  ring

theorem Source.inPort_lt (h : Source src s) : s.inPort < f.gP :=
  h.inPort ▸ Nat.mod_lt _ (gP_pos src)

/-! ### Minimal routes -/

section Minimal

variable {call : DragonCall f}

/-- The packet goes by `dragonfly_port`, and the phase is 1 behind a link between groups. -/
theorem minDragonflynew_eq (hfor : call.For dest s) : call.minDragonflynew =
    DragonCall.answer (f.port s.router dest)
      (if f.port s.router dest ≥ f.gP + ((f.gA : Int) - 1) then 1
        else if s.inPort < f.gP then 0 else s.ph) s.intm := by
  have hnever : ∀ g : Nat, ¬ (-1 : Int) = g := by
    intro g
    omega
  unfold DragonCall.minDragonflynew
  dsimp only
  rw [hfor.inject, hfor.id, hfor.dest, hfor.inChannel, hfor.ph, hfor.intm, if_neg (hnever _)]
  rfl

/-- Where a packet may be: in what buffer it is tells what is left of its way. -/
inductive Stage (f : DragonFly) (dest : Nat) (s : DragonSpot) : Prop where
  | injected : s.inPort < f.gP → Stage f dest s
  | toGate : f.gP ≤ s.inPort → s.inPort < f.gP + (2 * f.gP - 1) → s.vc = 0 → s.ph = 0 →
      f.grpRID s.router dest = s.router → Stage f dest s
  | crossed : f.gP + (2 * f.gP - 1) ≤ s.inPort → s.vc = 1 → s.ph = 1 →
      dest / f.grpNumNodes = s.router / f.gA → Stage f dest s
  | inGroup : f.gP ≤ s.inPort → s.inPort < f.gP + (2 * f.gP - 1) → s.vc = 1 → s.ph = 1 →
      dest / f.gP = s.router → Stage f dest s

/-- A minimal route after `i` hops. -/
structure OnMinimal (src dest : Fin f.nodes) (i : Nat) (s : DragonSpot) : Prop where
  router : s.router < f.size
  left : i + f.hopsFrom s.router dest = f.hopcnt src dest
  stage : Stage f dest s

theorem Source.onMinimal (h : Source src s) (dest : Fin f.nodes) : OnMinimal src dest 0 s where
  router := h.router ▸ node_div_lt src
  left := by rw [Nat.zero_add, h.router, hopcnt_eq (gP_pos src)]
  stage := .injected h.inPort_lt

/-- The next hop, with the phase that the packet gets. -/
theorem min_takes (hr : s.router < f.size) (hfor : call.For dest s) (htakes : call.Takes false s s') :
    Way f dest s.router s'.router s'.inPort ∧ s'.vc = s'.ph ∧
      s'.ph = if f.port s.router dest ≥ f.gP + ((f.gA : Int) - 1) then 1
        else if s.inPort < f.gP then 0 else s.ph := by
  obtain ⟨answer, hroute, hr', ⟨port, hport, hfeeds⟩, hge, hle, hph, -⟩ := htakes
  obtain rfl := Option.some.inj ((congrArg some (minDragonflynew_eq hfor)).symm.trans hroute)
  refine ⟨way_of_feeds (gP_pos dest) hr hr' dest.isLt hport hfeeds, ?_, hph⟩
  rw [hph]
  exact le_antisymm hle hge

theorem port_ge_of_between (hp : 0 < f.gP) (hr : s.router < f.size)
    (hne : dest / f.grpNumNodes ≠ s.router / f.gA) (hgate : f.grpRID s.router dest = s.router) :
    f.port s.router dest ≥ f.gP + ((f.gA : Int) - 1) := by
  have htwo : f.gA = 2 * f.gP := rfl
  cases portFor hp (group_lt hr) dest.isLt with
  | eject hhere _ => exact absurd (hhere ▸ (destRouter_div dest.val).symm) hne
  | inGroup _ haway _ _ _ => exact absurd hgate haway
  | between _ _ _ heq _ =>
      rw [heq]
      omega

theorem port_lt_of_inGroup (hp : 0 < f.gP) (hr : s.router < f.size)
    (haway : dest / f.gP ≠ s.router) (hgate : f.grpRID s.router dest ≠ s.router) :
    ¬ f.port s.router dest ≥ f.gP + ((f.gA : Int) - 1) := by
  have htwo : f.gA = 2 * f.gP := rfl
  cases portFor hp (group_lt hr) dest.isLt with
  | eject hhere _ => exact absurd hhere haway
  | inGroup _ _ _ heq _ =>
      rw [heq]
      omega
  | between _ hthere _ _ _ => exact absurd hthere hgate

theorem OnMinimal.hop (h : OnMinimal src dest i s) (hhop : Hop false dest s s') :
    OnMinimal src dest (i + 1) s' := by
  obtain ⟨call, hfor, htakes⟩ := hhop
  obtain ⟨hway, hvc, hph⟩ := min_takes h.router hfor htakes
  have hp := gP_pos dest
  obtain ⟨-, -, hr', -⟩ := htakes
  have hless := hway.hopsFrom_eq hp h.router dest.isLt
  refine ⟨hr', by have := h.left; omega, ?_⟩
  cases hway with
  | between hne hgate hnext hin =>
      rw [if_pos (port_ge_of_between hp h.router hne hgate)] at hph
      refine .crossed hin (hvc.trans hph) hph ?_
      rw [hnext, (arrival_div (group_lt h.router) dest.isLt hne).1]
  | inGroup haway hgate hnext hin hin' =>
      rw [if_neg (port_lt_of_inGroup hp h.router haway hgate)] at hph
      have hgroup : s'.router / f.gA = s.router / f.gA :=
        hnext ▸ grpRID_div hp (group_lt h.router) dest.isLt
      cases h.stage with
      | injected hfrom =>
          rw [if_pos hfrom] at hph
          exact .toGate hin hin' (hvc.trans hph) hph ((grpRID_congr _ hgroup).trans hnext.symm)
      | toGate _ _ _ _ hthere => exact absurd hthere hgate
      | crossed hfrom _ hone hsame =>
          rw [if_neg (by omega), hone] at hph
          rw [grpRID, if_pos hsame] at hnext
          exact .inGroup hin hin' (hvc.trans hph) hph hnext.symm
      | inGroup _ _ _ _ hthere => exact absurd hthere haway

theorem walk_onMinimal {source : DragonSpot} (hsource : Source src source)
    (hwalk : Progress.Walk (Hop false dest) source i s) : OnMinimal src dest i s :=
  hwalk.invariant (P := OnMinimal src dest) (hsource.onMinimal dest) OnMinimal.hop

/-- Away from the destination every call lets a packet go on. -/
theorem exists_min_takes (hr : s.router < f.size) (hfor : call.For dest s)
    (haway : dest / f.gP ≠ s.router) : ∃ s', call.Takes false s s' := by
  obtain ⟨port, r', port', hport, hr', -, hfeeds⟩ :=
    exists_feeds (gP_pos dest) hr dest.isLt haway
  refine ⟨⟨r', port', _, _, _⟩, _, congrArg some (minDragonflynew_eq hfor), hr',
    ⟨port, hport, hfeeds⟩, le_refl _, le_refl _, rfl, rfl⟩

end Minimal

/-- By `min_dragonflynew` a packet is at the router of its destination after
`dragonflynew_hopcnt` hops and not before, and is ejected there. -/
theorem min_takes_hopcnt {source : DragonSpot} (hsource : Source src source)
    (hwalk : Progress.Walk (Hop false dest) source i s) :
    i ≤ f.hopcnt src dest ∧ ∀ call : DragonCall f, call.For dest s →
      (i < f.hopcnt src dest → ∃ s', call.Takes false s s') ∧
      (i = f.hopcnt src dest → dest / f.gP = s.router ∧
        call.minDragonflynew.offer.outputPort = (dest % f.gP : Nat)) := by
  have htrack := walk_onMinimal hsource hwalk
  have hleft := htrack.left
  refine ⟨by omega, fun call hfor => ⟨fun hlt => ?_, fun hi => ?_⟩⟩
  · refine exists_min_takes htrack.router hfor fun hthere => ?_
    rw [hopsFrom_eq_zero_iff.mpr hthere] at hleft
    exact hlt.ne hleft
  · have hthere : dest / f.gP = s.router := hopsFrom_eq_zero_iff.mp (by omega)
    refine ⟨hthere, ?_⟩
    rw [minDragonflynew_eq hfor]
    exact if_pos ((at_router_iff (gP_pos dest)).mpr hthere)

/-- Three groups of two routers with a node each: from node 1 to node 2. -/
example : (⟨1⟩ : DragonFly).hopcnt 1 2 = 2 ∧ (⟨1⟩ : DragonFly).hopcnt 1 4 = 1 ∧
    (⟨1⟩ : DragonFly).hopcnt 4 2 = 3 := by decide

theorem one_lt : 1 < (⟨1⟩ : DragonFly).nodes := by decide

theorem two_lt : 2 < (⟨1⟩ : DragonFly).nodes := by decide

/-- A packet as it is injected at node 1, -/
def injected : DragonSpot := ⟨1, 0, 0, 0, 0⟩

/-- and when it is where its group has the link to the next. -/
def atGate : DragonSpot := ⟨0, 1, 0, 0, 0⟩

/-- The call for a packet that is not being injected, over empty buffers. -/
def callFor (dest : Fin f.nodes) (s : DragonSpot) : DragonCall f :=
  ⟨s.router, dest, s.inPort, false, s.ph, s.intm, fun _ => 0, dest⟩

theorem callFor_for (dest : Fin f.nodes) (s : DragonSpot) : (callFor dest s).For dest s :=
  ⟨rfl, rfl, rfl, rfl, rfl, rfl, dest.isLt⟩

theorem injected_source : Source (⟨1, one_lt⟩ : Fin (⟨1⟩ : DragonFly).nodes) injected := ⟨rfl, rfl⟩

theorem atGate_walk :
    Progress.Walk (Hop false (⟨2, two_lt⟩ : Fin (⟨1⟩ : DragonFly).nodes)) injected 1 atGate :=
  .step .start ⟨callFor _ _, callFor_for _ _, _, rfl, by decide, ⟨1, by decide, 2, by decide, by decide⟩,
    by decide, by decide, by decide, by decide⟩

theorem min_takes_hopcnt_gate : 1 ≤ (⟨1⟩ : DragonFly).hopcnt 1 2 ∧
    ∀ call : DragonCall ⟨1⟩, call.For ⟨2, two_lt⟩ atGate →
      (1 < (⟨1⟩ : DragonFly).hopcnt 1 2 → ∃ s', call.Takes false atGate s') ∧
      (1 = (⟨1⟩ : DragonFly).hopcnt 1 2 → 2 / 1 = 0 ∧
        call.minDragonflynew.offer.outputPort = (2 % 1 : Nat)) :=
  min_takes_hopcnt injected_source atGate_walk

/-! ### No deadlock -/

/-- A packet that waits, with the call that has been made for it. -/
structure Waiting (f : DragonFly) (adaptive : Bool) where
  dest : Fin f.nodes
  src : Fin f.nodes
  source : DragonSpot
  hops : Nat
  spot : DragonSpot
  call : DragonCall f
  injected : Source src source
  reached : Progress.Walk (Hop adaptive dest) source hops spot
  routed : call.For dest spot
  inTransit : dest / f.gP ≠ spot.router

namespace Waiting

/-- The buffer that it is in: the router, the input port and the virtual channel. -/
def holds (w : Waiting f adaptive) : Nat × Nat × Int := (w.spot.router, w.spot.inPort, w.spot.vc)

/-- The buffers that it may go on to. -/
def wants (w : Waiting f adaptive) (buffer : Nat × Nat × Int) : Prop :=
  ∃ s' : DragonSpot, w.call.Takes adaptive w.spot s' ∧ (s'.router, s'.inPort, s'.vc) = buffer

end Waiting

/-- The buffers are ranked as a packet goes through them: in its first group, behind the link
to another, and in that. -/
def rank (f : DragonFly) (inPort : Nat) (vc : Int) : Nat :=
  if inPort < f.gP then 0
  else if inPort < f.gP + (2 * f.gP - 1) then if vc = 0 then 1 else 3
  else 2

theorem rank_le (inPort : Nat) (vc : Int) : f.rank inPort vc ≤ 3 := by
  unfold rank
  split
  · exact Nat.zero_le _
  · split
    · split <;> decide
    · decide

theorem rank_lt_of_takes {call : DragonCall f} (htrack : OnMinimal src dest i s)
    (hfor : call.For dest s) (htakes : call.Takes false s s') :
    f.rank s.inPort s.vc < f.rank s'.inPort s'.vc := by
  obtain ⟨hway, hvc, hph⟩ := min_takes htrack.router hfor htakes
  have hp := gP_pos dest
  cases hway with
  | between hne hgate _ hin =>
      have hnext : f.rank s'.inPort s'.vc = 2 := (if_neg (by omega)).trans (if_neg (by omega))
      rw [hnext]
      cases htrack.stage with
      | injected hfrom => exact (if_pos hfrom).trans_lt Nat.two_pos
      | toGate hge hlt hzero _ _ =>
          rw [rank, if_neg (by omega), if_pos hlt, if_pos hzero]
          exact Nat.one_lt_two
      | crossed _ _ _ hsame => exact absurd hsame hne
      | inGroup _ _ _ _ hthere =>
          exact absurd (hthere ▸ (destRouter_div dest.val).symm) hne
  | inGroup haway hgate _ hin hin' =>
      rw [if_neg (port_lt_of_inGroup hp htrack.router haway hgate)] at hph
      have hnext : f.rank s'.inPort s'.vc = if s'.vc = 0 then 1 else 3 :=
        (if_neg (by omega)).trans (if_pos hin')
      rw [hnext]
      cases htrack.stage with
      | injected hfrom =>
          rw [rank, if_pos hfrom]
          split <;> decide
      | toGate _ _ _ _ hthere => exact absurd hthere hgate
      | crossed hfrom _ hone _ =>
          rw [if_neg (by omega), hone] at hph
          rw [hvc, hph, rank, if_neg (by omega), if_neg (by omega)]
          decide
      | inGroup _ _ _ _ hthere => exact absurd hthere haway

/-- Packets that go by `min_dragonflynew` never wait for each other in a circle. -/
theorem min_not_deadlock (S : Set (Waiting f false)) :
    ¬ Progress.Deadlock Waiting.holds Waiting.wants S := by
  have htrack : ∀ w : Waiting f false, OnMinimal w.src w.dest w.hops w.spot := fun w =>
    walk_onMinimal w.injected w.reached
  refine Progress.not_deadlock_of_rank (fun w => f.rank w.spot.inPort w.spot.vc) 3
    (fun w _ => rank_le _ _) (fun w _ => ?_)
  obtain ⟨s', htakes⟩ := exists_min_takes (htrack w).router w.routed w.inTransit
  refine ⟨_, ⟨s', htakes, rfl⟩, fun q _ hholds => ?_⟩
  obtain ⟨hin, hvc⟩ := Prod.mk.inj (Prod.mk.inj hholds).2
  rw [hin, hvc]
  exact rank_lt_of_takes (htrack w) w.routed htakes

theorem two_away : 2 / (⟨1⟩ : DragonFly).gP ≠ atGate.router := by decide

/-- The packet at the link to the next group, alone. -/
def atGateWaiting : Waiting ⟨1⟩ false where
  dest := ⟨2, two_lt⟩
  src := ⟨1, one_lt⟩
  source := injected
  hops := 1
  spot := atGate
  call := callFor ⟨2, two_lt⟩ atGate
  injected := injected_source
  reached := atGate_walk
  routed := callFor_for _ _
  inTransit := two_away

theorem min_not_deadlock_gate :
    ¬ Progress.Deadlock Waiting.holds Waiting.wants {atGateWaiting} :=
  min_not_deadlock {atGateWaiting}

end DragonFly

end Flyover
