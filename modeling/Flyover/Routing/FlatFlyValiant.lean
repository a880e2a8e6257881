import Flyover.Routing.FlatFlyOrders

/-!
# The flattened butterfly by way of any node

`valiant_flatfly` draws a node at the first router, sends the packet to the router of that
node in the lower half of the virtual channels, and from there to its destination in the upper
half. A packet that comes by its destination on the first way is ejected there. An odd number
of virtual channels has one that is offered on both ways; the first and the last one are
offered on one way only.
-/

namespace Flyover

open Flyover.Cube

/-- What a call of `valiant_flatfly` reads; `draw` is what `RandomInt` returns. -/
structure ValiantCall (f : FlatFly) where
  config : RoutingConfig
  id : Nat
  type : FlitType
  vc : Int
  dest : Fin f.gNodes
  inChannel : Nat
  inject : Bool
  ph : Int
  intm : Fin f.gNodes
  draw : Fin f.gNodes

/-- Where a packet is, and what its flits carry. -/
structure ValiantSpot (f : FlatFly) where
  spot : FlatFlySpot
  ph : Int
  intm : Fin f.gNodes

namespace ValiantCall

variable {f : FlatFly} (call : ValiantCall f)

/-- `f->ph` and `f->intm` after the draw for a packet of a client. -/
def drawn : Int × Fin f.gNodes :=
  if call.inChannel < f.gC then (0, call.draw) else (call.ph, call.intm)

/-- `f->ph` after the call -/
def nextPh : Int :=
  if f.transformation call.drawn.2 / f.gC = call.id ∨ f.transformation call.dest / f.gC = call.id
  then 1 else call.drawn.1

/-- The node that `flatfly_outport` is called for. -/
def goal : Fin f.gNodes := if call.nextPh = 0 then call.drawn.2 else call.dest

/-- `valiant_flatfly`: the offers, and `f->ph` and `f->intm` after the call. -/
def valiantFlatfly : Option (List Offer × Int × Fin f.gNodes) :=
  let vcs := call.config.vcs call.type
  if (vcs.vcBegin ≤ call.vc ∧ call.vc ≤ vcs.vcEnd) ∨ (call.inject = true ∧ call.vc < 0) then
    if call.inject then some (vcs.offer (-1), call.ph, call.intm)
    else if call.nextPh = 0 ∨ call.nextPh = 1 then do
      let port ← f.outport (f.transformation call.goal) call.id
      let range ← (if f.transformation call.dest / f.gC ≠ call.id then
        vcs.half (decide (call.nextPh = 0)) else some vcs)
      some (range.offer (Int.ofNat port), call.nextPh, call.drawn.2)
    else none
  else none

/-- A call for a packet that is not being injected. The channels of the clients are the first
input channels. -/
structure For (pkt : FlatFlyPacket f) (s : ValiantSpot f) : Prop where
  config : call.config = pkt.config
  id : call.id = s.spot.router
  type : call.type = pkt.type
  vc : call.vc = s.spot.vc
  dest : call.dest = pkt.dest
  inChannel : call.inChannel < f.gC ↔ s.spot.input.1 = false
  inject : call.inject = false
  ph : call.ph = s.ph
  intm : call.intm = s.intm

/-- A packet goes on: over an offered port, into an offered virtual channel. -/
def Takes (s s' : ValiantSpot f) : Prop :=
  ∃ offers offer, call.valiantFlatfly = some (offers, s'.ph, s'.intm) ∧ offer ∈ offers ∧
    (∃ port channel, offer.outputPort = Int.ofNat port ∧
      f.Leads s.spot.router port channel s'.spot.router ∧ s'.spot.input = (true, channel)) ∧
    offer.vcStart ≤ s'.spot.vc ∧ s'.spot.vc ≤ offer.vcEnd

end ValiantCall

namespace FlatFly

variable {f : FlatFly} {pkt : FlatFlyPacket f} {s s' : ValiantSpot f} {call : ValiantCall f}
  {first i d : Nat}

/-- One hop. -/
def ValiantHop (pkt : FlatFlyPacket f) (s s' : ValiantSpot f) : Prop :=
  ∃ call : ValiantCall f, call.For pkt s ∧ call.Takes s s'

/-- The hops from a router on a way by `intm`, or on the way from there. -/
def hopsBy (f : FlatFly) (ph : Int) (router intm dest : Nat) : Nat :=
  if ph = 0 then f.distance router intm + f.distance intm dest else f.distance router dest

/-- A packet after `i` hops. The digits up to the one that it has set last are those of the
router that it was on the way to. -/
structure OnValiant (pkt : FlatFlyPacket f) (first i : Nat) (s : ValiantSpot f) : Prop where
  router : s.spot.router < f.size
  start : s.spot.input.1 = false → i = 0 ∧ s.spot.router = first
  ph : s.spot.input.1 = true → s.ph = 0 ∨ s.ph = 1
  count : s.spot.input.1 = true →
    i + f.hopsBy s.ph s.spot.router (target s.intm) (target pkt.dest) =
      f.hopsBy 0 first (target s.intm) (target pkt.dest)
  past : ∀ channel, s.spot.input = (true, channel) → ∀ j ≤ f.dimOf channel,
    coordinate f.gK s.spot.router j =
      coordinate f.gK (target (if s.ph = 0 then s.intm else pkt.dest)) j
  lower : s.spot.input.1 = true → s.spot.vc = pkt.vcs.vcBegin → s.ph = 0
  upper : s.spot.input.1 = true → s.spot.vc = pkt.vcs.vcEnd → s.ph = 1
  vcBegin_le : pkt.vcs.vcBegin ≤ s.spot.vc
  le_vcEnd : s.spot.vc ≤ pkt.vcs.vcEnd

/-! ### What a call decides -/

theorem drawn_of_link (hfor : call.For pkt s) (hlink : s.spot.input.1 = true) :
    call.drawn = (s.ph, s.intm) := by
  rw [ValiantCall.drawn, if_neg, hfor.ph, hfor.intm]
  rw [hfor.inChannel, hlink]
  exact Bool.true_eq_false.mp

theorem drawn_of_client (hfor : call.For pkt s) (hclient : s.spot.input.1 = false) :
    call.drawn = (0, call.draw) := if_pos (hfor.inChannel.mpr hclient)

theorem OnValiant.drawn_cases (h : OnValiant pkt first i s) (hfor : call.For pkt s) :
    call.drawn.1 = 0 ∨ call.drawn.1 = 1 := by
  cases hlink : s.spot.input.1 with
  | false => exact .inl (congrArg Prod.fst (drawn_of_client hfor hlink))
  | true =>
      rw [drawn_of_link hfor hlink]
      exact h.ph hlink

theorem nextPh_eq (hfor : call.For pkt s) : call.nextPh =
    if target call.drawn.2 = s.spot.router ∨ target pkt.dest = s.spot.router then 1
    else call.drawn.1 := by
  rw [ValiantCall.nextPh, hfor.id, hfor.dest]
  rfl

theorem OnValiant.nextPh_cases (h : OnValiant pkt first i s) (hfor : call.For pkt s) :
    call.nextPh = 0 ∨ call.nextPh = 1 := by
  rw [nextPh_eq hfor]
  split
  · exact .inr rfl
  · exact h.drawn_cases hfor

/-- On the first way neither the router in between nor that of the destination has been
reached. -/
theorem first_way (hfor : call.For pkt s) (hph : call.nextPh = 0) :
    s.spot.router ≠ target call.drawn.2 ∧ s.spot.router ≠ target pkt.dest ∧ call.drawn.1 = 0 := by
  rw [nextPh_eq hfor] at hph
  split at hph
  next => cases hph
  next hnot => exact ⟨fun heq => hnot (.inl heq.symm), fun heq => hnot (.inr heq.symm), hph⟩

/-- The second way begins at the router in between. -/
theorem second_way (hfor : call.For pkt s) (hfar : s.spot.router ≠ target pkt.dest)
    (hph : call.nextPh ≠ 0) : call.drawn.1 ≠ 0 ∨ s.spot.router = target call.drawn.2 := by
  rw [nextPh_eq hfor] at hph
  split at hph
  next hreached => exact .inr (hreached.resolve_right fun heq => hfar heq.symm).symm
  next => exact .inl hph

/-- The way that is left, with what the call decides. -/
theorem OnValiant.left (h : OnValiant pkt first i s) (hfor : call.For pkt s)
    (hfar : s.spot.router ≠ target pkt.dest) :
    i + f.hopsBy call.nextPh s.spot.router (target call.drawn.2) (target pkt.dest) =
      f.hopsBy 0 first (target call.drawn.2) (target pkt.dest) := by
  have hsame : i + f.hopsBy call.drawn.1 s.spot.router (target call.drawn.2) (target pkt.dest) =
      f.hopsBy 0 first (target call.drawn.2) (target pkt.dest) := by
    cases hlink : s.spot.input.1 with
    | false =>
        obtain ⟨rfl, rfl⟩ := h.start hlink
        rw [drawn_of_client hfor hlink, Nat.zero_add]
    | true =>
        rw [drawn_of_link hfor hlink]
        exact h.count hlink
  by_cases hph : call.nextPh = 0
  · rw [hph]
    rwa [(first_way hfor hph).2.2] at hsame
  · have hself : f.distance (target call.drawn.2) (target call.drawn.2) = 0 :=
      (distance_eq_zero (client_transformation _).1 (client_transformation _).1).mpr rfl
    rw [← hsame]
    unfold hopsBy
    rw [if_neg hph]
    rcases second_way hfor hfar hph with hdrawn | hmid
    · rw [if_neg hdrawn]
    · split
      · rw [hmid, hself, Nat.zero_add]
      · rfl

/-- On the way the lowest digit in which the router differs from that of the goal is set. -/
structure SetsTowards (pkt : FlatFlyPacket f) (call : ValiantCall f) (s : ValiantSpot f) (d : Nat) :
    Prop where
  mem : d ∈ f.differing s.spot.router (target call.goal)
  below : ∀ i < d, coordinate f.gK s.spot.router i = coordinate f.gK (target call.goal) i
  offers : call.valiantFlatfly = some ((pkt.vcs.ordered (decide (call.nextPh = 0))).offer
    (Int.ofNat (f.gC + f.place s.spot.router d (coordinate f.gK (target call.goal) d))),
    call.nextPh, call.drawn.2)

theorem goal_ne (hfor : call.For pkt s) (hfar : s.spot.router ≠ target pkt.dest) :
    s.spot.router ≠ target call.goal := by
  unfold ValiantCall.goal
  split
  next hph => exact (first_way hfor hph).1
  next =>
    rw [hfor.dest]
    exact hfar

theorem OnValiant.setsTowards (h : OnValiant pkt first i s) (hvcs : pkt.vcs.vcBegin < pkt.vcs.vcEnd)
    (hfor : call.For pkt s) (hfar : s.spot.router ≠ target pkt.dest) :
    ∃ d, SetsTowards pkt call s d := by
  obtain ⟨d, hmem, hbelow, heq⟩ := outport_eq h.router (client_transformation call.goal).1
    (gC_pos pkt.dest) (goal_ne hfor hfar).symm
  have hvc : (pkt.config.vcs pkt.type).vcBegin ≤ s.spot.vc ∧
      s.spot.vc ≤ (pkt.config.vcs pkt.type).vcEnd := ⟨h.vcBegin_le, h.le_vcEnd⟩
  have hdest : f.transformation pkt.dest / f.gC ≠ s.spot.router := hfar.symm
  refine ⟨d, hmem, hbelow, ?_⟩
  unfold ValiantCall.valiantFlatfly
  rw [hfor.config, hfor.type, hfor.vc, hfor.inject, hfor.id, hfor.dest]
  rw [if_pos (.inl hvc), if_neg Bool.false_ne_true, if_pos (h.nextPh_cases hfor), heq,
    if_pos hdest]
  change (do
    let range ← pkt.vcs.half (decide (call.nextPh = 0))
    some (range.offer _, call.nextPh, call.drawn.2)) = _
  rw [half_eq hvcs]
  rfl

theorem OnValiant.ejects (h : OnValiant pkt first i s) (hfor : call.For pkt s)
    (harrived : s.spot.router = target pkt.dest) :
    call.valiantFlatfly = some (pkt.vcs.offer (Int.ofNat (f.transformation pkt.dest % f.gC)), 1,
      call.drawn.2) := by
  have hvc : (pkt.config.vcs pkt.type).vcBegin ≤ s.spot.vc ∧
      s.spot.vc ≤ (pkt.config.vcs pkt.type).vcEnd := ⟨h.vcBegin_le, h.le_vcEnd⟩
  have hdest : f.transformation pkt.dest / f.gC = s.spot.router := harrived.symm
  have hph : call.nextPh = 1 := by
    rw [nextPh_eq hfor, if_pos (.inr harrived.symm)]
  have hgoal : call.goal = pkt.dest := by
    rw [ValiantCall.goal, hph, if_neg one_ne_zero, hfor.dest]
  unfold ValiantCall.valiantFlatfly
  rw [hfor.config, hfor.type, hfor.vc, hfor.inject, hfor.id, hfor.dest]
  rw [if_pos (.inl hvc), if_neg Bool.false_ne_true, if_pos (h.nextPh_cases hfor), hgoal,
    outport, if_pos hdest, if_neg (not_not.mpr hdest), hph]
  rfl

/-! ### Delivery -/

theorem OnValiant.takes (h : OnValiant pkt first i s) (hvcs : pkt.vcs.vcBegin < pkt.vcs.vcEnd)
    (hfor : call.For pkt s) (htakes : call.Takes s s') :
    s.spot.router ≠ target pkt.dest ∧ ∃ d, SetsTowards pkt call s d ∧
      s'.spot.router = replaceDigit f.gK d (coordinate f.gK (target call.goal) d) s.spot.router ∧
      s'.spot.input = (true, f.output s.spot.router d (coordinate f.gK (target call.goal) d)) ∧
      s'.ph = call.nextPh ∧ s'.intm = call.drawn.2 ∧
      (pkt.vcs.ordered (decide (call.nextPh = 0))).vcBegin ≤ s'.spot.vc ∧
      s'.spot.vc ≤ (pkt.vcs.ordered (decide (call.nextPh = 0))).vcEnd := by
  obtain ⟨offers, offer, hcall, hmem, ⟨port, channel, hport, hleads, hinput⟩, hvc⟩ := htakes
  by_cases harrived : s.spot.router = target pkt.dest
  · obtain ⟨rfl, -⟩ := Prod.mk.inj (Option.some.inj ((h.ejects hfor harrived).symm.trans hcall))
    obtain rfl := List.mem_singleton.mp hmem
    obtain rfl := Int.ofNat_inj.mp hport
    obtain ⟨d, -, v, -, -, -, hlink, -⟩ := hleads
    have hlt := (client_transformation pkt.dest).2.1
    omega
  · obtain ⟨d, hsets⟩ := h.setsTowards hvcs hfor harrived
    obtain ⟨rfl, hflit⟩ := Prod.mk.inj (Option.some.inj (hsets.offers.symm.trans hcall))
    obtain ⟨hph, hintm⟩ := Prod.mk.inj hflit
    obtain rfl := List.mem_singleton.mp hmem
    obtain rfl := Int.ofNat_inj.mp hport
    obtain ⟨rfl, hrouter⟩ := (leads_differing h.router hsets.mem).mp hleads
    exact ⟨harrived, d, hsets, hrouter, hinput, hph.symm, hintm.symm, hvc⟩

theorem OnValiant.hop (h : OnValiant pkt first i s) (hvcs : pkt.vcs.vcBegin < pkt.vcs.vcEnd)
    (hhop : ValiantHop pkt s s') : OnValiant pkt first (i + 1) s' := by
  obtain ⟨call, hfor, htakes⟩ := hhop
  obtain ⟨hfar, d, hsets, hrouter, hinput, hph, hintm, hvcBegin, hvcEnd⟩ := h.takes hvcs hfor htakes
  obtain ⟨hd, hne⟩ := mem_differing.mp hsets.mem
  have hk := gK_pos h.router hd
  have hv : coordinate f.gK (target call.goal) d < f.gK := coordinate_lt hk
  have hgoal : (if s'.ph = 0 then s'.intm else pkt.dest) = call.goal := by
    rw [hph, hintm, ValiantCall.goal, hfor.dest]
  obtain ⟨⟨hbegin, hEnd⟩, hfirst, hlast⟩ := mem_ordered hvcs ⟨hvcBegin, hvcEnd⟩
  refine ⟨hrouter ▸ replaceDigit_lt hv hd h.router, fun hclient => ?_,
    fun _ => hph ▸ h.nextPh_cases hfor, fun _ => ?_, fun channel hchannel j hj => ?_,
    fun _ hvc => hph ▸ of_decide_eq_true (hfirst hvc),
    fun _ hvc => hph ▸ (h.nextPh_cases hfor).resolve_left (of_decide_eq_false (hlast hvc)),
    hbegin, hEnd⟩
  · rw [hinput] at hclient
    cases hclient
  · have hleft := h.left hfor hfar
    have hset := distance_set hk hsets.mem
    rw [hph, hintm, hrouter, ← hleft]
    unfold hopsBy
    unfold ValiantCall.goal at hset ⊢
    split
    next hzero =>
      rw [if_pos hzero] at hset
      omega
    next hone =>
      rw [if_neg hone, hfor.dest] at hset
      rw [hfor.dest]
      omega
  · obtain rfl := (Prod.mk.inj (hinput.symm.trans hchannel)).2
    rw [dimOf_differing h.router hsets.mem] at hj
    rw [hgoal, hrouter]
    obtain rfl | hlt := Nat.eq_or_lt_of_le hj
    · exact coordinate_replaceDigit hv
    · rw [coordinate_replaceDigit_of_ne hv hlt.ne]
      exact hsets.below j hlt

theorem Source.onValiant {src : Fin f.gNodes} (h : Source pkt src s.spot) :
    OnValiant pkt s.spot.router 0 s := by
  have hclient : s.spot.input.1 ≠ true := by
    rw [h.input]
    exact Bool.false_ne_true
  exact {
    router := h.router
    start := fun _ => ⟨rfl, rfl⟩
    ph := fun hlink => absurd hlink hclient
    count := fun hlink => absurd hlink hclient
    past := fun channel hchannel => absurd (congrArg Prod.fst hchannel) hclient
    lower := fun hlink => absurd hlink hclient
    upper := fun hlink => absurd hlink hclient
    vcBegin_le := h.vcBegin_le
    le_vcEnd := h.le_vcEnd }

theorem onValiant_of_walk {src : Fin f.gNodes} {source : ValiantSpot f}
    (hvcs : pkt.vcs.vcBegin < pkt.vcs.vcEnd) (hsource : Source pkt src source.spot)
    (hwalk : Progress.Walk (ValiantHop pkt) source i s) :
    OnValiant pkt source.spot.router i s :=
  hwalk.invariant (P := OnValiant pkt source.spot.router) hsource.onValiant fun h => h.hop hvcs

theorem distance_le (f : FlatFly) (a b : Nat) : f.distance a b ≤ f.gN :=
  (Finset.card_filter_le _ _).trans (Finset.card_range f.gN).le

theorem OnValiant.le (h : OnValiant pkt first i s) : i ≤ 2 * f.gN := by
  cases hlink : s.spot.input.1 with
  | false =>
      rw [(h.start hlink).1]
      exact Nat.zero_le _
  | true =>
      have hcount := h.count hlink
      have hout := distance_le f first (target s.intm)
      have hback := distance_le f (target s.intm) (target pkt.dest)
      rw [hopsBy, hopsBy, if_pos rfl] at hcount
      omega

/-- A packet with two virtual channels at least makes as many hops as there are digits to be
set on both of its ways, or fewer if it comes by its destination on the first one; there it is
ejected. -/
theorem valiantFlatfly_delivers {src : Fin f.gNodes} {source : ValiantSpot f}
    (hvcs : pkt.vcs.vcBegin < pkt.vcs.vcEnd) (hsource : Source pkt src source.spot)
    (hwalk : Progress.Walk (ValiantHop pkt) source i s) (hfor : call.For pkt s) :
    i ≤ 2 * f.gN ∧
    (s.spot.input.1 = true →
      i + f.hopsBy s.ph s.spot.router (target s.intm) (target pkt.dest) =
        f.hopsBy 0 source.spot.router (target s.intm) (target pkt.dest)) ∧
    (s.spot.router = target pkt.dest → ∃ port < f.gC,
      call.valiantFlatfly = some (pkt.vcs.offer (Int.ofNat port), 1, call.drawn.2) ∧
        f.client s.spot.router port = pkt.dest) ∧
    (s.spot.router ≠ target pkt.dest → ∃ port,
      call.valiantFlatfly = some ((pkt.vcs.ordered (decide (call.nextPh = 0))).offer
        (Int.ofNat port), call.nextPh, call.drawn.2) ∧
        ∃! link : Nat × Nat, f.Leads s.spot.router port link.1 link.2) := by
  have htrack := onValiant_of_walk hvcs hsource hwalk
  have htarget := client_transformation pkt.dest
  refine ⟨htrack.le, htrack.count, fun harrived => ?_, fun hfar => ?_⟩
  · refine ⟨_, htarget.2.1, htrack.ejects hfor harrived, ?_⟩
    rw [harrived]
    exact htarget.2.2
  · obtain ⟨d, hsets⟩ := htrack.setsTowards hvcs hfor hfar
    exact ⟨_, hsets.offers, existsUnique_link htrack.router hsets.mem⟩

/-! ### Deadlocks -/

/-- A packet that waits on its way, with the call that has been made for it. -/
structure ValiantWaiting (f : FlatFly) where
  pkt : FlatFlyPacket f
  src : Fin f.gNodes
  source : ValiantSpot f
  hops : Nat
  state : ValiantSpot f
  call : ValiantCall f
  injected : Source pkt src source.spot
  reached : Progress.Walk (ValiantHop pkt) source hops state
  routed : call.For pkt state
  inTransit : state.spot.router ≠ target pkt.dest

namespace ValiantWaiting

def holds (w : ValiantWaiting f) : Nat × (Bool × Nat) × Int :=
  (w.state.spot.router, w.state.spot.input, w.state.spot.vc)

/-- The buffers that it may go on to. -/
def wants (w : ValiantWaiting f) (buffer : Nat × (Bool × Nat) × Int) : Prop :=
  ∃ s' : ValiantSpot f, w.call.Takes w.state s' ∧
    (s'.spot.router, s'.spot.input, s'.spot.vc) = buffer

end ValiantWaiting

/-- How far a packet is on its ways, of which the second comes behind the first. -/
def heightBy (f : FlatFly) (input : Bool × Nat) (ph : Int) : Nat :=
  if input.1 then if ph = 0 then f.dimOf input.2 + 1 else f.gN + 1 + f.dimOf input.2 else 0

/-- The packet in the virtual channel that is offered on its way only. -/
def wayOn (pkt : FlatFlyPacket f) (call : ValiantCall f) (s : ValiantSpot f) (d : Nat) :
    ValiantSpot f where
  spot := {
    router := replaceDigit f.gK d (coordinate f.gK (target call.goal) d) s.spot.router
    input := (true, f.output s.spot.router d (coordinate f.gK (target call.goal) d))
    vc := if call.nextPh = 0 then pkt.vcs.vcBegin else pkt.vcs.vcEnd }
  ph := call.nextPh
  intm := call.drawn.2

theorem wayOn_ordered (hvcs : pkt.vcs.vcBegin < pkt.vcs.vcEnd) (call : ValiantCall f) :
    (pkt.vcs.ordered (decide (call.nextPh = 0))).vcBegin ≤ (wayOn pkt call s d).spot.vc ∧
      (wayOn pkt call s d).spot.vc ≤ (pkt.vcs.ordered (decide (call.nextPh = 0))).vcEnd := by
  have hout := ordered_wayOut hvcs (decide (call.nextPh = 0))
  simp only [decide_eq_true_eq] at hout
  exact hout

theorem OnValiant.takes_wayOn (h : OnValiant pkt first i s)
    (hvcs : pkt.vcs.vcBegin < pkt.vcs.vcEnd) (hsets : SetsTowards pkt call s d) :
    call.Takes s (wayOn pkt call s d) := by
  have hleads := (leads_differing h.router hsets.mem).mpr ⟨rfl, rfl⟩
  exact ⟨_, _, hsets.offers, List.mem_singleton_self _, ⟨_, _, rfl, hleads, rfl⟩,
    wayOn_ordered hvcs call⟩

theorem OnValiant.heightBy_lt (h : OnValiant pkt first i s) (hfor : call.For pkt s)
    (hsets : SetsTowards pkt call s d) :
    f.heightBy s.spot.input s.ph <
      f.heightBy (wayOn pkt call s d).spot.input (wayOn pkt call s d).ph := by
  obtain ⟨hd, hne⟩ := mem_differing.mp hsets.mem
  have hout : f.heightBy (wayOn pkt call s d).spot.input (wayOn pkt call s d).ph =
      if call.nextPh = 0 then d + 1 else f.gN + 1 + d := by
    unfold heightBy wayOn
    rw [if_pos rfl, dimOf_differing h.router hsets.mem]
  rw [hout]
  unfold heightBy
  split
  next hlink =>
    have hinput : s.spot.input = (true, s.spot.input.2) := Prod.ext hlink rfl
    have hdim : f.dimOf s.spot.input.2 < f.gN := Nat.mod_lt _ (Nat.zero_lt_of_lt hd)
    have hdrawn := drawn_of_link hfor hlink
    -- on the same way the digits that are set go up
    have hsame : (if s.ph = 0 then s.intm else pkt.dest) = call.goal →
        f.dimOf s.spot.input.2 < d := by
      intro hgoal
      by_contra hle
      have hagree := h.past _ hinput d (not_lt.mp hle)
      rw [hgoal] at hagree
      exact hne hagree
    split
    next hzero =>
      split
      next hnext =>
        refine Nat.succ_lt_succ (hsame ?_)
        rw [if_pos hzero, ValiantCall.goal, if_pos hnext, hdrawn]
      next => omega
    next hone =>
      have hnext : call.nextPh ≠ 0 := fun hnext => hone (by
        rw [← (first_way hfor hnext).2.2, hdrawn])
      rw [if_neg hnext]
      refine Nat.add_lt_add_left (hsame ?_) _
      rw [if_neg hone, ValiantCall.goal, if_neg hnext, hfor.dest]
  next =>
    split <;> omega

/-- Packets with two virtual channels at least, of types that share all of them or none,
never wait for each other in a circle, whatever they draw. -/
theorem valiantFlatfly_not_deadlock {S : Set (ValiantWaiting f)}
    (hvcs : ∀ w ∈ S, w.pkt.vcs.vcBegin < w.pkt.vcs.vcEnd)
    (hshared : ∀ w ∈ S, ∀ q ∈ S, q.pkt.vcs = w.pkt.vcs ∨
      q.pkt.vcs.vcEnd < w.pkt.vcs.vcBegin ∨ w.pkt.vcs.vcEnd < q.pkt.vcs.vcBegin) :
    ¬ Progress.Deadlock ValiantWaiting.holds ValiantWaiting.wants S := by
  have htrack : ∀ w ∈ S, OnValiant w.pkt w.source.spot.router w.hops w.state := fun w hw =>
    onValiant_of_walk (hvcs w hw) w.injected w.reached
  have hsets : ∀ w ∈ S, ∃ d, SetsTowards w.pkt w.call w.state d := fun w hw =>
    (htrack w hw).setsTowards (hvcs w hw) w.routed w.inTransit
  refine Progress.not_deadlock_of_rank (fun w => f.heightBy w.state.spot.input w.state.ph)
    (2 * f.gN + 1) (fun w hw => ?_) (fun w hw => ?_)
  · obtain ⟨d, hset⟩ := hsets w hw
    have hN : 0 < f.gN := Nat.zero_lt_of_lt (mem_differing.mp hset.mem).1
    have hdim : f.dimOf w.state.spot.input.2 < f.gN := Nat.mod_lt _ hN
    dsimp only [heightBy]
    split_ifs <;> omega
  · obtain ⟨d, hset⟩ := hsets w hw
    refine ⟨_, ⟨_, (htrack w hw).takes_wayOn (hvcs w hw) hset, rfl⟩, fun q hq hholds => ?_⟩
    obtain ⟨-, hbuffer⟩ := Prod.mk.inj hholds
    obtain ⟨hinput, hvc⟩ := Prod.mk.inj hbuffer
    have hlink : q.state.spot.input.1 = true := congrArg Prod.fst hinput
    have hvc' : q.state.spot.vc =
        if w.call.nextPh = 0 then w.pkt.vcs.vcBegin else w.pkt.vcs.vcEnd := hvc
    -- who holds it has the same virtual channels, and is on the same way
    have hsame : q.pkt.vcs = w.pkt.vcs :=
      vcs_eq_of_shared (hshared w hw q hq)
        (hvc ▸ (mem_ordered (hvcs w hw) (wayOn_ordered (hvcs w hw) w.call)).1)
        ⟨(htrack q hq).vcBegin_le, (htrack q hq).le_vcEnd⟩
    have hph : q.state.ph = w.call.nextPh := by
      rcases (htrack w hw).nextPh_cases w.routed with hzero | hone
      · rw [if_pos hzero, ← hsame] at hvc'
        rw [hzero]
        exact (htrack q hq).lower hlink hvc'
      · rw [if_neg (by rw [hone]; decide), ← hsame] at hvc'
        rw [hone]
        exact (htrack q hq).upper hlink hvc'
    have hheight : f.heightBy q.state.spot.input q.state.ph =
        f.heightBy (wayOn w.pkt w.call w.state d).spot.input
          (wayOn w.pkt w.call w.state d).ph := by
      rw [hinput, hph]
      rfl
    rw [hheight]
    exact (htrack w hw).heightBy_lt w.routed hset

/-! ### An example -/

/-- The packet to node 3 before its first call, -/
def beforeDraw : ValiantSpot fourRouters := ⟨atClient, -1, ⟨0, zero_lt_fourRouters⟩⟩

/-- in which node 3 itself is drawn. -/
def drawsThree : ValiantCall fourRouters where
  config := .twoVCs
  id := 0
  type := .anyType
  vc := 0
  dest := toThree.dest
  inChannel := 0
  inject := false
  ph := -1
  intm := ⟨0, zero_lt_fourRouters⟩
  draw := toThree.dest

theorem drawsThree_for : drawsThree.For toThree beforeDraw :=
  ⟨rfl, rfl, rfl, rfl, rfl, by decide, rfl, rfl, rfl⟩

theorem valiantFlatfly_delivers_drawsThree :
    0 ≤ 2 * 2 ∧ ∃ port, drawsThree.valiantFlatfly =
      some ((toThree.vcs.ordered (decide (drawsThree.nextPh = 0))).offer (Int.ofNat port),
        drawsThree.nextPh, drawsThree.drawn.2) ∧
      ∃! link : Nat × Nat, fourRouters.Leads 0 port link.1 link.2 :=
  have h := valiantFlatfly_delivers toThree_vcs atClient_source
    (.start : Progress.Walk (ValiantHop toThree) beforeDraw 0 beforeDraw) drawsThree_for
  ⟨h.1, h.2.2.2 (by decide)⟩

def beforeDrawWaiting : ValiantWaiting fourRouters where
  pkt := toThree
  src := ⟨0, zero_lt_fourRouters⟩
  source := beforeDraw
  hops := 0
  state := beforeDraw
  call := drawsThree
  injected := atClient_source
  reached := .start
  routed := drawsThree_for
  inTransit := Nat.ne_of_beq_eq_false rfl

theorem valiantFlatfly_not_deadlock_beforeDraw :
    ¬ Progress.Deadlock ValiantWaiting.holds ValiantWaiting.wants {beforeDrawWaiting} := by
  refine valiantFlatfly_not_deadlock (fun w hw => ?_) (fun w hw q hq => ?_)
  · rw [Set.mem_singleton_iff.mp hw]
    exact toThree_vcs
  · rw [Set.mem_singleton_iff.mp hw, Set.mem_singleton_iff.mp hq]
    exact .inl rfl

end FlatFly

end Flyover
