import Flyover.Routing.FlatFly

/-!
# The flattened butterfly in two orders

`xyyx_flatfly` and `adaptive_xyyx_flatfly` set the digits from the lowest up or from the
highest down. The order is chosen at the first hop, and after that it is told by the half
that the virtual channel of the packet is in. An odd number of virtual channels has one that
is offered in both orders, so a packet can change its order there. The first and the last
virtual channel are offered in one order only, and are the way out.
-/

namespace Flyover

open Flyover.Cube

namespace FlatFly

variable (f : FlatFly)

/-- The loop of `flatfly_outport_yx`, with `left` rounds left. -/
def outportYxLoop (gK gC : Nat) : Nat → Nat → Nat → Option Nat
  | 0, _, _ => none
  | d + 1, destRID, rID =>
      let power := gK ^ d
      let dID := destRID / power
      let sID := rID / power
      if dID ≠ sID then
        let output := gC + (gK - 1) * d - 1
        some (if dID > sID then output + dID else output + (dID + 1))
      else outportYxLoop gK gC d (destRID % power) (rID % power)

/-- `flatfly_outport_yx` -/
def outportYx (dest rID : Nat) : Option Nat :=
  if dest / f.gC = rID then some (dest % f.gC)
  else outportYxLoop f.gK f.gC f.gN (dest / f.gC) rID

end FlatFly

/-- `available_vcs` -/
def VCRange.availableVCs (vcs : VCRange) : Int := (vcs.vcEnd - vcs.vcBegin + 1).tdiv 2

/-- What a call of the two functions reads; `draw` is what `RandomInt(1)` returns. -/
structure FlatFlyOrderCall (f : FlatFly) where
  config : RoutingConfig
  id : Nat
  type : FlitType
  vc : Int
  dest : Fin f.gNodes
  inChannel : Nat
  inject : Bool
  draw : Nat
  usedCredit : Nat → Int

namespace FlatFlyOrderCall

variable {f : FlatFly} (call : FlatFlyOrderCall f)

/-- What both functions have in common; they differ in `x_then_y` for a packet of a client. -/
def routeXYYX (first : Option Bool) : Option (List Offer) :=
  let vcs := call.config.vcs call.type
  if (vcs.vcBegin ≤ call.vc ∧ call.vc ≤ vcs.vcEnd) ∨ (call.inject = true ∧ call.vc < 0) then
    if call.inject then some (vcs.offer (-1))
    else
      let dest := f.transformation call.dest
      if dest / f.gC = call.id then some (vcs.offer (Int.ofNat (dest % f.gC)))
      else do
        let first ← first
        let xThenY :=
          if call.inChannel < f.gC then first
          else decide (call.vc < vcs.vcBegin + vcs.availableVCs)
        let range ← vcs.half xThenY
        let port ← (if xThenY then f.outport dest call.id else f.outportYx dest call.id)
        some (range.offer (Int.ofNat port))
  else none

/-- `xyyx_flatfly` -/
def xyyxFlatfly : Option (List Offer) := call.routeXYYX (some (decide (call.draw > 0)))

/-- `adaptive_xyyx_flatfly`: the ports of both orders are computed, and the less loaded one
tells the order. -/
def adaptiveXyyxFlatfly : Option (List Offer) :=
  call.routeXYYX do
    let outPortXY ← f.outport (f.transformation call.dest) call.id
    let outPortYX ← f.outportYx (f.transformation call.dest) call.id
    let creditXY := call.usedCredit outPortXY
    let creditYX := call.usedCredit outPortYX
    some (if creditXY > creditYX then false
      else if creditXY < creditYX then true
      else decide (call.draw > 0))

/-- `adaptive_xyyx_flatfly` or `xyyx_flatfly` -/
def route (adaptive : Bool) : Option (List Offer) :=
  if adaptive then call.adaptiveXyyxFlatfly else call.xyyxFlatfly

/-- A call for a packet that is not being injected. The channels of the clients are the first
input channels. -/
structure For (pkt : FlatFlyPacket f) (s : FlatFlySpot) : Prop where
  config : call.config = pkt.config
  id : call.id = s.router
  type : call.type = pkt.type
  vc : call.vc = s.vc
  dest : call.dest = pkt.dest
  inChannel : call.inChannel < f.gC ↔ s.input.1 = false
  inject : call.inject = false

/-- A packet goes on: over an offered port, into an offered virtual channel. -/
def Takes (adaptive : Bool) (s s' : FlatFlySpot) : Prop :=
  ∃ offers offer, call.route adaptive = some offers ∧ offer ∈ offers ∧
    (∃ port channel, offer.outputPort = Int.ofNat port ∧
      f.Leads s.router port channel s'.router ∧ s'.input = (true, channel)) ∧
    offer.vcStart ≤ s'.vc ∧ s'.vc ≤ offer.vcEnd

end FlatFlyOrderCall

/-- The virtual channels of the packet's class. -/
def FlatFlyPacket.vcs {f : FlatFly} (pkt : FlatFlyPacket f) : VCRange := pkt.config.vcs pkt.type

/-- What is offered in one of the orders. -/
def VCRange.ordered (vcs : VCRange) (up : Bool) : VCRange :=
  if up then ⟨vcs.vcBegin, vcs.vcEnd - vcs.availableVCs⟩
  else ⟨vcs.vcBegin + vcs.availableVCs, vcs.vcEnd⟩

namespace FlatFly

variable {f : FlatFly} {adaptive : Bool} {pkt : FlatFlyPacket f} {s s' : FlatFlySpot}
  {call : FlatFlyOrderCall f}

/-- One hop. -/
def OrderedHop (adaptive : Bool) (pkt : FlatFlyPacket f) (s s' : FlatFlySpot) : Prop :=
  ∃ call : FlatFlyOrderCall f, call.For pkt s ∧ call.Takes adaptive s s'

/-! ### The loop -/

/-- The loop comes to the highest digit that differs. -/
theorem outportYxLoop_eq {gK gC left dest rid : Nat} (hdest : dest < gK ^ left)
    (hrid : rid < gK ^ left) (h : ∃ j < left, coordinate gK dest j ≠ coordinate gK rid j) :
    ∃ j < left, coordinate gK dest j ≠ coordinate gK rid j ∧
      (∀ i < left, j < i → coordinate gK dest i = coordinate gK rid i) ∧
      outportYxLoop gK gC left dest rid = some (if coordinate gK dest j > coordinate gK rid j then
        gC + (gK - 1) * j - 1 + coordinate gK dest j
        else gC + (gK - 1) * j - 1 + (coordinate gK dest j + 1)) := by
  induction left generalizing dest rid with
  | zero =>
      obtain ⟨j, hj, -⟩ := h
      exact absurd hj (Nat.not_lt_zero j)
  | succ d ih =>
      have htop : ∀ n < gK ^ (d + 1), n / gK ^ d = coordinate gK n d := by
        intro n hn
        rw [coordinate, Nat.mod_eq_of_lt]
        exact Nat.div_lt_of_lt_mul (pow_succ gK d ▸ hn)
      have hpow : 0 < gK ^ d := by
        refine Nat.pos_of_ne_zero fun hzero => ?_
        rw [pow_succ, hzero, Nat.zero_mul] at hdest
        exact absurd hdest (Nat.not_lt_zero _)
      have hk : 0 < gK := by
        refine Nat.pos_of_ne_zero fun hzero => ?_
        rw [pow_succ, hzero, Nat.mul_zero] at hdest
        exact absurd hdest (Nat.not_lt_zero _)
      rw [outportYxLoop, htop dest hdest, htop rid hrid]
      by_cases hfirst : coordinate gK dest d = coordinate gK rid d
      · have hbelow : ∃ j < d, coordinate gK (dest % gK ^ d) j ≠ coordinate gK (rid % gK ^ d) j := by
          obtain ⟨j, hj, hne⟩ := h
          obtain rfl | hlt := Nat.eq_or_lt_of_le (Nat.lt_succ_iff.mp hj)
          · exact absurd hfirst hne
          · refine ⟨j, hlt, ?_⟩
            rw [coordinate_mod_pow hk hlt, coordinate_mod_pow hk hlt]
            exact hne
        obtain ⟨j, hj, hne, habove, heq⟩ := ih (Nat.mod_lt dest hpow) (Nat.mod_lt rid hpow) hbelow
        rw [coordinate_mod_pow hk hj, coordinate_mod_pow hk hj] at hne heq
        refine ⟨j, hj.trans (Nat.lt_succ_self d), hne, fun i hi hji => ?_, ?_⟩
        · obtain rfl | hlt := Nat.eq_or_lt_of_le (Nat.lt_succ_iff.mp hi)
          · exact hfirst
          · have hsame := habove i hlt hji
            rwa [coordinate_mod_pow hk hlt, coordinate_mod_pow hk hlt] at hsame
        · rw [if_neg (not_not.mpr hfirst)]
          exact heq
      · refine ⟨d, Nat.lt_succ_self d, hfirst, fun i hi hdi => ?_, ?_⟩
        · exact absurd hdi (Nat.not_lt.mpr (Nat.lt_succ_iff.mp hi))
        · rw [if_pos hfirst]

/-- On the way `flatfly_outport_yx` gives the port of the highest digit that differs. -/
theorem outportYx_eq {node dest : Nat} (hnode : node < f.size) (hdest : dest / f.gC < f.size)
    (hC : 0 < f.gC) (hne : dest / f.gC ≠ node) :
    ∃ d ∈ f.differing node (dest / f.gC),
      (∀ i < f.gN, d < i → coordinate f.gK node i = coordinate f.gK (dest / f.gC) i) ∧
      f.outportYx dest node = some (f.gC + f.place node d (coordinate f.gK (dest / f.gC) d)) := by
  obtain ⟨d, hd, hd', habove, heq⟩ :=
    outportYxLoop_eq hdest hnode (exists_differing hnode hdest hne)
  refine ⟨d, mem_differing.mpr ⟨hd, hd'.symm⟩, fun i hi hdi => (habove i hi hdi).symm, ?_⟩
  rw [outportYx, if_neg hne, heq, port_eq hnode hd (coordinate_lt (gK_pos hnode hd)) hC]

/-! ### What is offered -/

/-- On the way a digit is set, the lowest one that differs or the highest one. -/
structure SetsIn (up : Bool) (pkt : FlatFlyPacket f) (s : FlatFlySpot) (d : Nat) : Prop where
  mem : d ∈ f.differing s.router (target pkt.dest)
  below : up = true → ∀ i < d, coordinate f.gK s.router i = coordinate f.gK (target pkt.dest) i
  above : up = false → ∀ i < f.gN, d < i →
    coordinate f.gK s.router i = coordinate f.gK (target pkt.dest) i
  told : s.input.1 = true → up = decide (s.vc < pkt.vcs.vcBegin + pkt.vcs.availableVCs)

/-- A packet after `i` hops. If it is in the first virtual channel, its digits are those of
its destination up to the one that it has set last, and in the last one from there on. -/
structure OnOrder (pkt : FlatFlyPacket f) (first i : Nat) (s : FlatFlySpot) : Prop where
  router : s.router < f.size
  count : i + f.distance s.router (target pkt.dest) = f.distance first (target pkt.dest)
  up : ∀ channel, s.input = (true, channel) → s.vc = pkt.vcs.vcBegin → ∀ j ≤ f.dimOf channel,
    coordinate f.gK s.router j = coordinate f.gK (target pkt.dest) j
  down : ∀ channel, s.input = (true, channel) → s.vc = pkt.vcs.vcEnd → ∀ j < f.gN,
    f.dimOf channel ≤ j → coordinate f.gK s.router j = coordinate f.gK (target pkt.dest) j
  vcBegin_le : pkt.vcs.vcBegin ≤ s.vc
  le_vcEnd : s.vc ≤ pkt.vcs.vcEnd

theorem OnOrder.ejects {first i : Nat} (h : OnOrder pkt first i s) (hfor : call.For pkt s)
    (harrived : s.router = target pkt.dest) (adaptive : Bool) :
    call.route adaptive =
      some (pkt.vcs.offer (Int.ofNat (f.transformation pkt.dest % f.gC))) := by
  have hroute : ∀ order, call.routeXYYX order =
      some (pkt.vcs.offer (Int.ofNat (f.transformation pkt.dest % f.gC))) := by
    intro order
    have hvc : (pkt.config.vcs pkt.type).vcBegin ≤ s.vc ∧ s.vc ≤ (pkt.config.vcs pkt.type).vcEnd :=
      ⟨h.vcBegin_le, h.le_vcEnd⟩
    have heq : f.transformation pkt.dest / f.gC = s.router := harrived.symm
    simp only [FlatFlyOrderCall.routeXYYX, hfor.config, hfor.type, hfor.vc, hfor.inject, hfor.dest,
      hfor.id]
    rw [if_pos (.inl hvc), if_neg Bool.false_ne_true, if_pos heq]
    rfl
  unfold FlatFlyOrderCall.route
  split
  · exact hroute _
  · exact hroute _

section OnOrder

variable {first i d : Nat} (hvcs : pkt.vcs.vcBegin < pkt.vcs.vcEnd)

include hvcs

theorem availableVCs_pos : 0 < pkt.vcs.availableVCs ∧
    pkt.vcs.availableVCs ≤ pkt.vcs.vcEnd - pkt.vcs.vcBegin := by
  have heq : pkt.vcs.availableVCs = (pkt.vcs.vcEnd - pkt.vcs.vcBegin + 1) / 2 :=
    Int.tdiv_eq_ediv_of_nonneg (by omega)
  omega

/-- Two virtual channels are enough for both orders. -/
theorem half_eq (up : Bool) : pkt.vcs.half up = some (pkt.vcs.ordered up) :=
  if_pos (availableVCs_pos hvcs).1

/-- The first virtual channel is offered on the way up only, and the last on the way down. -/
theorem mem_ordered {up : Bool} {vc : Int} (h : (pkt.vcs.ordered up).vcBegin ≤ vc ∧
    vc ≤ (pkt.vcs.ordered up).vcEnd) : (pkt.vcs.vcBegin ≤ vc ∧ vc ≤ pkt.vcs.vcEnd) ∧
      (vc = pkt.vcs.vcBegin → up = true) ∧ (vc = pkt.vcs.vcEnd → up = false) := by
  have havailable := availableVCs_pos hvcs
  cases up with
  | true =>
      have hhigh : vc ≤ pkt.vcs.vcEnd - pkt.vcs.availableVCs := h.2
      exact ⟨⟨h.1, by omega⟩, fun _ => rfl, fun hvc => by omega⟩
  | false =>
      have hlow : pkt.vcs.vcBegin + pkt.vcs.availableVCs ≤ vc := h.1
      exact ⟨⟨by omega, h.2⟩, fun hvc => by omega, fun _ => rfl⟩

theorem ordered_wayOut (up : Bool) :
    (pkt.vcs.ordered up).vcBegin ≤ (if up then pkt.vcs.vcBegin else pkt.vcs.vcEnd) ∧
      (if up then pkt.vcs.vcBegin else pkt.vcs.vcEnd) ≤ (pkt.vcs.ordered up).vcEnd := by
  have havailable := availableVCs_pos hvcs
  cases up with
  | true =>
      change pkt.vcs.vcBegin ≤ pkt.vcs.vcBegin ∧
        pkt.vcs.vcBegin ≤ pkt.vcs.vcEnd - pkt.vcs.availableVCs
      omega
  | false =>
      change pkt.vcs.vcBegin + pkt.vcs.availableVCs ≤ pkt.vcs.vcEnd ∧
        pkt.vcs.vcEnd ≤ pkt.vcs.vcEnd
      omega

theorem OnOrder.sets_routeXYYX (h : OnOrder pkt first i s) (hfor : call.For pkt s)
    (hfar : s.router ≠ target pkt.dest) (order : Bool) :
    ∃ up d, SetsIn up pkt s d ∧ call.routeXYYX (some order) = some ((pkt.vcs.ordered up).offer
      (Int.ofNat (f.gC + f.place s.router d (coordinate f.gK (target pkt.dest) d)))) := by
  have htarget := (client_transformation pkt.dest).1
  have hC := gC_pos pkt.dest
  obtain ⟨low, hlow, hbelow, hxy⟩ := outport_eq h.router htarget hC hfar.symm
  obtain ⟨high, hhigh, habove, hyx⟩ := outportYx_eq h.router htarget hC hfar.symm
  have hvc : (pkt.config.vcs pkt.type).vcBegin ≤ s.vc ∧ s.vc ≤ (pkt.config.vcs pkt.type).vcEnd :=
    ⟨h.vcBegin_le, h.le_vcEnd⟩
  have hne : ¬ f.transformation pkt.dest / f.gC = s.router := hfar.symm
  have htold : s.input.1 = true → (if call.inChannel < f.gC then order
      else decide (s.vc < pkt.vcs.vcBegin + pkt.vcs.availableVCs)) =
        decide (s.vc < pkt.vcs.vcBegin + pkt.vcs.availableVCs) := by
    intro hlink
    refine if_neg fun hclient => ?_
    rw [hfor.inChannel, hlink] at hclient
    cases hclient
  have hunfold : call.routeXYYX (some order) = (do
      let range ← pkt.vcs.half (if call.inChannel < f.gC then order
        else decide (s.vc < pkt.vcs.vcBegin + pkt.vcs.availableVCs))
      let port ← (if (if call.inChannel < f.gC then order
          else decide (s.vc < pkt.vcs.vcBegin + pkt.vcs.availableVCs)) = true then
        f.outport (f.transformation pkt.dest) s.router
        else f.outportYx (f.transformation pkt.dest) s.router)
      some (range.offer (Int.ofNat port))) := by
    simp only [FlatFlyOrderCall.routeXYYX, hfor.config, hfor.type, hfor.vc, hfor.inject,
      hfor.dest, hfor.id]
    rw [if_pos (.inl hvc), if_neg Bool.false_ne_true, if_neg hne]
    rfl
  cases hchoice : (if call.inChannel < f.gC then order
      else decide (s.vc < pkt.vcs.vcBegin + pkt.vcs.availableVCs)) with
  | true =>
      rw [hchoice, half_eq hvcs, if_pos rfl, hxy] at hunfold
      rw [hchoice] at htold
      exact ⟨true, low, ⟨hlow, fun _ => hbelow, fun hno => (by cases hno), htold⟩, hunfold⟩
  | false =>
      rw [hchoice, half_eq hvcs, if_neg Bool.false_ne_true, hyx] at hunfold
      rw [hchoice] at htold
      exact ⟨false, high, ⟨hhigh, fun hno => (by cases hno), fun _ => habove, htold⟩, hunfold⟩

omit hvcs in
/-- The port counts choose an order, and no more than that. -/
theorem OnOrder.exists_order (h : OnOrder pkt first i s) (hfor : call.For pkt s)
    (hfar : s.router ≠ target pkt.dest) (adaptive : Bool) :
    ∃ order, call.route adaptive = call.routeXYYX (some order) := by
  have htarget := (client_transformation pkt.dest).1
  have hC := gC_pos pkt.dest
  cases adaptive with
  | false => exact ⟨_, rfl⟩
  | true =>
      obtain ⟨low, -, -, hxy⟩ := outport_eq h.router htarget hC hfar.symm
      obtain ⟨high, -, -, hyx⟩ := outportYx_eq h.router htarget hC hfar.symm
      change ∃ order, call.adaptiveXyyxFlatfly = _
      unfold FlatFlyOrderCall.adaptiveXyyxFlatfly
      rw [hfor.dest, hfor.id, hxy, hyx]
      exact ⟨_, rfl⟩

/-- On the way one port is offered, in one of the orders. -/
theorem OnOrder.sets (h : OnOrder pkt first i s) (hfor : call.For pkt s)
    (hfar : s.router ≠ target pkt.dest) (adaptive : Bool) :
    ∃ up d, SetsIn up pkt s d ∧ call.route adaptive = some ((pkt.vcs.ordered up).offer
      (Int.ofNat (f.gC + f.place s.router d (coordinate f.gK (target pkt.dest) d)))) := by
  obtain ⟨order, horder⟩ := h.exists_order hfor hfar adaptive
  rw [horder]
  exact h.sets_routeXYYX hvcs hfor hfar order

end OnOrder

/-! ### Delivery -/

section OnOrder

variable {first i d : Nat} {up : Bool} (hvcs : pkt.vcs.vcBegin < pkt.vcs.vcEnd)

include hvcs

/-- A packet that goes on sets a digit, and its virtual channel is of the order. -/
theorem OnOrder.takes (h : OnOrder pkt first i s) (hfor : call.For pkt s)
    (htakes : call.Takes adaptive s s') :
    ∃ up d, SetsIn up pkt s d ∧
      s'.router = replaceDigit f.gK d (coordinate f.gK (target pkt.dest) d) s.router ∧
      s'.input = (true, f.output s.router d (coordinate f.gK (target pkt.dest) d)) ∧
      (pkt.vcs.ordered up).vcBegin ≤ s'.vc ∧ s'.vc ≤ (pkt.vcs.ordered up).vcEnd := by
  obtain ⟨offers, offer, hcall, hmem, ⟨port, channel, hport, hleads, hinput⟩, hvc⟩ := htakes
  by_cases harrived : s.router = target pkt.dest
  · obtain rfl := Option.some.inj ((h.ejects hfor harrived adaptive).symm.trans hcall)
    obtain rfl := List.mem_singleton.mp hmem
    obtain rfl := Int.ofNat_inj.mp hport
    obtain ⟨d, -, v, -, -, -, hlink, -⟩ := hleads
    have hlt := (client_transformation pkt.dest).2.1
    omega
  · obtain ⟨up, d, hsets, hoffers⟩ := h.sets hvcs hfor harrived adaptive
    obtain rfl := Option.some.inj (hoffers.symm.trans hcall)
    obtain rfl := List.mem_singleton.mp hmem
    obtain rfl := Int.ofNat_inj.mp hport
    obtain ⟨rfl, hrouter⟩ := (leads_differing h.router hsets.mem).mp hleads
    exact ⟨up, d, hsets, hrouter, hinput, hvc⟩

theorem OnOrder.hop (h : OnOrder pkt first i s) (hhop : OrderedHop adaptive pkt s s') :
    OnOrder pkt first (i + 1) s' := by
  obtain ⟨call, hfor, htakes⟩ := hhop
  obtain ⟨up, d, hsets, hrouter, hinput, hvc⟩ := h.takes hvcs hfor htakes
  obtain ⟨hd, hne⟩ := mem_differing.mp hsets.mem
  have hk := gK_pos h.router hd
  have hv : coordinate f.gK (target pkt.dest) d < f.gK := coordinate_lt hk
  obtain ⟨⟨hbegin, hEnd⟩, hfirst, hlast⟩ := mem_ordered hvcs hvc
  have hsame : ∀ j, (j ≠ d → coordinate f.gK s.router j = coordinate f.gK (target pkt.dest) j) →
      coordinate f.gK s'.router j = coordinate f.gK (target pkt.dest) j := by
    intro j hj
    rw [hrouter]
    by_cases hjd : j = d
    · rw [hjd]
      exact coordinate_replaceDigit hv
    · rw [coordinate_replaceDigit_of_ne hv hjd]
      exact hj hjd
  refine ⟨hrouter ▸ replaceDigit_lt hv hd h.router, ?_, fun channel hchannel hvc j hj => ?_,
    fun channel hchannel hvc j hj hle => ?_, hbegin, hEnd⟩
  · have hset := distance_set hk hsets.mem
    have hcount := h.count
    rw [hrouter]
    omega
  · obtain rfl := (Prod.mk.inj (hinput.symm.trans hchannel)).2
    rw [dimOf_differing h.router hsets.mem] at hj
    exact hsame j fun hjd => hsets.below (hfirst hvc) j (lt_of_le_of_ne hj hjd)
  · obtain rfl := (Prod.mk.inj (hinput.symm.trans hchannel)).2
    rw [dimOf_differing h.router hsets.mem] at hle
    exact hsame j fun hjd => hsets.above (hlast hvc) j hj (lt_of_le_of_ne hle (Ne.symm hjd))

end OnOrder

theorem Source.onOrder {src : Fin f.gNodes} (h : Source pkt src s) : OnOrder pkt s.router 0 s where
  router := h.router
  count := Nat.zero_add _
  up channel hchannel := by
    have hinput := h.input.symm.trans hchannel
    cases hinput
  down channel hchannel := by
    have hinput := h.input.symm.trans hchannel
    cases hinput
  vcBegin_le := h.vcBegin_le
  le_vcEnd := h.le_vcEnd

theorem onOrder_of_walk {src : Fin f.gNodes} {source : FlatFlySpot} {i : Nat}
    (hvcs : pkt.vcs.vcBegin < pkt.vcs.vcEnd) (hsource : Source pkt src source)
    (hwalk : Progress.Walk (OrderedHop adaptive pkt) source i s) :
    OnOrder pkt source.router i s :=
  hwalk.invariant (P := OnOrder pkt source.router) hsource.onOrder fun h => h.hop hvcs

/-- In either order a packet with two virtual channels at least makes as many hops as there
are digits in which its first router differs from that of its destination, where it is
ejected. -/
theorem xyyxFlatfly_minimal {src : Fin f.gNodes} {source : FlatFlySpot} {i : Nat}
    (hvcs : pkt.vcs.vcBegin < pkt.vcs.vcEnd) (hsource : Source pkt src source)
    (hwalk : Progress.Walk (OrderedHop adaptive pkt) source i s) (hfor : call.For pkt s) :
    i + f.distance s.router (target pkt.dest) = f.distance source.router (target pkt.dest) ∧
    (s.router = target pkt.dest → ∃ port < f.gC,
      call.route adaptive = some (pkt.vcs.offer (Int.ofNat port)) ∧
        f.client s.router port = pkt.dest) ∧
    (s.router ≠ target pkt.dest → ∃ up port,
      call.route adaptive = some ((pkt.vcs.ordered up).offer (Int.ofNat port)) ∧
        ∃! link : Nat × Nat, f.Leads s.router port link.1 link.2) := by
  have htrack := onOrder_of_walk hvcs hsource hwalk
  have htarget := client_transformation pkt.dest
  refine ⟨htrack.count, fun harrived => ?_, fun hfar => ?_⟩
  · refine ⟨_, htarget.2.1, htrack.ejects hfor harrived adaptive, ?_⟩
    rw [harrived]
    exact htarget.2.2
  · obtain ⟨up, d, hsets, hoffers⟩ := htrack.sets hvcs hfor hfar adaptive
    exact ⟨up, _, hoffers, existsUnique_link htrack.router hsets.mem⟩

/-! ### Deadlocks -/

/-- A packet that waits on its way, with the call that has been made for it. -/
structure OrderedWaiting (f : FlatFly) (adaptive : Bool) where
  pkt : FlatFlyPacket f
  src : Fin f.gNodes
  source : FlatFlySpot
  hops : Nat
  spot : FlatFlySpot
  call : FlatFlyOrderCall f
  injected : Source pkt src source
  reached : Progress.Walk (OrderedHop adaptive pkt) source hops spot
  routed : call.For pkt spot
  inTransit : spot.router ≠ target pkt.dest

namespace OrderedWaiting

def holds (w : OrderedWaiting f adaptive) : Nat × (Bool × Nat) × Int :=
  (w.spot.router, w.spot.input, w.spot.vc)

/-- The buffers that it may go on to. -/
def wants (w : OrderedWaiting f adaptive) (buffer : Nat × (Bool × Nat) × Int) : Prop :=
  ∃ s' : FlatFlySpot, w.call.Takes adaptive w.spot s' ∧ (s'.router, s'.input, s'.vc) = buffer

end OrderedWaiting

/-- How far a packet is on the way out: up in the first virtual channel, down in the last. -/
def heightIn (f : FlatFly) (vcs : VCRange) (s : FlatFlySpot) : Nat :=
  if s.input.1 then
    if s.vc = vcs.vcBegin then f.dimOf s.input.2 + 1
    else if s.vc = vcs.vcEnd then f.gN - f.dimOf s.input.2
    else 0
  else 0

/-- The packet in the virtual channel that is the way out for what sets the digit. -/
def wayOut (f : FlatFly) (pkt : FlatFlyPacket f) (s : FlatFlySpot) (up : Bool) (d : Nat) :
    FlatFlySpot where
  router := replaceDigit f.gK d (coordinate f.gK (target pkt.dest) d) s.router
  input := (true, f.output s.router d (coordinate f.gK (target pkt.dest) d))
  vc := if up then pkt.vcs.vcBegin else pkt.vcs.vcEnd

section WayOut

variable {first i d : Nat} {up : Bool} (hvcs : pkt.vcs.vcBegin < pkt.vcs.vcEnd)

include hvcs

theorem OnOrder.takes_wayOut (h : OnOrder pkt first i s) (hsets : SetsIn up pkt s d)
    (hoffers : call.route adaptive = some ((pkt.vcs.ordered up).offer
      (Int.ofNat (f.gC + f.place s.router d (coordinate f.gK (target pkt.dest) d))))) :
    call.Takes adaptive s (f.wayOut pkt s up d) := by
  have hleads := (leads_differing h.router hsets.mem).mpr ⟨rfl, rfl⟩
  exact ⟨_, _, hoffers, List.mem_singleton_self _, ⟨_, _, rfl, hleads, rfl⟩,
    ordered_wayOut hvcs up⟩

theorem OnOrder.heightIn_lt (h : OnOrder pkt first i s) (hsets : SetsIn up pkt s d) :
    f.heightIn pkt.vcs s < f.heightIn pkt.vcs (f.wayOut pkt s up d) := by
  obtain ⟨hd, hne⟩ := mem_differing.mp hsets.mem
  have havailable := availableVCs_pos hvcs
  have hout : f.heightIn pkt.vcs (f.wayOut pkt s up d) = if up then d + 1 else f.gN - d := by
    unfold heightIn wayOut
    rw [if_pos rfl, dimOf_differing h.router hsets.mem]
    cases up
    · exact (if_neg hvcs.ne').trans (if_pos rfl)
    · exact if_pos rfl
  rw [hout]
  have hpos : 0 < if up then d + 1 else f.gN - d := by
    split
    · exact Nat.succ_pos d
    · exact Nat.sub_pos_of_lt hd
  unfold heightIn
  split
  next hlink =>
    have hinput : s.input = (true, s.input.2) := Prod.ext hlink rfl
    have htold := hsets.told hlink
    split
    next hfirst =>
      rw [hfirst, decide_eq_true (by omega)] at htold
      rw [htold, if_pos rfl]
      by_contra hlt
      exact hne (h.up _ hinput hfirst d (by omega))
    next =>
      split
      next hlast =>
        rw [hlast, decide_eq_false (by omega)] at htold
        rw [htold, if_neg Bool.false_ne_true]
        by_contra hlt
        exact hne (h.down _ hinput hlast d hd (by omega))
      next => exact hpos
  next => exact hpos

end WayOut

theorem vcs_eq_of_shared {a b : VCRange} {vc : Int}
    (hshared : b = a ∨ b.vcEnd < a.vcBegin ∨ a.vcEnd < b.vcBegin)
    (ha : a.vcBegin ≤ vc ∧ vc ≤ a.vcEnd) (hb : b.vcBegin ≤ vc ∧ vc ≤ b.vcEnd) : b = a := by
  rcases hshared with heq | hbelow | habove
  · exact heq
  · omega
  · omega

/-- Packets with two virtual channels at least, of types that share all of them or none,
never wait for each other in a circle, whichever orders they take. -/
theorem xyyxFlatfly_not_deadlock {S : Set (OrderedWaiting f adaptive)}
    (hvcs : ∀ w ∈ S, w.pkt.vcs.vcBegin < w.pkt.vcs.vcEnd)
    (hshared : ∀ w ∈ S, ∀ q ∈ S, q.pkt.vcs = w.pkt.vcs ∨
      q.pkt.vcs.vcEnd < w.pkt.vcs.vcBegin ∨ w.pkt.vcs.vcEnd < q.pkt.vcs.vcBegin) :
    ¬ Progress.Deadlock OrderedWaiting.holds OrderedWaiting.wants S := by
  have htrack : ∀ w ∈ S, OnOrder w.pkt w.source.router w.hops w.spot := fun w hw =>
    onOrder_of_walk (hvcs w hw) w.injected w.reached
  have hsets : ∀ w ∈ S, ∃ up d, SetsIn up w.pkt w.spot d ∧ w.call.route adaptive =
      some ((w.pkt.vcs.ordered up).offer
        (Int.ofNat (f.gC + f.place w.spot.router d (coordinate f.gK (target w.pkt.dest) d)))) :=
    fun w hw => (htrack w hw).sets (hvcs w hw) w.routed w.inTransit adaptive
  refine Progress.not_deadlock_of_rank (fun w => f.heightIn w.pkt.vcs w.spot) (f.gN + 1)
    (fun w hw => ?_) (fun w hw => ?_)
  · obtain ⟨up, d, hset, -⟩ := hsets w hw
    have hN : 0 < f.gN := Nat.zero_lt_of_lt (mem_differing.mp hset.mem).1
    have hdim : f.dimOf w.spot.input.2 < f.gN := Nat.mod_lt _ hN
    dsimp only [heightIn]
    split_ifs <;> omega
  · obtain ⟨up, d, hset, hoffers⟩ := hsets w hw
    refine ⟨_, ⟨_, (htrack w hw).takes_wayOut (hvcs w hw) hset hoffers, rfl⟩,
      fun q hq hholds => ?_⟩
    obtain ⟨-, hbuffer⟩ := Prod.mk.inj hholds
    obtain ⟨hinput, hvc⟩ := Prod.mk.inj hbuffer
    -- who holds it has the same virtual channels
    have hsame : q.pkt.vcs = w.pkt.vcs :=
      vcs_eq_of_shared (hshared w hw q hq)
        (hvc ▸ (mem_ordered (hvcs w hw) (ordered_wayOut (hvcs w hw) up)).1)
        ⟨(htrack q hq).vcBegin_le, (htrack q hq).le_vcEnd⟩
    have hheight : f.heightIn q.pkt.vcs q.spot =
        f.heightIn w.pkt.vcs (f.wayOut w.pkt w.spot up d) := by
      unfold heightIn
      rw [hsame, hinput, hvc]
    rw [hheight]
    exact (htrack w hw).heightIn_lt (hvcs w hw) hset

/-! ### An example -/

/-- The call at the first router, where the lower digit is to be set first. -/
def atClientCall : FlatFlyOrderCall fourRouters where
  config := .twoVCs
  id := 0
  type := .anyType
  vc := 0
  dest := toThree.dest
  inChannel := 0
  inject := false
  draw := 1
  usedCredit _ := 0

theorem atClientCall_for : atClientCall.For toThree atClient :=
  ⟨rfl, rfl, rfl, rfl, rfl, by decide, rfl⟩

theorem toThree_vcs : toThree.vcs.vcBegin < toThree.vcs.vcEnd := by decide

theorem xyyxFlatfly_minimal_atClient :
    0 + fourRouters.distance 0 3 = fourRouters.distance 0 3 ∧ ∃ up port,
      atClientCall.route true = some ((toThree.vcs.ordered up).offer (Int.ofNat port)) ∧
        ∃! link : Nat × Nat, fourRouters.Leads 0 port link.1 link.2 :=
  have h := xyyxFlatfly_minimal toThree_vcs atClient_source
    (.start : Progress.Walk (OrderedHop true toThree) atClient 0 atClient) atClientCall_for
  ⟨h.1, h.2.2 (by decide)⟩

def atClientWaiting : OrderedWaiting fourRouters true where
  pkt := toThree
  src := ⟨0, zero_lt_fourRouters⟩
  source := atClient
  hops := 0
  spot := atClient
  call := atClientCall
  injected := atClient_source
  reached := .start
  routed := atClientCall_for
  inTransit := Nat.ne_of_beq_eq_false rfl

theorem xyyxFlatfly_not_deadlock_atClient :
    ¬ Progress.Deadlock OrderedWaiting.holds OrderedWaiting.wants {atClientWaiting} := by
  refine xyyxFlatfly_not_deadlock (fun w hw => ?_) (fun w hw q hq => ?_)
  · rw [Set.mem_singleton_iff.mp hw]
    exact toThree_vcs
  · rw [Set.mem_singleton_iff.mp hw, Set.mem_singleton_iff.mp hq]
    exact .inl rfl

end FlatFly

end Flyover
