import Flyover.Progress.Deadlock
import Flyover.Progress.Walks
import Flyover.Routing.Digits
import Mathlib.Data.Finset.Card
import Mathlib.Data.Finset.Range

/-!
# The flattened butterfly

`FlatFlyOnChip` links every router to all routers that differ from it in one digit.
`min_flatfly` sets the lowest digit in which a router differs from that of the
destination, so a packet makes as many hops as there are such digits, and the digits
that it sets go up.
-/

namespace Flyover

open Flyover.Cube

/-- `_k` and `_n`, with the arrangement of the routers and of the clients at a router. `y` and
`yr` are asserted to be `x` and `xr`. -/
structure FlatFly where
  gK : Nat
  gN : Nat
  xcount : Nat
  xrouter : Nat
  /-- `assert(dim < 4)` -/
  dims : gN ≤ 4
  /-- `x` times `y` routers -/
  arranged : xcount * xcount = gK ^ gN

namespace FlatFly

variable (f : FlatFly)

/-- `_c`, as it is asserted to be -/
def gC : Nat := f.xrouter * f.xrouter

/-- `_num_of_switch` -/
def size : Nat := f.gK ^ f.gN

/-- `_nodes` -/
def gNodes : Nat := f.size * f.gC

/-- `link` in the round for `y` and `x`, which adds the channels of a client at the port
`y * _xrouter + x`. -/
def client (node port : Nat) : Nat :=
  let y := port / f.xrouter
  let x := port % f.xrouter
  f.xcount * f.xrouter * (f.xrouter * (node / f.xcount) + y) + (f.xrouter * (node % f.xcount) + x)

/-- The router that the round for `dim` and `cnt` connects to. -/
def other (node dim cnt : Nat) : Nat :=
  let xcurr := node % f.gK
  let ycurr := node / f.gK
  let curr3 := node % (f.gK * f.gK)
  let curr4 := node / (f.gK * f.gK)
  let curr5 := node / (f.gK * f.gK * f.gK)
  let curr6 := node % (f.gK * f.gK * f.gK)
  if dim = 0 then ycurr * f.gK + cnt
  else if dim = 1 then
    if f.gN = 3 then cnt * f.gK + xcurr + curr4 * f.gK * f.gK
    else if f.gN = 4 then
      cnt * f.gK + xcurr + (curr4 % f.gK * f.gK * f.gK + curr5 * f.gK * f.gK * f.gK)
    else cnt * f.gK + xcurr
  else if dim = 2 then
    if f.gN = 4 then cnt * f.gK * f.gK + curr3 + curr5 * f.gK * f.gK * f.gK
    else cnt * f.gK * f.gK + curr3
  else cnt * f.gK * f.gK * f.gK + curr6

/-- `(_k-1) * dim + cnt + offset`: the routers of a dimension without the router itself. -/
def place (node dim cnt : Nat) : Nat :=
  if node < f.other node dim cnt then (f.gK - 1) * dim + cnt - 1 else (f.gK - 1) * dim + cnt

/-- `_output` -/
def output (node dim cnt : Nat) : Nat := (f.gK - 1) * f.gN * node + f.place node dim cnt

/-- The channel at a port behind those of the clients, where the channels of a router are
added in the order of their numbers, and the router that it leads to. -/
def Leads (node port channel far : Nat) : Prop :=
  ∃ dim < f.gN, ∃ cnt < f.gK, f.other node dim cnt ≠ node ∧ far = f.other node dim cnt ∧
    port = f.gC + f.place node dim cnt ∧ channel = f.output node dim cnt

/-- `flatfly_transformation` -/
def transformation (dest : Nat) : Nat :=
  let horizontal := dest % (f.xcount * f.xrouter) / f.xrouter
  let horizontalRem := dest % (f.xcount * f.xrouter) % f.xrouter
  let vertical := dest / (f.xcount * f.xrouter) / f.xrouter
  let verticalRem := dest / (f.xcount * f.xrouter) % f.xrouter
  (vertical * f.xcount + horizontal) * f.gC + f.xrouter * verticalRem + horizontalRem

/-- The loop of `flatfly_outport` from dimension `d` on, with `left` rounds left. -/
def outportLoop (gK gC : Nat) : Nat → Nat → Nat → Nat → Option Nat
  | 0, _, _, _ => none
  | left + 1, d, destRID, rID =>
      let dID := destRID % gK
      let sID := rID % gK
      if dID ≠ sID then
        let output := gC + (gK - 1) * d - 1
        some (if dID > sID then output + dID else output + (dID + 1))
      else outportLoop gK gC left (d + 1) (destRID / gK) (rID / gK)

/-- `flatfly_outport` -/
def outport (dest rID : Nat) : Option Nat :=
  if dest / f.gC = rID then some (dest % f.gC)
  else outportLoop f.gK f.gC f.gN 0 (dest / f.gC) rID

end FlatFly

/-- What a call of `min_flatfly` reads. -/
structure FlatFlyCall (f : FlatFly) where
  config : RoutingConfig
  id : Nat
  type : FlitType
  vc : Int
  dest : Fin f.gNodes
  inject : Bool

/-- `min_flatfly` -/
def FlatFlyCall.minFlatfly {f : FlatFly} (call : FlatFlyCall f) : Option (List Offer) :=
  let vcs := call.config.vcs call.type
  if (vcs.vcBegin ≤ call.vc ∧ call.vc ≤ vcs.vcEnd) ∨ (call.inject = true ∧ call.vc < 0) then
    if call.inject then some (vcs.offer (-1))
    else
      let dest := f.transformation call.dest
      if dest / f.gC = call.id then some (vcs.offer (Int.ofNat (dest % f.gC)))
      else (f.outport dest call.id).map fun port => vcs.offer (Int.ofNat port)
  else none

/-- What stays the same of a packet. -/
structure FlatFlyPacket (f : FlatFly) where
  config : RoutingConfig
  type : FlitType
  dest : Fin f.gNodes

/-- Where a packet is: the router, whether it came over a channel of the network or from a
client and over which, and its virtual channel. -/
structure FlatFlySpot where
  router : Nat
  input : Bool × Nat
  vc : Int

namespace FlatFly

variable {f : FlatFly} {pkt : FlatFlyPacket f} {s s' : FlatFlySpot}

/-- The call for a packet. -/
def callFor (pkt : FlatFlyPacket f) (s : FlatFlySpot) : FlatFlyCall f :=
  ⟨pkt.config, s.router, pkt.type, s.vc, pkt.dest, false⟩

/-- One hop: over an offered port, into an offered virtual channel. -/
def Hop (pkt : FlatFlyPacket f) (s s' : FlatFlySpot) : Prop :=
  ∃ offers offer, (callFor pkt s).minFlatfly = some offers ∧ offer ∈ offers ∧
    (∃ port channel, offer.outputPort = Int.ofNat port ∧
      f.Leads s.router port channel s'.router ∧ s'.input = (true, channel)) ∧
    offer.vcStart ≤ s'.vc ∧ s'.vc ≤ offer.vcEnd

/-- A packet that has been injected at node `src`. -/
structure Source (pkt : FlatFlyPacket f) (src : Fin f.gNodes) (s : FlatFlySpot) : Prop where
  router : s.router < f.size
  client : ∃ port < f.gC, f.client s.router port = src
  input : s.input = (false, src.val)
  vcBegin_le : (pkt.config.vcs pkt.type).vcBegin ≤ s.vc
  le_vcEnd : s.vc ≤ (pkt.config.vcs pkt.type).vcEnd

/-- The router that the destination is at. -/
def target (dest : Fin f.gNodes) : Nat := f.transformation dest / f.gC

/-- The digits in which two routers differ. -/
def differing (f : FlatFly) (a b : Nat) : Finset Nat :=
  (Finset.range f.gN).filter fun d => coordinate f.gK a d ≠ coordinate f.gK b d

def distance (f : FlatFly) (a b : Nat) : Nat := (f.differing a b).card

/-! ### Clients -/

theorem gC_pos (dest : Fin f.gNodes) : 0 < f.gC := by
  refine Nat.pos_of_ne_zero fun hzero => ?_
  have hlt : dest.val < f.size * f.gC := dest.isLt
  rw [hzero] at hlt
  exact absurd hlt (Nat.not_lt_zero _)

theorem xcount_pos (dest : Fin f.gNodes) : 0 < f.xcount := by
  refine Nat.pos_of_ne_zero fun hzero => ?_
  have hlt : dest.val < f.size * f.gC := dest.isLt
  rw [size, ← f.arranged, hzero, Nat.zero_mul] at hlt
  exact absurd hlt (Nat.not_lt_zero _)

/-- `flatfly_transformation` numbers the clients of a router one after another, in the order
of their ports. -/
theorem client_transformation (dest : Fin f.gNodes) : target dest < f.size ∧
    f.transformation dest % f.gC < f.gC ∧
      f.client (target dest) (f.transformation dest % f.gC) = dest := by
  have hC := gC_pos dest
  have hX := xcount_pos dest
  have hR : 0 < f.xrouter := Nat.pos_of_mul_pos_right hC
  have hlt : dest.val < f.xcount * f.xrouter * (f.xrouter * f.xcount) := by
    have hdest : dest.val < f.size * f.gC := dest.isLt
    rw [size, ← f.arranged, gC] at hdest
    exact hdest.trans_eq (by ring)
  have hhorizontal : dest.val % (f.xcount * f.xrouter) / f.xrouter < f.xcount :=
    Nat.div_lt_of_lt_mul (Nat.mul_comm f.xcount _ ▸ Nat.mod_lt _ (Nat.mul_pos hX hR))
  have hvertical : dest.val / (f.xcount * f.xrouter) / f.xrouter < f.xcount :=
    Nat.div_lt_of_lt_mul (Nat.div_lt_of_lt_mul hlt)
  have hport : f.xrouter * (dest.val / (f.xcount * f.xrouter) % f.xrouter) +
      dest.val % (f.xcount * f.xrouter) % f.xrouter < f.gC := by
    have hx := Nat.mod_lt (dest.val % (f.xcount * f.xrouter)) hR
    have hy : f.xrouter * (dest.val / (f.xcount * f.xrouter) % f.xrouter + 1) ≤
        f.xrouter * f.xrouter := Nat.mul_le_mul_left _ (Nat.mod_lt _ hR)
    rw [Nat.mul_add, Nat.mul_one] at hy
    exact (Nat.add_lt_add_left hx _).trans_le hy
  have hsplit : f.transformation dest = (dest.val / (f.xcount * f.xrouter) / f.xrouter * f.xcount +
      dest.val % (f.xcount * f.xrouter) / f.xrouter) * f.gC +
        (f.xrouter * (dest.val / (f.xcount * f.xrouter) % f.xrouter) +
          dest.val % (f.xcount * f.xrouter) % f.xrouter) := Nat.add_assoc _ _ _
  obtain ⟨hrouter, hrest⟩ := (eq_mul_add_iff hport).mp hsplit
  rw [target, hrouter, hrest]
  refine ⟨?_, hport, ?_⟩
  · have hrow := Nat.mul_le_mul_right f.xcount hvertical
    rw [Nat.succ_mul] at hrow
    rw [size, ← f.arranged]
    omega
  · obtain ⟨hrow, hcolumn⟩ := (eq_mul_add_iff hhorizontal).mp (rfl :
      dest.val / (f.xcount * f.xrouter) / f.xrouter * f.xcount +
        dest.val % (f.xcount * f.xrouter) / f.xrouter = _)
    have hx := Nat.mod_lt (dest.val % (f.xcount * f.xrouter)) hR
    simp only [client, hrow, hcolumn, Nat.mul_add_div hR, Nat.div_eq_of_lt hx, Nat.add_zero,
      Nat.mul_add_mod, Nat.mod_eq_of_lt hx]
    rw [Nat.div_add_mod, Nat.div_add_mod, Nat.div_add_mod]

/-! ### Links -/

section Links

variable {node d v : Nat}

theorem gK_pos (hnode : node < f.size) (hd : d < f.gN) : 0 < f.gK := by
  refine Nat.pos_of_ne_zero fun hzero => ?_
  rw [size, hzero, Nat.zero_pow (Nat.zero_lt_of_lt hd)] at hnode
  exact absurd hnode (Nat.not_lt_zero _)

theorem other_eq (hnode : node < f.size) (hd : d < f.gN) (v : Nat) :
    f.other node d v = replaceDigit f.gK d v node := by
  have hlt : node < f.gK ^ f.gN := hnode
  have hdims := f.dims
  have hthree : f.gK * f.gK * f.gK = f.gK ^ 3 := by ring
  unfold other replaceDigit
  obtain rfl | rfl | rfl | rfl : d = 0 ∨ d = 1 ∨ d = 2 ∨ d = 3 := by omega
  · simp [Nat.mod_one]
  · have hrest : node / f.gK ^ 2 = node / f.gK ^ 3 * f.gK + node / f.gK ^ 2 % f.gK :=
      div_pow_succ f.gK node 2
    change _ = node / f.gK ^ 2 * f.gK ^ 2 + v * f.gK ^ 1 + node % f.gK ^ 1
    rw [if_neg Nat.one_ne_zero, if_pos rfl, pow_one, hthree, ← pow_two]
    obtain hN | hN | hN : f.gN = 2 ∨ f.gN = 3 ∨ f.gN = 4 := by omega
    · rw [hN] at hlt
      rw [hN, if_neg (by decide), if_neg (by decide), Nat.div_eq_of_lt hlt]
      ring
    · rw [if_pos hN]
      ring
    · rw [if_neg (by omega), if_pos hN]
      conv_rhs => rw [hrest]
      ring
  · change _ = node / f.gK ^ 3 * f.gK ^ 3 + v * f.gK ^ 2 + node % f.gK ^ 2
    rw [if_neg (by decide), if_neg (by decide), if_pos rfl, hthree, ← pow_two]
    obtain hN | hN : f.gN = 3 ∨ f.gN = 4 := by omega
    · rw [hN] at hlt
      rw [hN, if_neg (by decide), Nat.div_eq_of_lt hlt]
      ring
    · rw [if_pos hN]
      ring
  · have hN : f.gN = 4 := by omega
    rw [hN] at hlt
    change _ = node / f.gK ^ 4 * f.gK ^ 4 + v * f.gK ^ 3 + node % f.gK ^ 3
    rw [if_neg (by decide), if_neg (by decide), if_neg (by decide), hthree, Nat.div_eq_of_lt hlt]
    ring

/-- The router is left out of its own dimension. -/
def rank (own cnt : Nat) : Nat := if own < cnt then cnt - 1 else cnt

theorem place_eq (hnode : node < f.size) (hd : d < f.gN) (hv : v < f.gK) :
    f.place node d v = d * (f.gK - 1) + rank (coordinate f.gK node d) v := by
  rw [place, other_eq hnode hd, rank, Nat.mul_comm d,
    if_congr (lt_replaceDigit_iff (Nat.zero_lt_of_lt hv)) rfl rfl]
  split
  next hlt => exact Nat.add_sub_assoc (Nat.one_le_of_lt hlt) _
  next => rfl

theorem rank_lt {own cnt : Nat} (hcnt : cnt < f.gK) (hown : own < f.gK) (hne : cnt ≠ own) :
    rank own cnt < f.gK - 1 := by
  unfold rank
  split <;> omega

theorem rank_inj {own cnt cnt' : Nat} (hne : cnt ≠ own) (hne' : cnt' ≠ own)
    (h : rank own cnt = rank own cnt') : cnt = cnt' := by
  unfold rank at h
  split at h <;> split at h <;> omega

/-- Every digit of a router leads to the router with another one in its place. -/
theorem leads_iff (hnode : node < f.size) {port channel far : Nat} :
    f.Leads node port channel far ↔ ∃ d < f.gN, ∃ v < f.gK, v ≠ coordinate f.gK node d ∧
      far = replaceDigit f.gK d v node ∧ port = f.gC + f.place node d v ∧
        channel = f.output node d v := by
  refine exists_congr fun d => and_congr_right fun hd => exists_congr fun v =>
    and_congr_right fun hv => ?_
  rw [other_eq hnode hd, Ne, replaceDigit_eq_iff hv]

/-- At the port of a digit and a value there is one channel. -/
theorem leads_place (hnode : node < f.size) (hd : d < f.gN) (hv : v < f.gK)
    (hne : v ≠ coordinate f.gK node d) {channel far : Nat} :
    f.Leads node (f.gC + f.place node d v) channel far ↔
      channel = f.output node d v ∧ far = replaceDigit f.gK d v node := by
  have hk : 0 < f.gK := Nat.zero_lt_of_lt hv
  rw [leads_iff hnode]
  constructor
  · rintro ⟨d', hd', v', hv', hne', rfl, hport, rfl⟩
    have hplace := Nat.add_left_cancel hport
    rw [place_eq hnode hd hv, place_eq hnode hd' hv',
      channel_eq_iff (rank_lt hv (coordinate_lt hk) hne)
        (rank_lt hv' (coordinate_lt hk) hne')] at hplace
    obtain ⟨rfl, hrank⟩ := hplace
    obtain rfl := rank_inj hne hne' hrank
    exact ⟨rfl, rfl⟩
  · rintro ⟨rfl, rfl⟩
    exact ⟨d, hd, v, hv, hne, rfl, rfl, rfl⟩

/-- The dimension of a channel. -/
def dimOf (f : FlatFly) (channel : Nat) : Nat := channel / (f.gK - 1) % f.gN

theorem dimOf_output (hnode : node < f.size) (hd : d < f.gN) (hv : v < f.gK)
    (hne : v ≠ coordinate f.gK node d) : f.dimOf (f.output node d v) = d := by
  have hrank := rank_lt hv (coordinate_lt (Nat.zero_lt_of_lt hv)) hne
  have hsplit : f.output node d v =
      (node * f.gN + d) * (f.gK - 1) + rank (coordinate f.gK node d) v := by
    rw [output, place_eq hnode hd hv]
    ring
  rw [dimOf, ((eq_mul_add_iff hrank).mp hsplit).1, Nat.mul_add_mod_self_right, Nat.mod_eq_of_lt hd]

end Links

/-! ### Distances -/

section Distance

variable {a b d v : Nat}

theorem mem_differing : d ∈ f.differing a b ↔ d < f.gN ∧ coordinate f.gK a d ≠ coordinate f.gK b d := by
  rw [differing, Finset.mem_filter, Finset.mem_range]

theorem distance_eq_zero (ha : a < f.size) (hb : b < f.size) : f.distance a b = 0 ↔ a = b := by
  rw [distance, Finset.card_eq_zero]
  constructor
  · intro hempty
    refine eq_of_coordinates ha hb fun d hd => ?_
    by_contra hne
    have hmem : d ∈ f.differing a b := mem_differing.mpr ⟨hd, hne⟩
    rw [hempty] at hmem
    exact Finset.notMem_empty d hmem
  · rintro rfl
    refine Finset.eq_empty_of_forall_notMem fun d hd => (mem_differing.mp hd).2 rfl

/-- Setting a digit that differs. -/
theorem distance_set (hk : 0 < f.gK) (hd : d ∈ f.differing a b) :
    f.distance (replaceDigit f.gK d (coordinate f.gK b d) a) b + 1 = f.distance a b := by
  have hv : coordinate f.gK b d < f.gK := coordinate_lt hk
  have herase : f.differing (replaceDigit f.gK d (coordinate f.gK b d) a) b =
      (f.differing a b).erase d := by
    ext j
    rw [Finset.mem_erase, mem_differing, mem_differing]
    by_cases hj : j = d
    · subst hj
      simp [coordinate_replaceDigit hv]
    · rw [coordinate_replaceDigit_of_ne hv hj]
      exact (and_iff_right hj).symm
  rw [distance, herase, Finset.card_erase_add_one hd]
  rfl

/-- No link sets more than one digit. -/
theorem distance_le_of_replaceDigit (hv : v < f.gK) :
    f.distance a b ≤ f.distance (replaceDigit f.gK d v a) b + 1 := by
  have hsub : f.differing a b ⊆ insert d (f.differing (replaceDigit f.gK d v a) b) := by
    intro j hj
    rw [Finset.mem_insert]
    by_cases hjd : j = d
    · exact .inl hjd
    · refine .inr (mem_differing.mpr ?_)
      rw [coordinate_replaceDigit_of_ne hv hjd]
      exact mem_differing.mp hj
  exact (Finset.card_le_card hsub).trans (Finset.card_insert_le _ _)

/-- The one channel behind the port for a digit that is to be set. -/
theorem leads_differing {channel far : Nat} (ha : a < f.size) (hd : d ∈ f.differing a b) :
    f.Leads a (f.gC + f.place a d (coordinate f.gK b d)) channel far ↔
      channel = f.output a d (coordinate f.gK b d) ∧
        far = replaceDigit f.gK d (coordinate f.gK b d) a := by
  obtain ⟨hlt, hne⟩ := mem_differing.mp hd
  exact leads_place ha hlt (coordinate_lt (gK_pos ha hlt)) hne.symm

theorem dimOf_differing (ha : a < f.size) (hd : d ∈ f.differing a b) :
    f.dimOf (f.output a d (coordinate f.gK b d)) = d := by
  obtain ⟨hlt, hne⟩ := mem_differing.mp hd
  exact dimOf_output ha hlt (coordinate_lt (gK_pos ha hlt)) hne.symm

theorem existsUnique_link (ha : a < f.size) (hd : d ∈ f.differing a b) :
    ∃! link : Nat × Nat,
      f.Leads a (f.gC + f.place a d (coordinate f.gK b d)) link.1 link.2 := by
  refine ⟨(_, _), (leads_differing ha hd).mpr ⟨rfl, rfl⟩, ?_⟩
  rintro ⟨channel, far⟩ hleads
  obtain ⟨hchannel, hfar⟩ := (leads_differing ha hd).mp hleads
  exact Prod.ext hchannel hfar

end Distance

/-! ### The loop -/

/-- The loop comes to the lowest digit that differs. -/
theorem outportLoop_eq (gK gC : Nat) {left d dest rid : Nat}
    (h : ∃ j < left, coordinate gK dest j ≠ coordinate gK rid j) :
    ∃ j < left, coordinate gK dest j ≠ coordinate gK rid j ∧
      (∀ i < j, coordinate gK dest i = coordinate gK rid i) ∧
      outportLoop gK gC left d dest rid = some (if coordinate gK dest j > coordinate gK rid j then
        gC + (gK - 1) * (d + j) - 1 + coordinate gK dest j
        else gC + (gK - 1) * (d + j) - 1 + (coordinate gK dest j + 1)) := by
  induction left generalizing d dest rid with
  | zero =>
      obtain ⟨j, hj, -⟩ := h
      exact absurd hj (Nat.not_lt_zero j)
  | succ left ih =>
      rw [outportLoop]
      by_cases hfirst : dest % gK = rid % gK
      · obtain ⟨j, hj, hne, hbelow, heq⟩ : ∃ j < left,
            coordinate gK (dest / gK) j ≠ coordinate gK (rid / gK) j ∧
            (∀ i < j, coordinate gK (dest / gK) i = coordinate gK (rid / gK) i) ∧
            outportLoop gK gC left (d + 1) (dest / gK) (rid / gK) = some _ := by
          refine ih ?_
          obtain ⟨j, hj, hne⟩ := h
          cases j with
          | zero =>
              rw [coordinate_zero, coordinate_zero] at hne
              exact absurd hfirst hne
          | succ j =>
              rw [coordinate_succ, coordinate_succ] at hne
              exact ⟨j, Nat.lt_of_succ_lt_succ hj, hne⟩
        refine ⟨j + 1, Nat.succ_lt_succ hj, ?_, fun i hi => ?_, ?_⟩
        · rw [coordinate_succ, coordinate_succ]
          exact hne
        · cases i with
          | zero =>
              rw [coordinate_zero, coordinate_zero]
              exact hfirst
          | succ i =>
              rw [coordinate_succ, coordinate_succ]
              exact hbelow i (Nat.lt_of_succ_lt_succ hi)
        · rw [if_neg (not_not.mpr hfirst), heq, coordinate_succ, coordinate_succ, Nat.add_assoc d,
            Nat.add_comm 1]
      · refine ⟨0, Nat.zero_lt_succ left, ?_, fun i hi => absurd hi (Nat.not_lt_zero i), ?_⟩
        · rw [coordinate_zero, coordinate_zero]
          exact hfirst
        · rw [if_pos hfirst, coordinate_zero, coordinate_zero]
          rfl

theorem exists_differing {node dest : Nat} (hnode : node < f.size) (hdest : dest < f.size)
    (hne : dest ≠ node) : ∃ j < f.gN, coordinate f.gK dest j ≠ coordinate f.gK node j := by
  by_contra hall
  refine hne (eq_of_coordinates hdest hnode fun j hj => ?_)
  by_contra hj'
  exact hall ⟨j, hj, hj'⟩

/-- What is added up is the port of a digit and a value. -/
theorem port_eq {node d v : Nat} (hnode : node < f.size) (hd : d < f.gN) (hv : v < f.gK)
    (hC : 0 < f.gC) : (if v > coordinate f.gK node d then f.gC + (f.gK - 1) * d - 1 + v
      else f.gC + (f.gK - 1) * d - 1 + (v + 1)) = f.gC + f.place node d v := by
  rw [place_eq hnode hd hv, rank, Nat.mul_comm d]
  generalize (f.gK - 1) * d = before
  split <;> omega

/-- On the way `flatfly_outport` gives the port of the lowest digit that differs. -/
theorem outport_eq {node dest : Nat} (hnode : node < f.size) (hdest : dest / f.gC < f.size)
    (hC : 0 < f.gC) (hne : dest / f.gC ≠ node) :
    ∃ d ∈ f.differing node (dest / f.gC),
      (∀ i < d, coordinate f.gK node i = coordinate f.gK (dest / f.gC) i) ∧
      f.outport dest node = some (f.gC + f.place node d (coordinate f.gK (dest / f.gC) d)) := by
  obtain ⟨d, hd, hd', hbelow, heq⟩ :=
    outportLoop_eq f.gK f.gC (d := 0) (exists_differing hnode hdest hne)
  refine ⟨d, mem_differing.mpr ⟨hd, hd'.symm⟩, fun i hi => (hbelow i hi).symm, ?_⟩
  rw [outport, if_neg hne, heq, Nat.zero_add, port_eq hnode hd (coordinate_lt (gK_pos hnode hd)) hC]

/-! ### Delivery -/

/-- A packet after `i` hops. The digits up to the one that it has set last are those of its
destination. -/
structure OnTrack (pkt : FlatFlyPacket f) (first i : Nat) (s : FlatFlySpot) : Prop where
  router : s.router < f.size
  count : i + f.distance s.router (target pkt.dest) = f.distance first (target pkt.dest)
  past : ∀ channel, s.input = (true, channel) → ∀ j ≤ f.dimOf channel,
    coordinate f.gK s.router j = coordinate f.gK (target pkt.dest) j
  vcBegin_le : (pkt.config.vcs pkt.type).vcBegin ≤ s.vc
  le_vcEnd : s.vc ≤ (pkt.config.vcs pkt.type).vcEnd

/-- On the way the lowest digit that differs is set. -/
structure Sets (pkt : FlatFlyPacket f) (s : FlatFlySpot) (d : Nat) : Prop where
  mem : d ∈ f.differing s.router (target pkt.dest)
  below : ∀ i < d, coordinate f.gK s.router i = coordinate f.gK (target pkt.dest) i
  offers : (callFor pkt s).minFlatfly = some ((pkt.config.vcs pkt.type).offer
    (Int.ofNat (f.gC + f.place s.router d (coordinate f.gK (target pkt.dest) d))))

section OnTrack

variable {first i d port channel far : Nat}

theorem OnTrack.ejects (h : OnTrack pkt first i s) (harrived : s.router = target pkt.dest) :
    (callFor pkt s).minFlatfly = some ((pkt.config.vcs pkt.type).offer
      (Int.ofNat (f.transformation pkt.dest % f.gC))) := by
  unfold FlatFlyCall.minFlatfly
  rw [if_pos (.inl ⟨h.vcBegin_le, h.le_vcEnd⟩)]
  exact (if_neg Bool.false_ne_true).trans (if_pos harrived.symm)

theorem OnTrack.sets (h : OnTrack pkt first i s) (hfar : s.router ≠ target pkt.dest) :
    ∃ d, Sets pkt s d := by
  obtain ⟨d, hmem, hbelow, heq⟩ := outport_eq h.router (client_transformation pkt.dest).1
    (gC_pos pkt.dest) hfar.symm
  refine ⟨d, hmem, hbelow, ?_⟩
  unfold FlatFlyCall.minFlatfly
  rw [if_pos (.inl ⟨h.vcBegin_le, h.le_vcEnd⟩)]
  refine (if_neg Bool.false_ne_true).trans ((if_neg hfar.symm).trans ?_)
  change Option.map _ (f.outport (f.transformation pkt.dest) s.router) = _
  rw [heq]
  rfl

/-- A hop sets the digit. -/
theorem OnTrack.hop_iff (h : OnTrack pkt first i s) (hhop : Hop pkt s s') :
    ∃ d, Sets pkt s d ∧
      s'.router = replaceDigit f.gK d (coordinate f.gK (target pkt.dest) d) s.router ∧
      s'.input = (true, f.output s.router d (coordinate f.gK (target pkt.dest) d)) ∧
      (pkt.config.vcs pkt.type).vcBegin ≤ s'.vc ∧ s'.vc ≤ (pkt.config.vcs pkt.type).vcEnd := by
  obtain ⟨offers, offer, hcall, hmem, ⟨port, channel, hport, hleads, hinput⟩, hvc⟩ := hhop
  by_cases harrived : s.router = target pkt.dest
  · obtain rfl := Option.some.inj ((h.ejects harrived).symm.trans hcall)
    obtain rfl := List.mem_singleton.mp hmem
    obtain rfl := Int.ofNat_inj.mp hport
    obtain ⟨d, -, v, -, -, -, hlink, -⟩ := hleads
    have hlt := (client_transformation pkt.dest).2.1
    omega
  · obtain ⟨d, hsets⟩ := h.sets harrived
    obtain rfl := Option.some.inj (hsets.offers.symm.trans hcall)
    obtain rfl := List.mem_singleton.mp hmem
    obtain rfl := Int.ofNat_inj.mp hport
    obtain ⟨rfl, hrouter⟩ := (leads_differing h.router hsets.mem).mp hleads
    exact ⟨d, hsets, hrouter, hinput, hvc⟩

theorem OnTrack.hop (h : OnTrack pkt first i s) (hhop : Hop pkt s s') :
    OnTrack pkt first (i + 1) s' := by
  obtain ⟨d, hsets, hrouter, hinput, hvc⟩ := h.hop_iff hhop
  obtain ⟨hd, hne⟩ := mem_differing.mp hsets.mem
  have hk := gK_pos h.router hd
  have hv : coordinate f.gK (target pkt.dest) d < f.gK := coordinate_lt hk
  refine ⟨hrouter ▸ replaceDigit_lt hv hd h.router, ?_, fun channel hchannel j hj => ?_, hvc.1, hvc.2⟩
  · have hset := distance_set hk hsets.mem
    have hcount := h.count
    rw [hrouter]
    omega
  · obtain rfl := (Prod.mk.inj (hinput.symm.trans hchannel)).2
    rw [dimOf_differing h.router hsets.mem] at hj
    rw [hrouter]
    obtain rfl | hlt := Nat.eq_or_lt_of_le hj
    · exact coordinate_replaceDigit hv
    · rw [coordinate_replaceDigit_of_ne hv hlt.ne]
      exact hsets.below j hlt

end OnTrack

theorem Source.onTrack {src : Fin f.gNodes} (h : Source pkt src s) : OnTrack pkt s.router 0 s where
  router := h.router
  count := Nat.zero_add _
  past channel hchannel := by
    have hinput := h.input.symm.trans hchannel
    cases hinput
  vcBegin_le := h.vcBegin_le
  le_vcEnd := h.le_vcEnd

theorem onTrack_of_walk {src : Fin f.gNodes} {source : FlatFlySpot} {i : Nat}
    (hsource : Source pkt src source) (hwalk : Progress.Walk (Hop pkt) source i s) :
    OnTrack pkt source.router i s :=
  hwalk.invariant (P := OnTrack pkt source.router) hsource.onTrack OnTrack.hop

/-- No way over the links is shorter than the number of digits that differ. -/
theorem distance_le_of_links {a b n : Nat} (ha : a < f.size)
    (hwalk : Progress.Walk (fun a b => ∃ port channel, f.Leads a port channel b) a n b) (t : Nat) :
    b < f.size ∧ f.distance a t ≤ n + f.distance b t := by
  refine hwalk.invariant (P := fun n b => b < f.size ∧ f.distance a t ≤ n + f.distance b t)
    ⟨ha, (Nat.zero_add _).ge⟩ ?_
  rintro i b b' ⟨hb, hle⟩ ⟨port, channel, hleads⟩
  obtain ⟨d, hd, v, hv, -, rfl, -, -⟩ := (leads_iff hb).mp hleads
  have hone := distance_le_of_replaceDigit (a := b) (b := t) (d := d) hv
  exact ⟨replaceDigit_lt hv hd hb, by omega⟩

/-- A packet makes as many hops as there are digits in which its first router differs from
that of its destination, where it is ejected, and no way over the links is shorter. -/
theorem minFlatfly_minimal {src : Fin f.gNodes} {source : FlatFlySpot} {i : Nat}
    (hsource : Source pkt src source) (hwalk : Progress.Walk (Hop pkt) source i s) :
    i + f.distance s.router (target pkt.dest) = f.distance source.router (target pkt.dest) ∧
    (s.router = target pkt.dest → ∃ port < f.gC,
      (callFor pkt s).minFlatfly = some ((pkt.config.vcs pkt.type).offer (Int.ofNat port)) ∧
        f.client s.router port = pkt.dest) ∧
    (s.router ≠ target pkt.dest → ∃ port,
      (callFor pkt s).minFlatfly = some ((pkt.config.vcs pkt.type).offer (Int.ofNat port)) ∧
        ∃! link : Nat × Nat, f.Leads s.router port link.1 link.2) ∧
    ∀ n, Progress.Walk (fun a b => ∃ port channel, f.Leads a port channel b) source.router n
      (target pkt.dest) → f.distance source.router (target pkt.dest) ≤ n := by
  have htrack := onTrack_of_walk hsource hwalk
  have htarget := client_transformation pkt.dest
  refine ⟨htrack.count, fun harrived => ?_, fun hfar => ?_, fun n hlinks => ?_⟩
  · refine ⟨_, htarget.2.1, htrack.ejects harrived, ?_⟩
    rw [harrived]
    exact htarget.2.2
  · obtain ⟨d, hsets⟩ := htrack.sets hfar
    exact ⟨_, hsets.offers, existsUnique_link htrack.router hsets.mem⟩
  · have hle := (distance_le_of_links hsource.router hlinks (target pkt.dest)).2
    rw [(distance_eq_zero htarget.1 htarget.1).mpr rfl] at hle
    exact hle

/-! ### Deadlocks -/

/-- A packet that waits on its way. -/
structure Waiting (f : FlatFly) where
  pkt : FlatFlyPacket f
  src : Fin f.gNodes
  source : FlatFlySpot
  hops : Nat
  spot : FlatFlySpot
  injected : Source pkt src source
  reached : Progress.Walk (Hop pkt) source hops spot
  inTransit : spot.router ≠ target pkt.dest

namespace Waiting

/-- The buffer that it is in: the router, the channel that it came over and the virtual
channel. -/
def holds (w : Waiting f) : Nat × (Bool × Nat) × Int := (w.spot.router, w.spot.input, w.spot.vc)

/-- The buffers that it may go on to. -/
def wants (w : Waiting f) (buffer : Nat × (Bool × Nat) × Int) : Prop :=
  ∃ s' : FlatFlySpot, Hop w.pkt w.spot s' ∧ (s'.router, s'.input, s'.vc) = buffer

end Waiting

/-- One more than the dimension of the channel, or 0 for a client. -/
def height (f : FlatFly) (input : Bool × Nat) : Nat := if input.1 then f.dimOf input.2 + 1 else 0

theorem OnTrack.height_le {first i d : Nat} (h : OnTrack pkt first i s) (hsets : Sets pkt s d) :
    f.height s.input ≤ d := by
  unfold height
  split
  next hlink =>
    by_contra hlt
    exact (mem_differing.mp hsets.mem).2
      (h.past s.input.2 (Prod.ext hlink rfl) d (Nat.lt_succ_iff.mp (not_le.mp hlt)))
  next => exact Nat.zero_le d

/-- Packets never wait for each other in a circle, however few virtual channels they have. -/
theorem minFlatfly_not_deadlock (S : Set (Waiting f)) :
    ¬ Progress.Deadlock Waiting.holds Waiting.wants S := by
  have htrack : ∀ w : Waiting f, OnTrack w.pkt w.source.router w.hops w.spot := fun w =>
    onTrack_of_walk w.injected w.reached
  refine Progress.not_deadlock_of_rank (fun w => f.height w.spot.input) f.gN
    (fun w _ => ?_) (fun w _ => ?_)
  · obtain ⟨d, hsets⟩ := (htrack w).sets w.inTransit
    exact ((htrack w).height_le hsets).trans (mem_differing.mp hsets.mem).1.le
  · obtain ⟨d, hsets⟩ := (htrack w).sets w.inTransit
    have hleads := (leads_differing (htrack w).router hsets.mem).mpr ⟨rfl, rfl⟩
    let next : FlatFlySpot := ⟨replaceDigit f.gK d (coordinate f.gK (target w.pkt.dest) d)
      w.spot.router, (true, f.output w.spot.router d (coordinate f.gK (target w.pkt.dest) d)),
      w.spot.vc⟩
    have hhop : Hop w.pkt w.spot next :=
      ⟨_, _, hsets.offers, List.mem_singleton_self _, ⟨_, _, rfl, hleads, rfl⟩,
        (htrack w).vcBegin_le, (htrack w).le_vcEnd⟩
    refine ⟨_, ⟨next, hhop, rfl⟩, fun q _ hholds => ?_⟩
    obtain ⟨-, hbuffer⟩ := Prod.mk.inj hholds
    rw [(Prod.mk.inj hbuffer).1]
    refine Nat.lt_of_le_of_lt ((htrack w).height_le hsets) ?_
    change d < f.dimOf (f.output w.spot.router d _) + 1
    rw [dimOf_differing (htrack w).router hsets.mem]
    exact Nat.lt_succ_self d

/-! ### An example -/

theorem fourRouters_dims : 2 ≤ 4 := by decide

theorem fourRouters_arranged : 2 * 2 = 2 ^ 2 := by decide

/-- Two routers along each of two dimensions, with one client each. -/
def fourRouters : FlatFly := ⟨2, 2, 2, 1, fourRouters_dims, fourRouters_arranged⟩

theorem zero_lt_fourRouters : 0 < fourRouters.gNodes := by decide

theorem three_lt_fourRouters : 3 < fourRouters.gNodes := by decide

/-- A packet to node 3, -/
def toThree : FlatFlyPacket fourRouters := ⟨.twoVCs, .anyType, ⟨3, three_lt_fourRouters⟩⟩

def atClient : FlatFlySpot := ⟨0, (false, 0), 0⟩

/-- behind its first hop. -/
def afterFirst : FlatFlySpot := ⟨1, (true, 0), 1⟩

theorem atClient_source : Source toThree ⟨0, zero_lt_fourRouters⟩ atClient :=
  ⟨by decide, ⟨0, by decide, by decide⟩, rfl, by decide, by decide⟩

theorem afterFirst_walk : Progress.Walk (Hop toThree) atClient 1 afterFirst := by
  have hleads : fourRouters.Leads 0 1 0 1 :=
    ⟨0, by decide, 1, by decide, by decide, by decide, by decide, by decide⟩
  exact .step .start ⟨_, _, rfl, List.mem_singleton_self _, ⟨1, 0, rfl, hleads, rfl⟩,
    by decide, by decide⟩

theorem minFlatfly_minimal_afterFirst :
    1 + fourRouters.distance 1 3 = fourRouters.distance 0 3 ∧ ∃ port,
      (callFor toThree afterFirst).minFlatfly =
        some ((RoutingConfig.twoVCs.vcs .anyType).offer (Int.ofNat port)) ∧
      ∃! link : Nat × Nat, fourRouters.Leads 1 port link.1 link.2 :=
  have h := minFlatfly_minimal atClient_source afterFirst_walk
  ⟨h.1, h.2.2.1 (by decide)⟩

def afterFirstWaiting : Waiting fourRouters where
  pkt := toThree
  src := ⟨0, zero_lt_fourRouters⟩
  source := atClient
  hops := 1
  spot := afterFirst
  injected := atClient_source
  reached := afterFirst_walk
  inTransit := Nat.ne_of_beq_eq_false rfl

theorem minFlatfly_not_deadlock_afterFirst :
    ¬ Progress.Deadlock Waiting.holds Waiting.wants {afterFirstWaiting} :=
  minFlatfly_not_deadlock {afterFirstWaiting}

end FlatFly

end Flyover
