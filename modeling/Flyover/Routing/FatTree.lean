import Flyover.Progress.Deadlock
import Flyover.Progress.Walks
import Flyover.Routing.Digits
import Mathlib.Data.Nat.Find

/-!
# The fat tree

`FatTree` has `gN` levels of routers, the top level first. A way up exchanges a digit of
the position with the port that it leaves by, a way down puts it back, so the leading
digits of the position tell which part of the tree is below a router. Packets go up by
any ports until their destination is below, and then down by its digits.
-/

namespace Flyover

open Flyover.Cube

/-- `_k` and `_n` -/
structure FatTree where
  gK : Nat
  gN : Nat

/-- A router: its level and its position in the level. -/
structure TreeRouter where
  level : Nat
  pos : Nat

namespace FatTree

variable (f : FatTree)

/-- `gNodes` -/
def gNodes : Nat := f.gK ^ f.gN

/-- `nPos` -/
def nPos : Nat := f.gK ^ (f.gN - 1)

/-- The identifier that `_BuildNet` gives to a router. -/
def id (r : TreeRouter) : Nat := r.level * f.nPos + r.pos

/-- `chan_per_direction` -/
def chanPerDirection : Nat := f.gK * f.gK ^ (f.gN - 1)

/-- `chan_per_level` -/
def chanPerLevel : Nat := 2 * (f.gK * f.gK ^ (f.gN - 1))

/-- The link of a down output channel. -/
def downOutput (level pos port : Nat) : Nat := level * f.chanPerLevel + pos * f.gK + port

/-- The link of an up output channel. -/
def upOutput (level pos port : Nat) : Nat :=
  level * f.chanPerLevel - f.chanPerDirection + pos * f.gK + port

/-- The link of a down input channel. -/
def downInput (level pos port : Nat) : Nat :=
  let routersPerNeighborhood := f.gK ^ (f.gN - 1 - level)
  let routersPerBranch := f.gK ^ (f.gN - 1 - (level + 1))
  let levelOffset := routersPerNeighborhood * f.gK
  let neighborhood := pos / routersPerNeighborhood
  let neighborhoodPos := pos % routersPerNeighborhood
  ((level + 1) * f.chanPerLevel - f.chanPerDirection) + neighborhood * levelOffset +
    port * routersPerBranch * f.gK + neighborhoodPos % routersPerBranch * f.gK +
    neighborhoodPos / routersPerBranch

/-- The link of an up input channel. -/
def upInput (level pos port : Nat) : Nat :=
  let routersPerNeighborhood := f.gK ^ (f.gN - 1 - (level - 1))
  let routersPerBranch := f.gK ^ (f.gN - 1 - level)
  let levelOffset := routersPerNeighborhood * f.gK
  let neighborhood := pos / routersPerNeighborhood
  let neighborhoodPos := pos % routersPerNeighborhood
  ((level - 1) * f.chanPerLevel) + neighborhood * levelOffset +
    port * routersPerBranch * f.gK + neighborhoodPos % routersPerBranch * f.gK +
    neighborhoodPos / routersPerBranch

/-- The channels of the network among the output channels, down ports first; the last
level has the ejection channels there. -/
def outputChannel (r : TreeRouter) (port : Nat) : Option Nat :=
  if port < f.gK then
    if r.level < f.gN - 1 then some (f.downOutput r.level r.pos port) else none
  else if r.level = 0 then none
  else some (f.upOutput r.level r.pos (port - f.gK))

/-- The channels of the network among the input channels. -/
def inputChannel (r : TreeRouter) (port : Nat) : Option Nat :=
  if port < f.gK then
    if r.level < f.gN - 1 then some (f.downInput r.level r.pos port) else none
  else if r.level = 0 then none
  else some (f.upInput r.level r.pos (port - f.gK))

/-- A router that is there. -/
structure Placed (r : TreeRouter) : Prop where
  level : r.level < f.gN
  pos : r.pos < f.nPos

/-- A channel of the network leads from the one to the other. -/
def Feeds (r : TreeRouter) (port : Nat) (r' : TreeRouter) (port' : Nat) : Prop :=
  ∃ c, f.outputChannel r port = some c ∧ f.inputChannel r' port' = some c

end FatTree

/-- What a call of `fattree_nca` or `fattree_anca` reads. -/
structure TreeCall (f : FatTree) where
  config : RoutingConfig
  id : Nat
  type : FlitType
  vc : Int
  dest : Fin f.gNodes
  inChannel : Nat
  inject : Bool
  usedCredit : Nat → Int
  draw : Nat → Nat

namespace TreeCall

variable {f : FatTree} (call : TreeCall f)

/-- `router_depth` -/
def routerDepth : Nat := call.id / f.gK ^ (f.gN - 1)

/-- `router_neighborhood` -/
def routerNeighborhood : Nat :=
  call.id % f.gK ^ (f.gN - 1) / f.gK ^ (f.gN - call.routerDepth - 1)

/-- `router_coverage` -/
def routerCoverage : Nat := f.gK ^ (f.gN - call.routerDepth)

/-- The destination is below the router. -/
def covers : Bool :=
  decide (call.dest < (call.routerNeighborhood + 1) * call.routerCoverage ∧
    call.routerNeighborhood * call.routerCoverage ≤ call.dest)

/-- What both functions have in common; they differ in the way `up`. -/
def routeTree (up : Nat) : Option (List Offer) :=
  let vcs := call.config.vcs call.type
  if (vcs.vcBegin ≤ call.vc ∧ call.vc ≤ vcs.vcEnd) ∨ (call.inject = true ∧ call.vc < 0) then
    if call.inject then some (vcs.offer (-1))
    else if call.covers then
      if call.routerDepth = f.gN - 1 then some (vcs.offer (Int.ofNat (call.dest % f.gK)))
      else
        let routerBranchCoverage := f.gK ^ (f.gN - (call.routerDepth + 1))
        some (vcs.offer (Int.ofNat
          ((call.dest - call.routerNeighborhood * call.routerCoverage) / routerBranchCoverage)))
    -- `assert(in_channel<gK)`
    else if call.inChannel < f.gK then some (vcs.offer (Int.ofNat (f.gK + up)))
    else none
  else none

/-- `fattree_nca` -/
def fattreeNca : Option (List Offer) := call.routeTree (call.draw 0)

/-- `fattree_anca`: the less loaded of two ports that are drawn. -/
def fattreeAnca : Option (List Offer) :=
  call.routeTree
    (if call.usedCredit (f.gK + call.draw 0) > call.usedCredit (f.gK + call.draw 1) then call.draw 1
      else call.draw 0)

end TreeCall

namespace FatTree

variable {f : FatTree} {r r' : TreeRouter} {port port' : Nat}

/-! ### The wiring -/

theorem nPos_mul (hN : 0 < f.gN) : f.nPos * f.gK = f.gNodes := by
  rw [nPos, FatTree.gNodes, ← pow_succ, Nat.sub_add_cancel hN]

theorem chanPerDirection_eq (hN : 0 < f.gN) : f.chanPerDirection = f.gNodes := by
  rw [← nPos_mul hN]
  exact Nat.mul_comm _ _

theorem chanPerLevel_eq (hN : 0 < f.gN) : f.chanPerLevel = 2 * f.gNodes := by
  rw [← chanPerDirection_eq hN]
  rfl

theorem channel_lt {pos : Nat} (hN : 0 < f.gN) (hpos : pos < f.nPos) (hport : port < f.gK) :
    pos * f.gK + port < f.gNodes := by
  have hnext : (pos + 1) * f.gK ≤ f.nPos * f.gK := Nat.mul_le_mul_right _ hpos
  rw [Nat.add_mul, Nat.one_mul, nPos_mul hN] at hnext
  exact Nat.lt_of_lt_of_le (Nat.add_lt_add_left hport _) hnext

theorem downOutput_eq (hN : 0 < f.gN) (level pos port : Nat) :
    f.downOutput level pos port = 2 * level * f.gNodes + (pos * f.gK + port) := by
  rw [downOutput, chanPerLevel_eq hN]
  ring

/-- The links up from a level come right before those down. -/
theorem upward_eq (hN : 0 < f.gN) (level : Nat) :
    (level + 1) * f.chanPerLevel - f.chanPerDirection = (2 * level + 1) * f.gNodes := by
  have hsplit : (level + 1) * (2 * f.gNodes) = (2 * level + 1) * f.gNodes + f.gNodes := by ring
  rw [chanPerLevel_eq hN, chanPerDirection_eq hN, hsplit, Nat.add_sub_cancel]

theorem upOutput_eq (hN : 0 < f.gN) (level pos port : Nat) :
    f.upOutput (level + 1) pos port = (2 * level + 1) * f.gNodes + (pos * f.gK + port) := by
  rw [upOutput, upward_eq hN, Nat.add_assoc]

/-- The interleaved numbering of the input channels: the port and a digit change places. -/
theorem interleaved_eq (k d pos port : Nat) :
    pos / k ^ (d + 1) * (k ^ (d + 1) * k) + port * k ^ d * k + pos % k ^ (d + 1) % k ^ d * k +
        pos % k ^ (d + 1) / k ^ d =
      replaceDigit k d port pos * k + coordinate k pos d := by
  have hlow : pos % k ^ (d + 1) % k ^ d = pos % k ^ d :=
    Nat.mod_mod_of_dvd _ (pow_dvd_pow _ (Nat.le_succ d))
  have hdigit : pos % k ^ (d + 1) / k ^ d = coordinate k pos d := by
    rw [pow_succ, Nat.mod_mul_right_div_self, coordinate]
  rw [hlow, hdigit, replaceDigit]
  ring

theorem downInput_eq {level : Nat} (hlevel : level + 1 < f.gN) (pos port : Nat) :
    f.downInput level pos port = (2 * level + 1) * f.gNodes +
      (replaceDigit f.gK (f.gN - 2 - level) port pos * f.gK +
        coordinate f.gK pos (f.gN - 2 - level)) := by
  have hneighborhood : f.gN - 1 - level = f.gN - 2 - level + 1 := by omega
  have hbranch : f.gN - 1 - (level + 1) = f.gN - 2 - level := by omega
  rw [← interleaved_eq, downInput, hneighborhood, hbranch, upward_eq (Nat.zero_lt_of_lt hlevel)]
  simp only [Nat.add_assoc]

theorem upInput_eq {level : Nat} (hlevel : level + 1 < f.gN) (pos port : Nat) :
    f.upInput (level + 1) pos port = 2 * level * f.gNodes +
      (replaceDigit f.gK (f.gN - 2 - level) port pos * f.gK +
        coordinate f.gK pos (f.gN - 2 - level)) := by
  have hneighborhood : f.gN - 1 - level = f.gN - 2 - level + 1 := by omega
  have hbranch : f.gN - 1 - (level + 1) = f.gN - 2 - level := by omega
  rw [← interleaved_eq, upInput, Nat.add_sub_cancel, hneighborhood, hbranch,
    chanPerLevel_eq (Nat.zero_lt_of_lt hlevel)]
  ring

/-- An input channel of the network, with its number among those of its kind. -/
inductive Input (f : FatTree) (r : TreeRouter) (port c : Nat) : Prop where
  | down : r.level + 1 < f.gN → port < f.gK →
      c = (2 * r.level + 1) * f.gNodes +
        (replaceDigit f.gK (f.gN - 2 - r.level) port r.pos * f.gK +
          coordinate f.gK r.pos (f.gN - 2 - r.level)) → Input f r port c
  | up {level q : Nat} : r.level = level + 1 → q < f.gK → port = f.gK + q →
      c = 2 * level * f.gNodes +
        (replaceDigit f.gK (f.gN - 2 - level) q r.pos * f.gK +
          coordinate f.gK r.pos (f.gN - 2 - level)) → Input f r port c

theorem inputChannel_eq_some {c : Nat} (hr : f.Placed r) (hport : port < 2 * f.gK) :
    f.inputChannel r port = some c ↔ f.Input r port c := by
  have hlevel := hr.level
  unfold inputChannel
  constructor
  · intro h
    split at h
    next hdown =>
      split at h
      next hinner =>
        rw [downInput_eq (by omega)] at h
        exact .down (by omega) hdown (Option.some.inj h).symm
      next => cases h
    next hup =>
      split at h
      next => cases h
      next hbelow =>
        obtain ⟨level, hsucc⟩ := Nat.exists_eq_succ_of_ne_zero hbelow
        rw [hsucc, Nat.succ_eq_add_one, upInput_eq (by omega)] at h
        exact .up hsucc (by omega) (by omega) (Option.some.inj h).symm
  · intro h
    cases h with
    | down hinner hdown hc => rw [if_pos hdown, if_pos (by omega), downInput_eq hinner, hc]
    | up hsucc hq hup hc =>
        rw [if_neg (by omega), if_neg (by omega), hsucc, upInput_eq (by omega), hc, hup,
          Nat.add_sub_cancel_left]

/-- The position of a link in its block. -/
theorem offset_lt {level pos q : Nat} (hlevel : level + 1 < f.gN) (hq : q < f.gK)
    (hpos : pos < f.nPos) :
    replaceDigit f.gK (f.gN - 2 - level) q pos * f.gK + coordinate f.gK pos (f.gN - 2 - level) <
      f.gNodes :=
  channel_lt (Nat.zero_lt_of_lt hlevel)
    (replaceDigit_lt hq (by omega : f.gN - 2 - level < f.gN - 1) hpos)
    (coordinate_lt (Nat.zero_lt_of_lt hq))

/-- Where the channels lead: one level down, and in from above, -/
theorem feeds_down_iff (hr : f.Placed r) (hr' : f.Placed r') (hport : port < f.gK)
    (hport' : port' < 2 * f.gK) :
    f.Feeds r port r' port' ↔ r'.level = r.level + 1 ∧
      r'.pos = replaceDigit f.gK (f.gN - 2 - r.level) port r.pos ∧
      port' = f.gK + coordinate f.gK r.pos (f.gN - 2 - r.level) := by
  have hlevel := hr.level
  have hlevel' := hr'.level
  have hN : 0 < f.gN := Nat.zero_lt_of_lt hlevel
  have hk : 0 < f.gK := Nat.zero_lt_of_lt hport
  have hout : ∀ c, f.outputChannel r port = some c ↔
      r.level + 1 < f.gN ∧ c = 2 * r.level * f.gNodes + (r.pos * f.gK + port) := by
    intro c
    rw [outputChannel, if_pos hport, downOutput_eq hN]
    split
    next hinner => exact ⟨fun h => ⟨by omega, (Option.some.inj h).symm⟩, fun h => by rw [h.2]⟩
    next hlast => exact ⟨fun h => (by cases h), fun h => absurd h.1 (by omega)⟩
  have hoffset := channel_lt hN hr.pos hport
  constructor
  · rintro ⟨c, hc, hin⟩
    obtain ⟨hinner, hlink⟩ := (hout c).mp hc
    cases (inputChannel_eq_some hr' hport').mp hin with
    | down hinner' hdown hlink' =>
        -- the links up lie between the links down
        rw [hlink] at hlink'
        have hblock := (channel_eq_iff hoffset (offset_lt hinner' hdown hr'.pos)).mp hlink'
        omega
    | @up level q hsucc hq hup hlink' =>
        rw [hlink] at hlink'
        have hfar := offset_lt (by omega : level + 1 < f.gN) hq hr'.pos
        obtain ⟨hblock, hrest⟩ := (channel_eq_iff hoffset hfar).mp hlink'
        obtain rfl : level = r.level := by omega
        obtain ⟨hpos, hdigit⟩ := (channel_eq_iff hport (coordinate_lt hk)).mp hrest
        obtain ⟨hpos', hq'⟩ := (exchange_iff hport hq).mpr ⟨hpos, hdigit⟩
        exact ⟨hsucc, hpos', by rw [hup, hq']⟩
  · rintro ⟨hsucc, hpos, hup⟩
    have hinner : r.level + 1 < f.gN := by omega
    have hq : coordinate f.gK r.pos (f.gN - 2 - r.level) < f.gK := coordinate_lt hk
    refine ⟨_, (hout _).mpr ⟨hinner, rfl⟩, (inputChannel_eq_some hr' hport').mpr ?_⟩
    refine .up hsucc hq hup ?_
    obtain ⟨hback, hdigit⟩ := (exchange_iff hport hq).mp ⟨hpos, rfl⟩
    rw [← hback, ← hdigit]

/-- one level up, and in from below. -/
theorem feeds_up_iff {up : Nat} (hr : f.Placed r) (hr' : f.Placed r') (hup : up < f.gK)
    (hport' : port' < 2 * f.gK) :
    f.Feeds r (f.gK + up) r' port' ↔ r.level = r'.level + 1 ∧
      r'.pos = replaceDigit f.gK (f.gN - 2 - r'.level) up r.pos ∧
      port' = coordinate f.gK r.pos (f.gN - 2 - r'.level) := by
  have hlevel := hr.level
  have hlevel' := hr'.level
  have hN : 0 < f.gN := Nat.zero_lt_of_lt hlevel
  have hk : 0 < f.gK := Nat.zero_lt_of_lt hup
  have hout : ∀ c, f.outputChannel r (f.gK + up) = some c ↔
      ∃ level, r.level = level + 1 ∧
        c = (2 * level + 1) * f.gNodes + (r.pos * f.gK + up) := by
    intro c
    rw [outputChannel, if_neg (by omega), Nat.add_sub_cancel_left]
    split
    next htop => exact ⟨fun h => (by cases h), fun ⟨level, h, _⟩ => absurd h (by omega)⟩
    next hbelow =>
      obtain ⟨level, hsucc⟩ := Nat.exists_eq_succ_of_ne_zero hbelow
      rw [hsucc, Nat.succ_eq_add_one, upOutput_eq hN]
      constructor
      · exact fun h => ⟨level, rfl, (Option.some.inj h).symm⟩
      · rintro ⟨level', hlevel', rfl⟩
        obtain rfl : level = level' := by omega
        rfl
  have hoffset := channel_lt hN hr.pos hup
  constructor
  · rintro ⟨c, hc, hin⟩
    obtain ⟨level, hsucc, hlink⟩ := (hout c).mp hc
    cases (inputChannel_eq_some hr' hport').mp hin with
    | down hinner' hdown hlink' =>
        rw [hlink] at hlink'
        obtain ⟨hblock, hrest⟩ :=
          (channel_eq_iff hoffset (offset_lt hinner' hdown hr'.pos)).mp hlink'
        obtain rfl : level = r'.level := by omega
        obtain ⟨hpos, hdigit⟩ := (channel_eq_iff hup (coordinate_lt hk)).mp hrest
        exact ⟨hsucc, (exchange_iff hup hdown).mpr ⟨hpos, hdigit⟩⟩
    | @up level' q hsucc' hq hup' hlink' =>
        rw [hlink] at hlink'
        have hfar := offset_lt (by omega : level' + 1 < f.gN) hq hr'.pos
        have hblock := (channel_eq_iff hoffset hfar).mp hlink'
        omega
  · rintro ⟨hsucc, hpos, hin⟩
    have hq : coordinate f.gK r.pos (f.gN - 2 - r'.level) < f.gK := coordinate_lt hk
    refine ⟨_, (hout _).mpr ⟨r'.level, hsucc, rfl⟩, (inputChannel_eq_some hr' hport').mpr ?_⟩
    refine .down (by omega) (hin ▸ hq) ?_
    obtain ⟨hback, hdigit⟩ := (exchange_iff hup hq).mp ⟨hpos, rfl⟩
    rw [hin, ← hback, ← hdigit]

end FatTree

/-! ### Packets -/

/-- What stays the same of a packet. -/
structure TreePacket (f : FatTree) where
  config : RoutingConfig
  type : FlitType
  dest : Fin f.gNodes

/-- Where a packet is: the router and the buffer. -/
structure TreeSpot where
  router : TreeRouter
  inPort : Nat
  vc : Int

/-- `fattree_anca` or `fattree_nca` -/
def TreeCall.route {f : FatTree} (call : TreeCall f) (adaptive : Bool) : Option (List Offer) :=
  if adaptive then call.fattreeAnca else call.fattreeNca

/-- A call for a packet that is not being injected; `RandomInt( gK - 1 )` is below `gK`. -/
structure TreeCall.For {f : FatTree} (call : TreeCall f) (pkt : TreePacket f) (s : TreeSpot) :
    Prop where
  config : call.config = pkt.config
  id : call.id = f.id s.router
  type : call.type = pkt.type
  vc : call.vc = s.vc
  dest : call.dest = pkt.dest
  inChannel : call.inChannel = s.inPort
  inject : call.inject = false
  draw : ∀ i, call.draw i < f.gK

/-- A packet goes on from a call. -/
def TreeCall.Takes {f : FatTree} (call : TreeCall f) (adaptive : Bool) (s s' : TreeSpot) : Prop :=
  ∃ offers offer, call.route adaptive = some offers ∧ offer ∈ offers ∧
    f.Placed s'.router ∧ s'.inPort < 2 * f.gK ∧
    (∃ port, offer.outputPort = Int.ofNat port ∧ f.Feeds s.router port s'.router s'.inPort) ∧
    offer.vcStart ≤ s'.vc ∧ s'.vc ≤ offer.vcEnd

namespace FatTree

variable {f : FatTree} {adaptive : Bool} {pkt : TreePacket f} {src : Fin f.gNodes}
  {s s' : TreeSpot}

/-- One hop of a packet. -/
def Hop (adaptive : Bool) (pkt : TreePacket f) (s s' : TreeSpot) : Prop :=
  ∃ call : TreeCall f, call.For pkt s ∧ call.Takes adaptive s s'

/-- A packet that has been injected at node `src`. -/
structure Source (pkt : TreePacket f) (src : Fin f.gNodes) (s : TreeSpot) : Prop where
  placed : f.Placed s.router
  level : s.router.level + 1 = f.gN
  inPort : s.inPort < f.gK
  link : s.router.pos * f.gK + s.inPort = src
  vcBegin_le : (pkt.config.vcs pkt.type).vcBegin ≤ s.vc
  le_vcEnd : s.vc ≤ (pkt.config.vcs pkt.type).vcEnd

/-- The part of the tree that a node is in, among those below the routers of a level. -/
def part (f : FatTree) (level node : Nat) : Nat := node / f.gK ^ (f.gN - level)

/-- The part below a router. -/
def partOf (f : FatTree) (r : TreeRouter) : Nat := r.pos / f.gK ^ (f.gN - 1 - r.level)

/-- The level of the nearest common ancestors. -/
def ncaLevel (f : FatTree) (src dest : Nat) : Nat :=
  Nat.findGreatest (fun level => f.part level src = f.part level dest) (f.gN - 1)

theorem part_succ {level : Nat} (hlevel : level < f.gN) (node : Nat) :
    f.part level node = f.part (level + 1) node / f.gK := by
  have hexp : f.gN - level = f.gN - (level + 1) + 1 := by omega
  rw [part, part, hexp, pow_succ, Nat.div_div_eq_div_mul]

theorem part_congr {level above : Nat} (habove : above ≤ level) (hlevel : level ≤ f.gN) {a b : Nat}
    (h : f.part level a = f.part level b) : f.part above a = f.part above b := by
  induction level, habove using Nat.le_induction with
  | base => exact h
  | succ level _ ih =>
      refine ih (Nat.le_of_succ_le hlevel) ?_
      rw [part_succ hlevel, part_succ hlevel, h]

/-- Two nodes are in one part down to the level of their common ancestors. -/
theorem part_eq_iff (hN : 0 < f.gN) (a b : Fin f.gNodes) {level : Nat} (hlevel : level < f.gN) :
    f.part level a = f.part level b ↔ level ≤ f.ncaLevel a b := by
  constructor
  · intro h
    exact Nat.le_findGreatest (Nat.le_sub_one_of_lt hlevel) h
  · intro h
    have htop : f.part 0 a = f.part 0 b := by
      have ha : a.val < f.gK ^ f.gN := a.isLt
      have hb : b.val < f.gK ^ f.gN := b.isLt
      rw [part, part, Nat.sub_zero, Nat.div_eq_of_lt ha, Nat.div_eq_of_lt hb]
    have hnca : f.part (f.ncaLevel a b) a = f.part (f.ncaLevel a b) b :=
      Nat.findGreatest_spec (P := fun level => f.part level a = f.part level b)
        (Nat.zero_le _) htop
    have hle : f.ncaLevel a b ≤ f.gN - 1 := Nat.findGreatest_le _
    exact part_congr h (by omega) hnca

/-- Where a packet may be: on its way up it is above its source, on its way down above its
destination. -/
structure OnTrack (pkt : TreePacket f) (src : Fin f.gNodes) (s : TreeSpot) : Prop where
  placed : f.Placed s.router
  inPort : s.inPort < 2 * f.gK
  up : s.inPort < f.gK → f.partOf s.router = f.part s.router.level src
  down : f.gK ≤ s.inPort → f.partOf s.router = f.part s.router.level pkt.dest
  vcBegin_le : (pkt.config.vcs pkt.type).vcBegin ≤ s.vc
  le_vcEnd : s.vc ≤ (pkt.config.vcs pkt.type).vcEnd

/-! ### What a call answers -/

theorem gK_pos (dest : Fin f.gNodes) (hN : 0 < f.gN) : 0 < f.gK := by
  refine Nat.pos_of_ne_zero fun hzero => ?_
  have hlt : dest.val < f.gK ^ f.gN := dest.isLt
  rw [hzero, Nat.zero_pow hN] at hlt
  exact absurd hlt (Nat.not_lt_zero _)

section Calls

variable {call : TreeCall f}

theorem routerDepth_eq (hfor : call.For pkt s) (hs : f.Placed s.router) :
    call.routerDepth = s.router.level ∧ call.id % f.gK ^ (f.gN - 1) = s.router.pos := by
  have hpos : 0 < f.nPos := Nat.zero_lt_of_lt hs.pos
  have hid : call.id = f.nPos * s.router.level + s.router.pos := by
    rw [hfor.id, FatTree.id, Nat.mul_comm]
  constructor
  · rw [TreeCall.routerDepth, hid]
    change (f.nPos * s.router.level + s.router.pos) / f.nPos = _
    rw [Nat.mul_add_div hpos, Nat.div_eq_of_lt hs.pos, Nat.add_zero]
  · rw [hid]
    change (f.nPos * s.router.level + s.router.pos) % f.nPos = _
    rw [Nat.mul_add_mod, Nat.mod_eq_of_lt hs.pos]

theorem routerNeighborhood_eq (hfor : call.For pkt s) (hs : f.Placed s.router) :
    call.routerNeighborhood = f.partOf s.router := by
  obtain ⟨hdepth, hpos⟩ := routerDepth_eq hfor hs
  have hexp : f.gN - s.router.level - 1 = f.gN - 1 - s.router.level := by omega
  rw [TreeCall.routerNeighborhood, hdepth, hpos, hexp, partOf]

theorem covers_iff (hfor : call.For pkt s) (hs : f.Placed s.router) :
    call.covers = true ↔ f.partOf s.router = f.part s.router.level pkt.dest := by
  have hk := gK_pos pkt.dest (Nat.zero_lt_of_lt hs.level)
  have hpow : 0 < f.gK ^ (f.gN - s.router.level) := Nat.pow_pos hk
  rw [TreeCall.covers, decide_eq_true_eq, routerNeighborhood_eq hfor hs, TreeCall.routerCoverage,
    (routerDepth_eq hfor hs).1, hfor.dest, part, ← Nat.div_lt_iff_lt_mul hpow,
    ← Nat.le_div_iff_mul_le hpow]
  omega

/-- A call of a packet that is on its way. -/
theorem routeTree_eq (hfor : call.For pkt s) (htrack : OnTrack pkt src s) (up : Nat) :
    call.routeTree up =
      if call.covers then
        if call.routerDepth = f.gN - 1 then
          some ((pkt.config.vcs pkt.type).offer (Int.ofNat (pkt.dest % f.gK)))
        else some ((pkt.config.vcs pkt.type).offer (Int.ofNat
          ((pkt.dest - call.routerNeighborhood * call.routerCoverage) /
            f.gK ^ (f.gN - (call.routerDepth + 1)))))
      else if s.inPort < f.gK then
        some ((pkt.config.vcs pkt.type).offer (Int.ofNat (f.gK + up)))
      else none := by
  have hvc : (pkt.config.vcs pkt.type).vcBegin ≤ s.vc ∧ s.vc ≤ (pkt.config.vcs pkt.type).vcEnd :=
    ⟨htrack.vcBegin_le, htrack.le_vcEnd⟩
  unfold TreeCall.routeTree
  dsimp only
  rw [hfor.config, hfor.type, hfor.vc, hfor.dest, hfor.inChannel, hfor.inject, if_pos (.inl hvc),
    if_neg Bool.false_ne_true]

/-- Down goes the digit of the destination. -/
theorem route_down (hfor : call.For pkt s) (htrack : OnTrack pkt src s)
    (hbelow : f.partOf s.router = f.part s.router.level pkt.dest) :
    call.route adaptive = some ((pkt.config.vcs pkt.type).offer
      (Int.ofNat (coordinate f.gK pkt.dest (f.gN - 1 - s.router.level)))) := by
  have hs := htrack.placed
  have hlevel := hs.level
  have hcovers := (covers_iff hfor hs).mpr hbelow
  have hdepth := (routerDepth_eq hfor hs).1
  have hcommon : ∀ up, call.routeTree up = some ((pkt.config.vcs pkt.type).offer
      (Int.ofNat (coordinate f.gK pkt.dest (f.gN - 1 - s.router.level)))) := by
    intro up
    rw [routeTree_eq hfor htrack, if_pos hcovers, hdepth]
    split
    next hlast =>
      have hzero : f.gN - 1 - s.router.level = 0 := by omega
      rw [hzero, coordinate_zero]
    next hinner =>
      have hexp : f.gN - s.router.level = f.gN - 1 - s.router.level + 1 := by omega
      have hexp' : f.gN - (s.router.level + 1) = f.gN - 1 - s.router.level := by omega
      have hrest : (pkt.dest : Nat) - call.routerNeighborhood * call.routerCoverage =
          pkt.dest % f.gK ^ (f.gN - s.router.level) := by
        rw [routerNeighborhood_eq hfor hs, hbelow, TreeCall.routerCoverage, hdepth, part,
          Nat.mod_eq_sub_mul_div, Nat.mul_comm]
      rw [hrest, hexp, hexp', pow_succ, Nat.mod_mul_right_div_self, coordinate]
  unfold TreeCall.route
  split
  · exact hcommon _
  · exact hcommon _

/-- Up goes any port, and only who has come from below goes up. -/
theorem route_up (adaptive : Bool) (hfor : call.For pkt s) (htrack : OnTrack pkt src s)
    (hnot : f.partOf s.router ≠ f.part s.router.level pkt.dest) :
    s.inPort < f.gK ∧ ∃ up < f.gK, call.route adaptive =
      some ((pkt.config.vcs pkt.type).offer (Int.ofNat (f.gK + up))) := by
  have hcovers : ¬ call.covers = true := fun h => hnot ((covers_iff hfor htrack.placed).mp h)
  have hbelow : s.inPort < f.gK := by
    by_contra hge
    exact hnot (htrack.down (not_lt.mp hge))
  have hcommon : ∀ up, call.routeTree up =
      some ((pkt.config.vcs pkt.type).offer (Int.ofNat (f.gK + up))) := by
    intro up
    rw [routeTree_eq hfor htrack, if_neg hcovers, if_pos hbelow]
  refine ⟨hbelow, ?_⟩
  unfold TreeCall.route
  split
  · refine ⟨_, ?_, hcommon _⟩
    split
    · exact hfor.draw 1
    · exact hfor.draw 0
  · exact ⟨_, hfor.draw 0, hcommon _⟩

end Calls

/-! ### Hops -/

/-- A hop goes down by the digit of the destination, or up by some port. -/
inductive Goes (pkt : TreePacket f) (s s' : TreeSpot) : Prop where
  | down : f.partOf s.router = f.part s.router.level pkt.dest →
      s'.router.level = s.router.level + 1 →
      s'.router.pos = replaceDigit f.gK (f.gN - 2 - s.router.level)
        (coordinate f.gK pkt.dest (f.gN - 1 - s.router.level)) s.router.pos →
      f.gK ≤ s'.inPort → Goes pkt s s'
  | up {port : Nat} : f.partOf s.router ≠ f.part s.router.level pkt.dest → s.inPort < f.gK →
      port < f.gK → s.router.level = s'.router.level + 1 →
      s'.router.pos = replaceDigit f.gK (f.gN - 2 - s'.router.level) port s.router.pos →
      s'.inPort < f.gK → Goes pkt s s'

theorem takes_goes {call : TreeCall f} (hfor : call.For pkt s) (htrack : OnTrack pkt src s)
    (htakes : call.Takes adaptive s s') :
    Goes pkt s s' ∧ f.Placed s'.router ∧ s'.inPort < 2 * f.gK ∧
      (pkt.config.vcs pkt.type).vcBegin ≤ s'.vc ∧ s'.vc ≤ (pkt.config.vcs pkt.type).vcEnd := by
  obtain ⟨offers, offer, hroute, hmem, hplaced, hin, ⟨port, hport, hfeeds⟩, hvc⟩ := htakes
  have hk := gK_pos pkt.dest (Nat.zero_lt_of_lt htrack.placed.level)
  by_cases hbelow : f.partOf s.router = f.part s.router.level pkt.dest
  · obtain rfl := Option.some.inj ((route_down hfor htrack hbelow).symm.trans hroute)
    obtain rfl := List.mem_singleton.mp hmem
    obtain rfl := Int.ofNat_inj.mp hport
    obtain ⟨hlevel, hpos, hin'⟩ :=
      (feeds_down_iff htrack.placed hplaced (coordinate_lt hk) hin).mp hfeeds
    exact ⟨.down hbelow hlevel hpos (hin' ▸ Nat.le_add_right _ _), hplaced, hin, hvc.1, hvc.2⟩
  · obtain ⟨hfrom, up, hup, heq⟩ := route_up adaptive hfor htrack hbelow
    obtain rfl := Option.some.inj (heq.symm.trans hroute)
    obtain rfl := List.mem_singleton.mp hmem
    obtain rfl := Int.ofNat_inj.mp hport
    obtain ⟨hlevel, hpos, hin'⟩ := (feeds_up_iff htrack.placed hplaced hup hin).mp hfeeds
    exact ⟨.up hbelow hfrom hup hlevel hpos (hin' ▸ coordinate_lt hk), hplaced, hin, hvc.1, hvc.2⟩

theorem OnTrack.takes {call : TreeCall f} (htrack : OnTrack pkt src s) (hfor : call.For pkt s)
    (htakes : call.Takes adaptive s s') : OnTrack pkt src s' := by
  obtain ⟨hgoes, hplaced, hin, hvc⟩ := takes_goes hfor htrack htakes
  have hlevel := htrack.placed.level
  have hlevel' := hplaced.level
  have hk := gK_pos pkt.dest (Nat.zero_lt_of_lt hlevel)
  refine ⟨hplaced, hin, fun hup => ?_, fun hdown => ?_, hvc.1, hvc.2⟩
  · cases hgoes with
    | down _ _ _ hfrom => exact absurd hup (not_lt.mpr hfrom)
    | up _ hfrom hport hsucc hpos _ =>
        have hexp : f.gN - 1 - s'.router.level = f.gN - 2 - s'.router.level + 1 := by omega
        have hexp' : f.gN - 1 - s.router.level = f.gN - 2 - s'.router.level := by omega
        have hfrom' := htrack.up hfrom
        rw [partOf, hexp'] at hfrom'
        rw [partOf, hpos, hexp, replaceDigit_div hport, pow_succ, ← Nat.div_div_eq_div_mul, hfrom',
          hsucc, ← part_succ (by omega)]
  · cases hgoes with
    | down hbelow hsucc hpos _ =>
        have hexp : f.gN - 1 - s'.router.level = f.gN - 2 - s.router.level := by omega
        have hexp' : f.gN - 2 - s.router.level + 1 = f.gN - 1 - s.router.level := by omega
        have hdest : f.part s.router.level pkt.dest =
            pkt.dest / f.gK ^ (f.gN - 1 - s.router.level + 1) := by
          rw [part]
          congr 2
          omega
        have hdest' : f.part s'.router.level pkt.dest =
            pkt.dest / f.gK ^ (f.gN - 1 - s.router.level) := by
          rw [part]
          congr 2
          omega
        rw [partOf] at hbelow
        rw [partOf, hpos, hexp, replaceDigit_div_self (coordinate_lt hk), hexp', hbelow, hdest, hdest',
          ← div_pow_succ]
    | up _ _ _ _ _ hup => exact absurd hup (not_lt.mpr hdown)

theorem Source.onTrack (h : Source pkt src s) : OnTrack pkt src s where
  placed := h.placed
  inPort := Nat.lt_of_lt_of_le h.inPort (Nat.le_mul_of_pos_left _ Nat.two_pos)
  up _ := by
    have hlast : f.gN - 1 - s.router.level = 0 := by have := h.level; omega
    have hone : f.gN - s.router.level = 0 + 1 := by have := h.level; omega
    rw [partOf, part, hlast, hone, ← h.link, pow_zero, Nat.div_one, Nat.zero_add, pow_one,
      Nat.mul_comm, Nat.mul_add_div (Nat.zero_lt_of_lt h.inPort), Nat.div_eq_of_lt h.inPort,
      Nat.add_zero]
  down hge := absurd h.inPort (not_lt.mpr hge)
  vcBegin_le := h.vcBegin_le
  le_vcEnd := h.le_vcEnd

/-- Where a packet is after `i` hops: no higher than the common ancestors, and on its way
down when it has been there. -/
structure After (pkt : TreePacket f) (src : Fin f.gNodes) (i : Nat) (s : TreeSpot) : Prop where
  onTrack : OnTrack pkt src s
  up : s.inPort < f.gK → s.router.level + i + 1 = f.gN ∧ f.ncaLevel src pkt.dest ≤ s.router.level
  down : f.gK ≤ s.inPort →
    s.router.level + f.gN = 2 * f.ncaLevel src pkt.dest + i + 1 ∧
      f.ncaLevel src pkt.dest < s.router.level

theorem ncaLevel_lt (hN : 0 < f.gN) (a b : Nat) : f.ncaLevel a b < f.gN := by
  have hle : f.ncaLevel a b ≤ f.gN - 1 := Nat.findGreatest_le _
  omega

theorem Source.after (h : Source pkt src s) : After pkt src 0 s where
  onTrack := h.onTrack
  up _ := by
    have hnca := ncaLevel_lt (Nat.zero_lt_of_lt h.placed.level) src pkt.dest
    exact ⟨h.level, Nat.le_of_lt_succ (hnca.trans_eq h.level.symm)⟩
  down hge := absurd h.inPort (not_lt.mpr hge)

/-- A packet that comes from below is at a common ancestor or below them. -/
theorem OnTrack.below_iff (h : OnTrack pkt src s) (hup : s.inPort < f.gK) :
    f.partOf s.router = f.part s.router.level pkt.dest ↔
      s.router.level ≤ f.ncaLevel src pkt.dest := by
  rw [h.up hup]
  exact part_eq_iff (Nat.zero_lt_of_lt h.placed.level) src pkt.dest h.placed.level

theorem After.hop {i : Nat} (h : After pkt src i s) (hhop : Hop adaptive pkt s s') :
    After pkt src (i + 1) s' := by
  obtain ⟨call, hfor, htakes⟩ := hhop
  obtain ⟨hgoes, -⟩ := takes_goes hfor h.onTrack htakes
  refine ⟨h.onTrack.takes hfor htakes, fun hup => ?_, fun hdown => ?_⟩
  · cases hgoes with
    | down _ _ _ hin => exact absurd hup (not_lt.mpr hin)
    | up hnot hfrom _ hsucc _ _ =>
        have hbelow := (h.onTrack.below_iff hfrom).not.mp hnot
        have hclimb := (h.up hfrom).1
        omega
  · cases hgoes with
    | down hbelow hsucc _ _ =>
        by_cases hfrom : s.inPort < f.gK
        · -- here it turns
          have htop := (h.onTrack.below_iff hfrom).mp hbelow
          have hclimb := h.up hfrom
          omega
        · have hdescent := h.down (not_lt.mp hfrom)
          omega
    | up _ _ _ _ _ hin => exact absurd hin (not_lt.mpr hdown)

theorem walk_after {source : TreeSpot} {i : Nat} (hsource : Source pkt src source)
    (hwalk : Progress.Walk (Hop adaptive pkt) source i s) : After pkt src i s :=
  hwalk.invariant (P := After pkt src) hsource.after After.hop

theorem After.le {i : Nat} (h : After pkt src i s) :
    i ≤ 2 * (f.gN - 1 - f.ncaLevel src pkt.dest) := by
  have hlevel := h.onTrack.placed.level
  by_cases hfrom : s.inPort < f.gK
  · have hclimb := h.up hfrom
    omega
  · have hdescent := h.down (not_lt.mp hfrom)
    omega

theorem After.arrived_iff {i : Nat} (h : After pkt src i s) :
    i = 2 * (f.gN - 1 - f.ncaLevel src pkt.dest) ↔
      s.router.level + 1 = f.gN ∧ f.partOf s.router = f.part s.router.level pkt.dest := by
  have hlevel := h.onTrack.placed.level
  by_cases hfrom : s.inPort < f.gK
  · have hclimb := h.up hfrom
    rw [h.onTrack.below_iff hfrom]
    omega
  · have hdescent := h.down (not_lt.mp hfrom)
    have hbelow := h.onTrack.down (not_lt.mp hfrom)
    constructor
    · intro hi
      exact ⟨by omega, hbelow⟩
    · rintro ⟨hlast, -⟩
      omega

/-- A packet that has not arrived can go on from every call. -/
theorem exists_takes {call : TreeCall f} (hfor : call.For pkt s) (htrack : OnTrack pkt src s)
    (hne : ¬ (s.router.level + 1 = f.gN ∧ f.partOf s.router = f.part s.router.level pkt.dest)) :
    ∃ s', call.Takes adaptive s s' := by
  have hplaced := htrack.placed
  have hlevel := hplaced.level
  have hk := gK_pos pkt.dest (Nat.zero_lt_of_lt hlevel)
  have hvc := htrack.vcBegin_le.trans htrack.le_vcEnd
  by_cases hbelow : f.partOf s.router = f.part s.router.level pkt.dest
  · have hinner : s.router.level + 1 < f.gN := by
      have hlast : s.router.level + 1 ≠ f.gN := fun hlast => hne ⟨hlast, hbelow⟩
      omega
    have hplace : f.gN - 2 - s.router.level < f.gN - 1 := by omega
    have hdigit : coordinate f.gK pkt.dest (f.gN - 1 - s.router.level) < f.gK := coordinate_lt hk
    have hin : f.gK + coordinate f.gK s.router.pos (f.gN - 2 - s.router.level) < 2 * f.gK := by
      have hold : coordinate f.gK s.router.pos (f.gN - 2 - s.router.level) < f.gK :=
        coordinate_lt hk
      omega
    have hfar : f.Placed ⟨s.router.level + 1, replaceDigit f.gK (f.gN - 2 - s.router.level)
        (coordinate f.gK pkt.dest (f.gN - 1 - s.router.level)) s.router.pos⟩ :=
      ⟨hinner, replaceDigit_lt hdigit hplace hplaced.pos⟩
    refine ⟨⟨_, _, (pkt.config.vcs pkt.type).vcBegin⟩, _, _, route_down hfor htrack hbelow,
      List.mem_singleton_self _, hfar, hin, ⟨_, rfl, ?_⟩, le_refl _, hvc⟩
    exact (feeds_down_iff hplaced hfar hdigit hin).mpr ⟨rfl, rfl, rfl⟩
  · obtain ⟨hfrom, up, hup, hroute⟩ := route_up adaptive hfor htrack hbelow
    -- the top of the tree is above every node
    obtain ⟨above, hsucc⟩ : ∃ above, s.router.level = above + 1 := by
      refine Nat.exists_eq_succ_of_ne_zero fun htop => hbelow ((htrack.below_iff hfrom).mpr ?_)
      exact htop ▸ Nat.zero_le _
    have hplace : f.gN - 2 - above < f.gN - 1 := by omega
    have hin : coordinate f.gK s.router.pos (f.gN - 2 - above) < f.gK := coordinate_lt hk
    have hin' : coordinate f.gK s.router.pos (f.gN - 2 - above) < 2 * f.gK := by omega
    have hlevel' : above < f.gN := by omega
    have hfar : f.Placed ⟨above, replaceDigit f.gK (f.gN - 2 - above) up s.router.pos⟩ :=
      ⟨hlevel', replaceDigit_lt hup hplace hplaced.pos⟩
    refine ⟨⟨_, _, (pkt.config.vcs pkt.type).vcBegin⟩, _, _, hroute, List.mem_singleton_self _,
      hfar, hin', ⟨_, rfl, ?_⟩, le_refl _, hvc⟩
    exact (feeds_up_iff hplaced hfar hup hin').mpr ⟨hsucc, rfl, rfl⟩

/-- Whatever ports it goes up by, a packet turns at the nearest common ancestor, and after
two hops for each level up to there, and not before, it is at the ejection channel of its
destination; before every call lets it go on. -/
theorem turns_at_nca {source : TreeSpot} {i : Nat} (hsource : Source pkt src source)
    (hwalk : Progress.Walk (Hop adaptive pkt) source i s) :
    i ≤ 2 * (f.gN - 1 - f.ncaLevel src pkt.dest) ∧ ∀ call : TreeCall f, call.For pkt s →
      (i < 2 * (f.gN - 1 - f.ncaLevel src pkt.dest) → ∃ s', call.Takes adaptive s s') ∧
      (i = 2 * (f.gN - 1 - f.ncaLevel src pkt.dest) → s.router.level + 1 = f.gN ∧
        ∃ port < f.gK, call.route adaptive =
          some ((pkt.config.vcs pkt.type).offer (Int.ofNat port)) ∧
            s.router.pos * f.gK + port = pkt.dest) := by
  have hafter := walk_after hsource hwalk
  have htrack := hafter.onTrack
  refine ⟨hafter.le, fun call hfor => ⟨fun hlt => ?_, fun hi => ?_⟩⟩
  · exact exists_takes hfor htrack fun harrived => hlt.ne (hafter.arrived_iff.mpr harrived)
  · obtain ⟨hlast, hbelow⟩ := hafter.arrived_iff.mp hi
    have hk := gK_pos pkt.dest (Nat.zero_lt_of_lt htrack.placed.level)
    have hzero : f.gN - 1 - s.router.level = 0 := by omega
    have hone : f.gN - s.router.level = 0 + 1 := by omega
    refine ⟨hlast, _, coordinate_lt hk, route_down hfor htrack hbelow, ?_⟩
    rw [partOf, part, hzero, hone, pow_zero, Nat.div_one] at hbelow
    rw [hzero, hbelow, ← div_pow_succ, pow_zero, Nat.div_one]

/-- The eight nodes of three levels of routers with two ports down: node 3 and node 6 meet
at the top. -/
example : (⟨2, 3⟩ : FatTree).ncaLevel 3 6 = 0 ∧ (⟨2, 3⟩ : FatTree).ncaLevel 4 6 = 1 ∧
    (⟨2, 3⟩ : FatTree).ncaLevel 6 6 = 2 := by decide

theorem six_lt : 6 < (⟨2, 3⟩ : FatTree).gNodes := by decide

theorem three_lt : 3 < (⟨2, 3⟩ : FatTree).gNodes := by decide

/-- A packet to node 6, -/
def toSix : TreePacket ⟨2, 3⟩ := ⟨.twoVCs, .anyType, ⟨6, six_lt⟩⟩

/-- as it is injected at node 3, -/
def injected : TreeSpot := ⟨⟨2, 1⟩, 1, 0⟩

/-- and where it is when it has gone up by port 0. -/
def climbed : TreeSpot := ⟨⟨1, 0⟩, 1, 1⟩

/-- The call for a packet where the ports are drawn as 0. -/
def callFor (pkt : TreePacket f) (s : TreeSpot) : TreeCall f :=
  ⟨pkt.config, f.id s.router, pkt.type, s.vc, pkt.dest, s.inPort, false, fun _ => 0, fun _ => 0⟩

theorem callFor_for (hk : 0 < f.gK) (pkt : TreePacket f) (s : TreeSpot) :
    (callFor pkt s).For pkt s :=
  ⟨rfl, rfl, rfl, rfl, rfl, rfl, rfl, fun _ => hk⟩

theorem injected_source : Source toSix ⟨3, three_lt⟩ injected :=
  ⟨⟨by decide, by decide⟩, rfl, by decide, rfl, by decide, by decide⟩

theorem climbed_walk : Progress.Walk (Hop false toSix) injected 1 climbed :=
  .step .start ⟨callFor toSix injected, callFor_for Nat.two_pos _ _, [⟨2, 0, 1, 0⟩], ⟨2, 0, 1, 0⟩,
    by decide, List.mem_singleton_self _, ⟨by decide, by decide⟩, by decide,
    ⟨2, rfl, 26, by decide, by decide⟩, by decide, by decide⟩

theorem turns_at_nca_climbed :
    1 ≤ 2 * (3 - 1 - (⟨2, 3⟩ : FatTree).ncaLevel 3 6) ∧
    ∀ call : TreeCall ⟨2, 3⟩, call.For toSix climbed →
      (1 < 2 * (3 - 1 - (⟨2, 3⟩ : FatTree).ncaLevel 3 6) → ∃ s', call.Takes false climbed s') ∧
      (1 = 2 * (3 - 1 - (⟨2, 3⟩ : FatTree).ncaLevel 3 6) → 1 + 1 = 3 ∧
        ∃ port < 2, call.route false =
          some ((RoutingConfig.twoVCs.vcs .anyType).offer (Int.ofNat port)) ∧ 0 * 2 + port = 6) :=
  turns_at_nca injected_source climbed_walk

/-! ### No deadlock -/

/-- The buffers of a router are ranked by the way that is behind a packet in them. -/
def rank (f : FatTree) (router : TreeRouter) (inPort : Nat) : Nat :=
  if inPort < f.gK then f.gN - 1 - router.level else f.gN + router.level

theorem Goes.rank_lt (h : Goes pkt s s') (hs : f.Placed s.router) :
    f.rank s.router s.inPort < f.rank s'.router s'.inPort := by
  have hlevel := hs.level
  unfold rank
  cases h with
  | down _ hsucc _ hin =>
      rw [if_neg (not_lt.mpr hin)]
      split
      · omega
      · omega
  | up _ hfrom _ hsucc _ hin =>
      rw [if_pos hfrom, if_pos hin]
      omega

/-- A packet that waits, with the call that has been made for it. -/
structure Waiting (f : FatTree) (adaptive : Bool) where
  pkt : TreePacket f
  src : Fin f.gNodes
  source : TreeSpot
  hops : Nat
  spot : TreeSpot
  call : TreeCall f
  injected : Source pkt src source
  reached : Progress.Walk (Hop adaptive pkt) source hops spot
  routed : call.For pkt spot
  inTransit : hops < 2 * (f.gN - 1 - f.ncaLevel src pkt.dest)

namespace Waiting

/-- The buffer that it is in: the router, the input port and the virtual channel. -/
def holds (w : Waiting f adaptive) : TreeRouter × Nat × Int :=
  (w.spot.router, w.spot.inPort, w.spot.vc)

/-- The buffers that it may go on to. -/
def wants (w : Waiting f adaptive) (buffer : TreeRouter × Nat × Int) : Prop :=
  ∃ s' : TreeSpot, w.call.Takes adaptive w.spot s' ∧ (s'.router, s'.inPort, s'.vc) = buffer

end Waiting

/-- Packets never wait for each other in a circle, however few virtual channels they have
and whichever ports they draw. -/
theorem nca_not_deadlock (S : Set (Waiting f adaptive)) :
    ¬ Progress.Deadlock Waiting.holds Waiting.wants S := by
  have htrack : ∀ w : Waiting f adaptive, OnTrack w.pkt w.src w.spot := fun w =>
    (walk_after w.injected w.reached).onTrack
  refine Progress.not_deadlock_of_rank (fun w => f.rank w.spot.router w.spot.inPort) (2 * f.gN)
    (fun w _ => ?_) (fun w _ => ?_)
  · have hlevel := (htrack w).placed.level
    dsimp only [rank]
    split
    · omega
    · omega
  · have hafter := walk_after w.injected w.reached
    obtain ⟨s', htakes⟩ : ∃ s', w.call.Takes adaptive w.spot s' :=
      exists_takes w.routed (htrack w) fun harrived =>
        w.inTransit.ne (hafter.arrived_iff.mpr harrived)
    refine ⟨_, ⟨s', htakes, rfl⟩, fun q _ hholds => ?_⟩
    obtain ⟨hrouter, hbuffer⟩ := Prod.mk.inj hholds
    rw [hrouter, (Prod.mk.inj hbuffer).1]
    exact (takes_goes w.routed (htrack w) htakes).1.rank_lt (htrack w).placed

theorem climbed_inTransit : 1 < 2 * (3 - 1 - (⟨2, 3⟩ : FatTree).ncaLevel 3 6) := by decide

/-- The packet that has gone up, alone. -/
def climbedWaiting : Waiting ⟨2, 3⟩ false where
  pkt := toSix
  src := ⟨3, three_lt⟩
  source := injected
  hops := 1
  spot := climbed
  call := callFor toSix climbed
  injected := injected_source
  reached := climbed_walk
  routed := callFor_for Nat.two_pos _ _
  inTransit := climbed_inTransit

theorem nca_not_deadlock_climbed :
    ¬ Progress.Deadlock Waiting.holds Waiting.wants {climbedWaiting} :=
  nca_not_deadlock {climbedWaiting}

end FatTree

end Flyover
