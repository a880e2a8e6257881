import Flyover.Routing.Digits

/-!
# The dragonfly

`DragonFlyNew` has groups of routers. In a group every router has a link to every other,
and between two groups there is one link. A packet goes to the router of its group that has
the link to the other group, over it, and then to its destination.
-/

namespace Flyover

open Flyover.Cube

/-- `_p` -/
structure DragonFly where
  gP : Nat

namespace DragonFly

variable (f : DragonFly)

/-- `_a` -/
def gA : Nat := 2 * f.gP

/-- `_g` -/
def gG : Nat := f.gA * f.gP + 1

/-- `_grp_num_nodes` -/
def grpNumNodes : Nat := f.gA * f.gP

/-- `_nodes` -/
def nodes : Nat := f.gA * f.gP * f.gG

/-- `_num_of_switch` -/
def size : Nat := f.gA * f.gG

/-- `_num_ports_per_switch` -/
def numPortsPerSwitch : Nat := 3 * f.gP - 1

/-! ### `_BuildNet` -/

/-- The channels of the network among the output channels: the ejection channels come first,
then the links in the group, and then those between the groups. -/
def outputChannel (node port : Nat) : Option Int :=
  if port < f.gP then none
  else if port < f.gP + (2 * f.gP - 1) then
    some ((f.numPortsPerSwitch : Int) * node + (port - f.gP : Nat))
  else if port < f.gP + (2 * f.gP - 1) + f.gP then
    some ((f.numPortsPerSwitch : Int) * node + (2 * f.gP - 1 : Nat) +
      (port - f.gP - (2 * f.gP - 1) : Nat))
  else none

/-- `_input` of the links in the group. -/
def localInput (node cnt : Nat) : Int :=
  let grpID : Int := (node / f.gA : Nat)
  let dimID : Int := (node % f.gA : Nat)
  let ports : Int := f.numPortsPerSwitch
  if (cnt : Int) < dimID then
    grpID * ports * f.gA - (dimID - cnt) * ports + dimID * ports + (dimID - 1)
  else grpID * ports * f.gA + dimID * ports + (cnt - dimID + 1) * ports + dimID

/-- `_input` of the links between the groups. -/
def globalInput (node cnt : Nat) : Int :=
  let grpID := node / f.gA
  let dimID := node % f.gA
  let ports := f.numPortsPerSwitch
  let grpOutput := dimID * f.gP + cnt
  if grpID > grpOutput then
    (grpOutput * ports * f.gA + (ports - f.gP) * ((grpID - 1) / f.gP) + (ports - f.gP) +
      (grpID - 1) : Nat)
  else
    ((grpOutput + 1) * ports * f.gA + (ports - f.gP) * (grpID / f.gP) + (ports - f.gP) +
      grpID : Nat)

/-- The channels of the network among the input channels, in the same order. -/
def inputChannel (node port : Nat) : Option Int :=
  if port < f.gP then none
  else if port < f.gP + (2 * f.gP - 1) then some (f.localInput node (port - f.gP))
  else if port < f.gP + (2 * f.gP - 1) + f.gP then
    some (f.globalInput node (port - f.gP - (2 * f.gP - 1)))
  else none

/-- A channel of the network leads from the one to the other. -/
def Feeds (r port r' port' : Nat) : Prop :=
  ∃ c, f.outputChannel r port = some c ∧ f.inputChannel r' port' = some c

/-! ### Routing -/

/-- `dragonflynew_hopcnt` -/
def hopcnt (src dest : Nat) : Nat :=
  let destGrpID := dest / f.grpNumNodes
  let srcGrpID := src / f.grpNumNodes
  if destGrpID = srcGrpID then if dest / f.gP = src / f.gP then 0 else 1
  else
    let grpOutput := if srcGrpID > destGrpID then destGrpID else destGrpID - 1
    let destGrpOutput := if srcGrpID > destGrpID then srcGrpID - 1 else srcGrpID
    let srcIntm := (grpOutput / f.gP + srcGrpID * f.gA) * f.gP
    let destIntm := (destGrpOutput / f.gP + destGrpID * f.gA) * f.gP
    let srcHopcnt := if srcIntm / f.gP = src / f.gP then 0 else 1
    let destHopcnt := if destIntm / f.gP = dest / f.gP then 0 else 1
    srcHopcnt + 1 + destHopcnt

/-- `grp_output`, which is read for another group only. -/
def grpOutput (grpID destGrpID : Nat) : Nat :=
  if grpID > destGrpID then destGrpID else destGrpID - 1

/-- `grp_RID` -/
def grpRID (rID dest : Nat) : Nat :=
  let grpID := rID / f.gA
  let destGrpID := dest / f.grpNumNodes
  if destGrpID = grpID then dest / f.gP else grpOutput grpID destGrpID / f.gP + grpID * f.gA

/-- `dragonfly_port` -/
def port (rID dest : Nat) : Int :=
  let grpID := rID / f.gA
  let destGrpID := dest / f.grpNumNodes
  let grpRID := f.grpRID rID dest
  if rID * f.gP ≤ dest ∧ dest < (rID + 1) * f.gP then (dest % f.gP : Nat)
  else if grpRID = rID then f.gP + (f.gA - 1) + (grpOutput grpID destGrpID % f.gP : Nat)
  else if rID < grpRID then (grpRID % f.gA : Nat) - 1 + f.gP
  else (grpRID % f.gA : Nat) + f.gP

end DragonFly

/-- What a call of `min_dragonflynew` or `ugal_dragonflynew` reads. -/
structure DragonCall (f : DragonFly) where
  id : Nat
  dest : Fin f.nodes
  inChannel : Nat
  inject : Bool
  /-- `f->ph` and `f->intm` -/
  ph : Int
  intm : Nat
  usedCredit : Int → Int
  draw : Nat

/-- What it answers: the range that is added, and what `f->ph` and `f->intm` become. -/
structure DragonAnswer where
  offer : Offer
  ph : Int
  intm : Nat

namespace DragonCall

variable {f : DragonFly} (call : DragonCall f)

/-- The answer with the phase as the virtual channel. -/
def answer (outPort ph : Int) (intm : Nat) : DragonAnswer := ⟨⟨outPort, ph, ph, 0⟩, ph, intm⟩

/-- `min_dragonflynew` -/
def minDragonflynew : DragonAnswer :=
  if call.inject then ⟨⟨-1, call.draw, call.draw, 0⟩, call.ph, call.intm⟩
  else
    let grpID := call.id / f.gA
    let destGrpID : Int := -1
    let ph := if call.inChannel < f.gP then if destGrpID = grpID then 1 else 0 else call.ph
    let outPort := f.port call.id call.dest
    let ph := if outPort ≥ f.gP + ((f.gA : Int) - 1) then 1 else ph
    answer outPort ph call.intm

/-- What `ugal_dragonflynew` decides at the source router, for `ph` and `intm`. -/
def choose : Int × Nat :=
  let grpID := call.id / f.gA
  if call.dest / f.grpNumNodes = grpID then (2, call.intm)
  else
    let intm := call.draw
    if grpID = intm / f.grpNumNodes then (1, intm)
    else
      let minQueueSize := max (call.usedCredit (f.port call.id call.dest)) 0
      let nonminQueueSize := max (call.usedCredit (f.port call.id intm)) 0
      if 1 * minQueueSize ≤ 2 * nonminQueueSize + 30 then (1, intm) else (0, intm)

/-- `f->ph` and `f->intm` when the source router has decided. -/
def chosen : Int × Nat := if call.inChannel < f.gP then call.choose else (call.ph, call.intm)

/-- "transition from nonminimal phase to minimal" -/
def phase : Int :=
  if call.chosen.1 = 0 then if call.id = call.chosen.2 / f.gP then 1 else call.chosen.1
  else call.chosen.1

/-- `ugal_dragonflynew`, without the assertion about the number of virtual channels -/
def ugalDragonflynew : Option DragonAnswer :=
  if call.inject then some ⟨⟨-1, call.draw, call.draw, 0⟩, call.ph, call.intm⟩
  else if call.phase = 0 then
    some (answer (f.port call.id call.chosen.2) call.phase call.chosen.2)
  else if call.phase = 1 ∨ call.phase = 2 then
    let outPort := f.port call.id call.dest
    -- "optical dateline"
    let ph := if call.phase = 1 ∧ outPort ≥ f.gP + ((f.gA : Int) - 1) then 2 else call.phase
    some (answer outPort ph call.chosen.2)
  else none

end DragonCall

/-! ### Numbering the others -/

/-- The number `i` among all but `d`. -/
def skip (d i : Nat) : Nat := if i < d then i else i + 1

/-- The number of `d` among all but `skip d i`. -/
def slot (d i : Nat) : Nat := if i < d then d - 1 else d

theorem skip_iff {d e i j : Nat} : e = skip d i ∧ j = slot d i ↔ d = skip e j ∧ i = slot e j := by
  unfold skip slot
  split <;> split <;> omega

theorem skip_ne (d i : Nat) : skip d i ≠ d := by
  unfold skip
  split <;> omega

theorem skip_lt {d i n : Nat} (hd : d < n) (hi : i < n - 1) : skip d i < n := by
  unfold skip
  split <;> omega

theorem slot_lt {d i n : Nat} (hd : d < n) (hi : i < n - 1) : slot d i < n - 1 := by
  unfold slot
  split <;> omega

namespace DragonFly

variable {f : DragonFly}

/-! ### The wiring -/

section Wiring

variable {r r' port port' c : Nat}

theorem numPortsPerSwitch_eq (hp : 0 < f.gP) : f.numPortsPerSwitch = 2 * f.gP - 1 + f.gP := by
  rw [numPortsPerSwitch]
  omega

theorem gA_pos (hp : 0 < f.gP) : 0 < f.gA := Nat.mul_pos Nat.two_pos hp

theorem outputChannel_local (hc : c < 2 * f.gP - 1) :
    f.outputChannel r (f.gP + c) = some ((r * f.numPortsPerSwitch + c : Nat) : Int) := by
  rw [outputChannel, if_neg (by omega), if_pos (by omega), Nat.add_sub_cancel_left, Nat.mul_comm r]
  push_cast
  rfl

theorem outputChannel_global (hc : c < f.gP) :
    f.outputChannel r (f.gP + (2 * f.gP - 1) + c) =
      some ((r * f.numPortsPerSwitch + (2 * f.gP - 1 + c) : Nat) : Int) := by
  have hsub : f.gP + (2 * f.gP - 1) + c - f.gP - (2 * f.gP - 1) = c := by omega
  rw [outputChannel, if_neg (by omega), if_neg (by omega), if_pos (by omega), hsub, Nat.mul_comm r]
  push_cast
  rw [Int.add_assoc]

theorem localInput_eq (r' c : Nat) : f.localInput r' c =
    (((r' / f.gA * f.gA + skip (r' % f.gA) c) * f.numPortsPerSwitch + slot (r' % f.gA) c : Nat) :
      Int) := by
  unfold localInput skip slot
  dsimp only
  by_cases hbefore : c < r' % f.gA
  · rw [if_pos (by exact_mod_cast hbefore), if_pos hbefore, if_pos hbefore]
    obtain ⟨d, hd⟩ := Nat.exists_eq_succ_of_ne_zero (Nat.ne_zero_of_lt hbefore)
    rw [hd, Nat.succ_sub_one]
    push_cast
    ring
  · rw [if_neg (by exact_mod_cast hbefore), if_neg hbefore, if_neg hbefore]
    push_cast
    ring

theorem globalInput_eq (hp : 0 < f.gP) (r' c : Nat) : f.globalInput r' c =
    (((skip (r' / f.gA) (r' % f.gA * f.gP + c) * f.gA +
        slot (r' / f.gA) (r' % f.gA * f.gP + c) / f.gP) * f.numPortsPerSwitch +
      (2 * f.gP - 1 + slot (r' / f.gA) (r' % f.gA * f.gP + c) % f.gP) : Nat) : Int) := by
  have hrest : f.numPortsPerSwitch - f.gP = 2 * f.gP - 1 := by
    rw [numPortsPerSwitch_eq hp, Nat.add_sub_cancel]
  have hsplit : ∀ x g : Nat, g * f.numPortsPerSwitch * f.gA + (2 * f.gP - 1) * (x / f.gP) +
        (2 * f.gP - 1) + x =
      (g * f.gA + x / f.gP) * f.numPortsPerSwitch + (2 * f.gP - 1 + x % f.gP) := by
    intro x g
    conv_lhs => rw [← Nat.div_add_mod x f.gP]
    rw [numPortsPerSwitch_eq hp, Nat.mul_add_div hp, Nat.div_eq_of_lt (Nat.mod_lt x hp)]
    ring
  unfold globalInput skip slot
  dsimp only
  rw [hrest]
  by_cases hbefore : r' % f.gA * f.gP + c < r' / f.gA
  · rw [if_pos hbefore, if_pos hbefore, if_pos hbefore, hsplit]
  · rw [if_neg hbefore, if_neg hbefore, if_neg hbefore, hsplit]

theorem inPort_lt_of_feeds (h : f.Feeds r port r' port') :
    port' < f.gP + (2 * f.gP - 1) + f.gP := by
  obtain ⟨channel, -, hin⟩ := h
  unfold inputChannel at hin
  split at hin
  next => cases hin
  next =>
    split at hin
    next hlt => exact Nat.lt_add_right _ hlt
    next =>
      split at hin
      next hlt => exact hlt
      next => cases hin

theorem lt_gA_sub_one (hc : c < 2 * f.gP - 1) : c < f.gA - 1 := hc

/-- A link in the group leads to another router of the group. -/
theorem feeds_local_iff (hp : 0 < f.gP) (hc : c < 2 * f.gP - 1) :
    f.Feeds r (f.gP + c) r' port' ↔
      (r' / f.gA = r / f.gA ∧ r' % f.gA = skip (r % f.gA) c) ∧
        port' = f.gP + slot (r % f.gA) c := by
  have ha := gA_pos hp
  have hmod : ∀ x, x % f.gA < f.gA := fun x => Nat.mod_lt x ha
  have hw := numPortsPerSwitch_eq hp
  have hlocal : ∀ i < 2 * f.gP - 1,
      ((r * f.numPortsPerSwitch + c : Nat) : Int) = f.localInput r' i ↔
        (r' / f.gA = r / f.gA ∧ r' % f.gA = skip (r % f.gA) c) ∧ i = slot (r % f.gA) c := by
    intro i hi
    have hslot : slot (r' % f.gA) i < 2 * f.gP - 1 := slot_lt (hmod r') (lt_gA_sub_one hi)
    rw [localInput_eq, Nat.cast_inj, channel_eq_iff (by omega) (by omega),
      eq_mul_add_iff (skip_lt (hmod r') (lt_gA_sub_one hi)), and_assoc, skip_iff, and_assoc,
      eq_comm (a := r / f.gA)]
  constructor
  · rintro ⟨channel, hout, hin⟩
    rw [outputChannel_local hc] at hout
    obtain rfl := Option.some.inj hout
    unfold inputChannel at hin
    split at hin
    next => cases hin
    next hge =>
      split at hin
      next hlt =>
        obtain ⟨hrouter, hi⟩ := (hlocal (port' - f.gP) (by omega)).mp (Option.some.inj hin).symm
        exact ⟨hrouter, by omega⟩
      next =>
        split at hin
        next =>
          -- the links between groups have higher numbers at the router
          have heq := Option.some.inj hin
          rw [globalInput_eq hp, Nat.cast_inj] at heq
          have hrest := Nat.mod_lt (slot (r' / f.gA)
            (r' % f.gA * f.gP + (port' - f.gP - (2 * f.gP - 1)))) hp
          have hsame := ((channel_eq_iff (by omega) (by omega)).mp heq).2
          omega
        next => cases hin
  · rintro ⟨hrouter, rfl⟩
    have hi : slot (r % f.gA) c < 2 * f.gP - 1 := slot_lt (hmod r) (lt_gA_sub_one hc)
    refine ⟨_, outputChannel_local hc, ?_⟩
    rw [inputChannel, if_neg (by omega), if_pos (by omega), Nat.add_sub_cancel_left,
      (hlocal _ hi).mpr ⟨hrouter, rfl⟩]

/-- A link between groups leads to another group. -/
theorem feeds_global_iff (hp : 0 < f.gP) (hc : c < f.gP) (hr' : r' / f.gA < f.gG) :
    f.Feeds r (f.gP + (2 * f.gP - 1) + c) r' port' ↔
      r' / f.gA = skip (r / f.gA) (r % f.gA * f.gP + c) ∧ ∃ i < f.gP,
        port' = f.gP + (2 * f.gP - 1) + i ∧
          r' % f.gA * f.gP + i = slot (r / f.gA) (r % f.gA * f.gP + c) := by
  have ha := gA_pos hp
  have hw := numPortsPerSwitch_eq hp
  have houtput : ∀ x i, i < f.gP → x % f.gA * f.gP + i < f.gG - 1 := by
    intro x i hi
    have hx : (x % f.gA + 1) * f.gP ≤ f.gA * f.gP := Nat.mul_le_mul_right _ (Nat.mod_lt x ha)
    rw [Nat.add_mul, Nat.one_mul] at hx
    rw [gG]
    omega
  have hglobal : ∀ i < f.gP,
      ((r * f.numPortsPerSwitch + (2 * f.gP - 1 + c) : Nat) : Int) = f.globalInput r' i ↔
        r' / f.gA = skip (r / f.gA) (r % f.gA * f.gP + c) ∧
          r' % f.gA * f.gP + i = slot (r / f.gA) (r % f.gA * f.gP + c) := by
    intro i hi
    have hslot := slot_lt hr' (houtput r' i hi)
    rw [gG, Nat.add_sub_cancel] at hslot
    rw [globalInput_eq hp, Nat.cast_inj, ← skip_iff]
    generalize slot (r' / f.gA) (r' % f.gA * f.gP + i) = o at hslot ⊢
    have hrouter : o / f.gP < f.gA := Nat.div_lt_of_lt_mul (by rwa [Nat.mul_comm])
    have hrest := Nat.mod_lt o hp
    rw [channel_eq_iff (by omega) (by omega), eq_mul_add_iff hrouter, Nat.add_left_cancel_iff,
      and_assoc, eq_comm (a := _ + c), eq_mul_add_iff hc, eq_comm (a := o / f.gP),
      eq_comm (a := o % f.gP)]
  constructor
  · rintro ⟨channel, hout, hin⟩
    rw [outputChannel_global hc] at hout
    obtain rfl := Option.some.inj hout
    unfold inputChannel at hin
    split at hin
    next => cases hin
    next hge =>
      split at hin
      next hlt =>
        have heq := Option.some.inj hin
        rw [localInput_eq, Nat.cast_inj] at heq
        have hslot : slot (r' % f.gA) (port' - f.gP) < 2 * f.gP - 1 :=
          slot_lt (Nat.mod_lt r' ha) (lt_gA_sub_one (by omega))
        have hsame := ((channel_eq_iff (by omega) (by omega)).mp heq).2
        omega
      next =>
        split at hin
        next =>
          obtain ⟨hgroup, hi⟩ := (hglobal (port' - f.gP - (2 * f.gP - 1)) (by omega)).mp
            (Option.some.inj hin).symm
          exact ⟨hgroup, _, by omega, by omega, hi⟩
        next => cases hin
  · rintro ⟨hgroup, i, hi, rfl, hslot⟩
    have hsub : f.gP + (2 * f.gP - 1) + i - f.gP - (2 * f.gP - 1) = i := by omega
    refine ⟨_, outputChannel_global hc, ?_⟩
    rw [inputChannel, if_neg (by omega), if_neg (by omega), if_pos (by omega), hsub,
      (hglobal i hi).mpr ⟨hgroup, hslot⟩]

end Wiring

/-! ### Ways -/

/-- Where the link from a router's group arrives. -/
def arrival (f : DragonFly) (r dest : Nat) : Nat :=
  let destGrpID := dest / f.grpNumNodes
  (if r / f.gA > destGrpID then r / f.gA - 1 else r / f.gA) / f.gP + destGrpID * f.gA

/-- `dragonflynew_hopcnt`, from a router. -/
def hopsFrom (f : DragonFly) (r dest : Nat) : Nat :=
  if dest / f.grpNumNodes = r / f.gA then if dest / f.gP = r then 0 else 1
  else (if f.grpRID r dest = r then 0 else 1) + 1 + if f.arrival r dest = dest / f.gP then 0 else 1

/-- One hop on the way to a destination. -/
inductive Way (f : DragonFly) (dest r r' port' : Nat) : Prop where
  | inGroup : dest / f.gP ≠ r → f.grpRID r dest ≠ r → r' = f.grpRID r dest → f.gP ≤ port' →
      port' < f.gP + (2 * f.gP - 1) → Way f dest r r' port'
  | between : dest / f.grpNumNodes ≠ r / f.gA → f.grpRID r dest = r → r' = f.arrival r dest →
      f.gP + (2 * f.gP - 1) ≤ port' → Way f dest r r' port'

section Ways

variable {r r' port' dest : Nat}

theorem destGrp_lt (hdest : dest < f.nodes) : dest / f.grpNumNodes < f.gG :=
  Nat.div_lt_of_lt_mul hdest

theorem destRouter_div (dest : Nat) : dest / f.gP / f.gA = dest / f.grpNumNodes := by
  rw [Nat.div_div_eq_div_mul, Nat.mul_comm, grpNumNodes]

theorem at_router_iff (hp : 0 < f.gP) :
    r * f.gP ≤ dest ∧ dest < (r + 1) * f.gP ↔ dest / f.gP = r := by
  rw [← Nat.le_div_iff_mul_le hp, ← Nat.div_lt_iff_lt_mul hp]
  omega

theorem hopcnt_eq (hp : 0 < f.gP) (src dest : Nat) :
    f.hopcnt src dest = f.hopsFrom (src / f.gP) dest := by
  have hgroup : src / f.grpNumNodes = src / f.gP / f.gA := (destRouter_div src).symm
  unfold hopcnt hopsFrom grpRID arrival grpOutput
  dsimp only
  rw [hgroup, Nat.mul_div_cancel _ hp, Nat.mul_div_cancel _ hp]
  split
  · rfl
  · rfl

theorem grpRID_congr (dest : Nat) (h : r' / f.gA = r / f.gA) : f.grpRID r' dest = f.grpRID r dest := by
  unfold grpRID
  rw [h]

/-- An output numbers the other groups. -/
theorem grpOutput_lt {g g' n : Nat} (hg : g < n) (hg' : g' < n) (hne : g' ≠ g) :
    grpOutput g g' < n - 1 ∧ skip g (grpOutput g g') = g' ∧
      slot g (grpOutput g g') = if g > g' then g - 1 else g := by
  unfold grpOutput skip slot
  split
  next hbefore => exact ⟨by omega, rfl, rfl⟩
  next hafter =>
    have hge : ¬ g' - 1 < g := by omega
    exact ⟨by omega, (if_neg hge).trans (by omega), if_neg hge⟩

theorem gate_lt (hr : r / f.gA < f.gG) (hdest : dest < f.nodes)
    (hne : dest / f.grpNumNodes ≠ r / f.gA) :
    grpOutput (r / f.gA) (dest / f.grpNumNodes) / f.gP < f.gA := by
  refine Nat.div_lt_of_lt_mul ?_
  rw [Nat.mul_comm]
  exact (grpOutput_lt hr (destGrp_lt hdest) hne).1

theorem grpRID_div (hp : 0 < f.gP) (hr : r / f.gA < f.gG) (hdest : dest < f.nodes) :
    f.grpRID r dest / f.gA = r / f.gA := by
  unfold grpRID
  dsimp only
  split
  next heq => rw [destRouter_div, heq]
  next hne =>
    rw [Nat.add_comm, Nat.mul_comm, Nat.mul_add_div (gA_pos hp), Nat.div_eq_of_lt (gate_lt hr hdest hne),
      Nat.add_zero]

theorem arrival_div (hr : r / f.gA < f.gG) (hdest : dest < f.nodes)
    (hne : dest / f.grpNumNodes ≠ r / f.gA) :
    f.arrival r dest / f.gA = dest / f.grpNumNodes ∧
      f.arrival r dest % f.gA =
        slot (r / f.gA) (grpOutput (r / f.gA) (dest / f.grpNumNodes)) / f.gP := by
  obtain ⟨hlt, -, hslot⟩ := grpOutput_lt hr (destGrp_lt hdest) hne
  have hback : slot (r / f.gA) (grpOutput (r / f.gA) (dest / f.grpNumNodes)) / f.gP < f.gA := by
    refine Nat.div_lt_of_lt_mul ?_
    rw [Nat.mul_comm]
    exact slot_lt hr hlt
  have hsplit : f.arrival r dest = dest / f.grpNumNodes * f.gA +
      slot (r / f.gA) (grpOutput (r / f.gA) (dest / f.grpNumNodes)) / f.gP := by
    rw [arrival, hslot, Nat.add_comm]
  obtain ⟨hgroup, hrouter⟩ := (eq_mul_add_iff hback).mp hsplit
  exact ⟨hgroup, hrouter⟩

/-- The three cases of `dragonfly_port`. -/
inductive PortFor (f : DragonFly) (r : Nat) (dest : Nat) : Prop where
  | eject : dest / f.gP = r → f.port r dest = (dest % f.gP : Nat) → PortFor f r dest
  | inGroup {c : Nat} : dest / f.gP ≠ r → f.grpRID r dest ≠ r → c < 2 * f.gP - 1 →
      f.port r dest = (f.gP + c : Nat) → f.grpRID r dest % f.gA = skip (r % f.gA) c →
      PortFor f r dest
  | between {c : Nat} : dest / f.grpNumNodes ≠ r / f.gA → f.grpRID r dest = r → c < f.gP →
      f.port r dest = (f.gP + (2 * f.gP - 1) + c : Nat) →
      r % f.gA * f.gP + c = grpOutput (r / f.gA) (dest / f.grpNumNodes) → PortFor f r dest

theorem portFor (hp : 0 < f.gP) (hr : r / f.gA < f.gG) (hdest : dest < f.nodes) :
    PortFor f r dest := by
  have ha := gA_pos hp
  have htwo : f.gA = 2 * f.gP := rfl
  have hgroup := grpRID_div hp hr hdest
  by_cases hhere : dest / f.gP = r
  · exact .eject hhere (if_pos ((at_router_iff hp).mpr hhere))
  · have haway := mt (at_router_iff hp).mp hhere
    by_cases hgate : f.grpRID r dest = r
    · have hne : dest / f.grpNumNodes ≠ r / f.gA := by
        intro heq
        rw [grpRID, if_pos heq] at hgate
        exact hhere hgate
      refine .between (c := grpOutput (r / f.gA) (dest / f.grpNumNodes) % f.gP) hne hgate
        (Nat.mod_lt _ hp) ?_ ?_
      · refine (if_neg haway).trans ((if_pos hgate).trans ?_)
        omega
      · have hmod : r % f.gA = grpOutput (r / f.gA) (dest / f.grpNumNodes) / f.gP := by
          rw [grpRID, if_neg hne] at hgate
          conv_lhs => rw [← hgate]
          rw [Nat.add_comm, Nat.mul_comm, Nat.mul_add_mod, Nat.mod_eq_of_lt (gate_lt hr hdest hne)]
        rw [hmod, Nat.div_add_mod']
    · have hsplit := Nat.div_add_mod r f.gA
      have hsplit' := Nat.div_add_mod (f.grpRID r dest) f.gA
      rw [hgroup] at hsplit'
      have hmod := Nat.mod_lt r ha
      have hmod' := Nat.mod_lt (f.grpRID r dest) ha
      by_cases hless : r < f.grpRID r dest
      · refine .inGroup (c := f.grpRID r dest % f.gA - 1) hhere hgate (by omega) ?_ ?_
        · refine (if_neg haway).trans ((if_neg hgate).trans ((if_pos hless).trans ?_))
          omega
        · rw [skip, if_neg (by omega)]
          omega
      · refine .inGroup (c := f.grpRID r dest % f.gA) hhere hgate (by omega) ?_ ?_
        · refine (if_neg haway).trans ((if_neg hgate).trans ((if_neg hless).trans ?_))
          omega
        · rw [skip, if_pos (by omega)]

theorem group_lt (hr : r < f.size) : r / f.gA < f.gG := Nat.div_lt_of_lt_mul hr

theorem lt_size (hp : 0 < f.gP) (hr : r / f.gA < f.gG) : r < f.size := by
  rw [size, Nat.mul_comm]
  exact (Nat.div_lt_iff_lt_mul (gA_pos hp)).mp hr

/-- The links lead on the way to the destination. -/
theorem way_of_feeds {port : Nat} (hp : 0 < f.gP) (hr : r < f.size) (hr' : r' < f.size)
    (hdest : dest < f.nodes) (hport : f.port r dest = (port : Nat))
    (hfeeds : f.Feeds r port r' port') : Way f dest r r' port' := by
  have hgroup := grpRID_div hp (group_lt hr) hdest
  cases portFor hp (group_lt hr) hdest with
  | eject _ heq =>
      obtain rfl := Int.ofNat_inj.mp (hport.symm.trans heq)
      obtain ⟨c, hout, -⟩ := hfeeds
      rw [outputChannel, if_pos (Nat.mod_lt _ hp)] at hout
      cases hout
  | inGroup haway hgate hc heq hskip =>
      obtain rfl := Int.ofNat_inj.mp (hport.symm.trans heq)
      obtain ⟨⟨hsame, hmod⟩, rfl⟩ := (feeds_local_iff hp hc).mp hfeeds
      have hslot := slot_lt (Nat.mod_lt r (gA_pos hp)) (lt_gA_sub_one hc)
      refine .inGroup haway hgate ?_ (Nat.le_add_right _ _) (Nat.add_lt_add_left hslot _)
      exact Nat.ext_div_mod (hsame.trans hgroup.symm) (hmod.trans hskip.symm)
  | between hne hgate hc heq houtput =>
      obtain rfl := Int.ofNat_inj.mp (hport.symm.trans heq)
      obtain ⟨hgroup', i, hi, rfl, hslot⟩ := (feeds_global_iff hp hc (group_lt hr')).mp hfeeds
      rw [houtput] at hgroup' hslot
      obtain ⟨harrival, harrival'⟩ := arrival_div (group_lt hr) hdest hne
      refine .between hne hgate ?_ (Nat.le_add_right _ _)
      rw [(grpOutput_lt (group_lt hr) (destGrp_lt hdest) hne).2.1] at hgroup'
      refine Nat.ext_div_mod (hgroup'.trans harrival.symm) ?_
      rw [harrival', ← ((eq_mul_add_iff hi).mp hslot.symm).1]

/-- Away from the destination there is a link. -/
theorem exists_feeds (hp : 0 < f.gP) (hr : r < f.size) (hdest : dest < f.nodes)
    (haway : dest / f.gP ≠ r) : ∃ port r' port', f.port r dest = (port : Nat) ∧ r' < f.size ∧
      port' < f.gP + (2 * f.gP - 1) + f.gP ∧ f.Feeds r port r' port' := by
  have hgroup := grpRID_div hp (group_lt hr) hdest
  cases portFor hp (group_lt hr) hdest with
  | eject hhere _ => exact absurd hhere haway
  | inGroup _ _ hc heq hskip =>
      have hslot := slot_lt (Nat.mod_lt r (gA_pos hp)) (lt_gA_sub_one hc)
      refine ⟨_, f.grpRID r dest, _, heq, lt_size hp (hgroup ▸ group_lt hr), ?_,
        (feeds_local_iff hp hc).mpr ⟨⟨hgroup, hskip⟩, rfl⟩⟩
      exact Nat.lt_add_right _ (Nat.add_lt_add_left hslot _)
  | between hne _ hc heq houtput =>
      obtain ⟨harrival, harrival'⟩ := arrival_div (group_lt hr) hdest hne
      have hthere : f.arrival r dest / f.gA < f.gG := harrival ▸ destGrp_lt hdest
      refine ⟨_, f.arrival r dest, f.gP + (2 * f.gP - 1) +
          slot (r / f.gA) (grpOutput (r / f.gA) (dest / f.grpNumNodes)) % f.gP,
        heq, lt_size hp hthere, Nat.add_lt_add_left (Nat.mod_lt _ hp) _,
        (feeds_global_iff hp hc hthere).mpr ⟨?_, _, Nat.mod_lt _ hp, rfl, ?_⟩⟩
      · rw [houtput, (grpOutput_lt (group_lt hr) (destGrp_lt hdest) hne).2.1, harrival]
      · rw [harrival', houtput, Nat.div_add_mod']

theorem hopsFrom_own (h : dest / f.grpNumNodes = r / f.gA) :
    f.hopsFrom r dest = if dest / f.gP = r then 0 else 1 := if_pos h

theorem hopsFrom_other (h : dest / f.grpNumNodes ≠ r / f.gA) : f.hopsFrom r dest =
    (if f.grpRID r dest = r then 0 else 1) + 1 + if f.arrival r dest = dest / f.gP then 0 else 1 :=
  if_neg h

theorem hopsFrom_eq_zero_iff : f.hopsFrom r dest = 0 ↔ dest / f.gP = r := by
  by_cases hsame : dest / f.grpNumNodes = r / f.gA
  · rw [hopsFrom_own hsame, ite_eq_left_iff, imp_iff_not (Nat.succ_ne_zero 0), not_not]
  · rw [hopsFrom_other hsame]
    constructor
    · intro h
      omega
    · rintro rfl
      exact absurd (destRouter_div dest).symm hsame

/-- Each hop on the way is one less to go. -/
theorem Way.hopsFrom_eq (hp : 0 < f.gP) (hr : r < f.size) (hdest : dest < f.nodes)
    (h : Way f dest r r' port') : f.hopsFrom r dest = f.hopsFrom r' dest + 1 := by
  cases h with
  | inGroup haway hgate hnext =>
      have hgroup : r' / f.gA = r / f.gA := hnext ▸ grpRID_div hp (group_lt hr) hdest
      by_cases hsame : dest / f.grpNumNodes = r / f.gA
      · rw [grpRID, if_pos hsame] at hnext
        rw [hopsFrom_eq_zero_iff.mpr hnext.symm, hopsFrom_own hsame, if_neg haway]
      · have hthere : f.grpRID r' dest = r' := (grpRID_congr dest hgroup).trans hnext.symm
        have harrival : f.arrival r' dest = f.arrival r dest := by rw [arrival, arrival, hgroup]
        rw [hopsFrom_other hsame, hopsFrom_other (hgroup.symm ▸ hsame), if_neg hgate, if_pos hthere,
          harrival]
        omega
  | between hne hgate hnext =>
      have hsame : dest / f.grpNumNodes = r' / f.gA :=
        hnext ▸ (arrival_div (group_lt hr) hdest hne).1.symm
      rw [hopsFrom_other hne, if_pos hgate, ← hnext, hopsFrom_own hsame]
      simp only [eq_comm, Nat.zero_add, Nat.add_comm]

end Ways

end DragonFly

end Flyover
