import Flyover.Routing.Function

/-!
# The routing functions without power gating

They are written for a mesh of any number of dimensions. What one call makes is
the list of its calls of `AddRange`, with the ports as the code numbers them: -1
at injection, `2*n` and `2*n + 1` for the directions of dimension `n`, and
`2*gN`.

A failed assertion or a reported error is `none`.
-/

namespace Flyover

/-- A call of `AddRange`. -/
structure Offer where
  outputPort : Int
  vcStart : Int
  vcEnd : Int
  pri : Int
  deriving DecidableEq, Repr

/-- One virtual channel of a port, with the priority it is offered at. -/
structure OfferedVC where
  outputPort : Int
  vc : Int
  pri : Int
  deriving DecidableEq, Repr

/-- The range of the call has the virtual channel in it. -/
def Offer.Covers (offer : Offer) (t : OfferedVC) : Prop :=
  t.outputPort = offer.outputPort ∧ (offer.vcStart ≤ t.vc ∧ t.vc ≤ offer.vcEnd) ∧
    t.pri = offer.pri

/-- `_k` and `_n`: a mesh of `gN` dimensions with `gK` routers along each. -/
structure Cube where
  gK : Nat
  gN : Nat

namespace Cube

/-- `gNodes` -/
def gNodes (c : Cube) : Nat := c.gK ^ c.gN

/-- The port that leads from coordinate `cur` to coordinate `dest`. -/
def sidePort (dim cur dest : Nat) : Int := if cur < dest then 2 * dim else 2 * dim + 1

/-- The ascending loop of `dor_next_mesh`, with `left` rounds left. -/
def dorAscending (gK : Nat) : Nat → Nat → Nat → Nat → Int
  | 0, dimLeft, cur, dest => sidePort dimLeft (cur % gK) (dest % gK)
  | left + 1, dimLeft, cur, dest =>
      if cur % gK ≠ dest % gK then sidePort dimLeft (cur % gK) (dest % gK)
      else dorAscending gK left (dimLeft + 1) (cur / gK) (dest / gK)

/-- The descending loop of `dor_next_mesh`. -/
def dorDescending (c : Cube) : Nat → Nat → Nat → Int
  | 0, cur, dest => sidePort 0 (cur * c.gK / c.gNodes) (dest * c.gK / c.gNodes)
  | dimLeft + 1, cur, dest =>
      if cur * c.gK / c.gNodes ≠ dest * c.gK / c.gNodes then
        sidePort (dimLeft + 1) (cur * c.gK / c.gNodes) (dest * c.gK / c.gNodes)
      else dorDescending c dimLeft (cur * c.gK % c.gNodes) (dest * c.gK % c.gNodes)

/-- `dor_next_mesh` -/
def dorNextMesh (c : Cube) (cur dest : Nat) (descending : Bool) : Int :=
  if cur = dest then 2 * c.gN
  else if descending then c.dorDescending (c.gN - 1) cur dest
  else dorAscending c.gK (c.gN - 1) 0 cur dest

/-- The loop of `rand_min_intr_mesh` from dimension `n` on: the draw is between the
coordinates, counted from the lower one. -/
def randMinIntr (gK : Nat) (draw : Nat → Nat) : Nat → Nat → Nat → Nat → Nat → Nat
  | 0, _, _, _, _ => 0
  | left + 1, n, offset, src, dest =>
      (if dest % gK > src % gK then offset * (src % gK + draw n)
        else offset * (dest % gK + draw n)) +
      randMinIntr gK draw left (n + 1) (offset * gK) (src / gK) (dest / gK)

/-- The loop over the dimensions that `min_adapt_mesh` and `chaos_mesh` share, from
dimension `n` on: the minimal direction in each dimension, where there is one. -/
def minimalOffers (gK : Nat) (vcs : VCRange) (pri : Int) : Nat → Nat → Nat → Nat → List Offer
  | 0, _, _, _ => []
  | left + 1, n, cur, dest =>
      let rest := minimalOffers gK vcs pri left (n + 1) (cur / gK) (dest / gK)
      if cur % gK ≠ dest % gK then
        ⟨sidePort n (cur % gK) (dest % gK), vcs.vcBegin, vcs.vcEnd, pri⟩ :: rest
      else rest

/-- The loop of `planar_adapt_mesh` that looks for the adaptive plane, with what it
leaves in `cur` and `dest`; `misrouted` leaves dimension 0 out. -/
def findPlane (gK : Nat) (misrouted : Bool) : Nat → Nat → Nat → Nat → Option (Nat × Nat × Nat)
  | 0, _, _, _ => none
  | left + 1, n, cur, dest =>
      if cur % gK ≠ dest % gK ∧ ¬ (misrouted = true ∧ n = 0) then some (n, cur, dest)
      else findPlane gK misrouted left (n + 1) (cur / gK) (dest / gK)

end Cube

/-- The fields of a flit that the functions read. -/
structure CubeFlit (c : Cube) where
  type : FlitType
  vc : Int
  src : Fin c.gNodes
  dest : Fin c.gNodes
  ph : Int
  intm : Nat

/-- What a call of a routing function reads. `draw n` is what the `n`-th call of
`RandomInt` returns. -/
structure CubeCall (c : Cube) where
  config : RoutingConfig
  id : Fin c.gNodes
  f : CubeFlit c
  inChannel : Int
  inject : Bool
  freeCredit : Int → Int
  usedCredit : Int → Int
  isFaultyOutput : Int → Bool
  draw : Nat → Nat

/-- The whole range at one port. -/
def VCRange.offer (vcs : VCRange) (outPort : Int) : List Offer :=
  [⟨outPort, vcs.vcBegin, vcs.vcEnd, 0⟩]

/-- The share of one of `parts` parts, with `assert(vcs_per_dest > 0)`. -/
def VCRange.share (vcs : VCRange) (parts index : Nat) : Option VCRange :=
  let vcsPerDest := (vcs.vcEnd - vcs.vcBegin + 1).tdiv parts
  if vcsPerDest > 0 then
    let vcBegin := vcs.vcBegin + index * vcsPerDest
    some ⟨vcBegin, vcBegin + vcsPerDest - 1⟩
  else none

/-- One of the two halves, with `assert(available_vcs > 0)`. -/
def VCRange.half (vcs : VCRange) (lower : Bool) : Option VCRange :=
  let availableVCs := (vcs.vcEnd - vcs.vcBegin + 1).tdiv 2
  if availableVCs > 0 then
    some (if lower then ⟨vcs.vcBegin, vcs.vcEnd - availableVCs⟩
      else ⟨vcs.vcBegin + availableVCs, vcs.vcEnd⟩)
  else none

namespace CubeCall

variable {c : Cube} (call : CubeCall c)

/-- `vcBegin` and `vcEnd` -/
def vcs : VCRange := call.config.vcs call.f.type

/-- `assert(((f->vc >= vcBegin) && (f->vc <= vcEnd)) || (inject && (f->vc < 0)))` -/
def assertVC : Option Unit :=
  if (call.vcs.vcBegin ≤ call.f.vc ∧ call.f.vc ≤ call.vcs.vcEnd) ∨
    (call.inject = true ∧ call.f.vc < 0) then some () else none

/-- `in_vc`, where the injection channel is ignored. -/
def inVC : Int := if call.inChannel = 2 * c.gN then call.vcs.vcEnd else call.f.vc

/-- `dim_order_mesh` -/
def dimOrderMesh : Option (List Offer) := do
  let outPort := if call.inject then -1 else c.dorNextMesh call.id call.f.dest false
  call.assertVC
  pure (call.vcs.offer outPort)

/-- The virtual channels for a destination, all of them at its router. -/
def destVCs : Option VCRange :=
  if call.inject ∨ call.id ≠ call.f.dest then call.vcs.share c.gNodes call.f.dest
  else some call.vcs

/-- `dim_order_ni_mesh` -/
def dimOrderNiMesh : Option (List Offer) := do
  let outPort := if call.inject then -1 else c.dorNextMesh call.id call.f.dest false
  call.assertVC
  let vcs ← call.destVCs
  pure (vcs.offer outPort)

/-- `dim_order_pni_mesh`; the coordinate is below `gK` as it is asserted to be. -/
def dimOrderPniMesh : Option (List Offer) := do
  let outPort := if call.inject then -1 else c.dorNextMesh call.id call.f.dest false
  call.assertVC
  if call.inject ∨ call.id ≠ call.f.dest then
    let outDim := (outPort / 2).toNat
    let nextCoord := if call.inject then call.f.dest.val
      else (fun coord => coord / c.gK)^[outDim] call.f.dest.val
    let vcs ← call.vcs.share c.gK (nextCoord % c.gK)
    pure (vcs.offer outPort)
  else pure (call.vcs.offer outPort)

/-- What `xy_yx_mesh` and `adaptive_xy_yx_mesh` have in common: the order in which a
packet is routed is chosen as it enters the network, and then read off its
virtual channel. -/
def routeXYYX (order : Bool) : Option (List Offer) := do
  call.assertVC
  if call.inject then pure (call.vcs.offer (-1))
  else if call.id = call.f.dest then pure (call.vcs.offer (2 * c.gN))
  else
    let availableVCs := (call.vcs.vcEnd - call.vcs.vcBegin + 1).tdiv 2
    let xThenY :=
      if call.inChannel < 2 * c.gN then decide (call.f.vc < call.vcs.vcBegin + availableVCs)
      else order
    let vcs ← call.vcs.half xThenY
    pure (vcs.offer (c.dorNextMesh call.id call.f.dest !xThenY))

/-- `xy_yx_mesh` -/
def xyYxMesh : Option (List Offer) := call.routeXYYX (call.draw 0 > 0)

/-- `adaptive_xy_yx_mesh` -/
def adaptiveXYYXMesh : Option (List Offer) :=
  let creditXY := call.usedCredit (c.dorNextMesh call.id call.f.dest false)
  let creditYX := call.usedCredit (c.dorNextMesh call.id call.f.dest true)
  call.routeXYYX
    (if creditXY > creditYX then false else if creditXY < creditYX then true
      else call.draw 0 > 0)

/-- `f->ph` and `f->intm` after the update, for the intermediate node that is drawn
at the source. -/
def phase (intermediate : Nat) : Int × Nat :=
  let ph := if call.inChannel = 2 * c.gN then 0 else call.f.ph
  let intm := if call.inChannel = 2 * c.gN then intermediate else call.f.intm
  (if ph = 0 ∧ call.id.val = intm then 1 else ph, intm)

/-- Where the packet is heading. -/
def target (phase : Int × Nat) : Nat := if phase.1 = 0 then phase.2 else call.f.dest

/-- What `romm_mesh` and `valiant_mesh` have in common. -/
def routePhased (intermediate : Nat) : Option (List Offer) := do
  call.assertVC
  if call.inject then pure (call.vcs.offer (-1))
  else
    let phase := call.phase intermediate
    let outPort := c.dorNextMesh call.id (call.target phase) false
    if call.id = call.f.dest then pure (call.vcs.offer outPort)
    else
      let vcs ← call.vcs.half (phase.1 = 0)
      -- `assert(f->ph == 1)`
      if phase.1 = 0 ∨ phase.1 = 1 then pure (vcs.offer outPort) else none

/-- `rand_min_intr_mesh` -/
def randMinIntrMesh : Nat := Cube.randMinIntr c.gK call.draw c.gN 0 1 call.f.src call.f.dest

/-- `romm_mesh` -/
def rommMesh : Option (List Offer) := call.routePhased call.randMinIntrMesh

/-- `valiant_mesh` -/
def valiantMesh : Option (List Offer) := call.routePhased (call.draw 0)

/-- `romm_ni_mesh` -/
def rommNiMesh : Option (List Offer) := do
  call.assertVC
  let vcs ← call.destVCs
  if call.inject then pure (vcs.offer (-1))
  else
    pure (vcs.offer (c.dorNextMesh call.id (call.target (call.phase call.randMinIntrMesh)) false))

/-- How `min_adaptive_mesh` and `min_adapt_mesh` begin. -/
def routeMinimal (transit : List Offer) : Option (List Offer) := do
  call.assertVC
  if call.inject then pure (call.vcs.offer (-1))
  else if call.id = call.f.dest then pure (call.vcs.offer (2 * c.gN))
  else pure transit

/-- `min_adaptive_mesh` -/
def minAdaptiveMesh : Option (List Offer) :=
  let vcs := call.vcs
  let xyPort := c.dorNextMesh call.id call.f.dest false
  let yxPort := c.dorNextMesh call.id call.f.dest true
  let xyFirst := decide (call.freeCredit xyPort ≥ call.freeCredit yxPort)
  let xyPri := if xyFirst then 2 else 1
  let yxPri := if xyPort = yxPort then xyPri else if xyFirst then 1 else 2
  call.routeMinimal
    (⟨xyPort, vcs.vcBegin, vcs.vcBegin + 1, 0⟩ ::
      if call.inVC ≠ vcs.vcBegin then
        ⟨xyPort, vcs.vcBegin + 2, vcs.vcEnd, xyPri⟩ ::
          if xyPort ≠ yxPort then [⟨yxPort, vcs.vcBegin + 2, vcs.vcEnd, yxPri⟩] else []
      else [])

/-- `min_adapt_mesh` -/
def minAdaptMesh : Option (List Offer) :=
  let vcs := call.vcs
  call.routeMinimal
    (⟨c.dorNextMesh call.id call.f.dest false, 0, vcs.vcBegin, vcs.vcBegin⟩ ::
      if call.inVC ≠ vcs.vcBegin then
        Cube.minimalOffers c.gK ⟨vcs.vcBegin + 1, vcs.vcEnd⟩ 1 c.gN 0 call.id call.f.dest
      else [])

/-- `chaos_mesh`, where there is one virtual channel. -/
def chaosMesh : Option (List Offer) :=
  some (
    if call.inject then [⟨-1, 0, 0, 0⟩]
    else if call.id ≠ call.f.dest then
      Cube.minimalOffers c.gK ⟨0, 0⟩ 0 c.gN 0 call.id call.f.dest
    else [⟨2 * c.gN, 0, 0, 0⟩])

/-- The port of the other direction, `port ^ 1`. -/
def opposite (port : Int) : Int := if port % 2 = 0 then port + 1 else port - 1

/-- `vc_mult` -/
def vcMult : Int := (call.vcs.vcEnd - call.vcs.vcBegin + 1).tdiv 3

/-- The packet has come in over dimension 0, below the virtual channels that are for
the first dimension of a plane. -/
def misrouted : Bool :=
  decide (call.inChannel.tdiv 2 = 0 ∧ call.f.vc < call.vcs.vcBegin + 2 * call.vcMult)

/-- `d1_min_c` in dimension `n` of a plane, before a turn back is avoided. -/
def secondPort (n cur dest : Nat) : Int :=
  if cur < dest then 2 * n else if cur ≠ dest then 2 * n + 1 else -1

/-- The way around two faults in dimension `n`, at coordinate `cur`. -/
def misroute (n cur : Nat) (vcs : VCRange) : Option (List Offer) :=
  let atEdge := decide (cur = 0 ∨ cur + 1 = c.gK)
  let random := 2 * (n : Int) + call.draw 0
  let d1 := if cur = 0 then 2 * (n : Int) else if cur + 1 = c.gK then 2 * (n : Int) + 1
    else if random = call.inChannel then opposite call.inChannel else random
  if !call.isFaultyOutput d1 then some (vcs.offer d1)
  else if !atEdge && !call.isFaultyOutput (opposite d1) then some (vcs.offer (opposite d1))
  else none

/-- The second half of `planar_adapt_mesh`: the other dimension `n` of the plane,
where `fault` tells that there is no way in the first. -/
def planarSecond (fault : Bool) (n cur dest : Nat) (vcs : VCRange) : Option (List Offer) :=
  let d1 := secondPort n cur dest
  let d1 := if d1 = call.inChannel then if fault then opposite call.inChannel else -1 else d1
  if d1 ≠ -1 then
    if !call.isFaultyOutput d1 then some (vcs.offer d1)
    else if fault then none
    else some []
  else if fault then call.misroute n cur vcs
  else some []

/-- `planar_adapt_mesh` -/
def planarAdaptMesh : Option (List Offer) := do
  call.assertVC
  if call.inject then pure (call.vcs.offer (-1))
  else if call.id ≠ call.f.dest then
    -- `assert( n < gN )`
    let (n, cur, dest) ← Cube.findPlane c.gK call.misrouted c.gN 0 call.id call.f.dest
    let increase := decide (cur % c.gK < dest % c.gK)
    let first := Cube.sidePort n (cur % c.gK) (dest % c.gK)
    let fault := call.isFaultyOutput first
    let vcBegin := if increase then call.vcs.vcBegin else call.vcs.vcBegin + call.vcMult
    let second ← call.planarSecond fault ((n + 1) % c.gN) (cur / c.gK % c.gK) (dest / c.gK % c.gK)
      ⟨vcBegin, vcBegin + call.vcMult - 1⟩
    pure (if fault then second
      else ⟨first, call.vcs.vcBegin + 2 * call.vcMult, call.vcs.vcEnd, 0⟩ :: second)
  else pure (call.vcs.offer (2 * c.gN))

end CubeCall

end Flyover
