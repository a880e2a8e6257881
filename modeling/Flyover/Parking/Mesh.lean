import Flyover.Parking.RouteTbl
import Flyover.Routing.OnePort

/-!
# `rp_mesh`

Router parking looks up the direction: in the shortest-path table, or on the
escape channel in the escape table.
-/

namespace Flyover

variable {k : Nat}

/-- `out_port`, with the assertion on it. -/
def TableEntry.outPort : TableEntry → Option OutPort
  | .invalid => none
  | .dir p => some (.mesh p)
  | .arrived => some .eject

/-- `escape`: the packet is on the escape channel or has waited for long. -/
def rpEscape (traffic : Traffic) (vcs : VCRange) (f : Flit k) (inChannel : Option Port) : Bool :=
  let inVC := if inChannel = none then vcs.vcEnd else f.vc
  inVC == vcs.vcBegin || decide (traffic.simTime - f.rtime ≥ 300)

/-- The table that `rp_mesh` looks into, of the tables of a router. -/
def rpTable (rtTbl escRtTbl : Node k → TableEntry) (escape : Bool) : Node k → TableEntry :=
  if escape then escRtTbl else rtTbl

/-- `rp_mesh`, for routers with the tables `_rt_tbl` and `_esc_rt_tbl`. -/
def rpMesh (rtTbl escRtTbl : Node k → Node k → TableEntry) : RoutingFunction k :=
  fun config traffic n _ f inChannel inject =>
    f.route config n inject fun vcs => do
      let escape := rpEscape traffic vcs f inChannel
      let outPort ← (rpTable (rtTbl n) (escRtTbl n) escape f.dest).outPort
      pure (.onePort vcs escape outPort)

theorem rpMesh_route (rtTbl escRtTbl : Node k → Node k → TableEntry) (config : RoutingConfig)
    (traffic : Traffic) (n : Node k) (r : Router) (f : Flit k) (inChannel : Option Port)
    (inject : Bool) : ∃ transit, rpMesh rtTbl escRtTbl config traffic n r f inChannel inject =
      f.route config n inject transit :=
  ⟨_, rfl⟩

end Flyover
