import Mathlib.Data.List.FinRange
import Flyover.Parking.OffCores
import Flyover.Routing.DimensionOrder

/-!
# Networks from a file

`AnyNet` reads from a file which routers there are links between, and how long they
are. It finds the shortest ways from every router and keeps the port that the first
link of the way leaves by, for every node.
-/

namespace Flyover

/-- `numeric_limits<int>::max()` -/
def maxInt : Int := 2147483647

/-- `node_list`, and the latencies of `router_list[1]`. -/
structure AnyNet (size nodes : Nat) where
  router : Fin nodes → Fin size
  latency : Fin size → Fin size → Option Int

/-- The arrays of `AnyNet::route`. -/
structure RouteState (size : Nat) where
  dist : Fin size → Int
  prev : Fin size → Option (Fin size)
  rlist : List (Fin size)

namespace AnyNet

variable {size nodes : Nat} (net : AnyNet size nodes)

/-- The nodes of `router_list[0][r]`. -/
def nodesOf (r : Fin size) : List (Fin nodes) :=
  (List.finRange nodes).filter fun n => net.router n = r

/-- The routers of `router_list[1][r]`. -/
def linksOf (r : Fin size) : List (Fin size) :=
  (List.finRange size).filter fun s => (net.latency r s).isSome

/-- The output channels of a router, in the order that `_BuildNet` adds them in. -/
def outputs (r : Fin size) : List (Fin nodes ⊕ Fin size) :=
  (net.nodesOf r).map .inl ++ (net.linksOf r).map .inr

/-- The `outport` that is kept with an entry of `router_list`. -/
def port (r : Fin size) (output : Fin nodes ⊕ Fin size) : Nat :=
  (net.outputs r).findIdx fun o => o = output

/-- `SetLatency` gives an error otherwise. -/
def Positive : Prop := ∀ r s w, net.latency r s = some w → 0 < w

instance : Decidable net.Positive :=
  decidable_of_iff (∀ r s, ∀ w ∈ net.latency r s, 0 < w) Iff.rfl

/-! ### `route` -/

def start (r : Fin size) : RouteState size where
  dist := Function.update (fun _ => maxInt) r 0
  prev _ := none
  rlist := List.finRange size

/-- "find min": one round of the loop, for `min_dist` and `min_cand` -/
def findMin (dist : Fin size → Int) (best : Int × Option (Fin size)) (i : Fin size) :
    Int × Option (Fin size) :=
  if dist i < best.1 then (dist i, some i) else best

/-- "neighbor": one round of the loop -/
def relax (c : Fin size) (s : RouteState size) (i : Fin size) : RouteState size :=
  let newDist := toInt32 (s.dist c + (net.latency c i).getD 0)
  if newDist < s.dist i then
    { s with dist := Function.update s.dist i newDist, prev := Function.update s.prev i (some c) }
  else s

/-- `while(!rlist.empty())`. Every round takes one router off the list. If none has been
reached, nothing is taken off, and the loop goes on for ever. -/
def search : Nat → RouteState size → Option (RouteState size)
  | 0, s => some s
  | rounds + 1, s =>
      match (s.rlist.foldl (findMin s.dist) (maxInt, none)).2 with
      | none => none
      | some c => search rounds ((net.linksOf c).foldl (net.relax c) { s with rlist := s.rlist.erase c })

/-- `while(prev[neighbor]!=r_start)`, with its assertion -/
def follow (prev : Fin size → Option (Fin size)) (r : Fin size) : Nat → Fin size → Option (Fin size)
  | 0, _ => none
  | fuel + 1, neighbor =>
      match prev neighbor with
      | none => none
      | some u =>
          if u = r then some neighbor
          else if (net.latency neighbor u).isSome then follow prev r fuel u else none

/-- The link that the way to a router begins with, and none to the router itself. -/
def firstLink (prev : Fin size → Option (Fin size)) (r i : Fin size) : Option (Option (Fin size)) :=
  match prev i with
  -- `assert(i == r_start)`
  | none => if i = r then some none else none
  | some _ =>
      match net.follow prev r size i with
      | none => none
      -- `assert( router_list[1][r_start].count(neighbor)!=0)`
      | some neighbor => if (net.latency r neighbor).isSome then some (some neighbor) else none

/-- The output channel for a node of a router. -/
def outputFor (first : Option (Fin size)) (n : Fin nodes) : Fin nodes ⊕ Fin size :=
  match first with
  | none => .inl n
  | some neighbor => .inr neighbor

/-- `AnyNet::route` -/
def route (r : Fin size) : Option (Fin nodes → Nat) :=
  match net.search size (start r) with
  | none => none
  | some s =>
      if h : ∀ i, (net.firstLink s.prev r i).isSome then
        some fun n => net.port r (outputFor ((net.firstLink s.prev r (net.router n)).get (h _)) n)
      else none

/-- `buildRoutingTable` -/
def buildRoutingTable : Option (Fin size → Fin nodes → Nat) :=
  if h : ∀ r, (net.route r).isSome then some fun r => (net.route r).get (h r) else none

end AnyNet

/-- What a call of `min_anynet` reads. -/
structure AnyNetCall (size nodes : Nat) where
  config : RoutingConfig
  table : Fin size → Fin nodes → Nat
  id : Fin size
  type : FlitType
  dest : Fin nodes
  inject : Bool

/-- `min_anynet` -/
def AnyNetCall.minAnynet {size nodes : Nat} (call : AnyNetCall size nodes) : List Offer :=
  (call.config.vcs call.type).offer
    (if call.inject then -1 else Int.ofNat (call.table call.id call.dest))

end Flyover
