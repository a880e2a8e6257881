import Mathlib.Data.ENat.Basic
import Flyover.Mesh

/-!
# Route tables of router parking

`RouteTbl` builds two tables for one router: a shortest-path table over the
routers that are on, and an escape table over a breadth-first tree of them. The
same shortest-path search serves both, on different adjacency matrices.

A distance of `numeric_limits<int>::max()` is `⊤`, a missing predecessor `none`,
and a computation that would leave its arrays or the range of `int`, or not end,
fails.
-/

namespace Flyover

variable {k : Nat}

/-- `INVALID`, the four directions, and `ARRIVED`. -/
inductive TableEntry where
  | invalid
  | dir (p : Port)
  | arrived
  deriving DecidableEq, Repr

/-- `_visited`, `_pred` and `_dist` -/
structure SearchState (k : Nat) where
  visited : Node k → Bool
  pred : Node k → Option (Node k)
  dist : Node k → ℕ∞

/-- An adjacency matrix: -1, 0 on the diagonal, or 1. -/
abbrev AdjMtx (k : Nat) := Node k → Node k → Int

/-- `RouteTbl` -/
structure RouteTbl (k : Nat) where
  src : Node k
  routerStates : Node k → Bool
  search : SearchState k
  rtTbl : Node k → TableEntry
  adjMtx : AdjMtx k
  escRtTbl : Node k → TableEntry
  updownAdjMtx : AdjMtx k

namespace SearchState

/-- `_Init` -/
def init (src : Node k) : SearchState k where
  visited := fun _ => false
  pred := fun _ => none
  dist := fun v => if v = src then 0 else ⊤

/-- One iteration of `_ClosestUnvisited`: `min_dist` and `closest`. -/
def closer (st : SearchState k) (best : ℕ∞ × Option (Node k)) (i : Node k) :
    ℕ∞ × Option (Node k) :=
  if st.visited i = false ∧ best.1 ≥ st.dist i then (st.dist i, some i) else best

/-- `_ClosestUnvisited` -/
def closestUnvisited (st : SearchState k) : Option (Node k) :=
  ((List.finRange (k * k)).foldl st.closer (⊤, none)).2

/-- The condition under which router `i` is labelled through `closest`, which is
visited by now. -/
def Improves (adj : AdjMtx k) (st : SearchState k) (closest i : Node k) : Prop :=
  Function.update st.visited closest true i = false ∧ 0 < adj closest i ∧
    st.dist i > st.dist closest + (adj closest i).toNat

instance (adj : AdjMtx k) (st : SearchState k) (closest i : Node k) :
    Decidable (Improves adj st closest i) := inferInstanceAs (Decidable (_ ∧ _ ∧ _))

/-- Visit `closest`. An iteration of the loop over the routers changes the entries
of its own router only, and never those of `closest`. -/
def visit (adj : AdjMtx k) (st : SearchState k) (closest : Node k) : SearchState k where
  visited := Function.update st.visited closest true
  pred := fun i => if Improves adj st closest i then some closest else st.pred i
  dist := fun i =>
    if Improves adj st closest i then st.dist closest + (adj closest i).toNat else st.dist i

/-- An entry is added to `numeric_limits<int>::max()`. -/
def Overflows (st : SearchState k) (adj : AdjMtx k) (closest : Node k) : Prop :=
  st.dist closest = ⊤ ∧
    ∃ i, Function.update st.visited closest true i = false ∧ 0 < adj closest i

instance (adj : AdjMtx k) (st : SearchState k) (closest : Node k) :
    Decidable (st.Overflows adj closest) := inferInstanceAs (Decidable (_ ∧ _))

/-- The loop of `_CalDist` and `_CalUpDownDist`, and what they do when no router is left. -/
def visitAll (adj : AdjMtx k) (nobody : SearchState k → Option (SearchState k)) :
    Nat → SearchState k → Option (SearchState k)
  | 0, st => some st
  | count + 1, st =>
      match st.closestUnvisited with
      | none => nobody st
      | some closest =>
          if st.Overflows adj closest then none
          else visitAll adj nobody count (st.visit adj closest)

end SearchState

/-- `_CalDist`: `break` when no router is left. -/
def calDist (adj : AdjMtx k) (src : Node k) : Option (SearchState k) :=
  SearchState.visitAll adj some (k * k) (.init src)

/-- `_CalUpDownDist`: it would go on with router -1. -/
def calUpDownDist (adj : AdjMtx k) (src : Node k) : Option (SearchState k) :=
  SearchState.visitAll adj (fun _ => none) (k * k) (.init src)

/-- `while (_pred[j] != _src) j = _pred[j];` -/
def firstHop (pred : Node k → Option (Node k)) (src : Node k) : Nat → Node k → Option (Node k)
  | 0, _ => none
  | steps + 1, j =>
      match pred j with
      | none => none
      | some u => if u = src then some j else firstHop pred src steps u

/-- `dir` for `coord = j - _src` -/
def direction (src j : Node k) : Port :=
  let coord : Int := j.val - src.val
  if coord = 1 then .east
  else if coord = -1 then .west
  else if coord = k then .south
  else .north

/-- The loop that fills a table for the routers that are on. -/
def fillTable (src : Node k) (routerStates : Node k → Bool) (pred : Node k → Option (Node k))
    (tbl : Node k → TableEntry) : Option (Node k → TableEntry) :=
  let hop := fun i => firstHop pred src (k * k) i
  if ∀ i, routerStates i = true → i ≠ src → (hop i).isSome then
    some fun i =>
      if routerStates i then
        if i = src then .arrived else (hop i).elim .invalid fun j => .dir (direction src j)
      else tbl i
  else none

/-- `_BFS`: the tree, the visited routers and the queue. -/
structure BfsState (k : Nat) where
  updown : AdjMtx k
  visited : Node k → Bool
  queue : List (Node k)

namespace BfsState

/-- `_updown_adj_mtx[current][i] = 1; _updown_adj_mtx[i][current] = 1;` -/
def connect (m : AdjMtx k) (current i : Node k) : AdjMtx k := fun a b =>
  if a = current ∧ b = i ∨ a = i ∧ b = current then 1 else m a b

/-- One iteration of the loop over the routers. -/
def find (adj : AdjMtx k) (current : Node k) (b : BfsState k) (i : Node k) : BfsState k :=
  if adj current i = 1 ∧ b.visited i = false then
    { updown := connect b.updown current i
      visited := Function.update b.visited i true
      queue := b.queue ++ [i] }
  else b

/-- `while (!bfs_q.empty())`, for so many iterations at most. -/
def loop (adj : AdjMtx k) : Nat → BfsState k → Option (BfsState k)
  | 0, b => if b.queue = [] then some b else none
  | steps + 1, b =>
      match b.queue with
      | [] => some b
      | current :: rest =>
          loop adj steps ((List.finRange (k * k)).foldl (find adj current) { b with queue := rest })

end BfsState

/-- `_BFS(root)` after `_visited` has been cleared. -/
def bfs (adj updown : AdjMtx k) (root : Node k) : Option (BfsState k) :=
  BfsState.loop adj (k * k)
    { updown
      visited := Function.update (fun _ => false) root true
      queue := [root] }

namespace RouteTbl

/-- `RouteTbl::RouteTbl` -/
def new (src : Node k) (routerStates : Node k → Bool) : RouteTbl k where
  src
  routerStates
  search := .init src
  rtTbl := fun _ => .invalid
  escRtTbl := fun _ => .invalid
  adjMtx := fun i j =>
    let ix : Int := i.x
    let iy : Int := i.y
    let jx : Int := j.x
    let jy : Int := j.y
    if routerStates i = false then -1
    else if routerStates j = false then -1
    else if i = j then 0
    else if (ix - jx).natAbs = 1 ∧ iy = jy ∨ (iy - jy).natAbs = 1 ∧ ix = jx then 1
    else -1
  updownAdjMtx := fun _ _ => -1

/-- `BuildRoute` -/
def buildRoute (t : RouteTbl k) : Option (RouteTbl k) := do
  let search ← calDist t.adjMtx t.src
  let rtTbl ← fillTable t.src t.routerStates search.pred t.rtTbl
  pure { t with search, rtTbl }

/-- `BuildEscRoute(root)` -/
def buildEscRoute (t : RouteTbl k) (root : Node k) : Option (RouteTbl k) := do
  let updown : AdjMtx k := fun i j => if i = j then 0 else t.updownAdjMtx i j
  let b ← bfs t.adjMtx updown root
  let search ← calUpDownDist b.updown t.src
  let escRtTbl ← fillTable t.src t.routerStates search.pred t.escRtTbl
  pure { t with search, escRtTbl, updownAdjMtx := b.updown }

/-- What `KNCube::_BuildNet` does for a router that is on. -/
def build (src : Node k) (routerStates : Node k → Bool) (root : Node k) : Option (RouteTbl k) := do
  let t ← (new src routerStates).buildRoute
  t.buildEscRoute root

end RouteTbl

/-- The router that an entry leads to: `EAST`, `WEST`, `SOUTH` and `NORTH` lead to the
mesh neighbours, if there is one. -/
def TableEntry.next (cur : Node k) : TableEntry → Option (Node k)
  | .dir p => if cur.edge p then none else some (cur.neighbor p)
  | _ => none

end Flyover
