import Flyover.Parking.Components
import Flyover.Parking.Construction
import Flyover.Progress.Drawing

/-!
# Aggressive parking

All routers of cores that are off are parked. If the others are not connected then,
each of their components is joined to the fabric manager: of eight ways from routers
at its edge, drawn at random, the one with the fewest parked routers is taken, and
these are turned on again.
-/

namespace Flyover

open Drawing

variable {k : Nat}

/-- `is_edge_router[rid]` -/
def isEdgeRouter (adj : AdjMtx k) (rid : Node k) : Bool :=
  let numNeighbors := (List.finRange (k * k)).countP fun j => adj rid j = 1
  (rid.val = 0 ∨ rid.val = k - 1 ∨ rid.val = k * k - 1 ∨ rid.val = k * k - k) ∧ numNeighbors < 2 ∨
  (rid.val / k = 0 ∨ rid.val % k = 0 ∨ rid.val / k = k - 1 ∨ rid.val % k = k - 1) ∧
    numNeighbors < 3 ∨
  (rid.val / k > 0 ∧ rid.val % k > 0 ∧ rid.val / k < k - 1 ∧ rid.val % k < k - 1) ∧
    numNeighbors < 4

/-- One of the loops on the way: `r` moves by `stride`, and the routers that are off
are added to `off_routers_on_path`. -/
def walkPath (routerStates : Node k → Bool) (stride : Int) :
    Nat → Int × List (Node k) → Option (Int × List (Node k))
  | 0, path => some path
  | steps + 1, (r, off) => do
      let n ← Node.ofIndex (r + stride)
      walkPath routerStates stride steps
        (r + stride, if routerStates n = false then off ++ [n] else off)

/-- The x dimension. -/
def walkX (routerStates : Node k → Bool) (rx fx : Nat) (path : Int × List (Node k)) :
    Option (Int × List (Node k)) :=
  if rx > fx then walkPath routerStates (-1) (rx - fx) path
  else walkPath routerStates 1 (fx - rx) path

/-- The y dimension. -/
def walkY (routerStates : Node k → Bool) (ry fy : Nat) (path : Int × List (Node k)) :
    Option (Int × List (Node k)) :=
  if ry > fy then walkPath routerStates (-k) (ry - fy) path
  else walkPath routerStates k (fy - ry) path

/-- `off_routers_on_path` on the way from `edge_rid` to the fabric manager. -/
def offRoutersOnPath (routerStates : Node k → Bool) (fabricManager edgeRid : Node k) :
    Option (List (Node k)) := do
  let path ← walkX routerStates edgeRid.x fabricManager.x (edgeRid.val, [])
  guard (path.1 % k = fabricManager.x)
  let path ← walkY routerStates edgeRid.y fabricManager.y path
  guard (path.1 = fabricManager.val)
  pure path.2

/-- `num_off_routers_on_path` and `connected_routers` -/
structure Joining (k : Nat) where
  numOffRoutersOnPath : Nat
  connectedRouters : List (Node k)

/-- One of the eight ways. -/
def Joining.draw (routerStates isEdge : Node k → Bool) (fabricManager : Node k)
    (component : List (Node k)) (best : Joining k) : Draws (Joining k) := do
  let j : Nat ← drawUntil (component.length - 1) fun j => component[j]?.map isEdge
  let edgeRid ← ofOption component[j]?
  let off ← ofOption (offRoutersOnPath routerStates fabricManager edgeRid)
  pure (if off.length < best.numOffRoutersOnPath then ⟨off.length, off⟩ else best)

/-- `_router_states[rid] = true` for `connected_routers` -/
def turnOn (routerStates : Node k → Bool) (connectedRouters : List (Node k)) : Node k → Bool :=
  connectedRouters.foldl (fun routerStates rid => Function.update routerStates rid true) routerStates

/-- One iteration of the loop over the components. -/
def joinComponent (isEdge : Node k → Bool) (fabricManager : Node k) (routerStates : Node k → Bool)
    (component : List (Node k)) : Draws (Node k → Bool) :=
  if fabricManager ∈ component then pure routerStates
  else do
    let best : Joining k ← (List.range 8).foldlM
      (fun best _ => best.draw routerStates isEdge fabricManager component)
      (⟨k * k, []⟩ : Joining k)
    pure (turnOn routerStates best.connectedRouters)

/-- `_router_states` for `rpa` -/
def rpaStates (coreStates : Node k → Bool) (fabricManager : Node k) : Draws (Node k → Bool) := do
  let comps ← ofOption (strongCnctdComps coreStates)
  if comps.length = 1 then pure coreStates
  else comps.foldlM (joinComponent (isEdgeRouter (adjMat coreStates)) fabricManager) coreStates

/-! ### Every component has an edge -/

theorem countP_neighbors_le (on : Node k → Bool) (n : Node k) :
    (List.finRange (k * k)).countP (fun j => adjMat on n j = 1) ≤
      (Port.all.filter fun p => !n.edge p && on (n.neighbor p)).length := by
  rw [List.countP_eq_length_filter, ← List.length_map (f := n.neighbor)]
  apply List.Subperm.length_le
  apply List.subperm_of_subset ((List.nodup_finRange _).filter _)
  intro j hj
  have hadj : (onGraph on).Adj n j := by
    apply ((represents_adjMat on).adj_iff n j).mp
    have hone : adjMat on n j = 1 := by simpa using (List.mem_filter.mp hj).2
    rw [hone]
    exact one_pos
  obtain ⟨p, hp, rfl⟩ := hadj.2.2.exists_port
  apply List.mem_map_of_mem
  rw [List.mem_filter]
  exact ⟨Port.mem_all p, by simp [hp, hadj.2.1]⟩

theorem length_filter_all (test : Port → Bool) :
    (Port.all.filter test).length = (test .east).toNat + (test .west).toNat +
      (test .south).toNat + (test .north).toNat := by
  cases he : test .east <;> cases hw : test .west <;> cases hs : test .south <;>
    cases hn : test .north <;> simp [Port.all, he, hw, hs, hn]

/-- The mesh neighbours of a router that is not at an edge are on; it is not in the
first corner. -/
theorem on_of_not_edgeRouter {on : Node k → Bool} {n : Node k}
    (h : isEdgeRouter (adjMat on) n = false) :
    (0 < n.x → on (n.neighbor .west) = true) ∧ (0 < n.y → on (n.neighbor .north) = true) ∧
      (0 < n.x ∨ 0 < n.y) := by
  have hcount := countP_neighbors_le on n
  rw [length_filter_all] at hcount
  have hx := n.x_lt
  have hy := n.y_lt
  have hcol : n.val % k = n.x := rfl
  have hrow : n.val / k = n.y := rfl
  simp only [isEdgeRouter, hcol, hrow, decide_eq_false_iff_not, not_or, not_and, not_lt] at h
  obtain ⟨-, hborder, hinner⟩ := h
  -- a port on the boundary does not count, nor does one to a router that is off
  have hmost : ∀ p, (!n.edge p && on (n.neighbor p)).toNat ≤ 1 := fun p => Bool.toNat_le _
  have hedge : ∀ p, n.edge p = true → (!n.edge p && on (n.neighbor p)).toNat = 0 := by
    intro p hp
    simp [hp]
  have hoff : ∀ p, on (n.neighbor p) ≠ true → (!n.edge p && on (n.neighbor p)).toNat = 0 := by
    intro p hp
    simp [hp]
  have heast := hmost .east
  have hwest := hmost .west
  have hsouth := hmost .south
  have hnorth := hmost .north
  have heast' : n.x = k - 1 → _ := fun hn => hedge .east (decide_eq_true hn)
  have hwest' : n.x = 0 → _ := fun hn => hedge .west (decide_eq_true hn)
  have hsouth' : n.y = k - 1 → _ := fun hn => hedge .south (decide_eq_true hn)
  have hnorth' : n.y = 0 → _ := fun hn => hedge .north (decide_eq_true hn)
  refine ⟨?_, ?_, ?_⟩
  · intro hpos
    by_contra hnot
    have hzero := hoff .west hnot
    omega
  · intro hpos
    by_contra hnot
    have hzero := hoff .north hnot
    omega
  · omega

/-- Every component has a router at its edge: otherwise it would go on to the west and
to the north as far as the first corner, which is at the edge. -/
theorem IsComponent.exists_edgeRouter {on : Node k → Bool} {component : List (Node k)}
    (h : IsComponent on component) :
    ∃ rid ∈ component, isEdgeRouter (adjMat on) rid = true := by
  have hfrom : ∀ m, ∀ n : Node k, n.x + n.y = m → n ∈ component →
      ∃ rid ∈ component, isEdgeRouter (adjMat on) rid = true := by
    intro m
    induction m using Nat.strong_induction_on with
    | h m ih =>
        intro n hm hn
        cases hnot : isEdgeRouter (adjMat on) n with
        | true => exact ⟨n, hn, hnot⟩
        | false =>
            obtain ⟨hwest, hnorth, hpos⟩ := on_of_not_edgeRouter hnot
            have hnext : ∀ p, n.edge p = false → on (n.neighbor p) = true →
                n.neighbor p ∈ component := by
              intro p hp hon
              exact h.mem_of_reachable hn (onGraph_neighbor hp (h.on_of_mem hn) hon).reachable
            have hcol : n.val % k = n.x := rfl
            have hrow : n.val / k = n.y := rfl
            rcases hpos with hx | hy
            · have hp : n.edge .west = false := by
                simp only [Node.edge, hcol, decide_eq_false_iff_not]
                omega
              apply ih _ _ (n.neighbor .west) rfl (hnext _ hp (hwest hx))
              simp only [Node.neighbor_x, Node.neighbor_y, Node.neighborX, Node.neighborY]
              rw [if_neg hx.ne']
              omega
            · have hp : n.edge .north = false := by
                simp only [Node.edge, hrow, decide_eq_false_iff_not]
                omega
              apply ih _ _ (n.neighbor .north) rfl (hnext _ hp (hnorth hy))
              simp only [Node.neighbor_x, Node.neighbor_y, Node.neighborX, Node.neighborY]
              rw [if_neg hy.ne']
              omega
  obtain ⟨n, hn⟩ := h.exists_mem
  exact hfrom _ n rfl hn

/-! ### The way to the fabric manager -/

/-- With the routers `off` turned on, there is a way from `n` to `m` past all of them. -/
def WayTo (routerStates : Node k → Bool) (n m : Node k) (off : List (Node k)) : Prop :=
  ∀ on : Node k → Bool, (∀ v, routerStates v = true → on v = true) → (∀ v ∈ off, on v = true) →
    on n = true → on m = true ∧ (onGraph on).Reachable n m ∧ ∀ v ∈ off, (onGraph on).Reachable n v

theorem WayTo.refl (routerStates : Node k → Bool) (n : Node k) : WayTo routerStates n n [] :=
  fun _ _ _ hn => ⟨hn, .refl n, nofun⟩

theorem WayTo.trans {routerStates : Node k → Bool} {n m l : Node k} {off off' : List (Node k)}
    (h : WayTo routerStates n m off) (h' : WayTo routerStates m l off') :
    WayTo routerStates n l (off ++ off') := by
  intro on hstates hoff hn
  simp only [List.mem_append] at hoff ⊢
  obtain ⟨hm, hreach, hall⟩ := h on hstates (fun v hv => hoff v (.inl hv)) hn
  obtain ⟨hl, hreach', hall'⟩ := h' on hstates (fun v hv => hoff v (.inr hv)) hm
  refine ⟨hl, hreach.trans hreach', ?_⟩
  rintro v (hv | hv)
  · exact hall v hv
  · exact hreach.trans (hall' v hv)

theorem WayTo.hop {routerStates : Node k → Bool} {n : Node k} {p : Port} (hp : n.edge p = false) :
    WayTo routerStates n (n.neighbor p)
      (if routerStates (n.neighbor p) = false then [n.neighbor p] else []) := by
  intro on hstates hoff hn
  have hon : on (n.neighbor p) = true := by
    cases hstate : routerStates (n.neighbor p) with
    | true => exact hstates _ hstate
    | false =>
        apply hoff
        simp [hstate]
  have hadj := onGraph_neighbor hp hn hon
  refine ⟨hon, hadj.reachable, ?_⟩
  intro v hv
  have hv : v = n.neighbor p := by
    split at hv
    next => exact List.mem_singleton.mp hv
    next => cases hv
  exact hv ▸ hadj.reachable

/-- The coordinate that stays the same along a port. -/
def Node.cross (n : Node k) : Port → Nat
  | .east | .west => n.y
  | .south | .north => n.x

theorem Node.cross_neighbor (n : Node k) (p : Port) : (n.neighbor p).cross p = n.cross p := by
  cases p <;> simp [Node.cross, Node.neighborX, Node.neighborY]

/-- A walk along a port stays within the mesh for as long as there are routers that way. -/
theorem walkPath_spec {p : Port} {stride : Int}
    (hstride : ∀ n : Node k, n.edge p = false → (n.val : Int) + stride = (n.neighbor p).val)
    (routerStates : Node k → Bool) {steps : Nat} {n : Node k} (hsteps : steps ≤ n.distance p)
    (off : List (Node k)) :
    ∃ m off', walkPath routerStates stride steps (n.val, off) = some ((m.val : Int), off ++ off') ∧
      WayTo routerStates n m off' ∧ off'.length ≤ steps ∧ m.cross p = n.cross p ∧
      m.distance p + steps = n.distance p := by
  induction steps generalizing n off with
  | zero => exact ⟨n, [], by rw [List.append_nil, walkPath], .refl _ n, le_rfl, rfl, rfl⟩
  | succ steps ih =>
      have hp : n.edge p = false := by
        by_contra hedge
        have hnone := Node.distance_of_edge (Bool.eq_true_of_not_eq_false hedge)
        omega
      have hone := Node.distance_neighbor hp
      let first := if routerStates (n.neighbor p) = false then [n.neighbor p] else []
      obtain ⟨m, off', hwalk, hway, hlength, hcross, hdistance⟩ :=
        ih (n := n.neighbor p) (by omega) (off ++ first)
      refine ⟨m, first ++ off', ?_, (WayTo.hop hp).trans hway, ?_, ?_, by omega⟩
      · have hoff : (if routerStates (n.neighbor p) = false then off ++ [n.neighbor p] else off) =
            off ++ first := by
          simp only [first]
          split
          next => rfl
          next => rw [List.append_nil]
        rw [walkPath, hstride n hp, Node.ofIndex_val, Option.bind_eq_bind, Option.bind_some, hoff,
          hwalk, List.append_assoc]
      · have hfirst : first.length ≤ 1 := by
          simp only [first]
          split
          next => exact le_rfl
          next => exact Nat.zero_le _
        rw [List.length_append]
        omega
      · rw [hcross, Node.cross_neighbor]

theorem stride_spec {p : Port} {n : Node k} (hp : n.edge p = false) :
    ((n.neighbor p).val : Int) = match p with
      | .east => (n.val : Int) + 1
      | .west => n.val + -1
      | .south => n.val + k
      | .north => n.val + -k := by
  have hdistance := Node.distance_pos hp
  have hval := n.val_eq
  cases p with
  | east =>
      have hne : ¬ n.val % k = k - 1 := by simpa [Node.edge] using hp
      simp [Node.neighbor, Node.neighborId, hne]
  | west =>
      have hne : ¬ n.val % k = 0 := by simpa [Node.edge] using hp
      have hpos : 1 ≤ n.val := by
        by_contra hnot
        have hzero : n.val = 0 := by omega
        rw [hzero, Nat.zero_mod] at hne
        exact hne rfl
      simp only [Node.neighbor, Node.neighborId, if_neg hne]
      omega
  | south =>
      have hne : ¬ n.val / k = k - 1 := by simpa [Node.edge] using hp
      simp [Node.neighbor, Node.neighborId, hne]
  | north =>
      have hne : ¬ n.val / k = 0 := by simpa [Node.edge] using hp
      have hle : k ≤ n.val := by
        by_contra hlt
        exact hne (Nat.div_eq_of_lt (not_le.mp hlt))
      simp only [Node.neighbor, Node.neighborId, if_neg hne]
      omega

/-- Along the row, to the column of the fabric manager. -/
theorem walkX_spec (routerStates : Node k → Bool) (n : Node k) {fx : Nat} (hfx : fx < k) :
    ∃ m off, walkX routerStates n.x fx (n.val, []) = some ((m.val : Int), off) ∧
      WayTo routerStates n m off ∧ off.length ≤ k - 1 ∧ m.x = fx ∧ m.y = n.y := by
  have hx := n.x_lt
  unfold walkX
  by_cases hfar : n.x > fx
  · obtain ⟨m, off, hwalk, hway, hlength, hcross, hdistance⟩ :=
      walkPath_spec (p := .west) (fun n hn => (stride_spec hn).symm) routerStates
        (Nat.sub_le n.x fx) []
    simp only [Node.distance] at hdistance
    rw [if_pos hfar]
    exact ⟨m, off, hwalk, hway, by omega, by omega, hcross⟩
  · have hsteps : fx - n.x ≤ n.distance .east := by
      simp only [Node.distance]
      omega
    obtain ⟨m, off, hwalk, hway, hlength, hcross, hdistance⟩ :=
      walkPath_spec (fun n hn => (stride_spec hn).symm) routerStates hsteps []
    have hmx := m.x_lt
    simp only [Node.distance] at hdistance
    rw [if_neg hfar]
    exact ⟨m, off, hwalk, hway, by omega, by omega, hcross⟩

/-- Along the column, to the row of the fabric manager. -/
theorem walkY_spec (routerStates : Node k → Bool) (n : Node k) {fy : Nat} (hfy : fy < k)
    (off : List (Node k)) :
    ∃ m off', walkY routerStates n.y fy (n.val, off) = some ((m.val : Int), off ++ off') ∧
      WayTo routerStates n m off' ∧ off'.length ≤ k - 1 ∧ m.x = n.x ∧ m.y = fy := by
  have hy := n.y_lt
  unfold walkY
  by_cases hfar : n.y > fy
  · obtain ⟨m, off', hwalk, hway, hlength, hcross, hdistance⟩ :=
      walkPath_spec (p := .north) (fun n hn => (stride_spec hn).symm) routerStates
        (Nat.sub_le n.y fy) off
    simp only [Node.distance] at hdistance
    rw [if_pos hfar]
    exact ⟨m, off', hwalk, hway, by omega, hcross, by omega⟩
  · have hsteps : fy - n.y ≤ n.distance .south := by
      simp only [Node.distance]
      omega
    obtain ⟨m, off', hwalk, hway, hlength, hcross, hdistance⟩ :=
      walkPath_spec (fun n hn => (stride_spec hn).symm) routerStates hsteps off
    have hmy := m.y_lt
    simp only [Node.distance] at hdistance
    rw [if_neg hfar]
    exact ⟨m, off', hwalk, hway, by omega, hcross, by omega⟩

theorem twice_lt_square {k : Nat} (hk : 0 < k) : (k - 1) + (k - 1) < k * k := by
  obtain ⟨j, rfl⟩ := Nat.exists_eq_succ_of_ne_zero hk.ne'
  rw [Nat.succ_mul_succ]
  omega

/-- The way passes fewer routers than there are, and ends at the fabric manager. -/
theorem offRoutersOnPath_spec (routerStates : Node k → Bool) (fabricManager edgeRid : Node k) :
    ∃ off, offRoutersOnPath routerStates fabricManager edgeRid = some off ∧
      off.length < k * k ∧ WayTo routerStates edgeRid fabricManager off := by
  obtain ⟨m, off, hrow, hway, hlength, hmx, hmy⟩ :=
    walkX_spec routerStates edgeRid fabricManager.x_lt
  obtain ⟨l, off', hcolumn, hway', hlength', hlx, hly⟩ :=
    walkY_spec routerStates m fabricManager.y_lt off
  obtain rfl : l = fabricManager := Node.ext_xy (hlx.trans hmx) hly
  have hcol : (m.val : Int) % (k : Int) = (l.x : Int) := by
    rw [← hmx]
    exact (Int.natCast_mod m.val k).symm
  refine ⟨off ++ off', ?_, ?_, hway.trans hway'⟩
  · rw [hmy] at hcolumn
    simp only [offRoutersOnPath, hrow, Option.bind_eq_bind, Option.bind_some, hcolumn, guard,
      if_pos hcol, if_true, pure]
  · have hsquare := twice_lt_square l.pos
    rw [List.length_append]
    omega

/-! ### Joining the components -/

variable {routerStates : Node k → Bool} {fabricManager : Node k} {component : List (Node k)}

/-- What has been drawn after the ways `done`: from the first on, a way from a router of
the component. -/
structure Joining.Drawn (routerStates : Node k → Bool) (fabricManager : Node k)
    (component : List (Node k)) (done : List Nat) (best : Joining k) : Prop where
  start : done = [] → best.numOffRoutersOnPath = k * k
  leads : done ≠ [] → ∃ rid ∈ component, WayTo routerStates rid fabricManager best.connectedRouters

theorem Joining.Drawn.draw {isEdge : Node k → Bool} {done : List Nat} {best : Joining k}
    (h : best.Drawn routerStates fabricManager component done)
    (hedge : ∃ rid ∈ component, isEdge rid = true) (way : Nat) :
    Settles (best.draw routerStates isEdge fabricManager component)
      (Joining.Drawn routerStates fabricManager component (done ++ [way])) := by
  obtain ⟨rid, hrid, hisEdge⟩ := hedge
  obtain ⟨j, hj, hjrid⟩ := List.getElem_of_mem hrid
  have hsize : component.length - 1 + 1 = component.length := by omega
  have hdraw : Settles (α := Nat)
      (drawUntil (component.length - 1) fun j => component[j]?.map isEdge)
      fun j => j ≤ component.length - 1 ∧ component[j]?.map isEdge = some true := by
    apply Settles.drawUntil
    · intro i hi
      have hlt : i < component.length := by omega
      rw [List.getElem?_eq_getElem hlt, Option.map_some, Option.isSome_some]
    · refine ⟨j, by omega, ?_⟩
      rw [List.getElem?_eq_getElem hj, Option.map_some, hjrid, hisEdge]
  unfold Joining.draw
  apply hdraw.bind
  rintro i ⟨hi, -⟩
  have hlt : i < component.length := by omega
  apply Settles.bind (Settles.ofOption (List.getElem?_eq_getElem hlt) rfl)
  rintro edgeRid hedgeRid
  have hmem : edgeRid ∈ component := hedgeRid ▸ List.getElem_mem hlt
  obtain ⟨off, hoff, hlength, hway⟩ := offRoutersOnPath_spec routerStates fabricManager edgeRid
  apply Settles.bind (Settles.ofOption hoff rfl)
  rintro _ rfl
  apply Settles.pure
  by_cases hfewer : off.length < best.numOffRoutersOnPath
  · rw [if_pos hfewer]
    exact ⟨by simp, fun _ => ⟨edgeRid, hmem, hway⟩⟩
  · rw [if_neg hfewer]
    -- the first way is always taken
    refine ⟨by simp, fun _ => h.leads ?_⟩
    intro hnone
    rw [h.start hnone] at hfewer
    exact hfewer hlength

theorem turnOn_eq_true (connectedRouters : List (Node k)) (v : Node k) :
    turnOn routerStates connectedRouters v = true ↔ routerStates v = true ∨ v ∈ connectedRouters := by
  unfold turnOn
  induction connectedRouters generalizing routerStates with
  | nil => simp
  | cons rid connectedRouters ih =>
      rw [List.foldl_cons, ih]
      by_cases hv : v = rid
      · simp [hv]
      · simp [hv]

/-- What holds when the components `done` have been joined: their routers, and all that
have been turned on, are connected to the fabric manager. -/
structure Joined (coreStates : Node k → Bool) (fabricManager : Node k)
    (done : List (List (Node k))) (routerStates : Node k → Bool) : Prop where
  keeps : ∀ v, coreStates v = true → routerStates v = true
  joins : ∀ component ∈ done, ∀ v ∈ component, (onGraph routerStates).Reachable v fabricManager
  onlyJoined : ∀ v, routerStates v = true →
    coreStates v = true ∨ (onGraph routerStates).Reachable v fabricManager

variable {coreStates : Node k → Bool} {done : List (List (Node k))}

/-- A component is joined when the routers of a way from it have been turned on. -/
theorem Joined.turnOn (h : Joined coreStates fabricManager done routerStates)
    (hcomponent : IsComponent coreStates component) {rid : Node k} (hrid : rid ∈ component)
    {connectedRouters : List (Node k)}
    (hway : WayTo routerStates rid fabricManager connectedRouters) :
    Joined coreStates fabricManager (done ++ [component])
      (turnOn routerStates connectedRouters) := by
  have hkept : ∀ v, routerStates v = true →
      Flyover.turnOn routerStates connectedRouters v = true := fun v hv =>
    (turnOn_eq_true connectedRouters v).mpr (.inl hv)
  have hcores : ∀ v, coreStates v = true →
      Flyover.turnOn routerStates connectedRouters v = true := fun v hv => hkept v (h.keeps v hv)
  obtain ⟨-, hreach, hall⟩ := hway _ hkept
    (fun v hv => (turnOn_eq_true connectedRouters v).mpr (.inr hv))
    (hcores rid (hcomponent.on_of_mem hrid))
  constructor
  case keeps => exact hcores
  case joins =>
    intro component' hmem v hv
    rcases List.mem_append.mp hmem with hmem | hmem
    · exact (h.joins component' hmem v hv).mono (onGraph_mono hkept)
    · rw [List.mem_singleton] at hmem
      subst hmem
      exact ((hcomponent.reachable hv hrid).mono (onGraph_mono hcores)).trans hreach
  case onlyJoined =>
    intro v hv
    rcases (turnOn_eq_true connectedRouters v).mp hv with hv | hv
    · exact (h.onlyJoined v hv).imp_right fun hreach => hreach.mono (onGraph_mono hkept)
    · exact .inr ((hall v hv).symm.trans hreach)

theorem Joined.joinComponent (h : Joined coreStates fabricManager done routerStates)
    (hcomponent : IsComponent coreStates component) :
    Settles (joinComponent (isEdgeRouter (adjMat coreStates)) fabricManager routerStates component)
      (Joined coreStates fabricManager (done ++ [component])) := by
  unfold Flyover.joinComponent
  by_cases hmember : fabricManager ∈ component
  · rw [if_pos hmember]
    apply Settles.pure
    refine ⟨h.keeps, ?_, h.onlyJoined⟩
    intro component' hmem v hv
    rcases List.mem_append.mp hmem with hmem | hmem
    · exact h.joins component' hmem v hv
    · rw [List.mem_singleton] at hmem
      subst hmem
      exact (hcomponent.reachable hv hmember).mono (onGraph_mono h.keeps)
  · rw [if_neg hmember]
    have hstart : Joining.Drawn routerStates fabricManager component [] ⟨k * k, []⟩ :=
      ⟨fun _ => rfl, fun hne => absurd rfl hne⟩
    apply (Settles.foldlM hstart fun ways way _ _ best hbest =>
      hbest.draw hcomponent.exists_edgeRouter way).bind
    intro best hbest
    apply Settles.pure
    obtain ⟨rid, hrid, hway⟩ := hbest.leads (by decide)
    exact h.turnOn hcomponent hrid hway

/-- What aggressive parking is to leave: the routers of all cores that are on, and the
fabric manager, connected. -/
structure Connected (coreStates : Node k → Bool) (fabricManager : Node k)
    (routerStates : Node k → Bool) : Prop where
  keeps : ∀ v, coreStates v = true → routerStates v = true
  fabricManager : routerStates fabricManager = true
  connected : OnConnected routerStates

/-- Aggressive parking keeps the network connected. There is an edge router to be drawn
in every component, the ways from it stay within the mesh, and whatever is drawn,
the routers of the cores that are on end up connected to the fabric manager. -/
theorem rpaStates_connected {coreStates : Node k → Bool} {fabricManager : Node k}
    (hmanager : coreStates fabricManager = true) :
    (∃ comps, strongCnctdComps coreStates = some comps ∧ ∀ component ∈ comps,
      ∃ j ≤ component.length - 1,
        component[j]?.map (isEdgeRouter (adjMat coreStates)) = some true) ∧
    Settles (rpaStates coreStates fabricManager) (Connected coreStates fabricManager) := by
  obtain ⟨comps, hcomps, hcomponent, hall⟩ := strongCnctdComps_spec coreStates
  constructor
  · refine ⟨comps, hcomps, fun component hmem => ?_⟩
    obtain ⟨rid, hrid, hedge⟩ := (hcomponent component hmem).exists_edgeRouter
    obtain ⟨j, hj, hjrid⟩ := List.getElem_of_mem hrid
    refine ⟨j, by omega, ?_⟩
    rw [List.getElem?_eq_getElem hj, Option.map_some, hjrid, hedge]
  · unfold rpaStates
    apply Settles.bind (Settles.ofOption hcomps rfl)
    rintro _ rfl
    by_cases hone : comps.length = 1
    · rw [if_pos hone]
      obtain ⟨component, rfl⟩ := List.length_eq_one_iff.mp hone
      apply Settles.pure
      refine ⟨fun _ hv => hv, hmanager, ?_⟩
      have hmem : ∀ v, coreStates v = true → v ∈ component := by
        intro v hv
        obtain ⟨component', hcomponent', hv⟩ := hall v hv
        rwa [List.mem_singleton.mp hcomponent'] at hv
      intro n m hn hm
      exact (hcomponent component List.mem_cons_self).reachable (hmem n hn) (hmem m hm)
    · rw [if_neg hone]
      have hstart : Joined coreStates fabricManager [] coreStates :=
        ⟨fun _ hv => hv, nofun, fun _ hv => .inl hv⟩
      have hloop : Settles (comps.foldlM
          (joinComponent (isEdgeRouter (adjMat coreStates)) fabricManager) coreStates)
          (Joined coreStates fabricManager comps) := by
        apply Settles.foldlM hstart
        intro done component rest hsplit states hjoined
        have hmem : component ∈ comps := by
          rw [hsplit]
          simp
        exact hjoined.joinComponent (hcomponent component hmem)
      apply hloop.mono
      intro states hjoined
      refine ⟨hjoined.keeps, hjoined.keeps _ hmanager, ?_⟩
      have hto : ∀ v, states v = true → (onGraph states).Reachable v fabricManager := by
        intro v hv
        rcases hjoined.onlyJoined v hv with hcore | hreach
        · obtain ⟨component, hmem, hin⟩ := hall v hcore
          exact hjoined.joins component hmem v hin
        · exact hreach
      exact fun n m hn hm => (hto n hn).trans (hto m hm).symm

/-- The fabric manager's row and the bottom row, with the routers between them off. -/
theorem rpaStates_connected_twoRows :
    Settles (rpaStates (fun n : Node 3 => n.y != 1) 1) (Connected (fun n : Node 3 => n.y != 1) 1) :=
  (rpaStates_connected (by decide)).2

/-- All ways begin at router 6, and router 3 is turned on. -/
example : (rpaStates (fun n : Node 3 => n.y != 1) 0 (List.replicate 8 0)).toOption.map
    (fun result => (List.finRange 9).filter result.1) = some [0, 1, 2, 3, 6, 7, 8] := by
  decide

end Flyover
