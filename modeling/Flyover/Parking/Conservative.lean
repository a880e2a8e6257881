import Flyover.Parking.Construction
import Flyover.Progress.Worklist

/-!
# Conservative parking

The routers of the cores that are off are parked one after another, each unless one
of the eight routers around it is parked already.
-/

namespace Flyover

variable {k : Nat}

/-- One of the tests on the routers around: whether router `nid` is parked, if `within`
says that it is there. -/
def parkedAt (routerStates : Node k → Bool) (within : Prop) [Decidable within] (nid : Int) :
    Option Bool :=
  if within then (Node.ofIndex nid).map fun n => !routerStates n else some false

/-- `neighbors_parked` -/
def neighborsParked (routerStates : Node k → Bool) (cid : Node k) : Option Bool := do
  let cx : Int := cid.x
  let cy : Int := cid.y
  let id : Int := cid.val
  -- direct neighbors
  let west ← parkedAt routerStates (cx - 1 ≥ 0) (id - 1)
  let east ← parkedAt routerStates (cx + 1 < k) (id + 1)
  let north ← parkedAt routerStates (cy - 1 ≥ 0) (id - k)
  let south ← parkedAt routerStates (cy + 1 < k) (id + k)
  -- indirect neighbors
  let northWest ← parkedAt routerStates (cx - 1 ≥ 0 ∧ cy - 1 ≥ 0) (id - k - 1)
  let southWest ← parkedAt routerStates (cx - 1 ≥ 0 ∧ cy + 1 < k) (id + k - 1)
  let northEast ← parkedAt routerStates (cx + 1 < k ∧ cy - 1 ≥ 0) (id - k + 1)
  let southEast ← parkedAt routerStates (cx + 1 < k ∧ cy + 1 < k) (id + k + 1)
  pure (west || east || north || south || northWest || southWest || northEast || southEast)

/-- One iteration of the loop over `_off_cores`. -/
def park (routerStates : Node k → Bool) (cid : Node k) : Option (Node k → Bool) :=
  (neighborsParked routerStates cid).map fun neighborsParked =>
    if neighborsParked = false then Function.update routerStates cid false else routerStates

/-- `_router_states` for `rpc` -/
def rpcStates (offCores : List (Node k)) : Option (Node k → Bool) :=
  offCores.foldlM park fun _ => true

/-- Next to each other in a row, in a column or diagonally. -/
def Node.Around (n m : Node k) : Prop :=
  n ≠ m ∧ (n.x ≤ m.x + 1 ∧ m.x ≤ n.x + 1) ∧ n.y ≤ m.y + 1 ∧ m.y ≤ n.y + 1

theorem Node.Around.symm {n m : Node k} (h : n.Around m) : m.Around n :=
  ⟨h.1.symm, ⟨h.2.1.2, h.2.1.1⟩, h.2.2.2, h.2.2.1⟩

/-- One test answers for the router that is `dx` columns and `dy` rows away. -/
theorem parkedAt_spec (routerStates : Node k → Bool) (n : Node k) (within : Prop)
    [Decidable within] (nid dx dy : Int)
    (hwithin : within ↔ (0 ≤ n.x + dx ∧ n.x + dx < k) ∧ 0 ≤ n.y + dy ∧ n.y + dy < k)
    (hnid : nid = n.val + dy * k + dx) :
    ∃ parked, parkedAt routerStates within nid = some parked ∧ (parked = true ↔
      ∃ m : Node k, (m.x : Int) = n.x + dx ∧ (m.y : Int) = n.y + dy ∧ routerStates m = false) := by
  unfold parkedAt
  by_cases hin : within
  · rw [if_pos hin]
    obtain ⟨⟨hx, hx'⟩, hy, hy'⟩ := hwithin.mp hin
    obtain ⟨a, ha⟩ := Int.eq_ofNat_of_zero_le hx
    obtain ⟨b, hb⟩ := Int.eq_ofNat_of_zero_le hy
    let m : Node k := Node.ofXY a b (by omega) (by omega)
    have hmx : (m.x : Int) = n.x + dx := by rw [Node.ofXY_x, ha]
    have hmy : (m.y : Int) = n.y + dy := by rw [Node.ofXY_y, hb]
    have hval : ∀ m : Node k, (m.val : Int) = k * m.y + m.x := fun m => by exact_mod_cast m.val_eq
    have hid : nid = (m.val : Int) := by
      rw [hnid, hval m, hval n, hmx, hmy]
      ring
    rw [hid, Node.ofIndex_val, Option.map_some]
    refine ⟨!routerStates m, rfl, ?_⟩
    rw [Bool.not_eq_true']
    constructor
    · exact fun hoff => ⟨m, hmx, hmy, hoff⟩
    · rintro ⟨m', hx', hy', hoff⟩
      have heq : m' = m := Node.ext_xy (by omega) (by omega)
      rwa [← heq]
  · rw [if_neg hin]
    refine ⟨false, rfl, iff_of_false Bool.false_ne_true ?_⟩
    rintro ⟨m, hx, hy, -⟩
    have hmx := m.x_lt
    have hmy := m.y_lt
    exact hin (hwithin.mpr ⟨⟨by omega, by omega⟩, by omega, by omega⟩)

theorem neighborsParked_spec (routerStates : Node k → Bool) (cid : Node k) :
    ∃ parked, neighborsParked routerStates cid = some parked ∧
      (parked = true ↔ ∃ m, cid.Around m ∧ routerStates m = false) := by
  have hx := cid.x_lt
  have hy := cid.y_lt
  obtain ⟨w, hw, hwest⟩ := parkedAt_spec routerStates cid
    ((cid.x : Int) - 1 ≥ 0) (cid.val - 1) (-1) 0 (by omega) (by omega)
  obtain ⟨e, he, heast⟩ := parkedAt_spec routerStates cid
    ((cid.x : Int) + 1 < k) (cid.val + 1) 1 0 (by omega) (by omega)
  obtain ⟨n, hn, hnorth⟩ := parkedAt_spec routerStates cid
    ((cid.y : Int) - 1 ≥ 0) (cid.val - k) 0 (-1) (by omega) (by omega)
  obtain ⟨s, hs, hsouth⟩ := parkedAt_spec routerStates cid
    ((cid.y : Int) + 1 < k) (cid.val + k) 0 1 (by omega) (by omega)
  obtain ⟨nw, hnw, hnorthWest⟩ := parkedAt_spec routerStates cid
    ((cid.x : Int) - 1 ≥ 0 ∧ (cid.y : Int) - 1 ≥ 0) (cid.val - k - 1)
    (-1) (-1) (by omega) (by omega)
  obtain ⟨sw, hsw, hsouthWest⟩ := parkedAt_spec routerStates cid
    ((cid.x : Int) - 1 ≥ 0 ∧ (cid.y : Int) + 1 < k) (cid.val + k - 1)
    (-1) 1 (by omega) (by omega)
  obtain ⟨ne, hne, hnorthEast⟩ := parkedAt_spec routerStates cid
    ((cid.x : Int) + 1 < k ∧ (cid.y : Int) - 1 ≥ 0) (cid.val - k + 1)
    1 (-1) (by omega) (by omega)
  obtain ⟨se, hse, hsouthEast⟩ := parkedAt_spec routerStates cid
    ((cid.x : Int) + 1 < k ∧ (cid.y : Int) + 1 < k) (cid.val + k + 1)
    1 1 (by omega) (by omega)
  refine ⟨w || e || n || s || nw || sw || ne || se, ?_, ?_⟩
  · simp only [neighborsParked, hw, he, hn, hs, hnw, hsw, hne, hse, Option.bind_eq_bind,
      Option.bind_some, pure]
  · simp only [Bool.or_eq_true, hwest, heast, hnorth, hsouth, hnorthWest, hsouthWest, hnorthEast,
      hsouthEast, ← exists_or]
    apply exists_congr
    intro m
    have hself : cid ≠ m ↔ ¬ (cid.x = m.x ∧ cid.y = m.y) := by
      rw [not_iff_not]
      exact ⟨fun h => h ▸ ⟨rfl, rfl⟩, fun h => Node.ext_xy h.1 h.2⟩
    unfold Node.Around
    rw [hself]
    cases routerStates m with
    | true => simp
    | false =>
        simp only [and_true]
        omega

/-- What conservative parking has done with the cores `done`. -/
structure Parked (done : List (Node k)) (routerStates : Node k → Bool) : Prop where
  mem : ∀ n, routerStates n = false → n ∈ done
  apart : ∀ n m, routerStates n = false → routerStates m = false → ¬ n.Around m
  maximal : ∀ n ∈ done, routerStates n = true → ∃ m, n.Around m ∧ routerStates m = false

variable {routerStates : Node k → Bool} {done : List (Node k)}

theorem Parked.park (h : Parked done routerStates) (cid : Node k) :
    ∃ routerStates', park routerStates cid = some routerStates' ∧
      Parked (done ++ [cid]) routerStates' := by
  obtain ⟨parked, hparked, hiff⟩ := neighborsParked_spec routerStates cid
  refine ⟨_, by rw [Flyover.park, hparked, Option.map_some], ?_⟩
  cases parked with
  | true =>
      -- the router stays on, next to one that is parked
      refine ⟨fun n hn => List.mem_append_left _ (h.mem n hn), h.apart, ?_⟩
      intro n hn hon
      rcases List.mem_append.mp hn with hn | hn
      · exact h.maximal n hn hon
      · rw [List.mem_singleton.mp hn]
        exact hiff.mp rfl
  | false =>
      have hfree : ∀ m, routerStates m = false → ¬ cid.Around m := fun m hm haround =>
        Bool.false_ne_true (hiff.mpr ⟨m, haround, hm⟩)
      have hcases : ∀ n, Function.update routerStates cid false n = false ↔
          n = cid ∨ routerStates n = false := by
        intro n
        by_cases hn : n = cid
        · simp [hn]
        · simp [hn]
      rw [if_pos rfl]
      constructor
      case mem =>
        intro n hn
        rw [List.mem_append, List.mem_singleton]
        exact ((hcases n).mp hn).symm.imp_left (h.mem n)
      case apart =>
        intro n m hn hm
        rcases (hcases n).mp hn with heq | hn'
        · rcases (hcases m).mp hm with heq' | hm'
          · exact fun haround => haround.1 (heq.trans heq'.symm)
          · exact heq ▸ hfree m hm'
        · rcases (hcases m).mp hm with heq' | hm'
          · exact fun haround => hfree n hn' (heq' ▸ haround.symm)
          · exact h.apart n m hn' hm'
      case maximal =>
        intro n hn hon
        have hne : n ≠ cid := by
          rintro rfl
          simp at hon
        have hdone : n ∈ done := by
          rw [List.mem_append, List.mem_singleton] at hn
          exact hn.resolve_right hne
        rw [Function.update_of_ne hne] at hon
        obtain ⟨m, haround, hm⟩ := h.maximal n hdone hon
        exact ⟨m, haround, (hcases m).mpr (.inr hm)⟩

theorem rpcStates_spec (offCores : List (Node k)) :
    ∃ routerStates, rpcStates offCores = some routerStates ∧ Parked offCores routerStates := by
  apply Worklist.exists_foldlM
  · exact ⟨nofun, nofun, nofun⟩
  · exact fun done cid _ _ routerStates h => h.park cid

/-! ### The routers that are left -/

theorem south_of_lt {n : Node k} (h : n.y < k - 1) : n.edge .south = false := by
  have hrow : n.val / k = n.y := rfl
  simp only [Node.edge, hrow, decide_eq_false_iff_not]
  omega

/-- Where the router to the south is parked there is a way around it, on the one side or
the other. -/
theorem Parked.around (h : Parked done routerStates) {n : Node k} (hn : routerStates n = true)
    (hy : n.y < k - 1) :
    ∃ m, m.y = n.y + 1 ∧ routerStates m = true ∧ (onGraph routerStates).Reachable n m := by
  have hsouth := south_of_lt hy
  have hstep : ∀ m : Node k, m.y = n.y → (m.neighbor .south).x = m.x ∧
      (m.neighbor .south).y = n.y + 1 := by
    intro m hm
    rw [Node.neighbor_x, Node.neighbor_y, Node.neighborX, Node.neighborY, if_neg (by omega), hm]
    exact ⟨rfl, rfl⟩
  obtain ⟨hsx, hsy⟩ := hstep n rfl
  cases hbelow : routerStates (n.neighbor .south) with
  | true => exact ⟨_, hsy, hbelow, (onGraph_neighbor hsouth hn hbelow).reachable⟩
  | false =>
      have hon : ∀ m, (n.neighbor .south).Around m → routerStates m = true := fun m haround =>
        Bool.eq_true_of_not_eq_false fun hm => h.apart _ m hbelow hm haround
      -- a step to the side, and then one to the south
      have hside : ∀ p, n.edge p = false → (n.neighbor p).y = n.y → (n.neighbor p).x ≠ n.x →
          (n.neighbor p).x ≤ n.x + 1 → n.x ≤ (n.neighbor p).x + 1 →
          ∃ m, m.y = n.y + 1 ∧ routerStates m = true ∧
            (onGraph routerStates).Reachable n m := by
        intro p hp hpy hne hle hge
        obtain ⟨hmx, hmy⟩ := hstep (n.neighbor p) hpy
        have hbeside : routerStates (n.neighbor p) = true := by
          apply hon
          refine ⟨fun heq => ?_, by omega, by omega⟩
          rw [heq] at hsy
          omega
        have hbeyond : routerStates ((n.neighbor p).neighbor .south) = true := by
          apply hon
          refine ⟨fun heq => ?_, by omega, by omega⟩
          rw [heq] at hsx
          omega
        have hdown : (n.neighbor p).edge .south = false := south_of_lt (by omega)
        exact ⟨_, hmy, hbeyond, (onGraph_neighbor hp hn hbeside).reachable.trans
          (onGraph_neighbor hdown hbeside hbeyond).reachable⟩
      have hx := n.x_lt
      have hcol : n.val % k = n.x := rfl
      by_cases hlast : n.x = k - 1
      · have hwest : (n.neighbor .west).x = n.x - 1 := by
          rw [Node.neighbor_x, Node.neighborX, if_neg (by omega)]
        refine hside .west ?_ (Node.neighbor_y n .west) (by omega) (by omega) (by omega)
        simp only [Node.edge, hcol, decide_eq_false_iff_not]
        omega
      · have heast : (n.neighbor .east).x = n.x + 1 := by
          rw [Node.neighbor_x, Node.neighborX, if_neg hlast]
        refine hside .east ?_ (Node.neighbor_y n .east) (by omega) (by omega) (by omega)
        simp only [Node.edge, hcol, decide_eq_false_iff_not]
        omega

/-- With the bottom row on, every router that is left is connected to it. -/
theorem Parked.reachable_bottom (h : Parked done routerStates) {n : Node k}
    (hn : routerStates n = true) :
    ∃ m, m.y = k - 1 ∧ routerStates m = true ∧ (onGraph routerStates).Reachable n m := by
  have hrows : ∀ rows, ∀ n : Node k, n.y + rows = k - 1 → routerStates n = true →
      ∃ m, m.y = k - 1 ∧ routerStates m = true ∧ (onGraph routerStates).Reachable n m := by
    intro rows
    induction rows with
    | zero => exact fun n hy hn => ⟨n, hy, hn, .refl n⟩
    | succ rows ih =>
        intro n hy hn
        obtain ⟨m, hmy, hm, hreach⟩ := h.around hn (by omega)
        obtain ⟨l, hly, hl, hreach'⟩ := ih m (by omega) hm
        exact ⟨l, hly, hl, hreach.trans hreach'⟩
  have hy := n.y_lt
  exact hrows (k - 1 - n.y) n (by omega) hn

/-- The routers of the bottom row are connected along it. -/
theorem reachable_row (hrow : ∀ n : Node k, n.y = k - 1 → routerStates n = true) {n m : Node k}
    (hn : n.y = k - 1) (hm : m.y = k - 1) : (onGraph routerStates).Reachable n m := by
  have hcolumns : ∀ columns, ∀ n m : Node k, n.y = k - 1 → m.y = k - 1 → n.x + columns = m.x →
      (onGraph routerStates).Reachable n m := by
    intro columns
    induction columns with
    | zero =>
        intro n m hn hm hx
        rw [Node.ext_xy hx (hn.trans hm.symm)]
    | succ columns ih =>
        intro n m hn hm hx
        have hmx := m.x_lt
        have hcol : n.val % k = n.x := rfl
        have hp : n.edge .east = false := by
          simp only [Node.edge, hcol, decide_eq_false_iff_not]
          omega
        have hnext : (n.neighbor .east).y = k - 1 := by
          rw [Node.neighbor_y]
          exact hn
        have hnextX : (n.neighbor .east).x = n.x + 1 := by
          rw [Node.neighbor_x, Node.neighborX, if_neg (by omega)]
        exact (onGraph_neighbor hp (hrow n hn) (hrow _ hnext)).reachable.trans
          (ih _ m hnext hm (by omega))
  rcases Nat.le_total n.x m.x with hle | hle
  · exact hcolumns _ n m hn hm (Nat.add_sub_cancel' hle)
  · exact (hcolumns _ m n hm hn (Nat.add_sub_cancel' hle)).symm

/-- What conservative parking is to do with the cores that are off. -/
structure SafelyParked (offCores : List (Node k)) (routerStates : Node k → Bool) : Prop where
  parked : Parked offCores routerStates
  connected : OnConnected routerStates

/-- Conservative parking parks routers of cores that are off, no two of them around each
other and as many as go, and what is left is connected, if no core of the bottom row
is off. -/
theorem rpcStates_safelyParked {offCores : List (Node k)}
    (hrow : ∀ cid ∈ offCores, cid.val < k * k - k) :
    ∃ routerStates, rpcStates offCores = some routerStates ∧
      SafelyParked offCores routerStates := by
  obtain ⟨routerStates, hstates, hparked⟩ := rpcStates_spec offCores
  refine ⟨routerStates, hstates, hparked, ?_⟩
  have hbottom : ∀ n : Node k, n.y = k - 1 → routerStates n = true := by
    intro n hn
    by_contra hoff
    have hless := hrow n (hparked.mem n (Bool.eq_false_of_not_eq_true hoff))
    rw [n.val_eq, hn, Nat.mul_sub_one] at hless
    omega
  intro n m hn hm
  obtain ⟨n', hn', -, hreach⟩ := hparked.reachable_bottom hn
  obtain ⟨m', hm', -, hreach'⟩ := hparked.reachable_bottom hm
  exact (hreach.trans (reachable_row hbottom hn' hm')).trans hreach'.symm

/-- The first row of the 3 by 3 mesh. -/
theorem rpcStates_safelyParked_firstRow :
    ∃ routerStates, rpcStates [(0 : Node 3), 1, 2] = some routerStates ∧
      SafelyParked [(0 : Node 3), 1, 2] routerStates :=
  rpcStates_safelyParked (by decide)

/-- Router 1 stays on. -/
example : (rpcStates [(0 : Node 3), 1, 2]).map
    (fun routerStates => (List.finRange 9).filter fun n => !routerStates n) = some [0, 2] := by
  decide

end Flyover
