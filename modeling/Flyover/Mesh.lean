import Mathlib.Tactic.Common
import Mathlib.Tactic.Ring
import Mathlib.Logic.Function.Basic
import Mathlib.Data.Nat.ModEq
import Flyover.Checked

/-!
# The k by k mesh

Router identifiers, the four mesh ports, and the links laid by `KNCube`. The
network builder wires every dimension as a ring and calls the result a mesh:
the ports on the boundary are connected too, to the opposite side, and it is
the routers that must not use them. The routers recognise those ports by
comparing `_id % gK` and `_id / gK` with the boundary.
-/

namespace Flyover

/-- The mesh ports, numbered 0 to 3 in the source (`DIR_EAST` and so on). -/
inductive Port where
  | east
  | west
  | south
  | north
  deriving DecidableEq, Repr

namespace Port

/-- The order in which the source's `for (int out = 0; out < 4; ++out)` visits ports. -/
def all : List Port := [east, west, south, north]

/-- `if (out % 2) --in; else ++in;` -/
def opp : Port → Port
  | east => west
  | west => east
  | south => north
  | north => south

/-- `out == DIR_WEST || out == DIR_NORTH`: routers on these sides have higher
priority to drain. -/
def higherPriority (p : Port) : Bool := p = west || p = north

/-- A test that some port passes. -/
def any (test : Port → Bool) : Bool := all.any test

@[simp] theorem opp_opp (p : Port) : p.opp.opp = p := by cases p <;> rfl

@[simp] theorem opp_ne (p : Port) : p.opp ≠ p := by cases p <;> decide

@[simp] theorem ne_opp (p : Port) : p ≠ p.opp := (opp_ne p).symm

@[simp] theorem mem_all (p : Port) : p ∈ all := by cases p <;> decide

@[simp] theorem any_eq_true (test : Port → Bool) : any test = true ↔ ∃ p, test p = true := by
  simp [any]

@[simp] theorem any_eq_false (test : Port → Bool) :
    any test = false ↔ ∀ p, test p = false := by
  simp [any]

instance {P : Port → Prop} [DecidablePred P] : Decidable (∀ p, P p) :=
  decidable_of_iff (∀ p ∈ all, P p) (by simp)

instance {P : Port → Prop} [DecidablePred P] : Decidable (∃ p, P p) :=
  decidable_of_iff (∃ p ∈ all, P p) (by simp)

end Port

/-- A router identifier of the k by k mesh. -/
abbrev Node (k : Nat) := Fin (k * k)

instance neZeroTwoByTwo : NeZero (2 * 2) := ⟨by decide⟩

instance neZeroThreeByThree : NeZero (3 * 3) := ⟨by decide⟩

namespace Node

variable {k : Nat}

/-- The column, `_id % gK`. -/
def x (n : Node k) : Nat := n.val % k

/-- The row, `_id / gK`. -/
def y (n : Node k) : Nat := n.val / k

theorem pos (n : Node k) : 0 < k := by
  rcases Nat.eq_zero_or_pos k with h | h
  · subst h
    exact n.elim0
  · exact h

theorem x_lt (n : Node k) : n.x < k := Nat.mod_lt _ n.pos

theorem y_lt (n : Node k) : n.y < k := Nat.div_lt_of_lt_mul n.isLt

theorem val_eq (n : Node k) : n.val = k * n.y + n.x := (Nat.div_add_mod n.val k).symm

theorem ext_xy {n m : Node k} (hx : n.x = m.x) (hy : n.y = m.y) : n = m := by
  apply Fin.ext
  rw [val_eq, val_eq m, hx, hy]

theorem index_lt {a b : Nat} (ha : a < k) (hb : b < k) : k * b + a < k * k := by
  have hstep : k * (b + 1) ≤ k * k := Nat.mul_le_mul_left k hb
  rw [Nat.mul_add] at hstep
  omega

/-- The router at a given column and row. -/
def ofXY (a b : Nat) (ha : a < k) (hb : b < k) : Node k := ⟨k * b + a, index_lt ha hb⟩

@[simp] theorem ofXY_x {a b : Nat} (ha : a < k) (hb : b < k) : (ofXY a b ha hb).x = a := by
  simp [ofXY, x, Nat.mod_eq_of_lt ha]

@[simp] theorem ofXY_y {a b : Nat} (ha : a < k) (hb : b < k) : (ofXY a b ha hb).y = b := by
  have hk : 0 < k := by omega
  simp [ofXY, y, Nat.mul_add_div hk, Nat.div_eq_of_lt ha]

/-- The boundary test of the routers: no mesh neighbour in this direction. -/
def edge (n : Node k) : Port → Bool
  | .east => n.val % k = k - 1
  | .west => n.val % k = 0
  | .south => n.val / k = k - 1
  | .north => n.val / k = 0

/-- The ports with a mesh neighbour. -/
def inner (n : Node k) (p : Port) : Bool := !n.edge p

/-- `KNCube::_LeftNode` and `_RightNode` in the two dimensions, as numbers: one
further, or around to the other side. -/
def neighborId (n : Node k) : Port → Nat
  | .east => if n.val % k = k - 1 then n.val - (k - 1) else n.val + 1
  | .west => if n.val % k = 0 then n.val + (k - 1) else n.val - 1
  | .south => if n.val / k = k - 1 then n.val - (k - 1) * k else n.val + k
  | .north => if n.val / k = 0 then n.val + (k - 1) * k else n.val - k

/-- The column of the neighbour. -/
def neighborX (n : Node k) : Port → Nat
  | .east => if n.x = k - 1 then 0 else n.x + 1
  | .west => if n.x = 0 then k - 1 else n.x - 1
  | .south | .north => n.x

/-- The row of the neighbour. -/
def neighborY (n : Node k) : Port → Nat
  | .south => if n.y = k - 1 then 0 else n.y + 1
  | .north => if n.y = 0 then k - 1 else n.y - 1
  | .east | .west => n.y

theorem neighborX_lt (n : Node k) (p : Port) : n.neighborX p < k := by
  have hx := n.x_lt
  cases p <;> simp only [neighborX] <;> first | exact hx | (split <;> omega)

theorem neighborY_lt (n : Node k) (p : Port) : n.neighborY p < k := by
  have hy := n.y_lt
  cases p <;> simp only [neighborY] <;> first | exact hy | (split <;> omega)

theorem neighborId_eq (n : Node k) (p : Port) :
    n.neighborId p = k * n.neighborY p + n.neighborX p := by
  have hval := n.val_eq
  have hx := n.x_lt
  have hy := n.y_lt
  have hcomm : (k - 1) * k = k * (k - 1) := Nat.mul_comm _ _
  cases p with
  | east =>
      simp only [neighborId, neighborX, neighborY]
      change (if n.x = k - 1 then _ else _) = _
      split <;> omega
  | west =>
      simp only [neighborId, neighborX, neighborY]
      change (if n.x = 0 then _ else _) = _
      split <;> omega
  | south =>
      simp only [neighborId, neighborX, neighborY]
      change (if n.y = k - 1 then _ else _) = _
      split
      next hlast =>
        rw [hlast] at hval
        omega
      next =>
        rw [Nat.mul_add]
        omega
  | north =>
      simp only [neighborId, neighborX, neighborY]
      change (if n.y = 0 then _ else _) = _
      split
      next hfirst =>
        rw [hfirst, Nat.mul_zero] at hval
        omega
      next hfirst =>
        have hrow : k * n.y = k * (n.y - 1) + k := by
          conv_lhs => rw [show n.y = (n.y - 1) + 1 by omega, Nat.mul_add, Nat.mul_one]
        omega

theorem neighborId_lt (n : Node k) (p : Port) : n.neighborId p < k * k := by
  rw [neighborId_eq]
  exact index_lt (n.neighborX_lt p) (n.neighborY_lt p)

/-- The router whose channels are connected to port `p` of router `n`. -/
def neighbor (n : Node k) (p : Port) : Node k := ⟨n.neighborId p, n.neighborId_lt p⟩

theorem neighbor_eq (n : Node k) (p : Port) :
    n.neighbor p = ofXY (n.neighborX p) (n.neighborY p) (n.neighborX_lt p)
      (n.neighborY_lt p) := by
  apply Fin.ext
  exact n.neighborId_eq p

@[simp] theorem neighbor_x (n : Node k) (p : Port) : (n.neighbor p).x = n.neighborX p := by
  rw [neighbor_eq, ofXY_x]

@[simp] theorem neighbor_y (n : Node k) (p : Port) : (n.neighbor p).y = n.neighborY p := by
  rw [neighbor_eq, ofXY_y]

theorem neighbor_neighbor (n : Node k) (p : Port) : (n.neighbor p).neighbor p.opp = n := by
  have hx := n.x_lt
  have hy := n.y_lt
  apply ext_xy
  · cases p <;> simp only [neighbor_x, neighborX, Port.opp] <;> split <;> (try split) <;> omega
  · cases p <;> simp only [neighbor_y, neighborY, Port.opp] <;> split <;> (try split) <;> omega

/-- The far end of a boundary link is a boundary port, and of an inner link an
inner one. -/
theorem edge_neighbor (n : Node k) (p : Port) : (n.neighbor p).edge p.opp = n.edge p := by
  have hx := n.x_lt
  have hy := n.y_lt
  have hcol : ∀ m : Node k, m.val % k = m.x := fun _ => rfl
  have hrow : ∀ m : Node k, m.val / k = m.y := fun _ => rfl
  cases p <;>
    simp only [edge, Port.opp, hcol, hrow, neighbor_x, neighbor_y, neighborX, neighborY,
      decide_eq_decide] <;>
    split <;> omega

theorem edge_neighbor_eq_false {n : Node k} {p : Port} (h : n.edge p = false) :
    (n.neighbor p).edge p.opp = false :=
  (edge_neighbor n p).trans h

/-- Router `m` lies strictly in direction `p` from router `n`. -/
def Ahead (n m : Node k) : Port → Prop
  | .east => m.y = n.y ∧ n.x < m.x
  | .west => m.y = n.y ∧ m.x < n.x
  | .south => m.x = n.x ∧ n.y < m.y
  | .north => m.x = n.x ∧ m.y < n.y

/-- The number of routers from here to the boundary. -/
def distance (n : Node k) : Port → Nat
  | .east => k - 1 - n.x
  | .west => n.x
  | .south => k - 1 - n.y
  | .north => n.y

theorem distance_pos {n : Node k} {p : Port} (hp : n.edge p = false) : 0 < n.distance p := by
  have hx := n.x_lt
  have hy := n.y_lt
  have hcol : n.val % k = n.x := rfl
  have hrow : n.val / k = n.y := rfl
  cases p <;> simp only [edge, hcol, hrow, decide_eq_false_iff_not, distance] at hp ⊢ <;> omega

theorem distance_of_edge {n : Node k} {p : Port} (hp : n.edge p = true) : n.distance p = 0 := by
  have hcol : n.val % k = n.x := rfl
  have hrow : n.val / k = n.y := rfl
  cases p <;> simp only [edge, hcol, hrow, decide_eq_true_eq, distance] at hp ⊢ <;> omega

theorem ahead_neighbor {n : Node k} {p : Port} (hp : n.edge p = false) :
    n.Ahead (n.neighbor p) p := by
  have hdistance := distance_pos hp
  cases p <;>
    simp only [Ahead, neighbor_x, neighbor_y, neighborX, neighborY, distance, true_and] at hdistance ⊢ <;>
    split <;> omega

theorem Ahead.of_neighbor {n m : Node k} {p : Port} (hp : n.edge p = false)
    (h : (n.neighbor p).Ahead m p) : n.Ahead m p := by
  have hdistance := distance_pos hp
  cases p <;>
    simp only [Ahead, neighbor_x, neighbor_y, neighborX, neighborY, distance] at hdistance h ⊢ <;>
    split at h <;> omega

theorem distance_neighbor {n : Node k} {p : Port} (hp : n.edge p = false) :
    n.distance p = (n.neighbor p).distance p + 1 := by
  have hdistance := distance_pos hp
  cases p <;>
    simp only [neighbor_x, neighbor_y, neighborX, neighborY, distance] at hdistance ⊢ <;>
    split <;> omega

theorem Ahead.edge {n m : Node k} {p : Port} (h : n.Ahead m p) : n.edge p = false := by
  have hx := m.x_lt
  have hy := m.y_lt
  have hcol : n.val % k = n.x := rfl
  have hrow : n.val / k = n.y := rfl
  cases p <;> simp only [Ahead, Node.edge, hcol, hrow, decide_eq_false_iff_not] at h ⊢ <;> omega

theorem Ahead.eq_or_ahead {n m : Node k} {p : Port} (h : n.Ahead m p) :
    m = n.neighbor p ∨ (n.neighbor p).Ahead m p := by
  have hdistance := distance_pos h.edge
  rw [or_iff_not_imp_right]
  intro hnot
  apply ext_xy <;> cases p <;>
    simp only [Ahead, neighbor_x, neighbor_y, neighborX, neighborY, distance] at * <;>
    split at hnot <;> (try split) <;> omega

/-- The nearest router in direction `p` with a property. -/
structure Nearest (on : Node k → Prop) (n : Node k) (p : Port) (m : Node k) : Prop where
  ahead : n.Ahead m p
  holds : on m
  first : ∀ between : Node k, n.Ahead between p → between.Ahead m p → ¬ on between

/-- If the next router does not have the property, it has the same nearest ones. -/
theorem Nearest.of_neighbor {on : Node k → Prop} {n m : Node k} {p : Port}
    (h : Nearest on n p m) (hnot : ¬ on (n.neighbor p)) : Nearest on (n.neighbor p) p m where
  ahead := h.ahead.eq_or_ahead.resolve_left fun heq => hnot (heq ▸ h.holds)
  holds := h.holds
  first := fun between hbetween => h.first between (hbetween.of_neighbor h.ahead.edge)

theorem Nearest.eq_neighbor {on : Node k → Prop} {n m : Node k} {p : Port}
    (h : Nearest on n p m) (hon : on (n.neighbor p)) : m = n.neighbor p :=
  h.ahead.eq_or_ahead.resolve_right fun hahead =>
    h.first _ (ahead_neighbor h.ahead.edge) hahead hon

theorem Ahead.ne {n m : Node k} {p : Port} (h : n.Ahead m p) : m ≠ n := by
  rintro rfl
  cases p <;> simp [Ahead] at h

/-- Mesh neighbours: one apart in the row or in the column. -/
def Adjacent (n m : Node k) : Prop :=
  n.y = m.y ∧ (n.x + 1 = m.x ∨ m.x + 1 = n.x) ∨ n.x = m.x ∧ (n.y + 1 = m.y ∨ m.y + 1 = n.y)

instance (n m : Node k) : Decidable (n.Adjacent m) := inferInstanceAs (Decidable (_ ∨ _))

theorem adjacent_neighbor {n : Node k} {p : Port} (hp : n.edge p = false) :
    n.Adjacent (n.neighbor p) := by
  have hdistance := distance_pos hp
  unfold Adjacent
  cases p <;>
    simp only [neighbor_x, neighbor_y, neighborX, neighborY, distance, true_and] at hdistance ⊢ <;>
    split <;> omega

/-- Mesh neighbours are connected by an inner link. -/
theorem Adjacent.exists_port {n m : Node k} (h : n.Adjacent m) :
    ∃ p, n.edge p = false ∧ n.neighbor p = m := by
  have hmx := m.x_lt
  have hmy := m.y_lt
  have hcol : n.val % k = n.x := rfl
  have hrow : n.val / k = n.y := rfl
  rcases h with ⟨hy, hx | hx⟩ | ⟨hx, hy | hy⟩
  · refine ⟨.east, ?_, ext_xy ?_ ?_⟩ <;> simp [edge, neighborX, neighborY, hcol] <;>
      (try split) <;> omega
  · refine ⟨.west, ?_, ext_xy ?_ ?_⟩ <;> simp [edge, neighborX, neighborY, hcol] <;>
      (try split) <;> omega
  · refine ⟨.south, ?_, ext_xy ?_ ?_⟩ <;> simp [edge, neighborX, neighborY, hrow] <;>
      (try split) <;> omega
  · refine ⟨.north, ?_, ext_xy ?_ ?_⟩ <;> simp [edge, neighborX, neighborY, hrow] <;>
      (try split) <;> omega

end Node

end Flyover
