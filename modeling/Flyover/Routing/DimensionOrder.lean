import Flyover.Routing.CubeOffers
import Mathlib.Algebra.BigOperators.Fin
import Mathlib.Data.Nat.Dist

/-!
# Dimension order

The port that `dor_next_mesh` returns lies in a dimension in which the coordinates differ,
whichever order the loop looks through them in. So every step goes along a link of the mesh
and takes one from the Manhattan distance.

The loop for the descending order forms products up to `gK ^ (gN + 1)`; that these are `int`s
is left out.
-/

namespace Flyover

namespace Cube

variable (c : Cube)

/-! ### The wiring -/

/-- `_RightNode` -/
def rightNode (node dim : Nat) : Nat :=
  if coordinate c.gK node dim = c.gK - 1 then node - (c.gK - 1) * c.gK ^ dim
  else node + c.gK ^ dim

/-- `_LeftNode` -/
def leftNode (node dim : Nat) : Nat :=
  if coordinate c.gK node dim = 0 then node + (c.gK - 1) * c.gK ^ dim
  else node - c.gK ^ dim

/-- `_RightChannel` -/
def rightChannel (node dim : Nat) : Nat := 2 * c.gN * node + 2 * dim

/-- `_LeftChannel` -/
def leftChannel (node dim : Nat) : Nat := 2 * c.gN * node + (2 * dim + 1)

/-- The output channels in the order in which `_BuildNet` adds them: the right one of a
dimension before the left one. -/
def outputChannel (node : Nat) (port : Int) : Nat :=
  if port % 2 = 0 then c.rightChannel node (port / 2).toNat
  else c.leftChannel node (port / 2).toNat

/-- The input channel from the right and the one from the left. -/
def inputChannel (node dim : Nat) (right : Bool) : Nat :=
  if right then c.leftChannel (c.rightNode node dim) dim
  else c.rightChannel (c.leftNode node dim) dim

/-- An output channel of the one router is an input channel of the other. -/
def Wired (node : Nat) (port : Int) (sink : Nat) : Prop :=
  ∃ dim < c.gN, ∃ right, c.inputChannel sink dim right = c.outputChannel node port

/-- The router at the other end of a port. -/
def beyond (node : Nat) (port : Int) : Nat :=
  if port % 2 = 0 then c.rightNode node (port / 2).toNat else c.leftNode node (port / 2).toNat

/-- A link of the mesh, not one that wraps around. -/
structure Crosses (node : Nat) (port : Int) (sink : Nat) : Prop where
  within : sink < c.gNodes
  link : ∃ dim < c.gN,
    (port = 2 * dim ∧ coordinate c.gK sink dim = coordinate c.gK node dim + 1 ∨
      port = 2 * dim + 1 ∧ coordinate c.gK node dim = coordinate c.gK sink dim + 1) ∧
    ∀ j, j ≠ dim → coordinate c.gK sink j = coordinate c.gK node j
  wired : ∀ n < c.gNodes, c.Wired node port n ↔ n = sink

/-! ### Coordinates of neighbours -/

variable {c} {k n m dim : Nat}

theorem coordinate_lt (hk : 0 < k) : coordinate k n dim < k := Nat.mod_lt _ hk

theorem succ_mod {a : Nat} (h : a % k + 1 < k) : (a + 1) % k = a % k + 1 := by
  rw [Nat.add_mod, Nat.mod_eq_of_lt (Nat.lt_of_le_of_lt (Nat.le_add_left 1 _) h), Nat.mod_eq_of_lt h]

theorem mod_succ_of_pos {a : Nat} (hk : 0 < k) (h : 0 < (a + 1) % k) : a % k + 1 = (a + 1) % k := by
  obtain hlt | heq : a % k + 1 < k ∨ a % k + 1 = k := (Nat.succ_le_of_lt (Nat.mod_lt a hk)).lt_or_eq
  · exact (succ_mod hlt).symm
  · have hzero : (a + 1) % k = 0 := by
      rw [← Nat.mod_add_mod, heq, Nat.mod_self]
    rw [hzero] at h
    cases h

/-- One step up in a dimension changes no other coordinate. -/
theorem coordinate_add (h : coordinate k n dim + 1 < k) (j : Nat) :
    coordinate k (n + k ^ dim) j = coordinate k n j + if j = dim then 1 else 0 := by
  have hk : 0 < k := Nat.zero_lt_of_lt h
  have hdiv : (n + k ^ dim) / k ^ dim = n / k ^ dim + 1 :=
    Nat.add_div_right _ (Nat.pow_pos hk)
  obtain hlt | rfl | hgt := Nat.lt_trichotomy j dim
  · rw [if_neg hlt.ne, Nat.add_zero]
    obtain ⟨d, rfl⟩ := Nat.exists_eq_add_of_lt hlt
    have hpow : k ^ (j + d + 1) = k ^ j * (k * k ^ d) := by ring
    rw [coordinate, coordinate, hpow, Nat.add_mul_div_left _ _ (Nat.pow_pos hk), Nat.add_mul_mod_self_left]
  · rw [if_pos rfl, coordinate, hdiv, succ_mod h, coordinate]
  · rw [if_neg hgt.ne', Nat.add_zero]
    obtain ⟨d, rfl⟩ := Nat.exists_eq_add_of_lt hgt
    have hpow : k ^ (dim + d + 1) = k ^ dim * k * k ^ d := by ring
    have hcarry : (n / k ^ dim + 1) / k = n / k ^ dim / k := by
      refine Nat.succ_div_of_not_dvd fun hdvd => ?_
      have hmod := Nat.mod_eq_zero_of_dvd hdvd
      rw [succ_mod h] at hmod
      cases hmod
    rw [coordinate, coordinate, hpow, ← Nat.div_div_eq_div_mul, ← Nat.div_div_eq_div_mul,
      ← Nat.div_div_eq_div_mul, ← Nat.div_div_eq_div_mul, hdiv, hcarry]

/-- One step up stays inside. -/
theorem add_lt {dims : Nat} (hn : n < k ^ dims) (hdim : dim < dims)
    (h : coordinate k n dim + 1 < k) : n + k ^ dim < k ^ dims := by
  have hk : 0 < k := Nat.zero_lt_of_lt h
  by_contra hge
  obtain ⟨d, rfl⟩ := Nat.exists_eq_add_of_lt hdim
  have hpow : k ^ (dim + d + 1) = k ^ dim * (k * k ^ d) := by ring
  rw [hpow] at hn hge
  have hdiv : n / k ^ dim < k * k ^ d := Nat.div_lt_of_lt_mul hn
  have hsucc : k * k ^ d ≤ n / k ^ dim + 1 := by
    rw [← Nat.add_div_right _ (Nat.pow_pos hk), Nat.le_div_iff_mul_le (Nat.pow_pos hk), Nat.mul_comm]
    exact not_lt.mp hge
  have heq : n / k ^ dim + 1 = k * k ^ d := le_antisymm hdiv hsucc
  have hmod : (n / k ^ dim + 1) % k = 0 := by rw [heq, Nat.mul_mod_right]
  rw [succ_mod h] at hmod
  cases hmod

/-- Where a coordinate is positive, the router is one step up from another. -/
theorem exists_add_of_coordinate_pos (hk : 0 < k) (h : 0 < coordinate k n dim) :
    ∃ m, n = m + k ^ dim ∧ coordinate k m dim + 1 = coordinate k n dim := by
  have hle : k ^ dim ≤ n := by
    by_contra hlt
    rw [coordinate, Nat.div_eq_of_lt (not_le.mp hlt), Nat.zero_mod] at h
    cases h
  obtain ⟨m, rfl⟩ := Nat.exists_eq_add_of_le' hle
  refine ⟨m, rfl, ?_⟩
  have hdiv : (m + k ^ dim) / k ^ dim = m / k ^ dim + 1 := Nat.add_div_right _ (Nat.pow_pos hk)
  rw [coordinate, hdiv] at h
  rw [coordinate, coordinate, hdiv]
  exact mod_succ_of_pos hk h

/-! ### The links -/

theorem port_right (dim : Nat) : (2 * dim : Int) % 2 = 0 ∧ ((2 * dim : Int) / 2).toNat = dim := by
  omega

theorem port_left (dim : Nat) :
    (2 * dim + 1 : Int) % 2 ≠ 0 ∧ ((2 * dim + 1 : Int) / 2).toNat = dim := by
  omega

theorem beyond_right : c.beyond n (2 * dim) = c.rightNode n dim := by
  rw [beyond, if_pos (port_right dim).1, (port_right dim).2]

theorem beyond_left : c.beyond n (2 * dim + 1) = c.leftNode n dim := by
  rw [beyond, if_neg (port_left dim).1, (port_left dim).2]

/-- Two channels are the same only if they leave the same router in the same direction. -/
theorem channel_inj {a b i j : Nat} (hi : i < 2 * c.gN) (hj : j < 2 * c.gN)
    (h : 2 * c.gN * a + i = 2 * c.gN * b + j) : a = b ∧ i = j := by
  have hpos : 0 < 2 * c.gN := Nat.zero_lt_of_lt hi
  have hdiv := congrArg (· / (2 * c.gN)) h
  have hmod := congrArg (· % (2 * c.gN)) h
  simp only [Nat.mul_add_div hpos, Nat.div_eq_of_lt hi, Nat.div_eq_of_lt hj, Nat.add_zero] at hdiv
  simp only [Nat.mul_add_mod, Nat.mod_eq_of_lt hi, Nat.mod_eq_of_lt hj] at hmod
  exact ⟨hdiv, hmod⟩

theorem wired_right (hdim : dim < c.gN) : c.Wired n (2 * dim) m ↔ c.leftNode m dim = n := by
  have hout : c.outputChannel n (2 * dim) = c.rightChannel n dim := by
    rw [outputChannel, if_pos (port_right dim).1, (port_right dim).2]
  rw [Wired, hout]
  constructor
  · rintro ⟨d, hd, right, hchannel⟩
    cases right with
    | true =>
        obtain ⟨-, hoff⟩ := channel_inj (i := 2 * d + 1) (j := 2 * dim) (by omega) (by omega) hchannel
        omega
    | false =>
        obtain ⟨hnode, hoff⟩ := channel_inj (i := 2 * d) (j := 2 * dim) (by omega) (by omega) hchannel
        obtain rfl : d = dim := by omega
        exact hnode
  · rintro rfl
    exact ⟨dim, hdim, false, rfl⟩

theorem wired_left (hdim : dim < c.gN) : c.Wired n (2 * dim + 1) m ↔ c.rightNode m dim = n := by
  have hout : c.outputChannel n (2 * dim + 1) = c.leftChannel n dim := by
    rw [outputChannel, if_neg (port_left dim).1, (port_left dim).2]
  rw [Wired, hout]
  constructor
  · rintro ⟨d, hd, right, hchannel⟩
    cases right with
    | true =>
        obtain ⟨hnode, hoff⟩ :=
          channel_inj (i := 2 * d + 1) (j := 2 * dim + 1) (by omega) (by omega) hchannel
        obtain rfl : d = dim := by omega
        exact hnode
    | false =>
        obtain ⟨-, hoff⟩ := channel_inj (i := 2 * d) (j := 2 * dim + 1) (by omega) (by omega) hchannel
        omega
  · rintro rfl
    exact ⟨dim, hdim, true, rfl⟩

/-- The right port, away from the right edge. -/
theorem crosses_right (hn : n < c.gNodes) (hdim : dim < c.gN)
    (h : coordinate c.gK n dim + 1 < c.gK) : c.Crosses n (2 * dim) (c.beyond n (2 * dim)) := by
  have hk : 0 < c.gK := Nat.zero_lt_of_lt h
  have hright : c.beyond n (2 * dim) = n + c.gK ^ dim := by
    rw [beyond_right, rightNode, if_neg]
    omega
  rw [hright]
  refine ⟨add_lt hn hdim h, ⟨dim, hdim, .inl ⟨rfl, ?_⟩, ?_⟩, ?_⟩
  · rw [coordinate_add h, if_pos rfl]
  · intro j hj
    rw [coordinate_add h, if_neg hj, Nat.add_zero]
  · intro m _
    rw [wired_right hdim, leftNode]
    by_cases hedge : coordinate c.gK m dim = 0
    · -- the wire from the left edge comes from the right edge
      rw [if_pos hedge]
      refine iff_of_false ?_ ?_
      · rintro rfl
        rw [coordinate, Nat.add_mul_div_right _ _ (Nat.pow_pos hk), ← Nat.mod_add_mod, ← coordinate,
          hedge, Nat.zero_add, Nat.mod_eq_of_lt (Nat.sub_lt hk Nat.one_pos)] at h
        omega
      · rintro rfl
        rw [coordinate_add h, if_pos rfl] at hedge
        cases hedge
    · rw [if_neg hedge]
      obtain ⟨m', rfl, -⟩ := exists_add_of_coordinate_pos hk (Nat.pos_of_ne_zero hedge)
      rw [Nat.add_sub_cancel]
      exact ⟨fun heq => heq ▸ rfl, fun heq => Nat.add_right_cancel heq⟩

/-- The left port, away from the left edge. -/
theorem crosses_left (hn : n < c.gNodes) (hdim : dim < c.gN) (hpos : 0 < coordinate c.gK n dim) :
    c.Crosses n (2 * dim + 1) (c.beyond n (2 * dim + 1)) := by
  have hk : 0 < c.gK := by
    refine Nat.pos_of_ne_zero fun hzero => ?_
    rw [gNodes, hzero, Nat.zero_pow (Nat.zero_lt_of_lt hdim)] at hn
    cases hn
  obtain ⟨m, rfl, hm⟩ := exists_add_of_coordinate_pos hk hpos
  have hlt : coordinate c.gK m dim + 1 < c.gK := hm ▸ coordinate_lt hk
  have hleft : c.beyond (m + c.gK ^ dim) (2 * dim + 1) = m := by
    rw [beyond_left, leftNode, if_neg hpos.ne', Nat.add_sub_cancel]
  rw [hleft]
  refine ⟨Nat.lt_of_le_of_lt (Nat.le_add_right _ _) hn, ⟨dim, hdim, .inr ⟨rfl, hm.symm⟩, ?_⟩, ?_⟩
  · intro j hj
    rw [coordinate_add hlt, if_neg hj, Nat.add_zero]
  · intro m' _
    rw [wired_left hdim, rightNode]
    by_cases hedge : coordinate c.gK m' dim = c.gK - 1
    · -- the wire from the right edge comes from the left edge
      rw [if_pos hedge]
      refine iff_of_false (fun heq => ?_) ?_
      · have hm' : m' = m + c.gK ^ dim + (c.gK - 1) * c.gK ^ dim := by
          have hpow : 0 < c.gK ^ dim := Nat.pow_pos hk
          omega
        have hwrap : (coordinate c.gK m dim + c.gK) % c.gK = c.gK - 1 := by
          rw [← hedge, hm', coordinate, coordinate, Nat.add_mul_div_right _ _ (Nat.pow_pos hk),
            Nat.add_div_right _ (Nat.pow_pos hk), Nat.mod_add_mod]
          congr 1
          omega
        rw [Nat.add_mod_right, Nat.mod_eq_of_lt (Nat.lt_of_succ_lt hlt)] at hwrap
        omega
      · rintro rfl
        omega
    · rw [if_neg hedge]
      exact ⟨fun heq => Nat.add_right_cancel heq, fun heq => heq ▸ rfl⟩

/-! ### The port -/

/-- The ascending loop stops at a dimension in which the coordinates differ, or at the last. -/
theorem dorAscending_eq (left dimLeft cur dest : Nat) :
    ∃ dim ≤ left, dorAscending k left dimLeft cur dest =
        sidePort (dimLeft + dim) (coordinate k cur dim) (coordinate k dest dim) ∧
      (coordinate k cur dim = coordinate k dest dim →
        ∀ j ≤ left, coordinate k cur j = coordinate k dest j) := by
  induction left generalizing dimLeft cur dest with
  | zero =>
      refine ⟨0, le_rfl, ?_, ?_⟩
      · rw [dorAscending, coordinate_zero, coordinate_zero, Nat.add_zero]
      · intro heq j hj
        rwa [Nat.le_zero.mp hj]
  | succ left ih =>
      rw [dorAscending]
      by_cases hne : cur % k ≠ dest % k
      · rw [if_pos hne]
        refine ⟨0, Nat.zero_le _, ?_, ?_⟩
        · rw [coordinate_zero, coordinate_zero, Nat.add_zero]
        · rw [coordinate_zero, coordinate_zero]
          exact fun heq => absurd heq hne
      · rw [if_neg hne]
        obtain ⟨dim, hdim, hport, hsame⟩ := ih (dimLeft + 1) (cur / k) (dest / k)
        refine ⟨dim + 1, Nat.succ_le_succ hdim, ?_, ?_⟩
        · rw [hport, coordinate_succ, coordinate_succ, Nat.add_right_comm, Nat.add_assoc]
        · rw [coordinate_succ, coordinate_succ]
          intro heq j hj
          cases j with
          | zero => simpa using hne
          | succ j =>
              rw [coordinate_succ, coordinate_succ]
              exact hsame heq j (Nat.le_of_succ_le_succ hj)

/-- What is left of a number in the descending loop at dimension `dim`: its lower digits,
moved to the top. -/
def raised (c : Cube) (n dim : Nat) : Nat := n % c.gK ^ (dim + 1) * c.gK ^ (c.gN - 1 - dim)

theorem raised_mul (hdim : dim < c.gN) :
    c.raised n dim * c.gK = n % c.gK ^ (dim + 1) * c.gK ^ (c.gN - dim) := by
  have hexp : c.gN - dim = c.gN - 1 - dim + 1 := by omega
  rw [raised, Nat.mul_assoc, ← pow_succ, ← hexp]

theorem gNodes_eq (hdim : dim < c.gN) : c.gNodes = c.gK ^ dim * c.gK ^ (c.gN - dim) := by
  rw [gNodes, ← pow_add, Nat.add_sub_cancel' hdim.le]

/-- The digit that the loop compares. -/
theorem raised_digit (hk : 0 < c.gK) (hdim : dim < c.gN) :
    c.raised n dim * c.gK / c.gNodes = coordinate c.gK n dim := by
  rw [raised_mul hdim, gNodes_eq hdim, Nat.mul_div_mul_right _ _ (Nat.pow_pos hk), pow_succ,
    Nat.mod_mul_right_div_self, coordinate]

/-- What it goes on with. -/
theorem raised_rest (hdim : dim + 1 < c.gN) :
    c.raised n (dim + 1) * c.gK % c.gNodes = c.raised n dim := by
  have hexp : c.gN - (dim + 1) = c.gN - 1 - dim := by omega
  rw [raised_mul hdim, gNodes_eq hdim, Nat.mul_mod_mul_right, raised, hexp,
    Nat.mod_mod_of_dvd _ (pow_dvd_pow _ (Nat.le_succ _))]

theorem dorDescending_eq (hk : 0 < c.gK) {dimLeft : Nat} (hdim : dimLeft < c.gN) (cur dest : Nat) :
    ∃ dim ≤ dimLeft, c.dorDescending dimLeft (c.raised cur dimLeft) (c.raised dest dimLeft) =
        sidePort dim (coordinate c.gK cur dim) (coordinate c.gK dest dim) ∧
      (coordinate c.gK cur dim = coordinate c.gK dest dim →
        ∀ j ≤ dimLeft, coordinate c.gK cur j = coordinate c.gK dest j) := by
  induction dimLeft with
  | zero =>
      refine ⟨0, le_rfl, ?_, ?_⟩
      · rw [dorDescending, raised_digit hk hdim, raised_digit hk hdim]
      · intro heq j hj
        rwa [Nat.le_zero.mp hj]
  | succ dimLeft ih =>
      rw [dorDescending, raised_digit hk hdim, raised_digit hk hdim, raised_rest hdim,
        raised_rest hdim]
      split
      next hne => exact ⟨dimLeft + 1, le_rfl, rfl, fun heq => absurd heq hne⟩
      next hsame =>
        obtain ⟨dim, hle, hport, hall⟩ := ih (Nat.lt_of_succ_lt hdim)
        refine ⟨dim, hle.trans (Nat.le_succ _), hport, fun heq j hj => ?_⟩
        obtain hlt | rfl := hj.lt_or_eq
        · exact hall heq j (Nat.le_of_lt_succ hlt)
        · exact not_not.mp hsame

/-- In both orders the port lies in a dimension in which the coordinates differ. -/
theorem dorNextMesh_eq {cur dest : Nat} (hcur : cur < c.gNodes) (hdest : dest < c.gNodes)
    (hne : cur ≠ dest) (descending : Bool) :
    ∃ dim < c.gN, coordinate c.gK cur dim ≠ coordinate c.gK dest dim ∧
      c.dorNextMesh cur dest descending =
        sidePort dim (coordinate c.gK cur dim) (coordinate c.gK dest dim) := by
  have hN : 0 < c.gN := by
    refine Nat.pos_of_ne_zero fun hzero => hne ?_
    rw [gNodes, hzero, pow_zero, Nat.lt_one_iff] at hcur hdest
    exact hcur.trans hdest.symm
  have hk : 0 < c.gK := by
    refine Nat.pos_of_ne_zero fun hzero => ?_
    rw [gNodes, hzero, Nat.zero_pow hN] at hcur
    cases hcur
  have hlast : c.gN - 1 < c.gN := Nat.sub_lt hN Nat.one_pos
  have hport : ∃ dim ≤ c.gN - 1, c.dorNextMesh cur dest descending =
        sidePort dim (coordinate c.gK cur dim) (coordinate c.gK dest dim) ∧
      (coordinate c.gK cur dim = coordinate c.gK dest dim →
        ∀ j ≤ c.gN - 1, coordinate c.gK cur j = coordinate c.gK dest j) := by
    rw [dorNextMesh, if_neg hne]
    cases descending with
    | true =>
        rw [if_pos rfl]
        have hraised : ∀ n < c.gNodes, c.raised n (c.gN - 1) = n := by
          intro n hn
          rw [raised, Nat.sub_add_cancel hN, Nat.sub_self, pow_zero, Nat.mul_one]
          exact Nat.mod_eq_of_lt hn
        have hdescending := dorDescending_eq hk hlast cur dest
        rwa [hraised cur hcur, hraised dest hdest] at hdescending
    | false =>
        rw [if_neg Bool.false_ne_true]
        have hascending := dorAscending_eq (k := c.gK) (c.gN - 1) 0 cur dest
        simpa only [Nat.zero_add] using hascending
  obtain ⟨dim, hdim, hport, hall⟩ := hport
  refine ⟨dim, Nat.lt_of_le_of_lt hdim hlast, fun heq => hne ?_, hport⟩
  exact eq_of_coordinates hcur hdest fun j hj => hall heq j (Nat.le_sub_one_of_lt hj)

/-! ### The walk -/

/-- The Manhattan distance of two routers. -/
def manhattan (c : Cube) (a b : Nat) : Nat :=
  ∑ dim ∈ Finset.range c.gN, Nat.dist (coordinate c.gK a dim) (coordinate c.gK b dim)

/-- Where the ports lead after so many steps; the order may be another one in every step. -/
def dorWalk (c : Cube) (dest : Nat) (descending : Nat → Bool) (cur : Nat) : Nat → Nat
  | 0 => cur
  | i + 1 =>
      c.beyond (c.dorWalk dest descending cur i)
        (c.dorNextMesh (c.dorWalk dest descending cur i) dest (descending i))

theorem manhattan_eq_zero {a b : Nat} (ha : a < c.gNodes) (hb : b < c.gNodes) :
    c.manhattan a b = 0 ↔ a = b := by
  constructor
  · intro hzero
    refine eq_of_coordinates ha hb fun dim hdim => Nat.eq_of_dist_eq_zero ?_
    exact Finset.sum_eq_zero_iff.mp hzero dim (Finset.mem_range.mpr hdim)
  · rintro rfl
    exact Finset.sum_eq_zero fun dim _ => Nat.dist_self _

/-- A change of one coordinate changes the distance by what it changes there. -/
theorem manhattan_step {a a' b : Nat} (hdim : dim < c.gN)
    (hothers : ∀ j, j ≠ dim → coordinate c.gK a' j = coordinate c.gK a j)
    (hcloser : Nat.dist (coordinate c.gK a' dim) (coordinate c.gK b dim) + 1 =
      Nat.dist (coordinate c.gK a dim) (coordinate c.gK b dim)) :
    c.manhattan a' b + 1 = c.manhattan a b := by
  have hmem : dim ∈ Finset.range c.gN := Finset.mem_range.mpr hdim
  have hsame : ∑ j ∈ (Finset.range c.gN).erase dim,
        Nat.dist (coordinate c.gK a' j) (coordinate c.gK b j) =
      ∑ j ∈ (Finset.range c.gN).erase dim,
        Nat.dist (coordinate c.gK a j) (coordinate c.gK b j) := by
    refine Finset.sum_congr rfl fun j hj => ?_
    rw [hothers j (Finset.ne_of_mem_erase hj)]
  rw [manhattan, manhattan, ← Finset.add_sum_erase _ _ hmem, ← Finset.add_sum_erase _ _ hmem, hsame,
    ← hcloser]
  exact Nat.add_right_comm _ _ _

/-- A step goes along a link, and comes one closer. -/
theorem dorNextMesh_step {cur dest : Nat} (hcur : cur < c.gNodes) (hdest : dest < c.gNodes)
    (hne : cur ≠ dest) (descending : Bool) :
    c.Crosses cur (c.dorNextMesh cur dest descending)
        (c.beyond cur (c.dorNextMesh cur dest descending)) ∧
      c.manhattan (c.beyond cur (c.dorNextMesh cur dest descending)) dest + 1 =
        c.manhattan cur dest := by
  obtain ⟨dim, hdim, hdiffers, hport⟩ := dorNextMesh_eq hcur hdest hne descending
  have hk : 0 < c.gK := by
    refine Nat.pos_of_ne_zero fun hzero => ?_
    rw [gNodes, hzero, Nat.zero_pow (Nat.zero_lt_of_lt hdim)] at hcur
    cases hcur
  have hcrosses : c.Crosses cur (c.dorNextMesh cur dest descending)
      (c.beyond cur (c.dorNextMesh cur dest descending)) := by
    rw [hport, sidePort]
    split
    next hlt => exact crosses_right hcur hdim (Nat.lt_of_le_of_lt hlt (coordinate_lt hk))
    next hge =>
      exact crosses_left hcur hdim
        (Nat.zero_lt_of_lt (lt_of_le_of_ne (not_lt.mp hge) hdiffers.symm))
  refine ⟨hcrosses, ?_⟩
  obtain ⟨j, hj, hmoves, hothers⟩ := hcrosses.link
  have hcloser : j = dim ∧ Nat.dist
        (coordinate c.gK (c.beyond cur (c.dorNextMesh cur dest descending)) dim)
        (coordinate c.gK dest dim) + 1 =
      Nat.dist (coordinate c.gK cur dim) (coordinate c.gK dest dim) := by
    rw [hport, sidePort] at hmoves ⊢
    unfold Nat.dist
    by_cases hlt : coordinate c.gK cur dim < coordinate c.gK dest dim
    · rw [if_pos hlt] at hmoves ⊢
      obtain ⟨heq, hup⟩ | ⟨heq, -⟩ := hmoves
      · obtain rfl : j = dim := by omega
        exact ⟨rfl, by omega⟩
      · omega
    · rw [if_neg hlt] at hmoves ⊢
      obtain ⟨heq, -⟩ | ⟨heq, hdown⟩ := hmoves
      · omega
      · obtain rfl : j = dim := by omega
        exact ⟨rfl, by omega⟩
  obtain ⟨rfl, hcloser⟩ := hcloser
  exact manhattan_step hdim hothers hcloser

/-- After `i` steps the walk is inside the mesh and `i` closer. -/
theorem dorWalk_closer {cur dest : Nat} (hcur : cur < c.gNodes) (hdest : dest < c.gNodes)
    (descending : Nat → Bool) {i : Nat} (hi : i ≤ c.manhattan cur dest) :
    c.dorWalk dest descending cur i < c.gNodes ∧
      c.manhattan (c.dorWalk dest descending cur i) dest + i = c.manhattan cur dest := by
  induction i with
  | zero => exact ⟨hcur, rfl⟩
  | succ i ih =>
      obtain ⟨hinside, hdist⟩ := ih (Nat.le_of_succ_le hi)
      have hne : c.dorWalk dest descending cur i ≠ dest := by
        intro heq
        rw [heq, (manhattan_eq_zero hdest hdest).mpr rfl, Nat.zero_add] at hdist
        exact Nat.not_succ_le_self i (hdist ▸ hi)
      obtain ⟨hcrosses, hcloser⟩ := dorNextMesh_step hinside hdest hne (descending i)
      refine ⟨hcrosses.within, ?_⟩
      rw [← hdist, ← hcloser]
      show _ + i + 1 = _
      exact Nat.add_right_comm _ _ _

/-- From corner to corner of a mesh of three by three, the order changing in every step. -/
example : (List.range 5).map ((⟨3, 2⟩ : Cube).dorWalk 8 (fun i => decide (i % 2 = 0)) 0) =
    [0, 3, 4, 7, 8] := by decide

end Cube

end Flyover
