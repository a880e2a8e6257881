import Flyover.Progress.Walks
import Flyover.Routing.DimensionOrder

/-!
# The torus

`KNCube` builds a torus with the links that the mesh leaves unused: every
dimension is a ring of `gK` routers. `dor_next_torus` goes through the dimensions
in order and around each ring by the shorter way, which it chooses where it turns
into the ring.
-/

namespace Flyover

namespace Cube

/-- The loop of `dor_next_torus` with `left` rounds left, and what it leaves in
`dim_left`, `cur` and `dest`. -/
def torusDimension (gK : Nat) : Nat → Nat → Nat → Nat → Nat × Nat × Nat
  | 0, dimLeft, cur, dest => (dimLeft, cur, dest)
  | left + 1, dimLeft, cur, dest =>
      if cur % gK ≠ dest % gK then (dimLeft, cur, dest)
      else torusDimension gK left (dimLeft + 1) (cur / gK) (dest / gK)

/-- `dist2` -/
def dist2 (gK cur dest : Nat) : Int := gK - 2 * (((dest : Int) - cur + gK) % gK)

/-- `dir == 0`: the way to the right is the shorter one, or as short and drawn. -/
def torusRight (gK cur dest : Nat) (drawn : Nat) : Bool :=
  decide (dist2 gK cur dest > 0) || (decide (dist2 gK cur dest = 0) && decide (drawn ≠ 0))

/-- `*partition`, with one dateline or with Cray's two. -/
def torusPartition (balance : Bool) (gK : Nat) (right : Bool) (cur dest drawn : Nat) : Int :=
  if balance then
    if (right = true ∧ cur > dest) ∨ (right = false ∧ cur < dest) then 1
    else if (right = true ∧ cur ≤ (gK - 1) / 2 ∧ dest > (gK - 1) / 2) ∨
        (right = false ∧ cur > (gK - 1) / 2 ∧ dest ≤ (gK - 1) / 2) then 0
    else drawn
  else if (right = true ∧ cur > dest) ∨ (right = false ∧ dest < cur) then 1
  else 0

/-- The port in dimension `dim`. -/
def directionPort (dim : Nat) (right : Bool) : Int := if right then 2 * dim else 2 * dim + 1

/-- `dor_next_torus`: the port, and the partition where it is set. The second draw of a
call is made only after the first. -/
def dorNextTorus (c : Cube) (balance : Bool) (draw : Nat → Nat) (cur dest : Nat) (inPort : Int) :
    Int × Option Int :=
  match torusDimension c.gK c.gN 0 cur dest with
  | (dimLeft, cur, dest) =>
    if dimLeft < c.gN then
      if inPort / 2 ≠ dimLeft then
        let right := torusRight c.gK (cur % c.gK) (dest % c.gK) (draw 0)
        let second := if dist2 c.gK (cur % c.gK) (dest % c.gK) = 0 then draw 1 else draw 0
        (directionPort dimLeft right,
          some (torusPartition balance c.gK right (cur % c.gK) (dest % c.gK) second))
      else (CubeCall.opposite inPort, none)
    else (2 * c.gN, none)

end Cube

namespace CubeCall

variable {c : Cube} (call : CubeCall c)

/-- What `dim_order_torus` and `dim_order_bal_torus` have in common: the offers, and
`f->ph` after the call. Only the balanced one asserts that `f->ph` is 0 or 1. -/
def routeTorus (balance : Bool) : Option (List Offer × Int) := do
  call.assertVC
  if call.inject then pure (call.vcs.offer (-1), call.f.ph)
  else
    let (outPort, partition) :=
      c.dorNextTorus balance call.draw call.id call.f.dest call.inChannel
    let ph := partition.getD call.f.ph
    if call.id = call.f.dest then pure (call.vcs.offer outPort, ph)
    else
      let vcs ← call.vcs.half (ph = 0)
      if balance = true ∧ ph ≠ 0 ∧ ph ≠ 1 then none else pure (vcs.offer outPort, ph)

/-- `dim_order_torus` -/
def dimOrderTorus : Option (List Offer × Int) := call.routeTorus false

/-- `dim_order_bal_torus` -/
def dimOrderBalTorus : Option (List Offer × Int) := call.routeTorus true

end CubeCall

namespace Cube

variable {c : Cube} {k n m dim : Nat}

/-! ### Around a ring -/

/-- Up by less than what is left to the edge. -/
theorem coordinate_add_mul {t : Nat} (h : coordinate k n dim + t < k) (j : Nat) :
    coordinate k (n + t * k ^ dim) j = coordinate k n j + if j = dim then t else 0 := by
  induction t generalizing j with
  | zero => simp
  | succ t ih =>
      have hstep : coordinate k (n + t * k ^ dim) dim + 1 < k := by
        rw [ih (by omega), if_pos rfl]
        omega
      rw [Nat.add_mul, Nat.one_mul, ← Nat.add_assoc, coordinate_add hstep, ih (by omega)]
      split <;> omega

theorem add_mul_lt {dims t : Nat} (hn : n < k ^ dims) (hdim : dim < dims)
    (h : coordinate k n dim + t < k) : n + t * k ^ dim < k ^ dims := by
  induction t with
  | zero => simpa using hn
  | succ t ih =>
      have hstep : coordinate k (n + t * k ^ dim) dim + 1 < k := by
        rw [coordinate_add_mul (by omega), if_pos rfl]
        omega
      rw [Nat.add_mul, Nat.one_mul, ← Nat.add_assoc]
      exact add_lt (ih (by omega)) hdim hstep

/-- Every router is so many steps up from the left edge of its ring. -/
theorem exists_base (hk : 0 < k) (n dim : Nat) :
    ∃ m, n = m + coordinate k n dim * k ^ dim ∧ coordinate k m dim = 0 := by
  induction hcoordinate : coordinate k n dim generalizing n with
  | zero => exact ⟨n, by simp, hcoordinate⟩
  | succ a ih =>
      obtain ⟨n', rfl, hbelow⟩ := exists_add_of_coordinate_pos hk
        (hcoordinate ▸ Nat.succ_pos a : 0 < coordinate k n dim)
      obtain ⟨m, hm, hzero⟩ := ih n' (by omega)
      exact ⟨m, by rw [hm, Nat.add_mul, Nat.one_mul, Nat.add_assoc], hzero⟩

/-- The routers of a ring differ in one coordinate. -/
structure OnRing (c : Cube) (dim a : Nat) (n n' : Nat) : Prop where
  lt : n' < c.gNodes
  coordinate : coordinate c.gK n' dim = a
  others : ∀ j, j ≠ dim → Cube.coordinate c.gK n' j = Cube.coordinate c.gK n j

theorem OnRing.unique {a : Nat} {n' n'' : Nat} (h : c.OnRing dim a n n') (h' : c.OnRing dim a n n'') :
    n' = n'' := by
  refine eq_of_coordinates h.lt h'.lt fun j _ => ?_
  by_cases hj : j = dim
  · rw [hj, h.coordinate, h'.coordinate]
  · rw [h.others j hj, h'.others j hj]

theorem gK_pos (hn : n < c.gNodes) (hdim : dim < c.gN) : 0 < c.gK := by
  refine Nat.pos_of_ne_zero fun hzero => ?_
  rw [gNodes, hzero, Nat.zero_pow (Nat.zero_lt_of_lt hdim)] at hn
  exact absurd hn (Nat.not_lt_zero _)

theorem rightNode_onRing (hn : n < c.gNodes) (hdim : dim < c.gN) :
    c.OnRing dim ((coordinate c.gK n dim + 1) % c.gK) n (c.rightNode n dim) := by
  have hk := gK_pos hn hdim
  have hlt : coordinate c.gK n dim < c.gK := coordinate_lt hk
  unfold rightNode
  split
  next hedge =>
    obtain ⟨m, hm, hzero⟩ := exists_base hk n dim
    have hback : n - (c.gK - 1) * c.gK ^ dim = m := by
      rw [hedge] at hm
      omega
    have hround : (coordinate c.gK n dim + 1) % c.gK = 0 := by
      rw [hedge, Nat.sub_add_cancel hk, Nat.mod_self]
    rw [hback, hround]
    refine ⟨Nat.lt_of_le_of_lt (hm ▸ Nat.le_add_right _ _) hn, hzero, fun j hj => ?_⟩
    conv => rhs; rw [hm]
    rw [coordinate_add_mul (by omega), if_neg hj, Nat.add_zero]
  next hinner =>
    have hnext : coordinate c.gK n dim + 1 < c.gK := by omega
    rw [Nat.mod_eq_of_lt hnext]
    refine ⟨add_lt hn hdim hnext, ?_, fun j hj => ?_⟩
    · rw [coordinate_add hnext, if_pos rfl]
    · rw [coordinate_add hnext, if_neg hj, Nat.add_zero]

theorem leftNode_onRing (hn : n < c.gNodes) (hdim : dim < c.gN) :
    c.OnRing dim ((coordinate c.gK n dim + (c.gK - 1)) % c.gK) n (c.leftNode n dim) := by
  have hk := gK_pos hn hdim
  have hlt : coordinate c.gK n dim < c.gK := coordinate_lt hk
  unfold leftNode
  split
  next hedge =>
    have hroom : coordinate c.gK n dim + (c.gK - 1) < c.gK := by omega
    rw [Nat.mod_eq_of_lt hroom]
    refine ⟨add_mul_lt hn hdim hroom, ?_, fun j hj => ?_⟩
    · rw [coordinate_add_mul hroom, if_pos rfl]
    · rw [coordinate_add_mul hroom, if_neg hj, Nat.add_zero]
  next hinner =>
    obtain ⟨m, rfl, hm⟩ := exists_add_of_coordinate_pos hk (Nat.pos_of_ne_zero hinner)
    have hback : (coordinate c.gK (m + c.gK ^ dim) dim + (c.gK - 1)) % c.gK =
        coordinate c.gK m dim := by
      rw [← hm, show coordinate c.gK m dim + 1 + (c.gK - 1) = coordinate c.gK m dim + c.gK by omega,
        Nat.add_mod_right, Nat.mod_eq_of_lt (by omega)]
    rw [Nat.add_sub_cancel, hback]
    have hnext : coordinate c.gK m dim + 1 < c.gK := by omega
    refine ⟨Nat.lt_of_le_of_lt (Nat.le_add_right _ _) hn, rfl, fun j hj => ?_⟩
    rw [coordinate_add hnext, if_neg hj, Nat.add_zero]

theorem mod_round {a : Nat} (ha : a < k) : ((a + 1) % k + (k - 1)) % k = a ∧
    ((a + (k - 1)) % k + 1) % k = a := by
  have hround : a + k = a + 1 + (k - 1) := by omega
  have hround' : a + k = a + (k - 1) + 1 := by omega
  rw [Nat.mod_add_mod, Nat.mod_add_mod, ← hround, ← hround', Nat.add_mod_right, Nat.mod_eq_of_lt ha]
  exact ⟨rfl, rfl⟩

theorem leftNode_rightNode (hn : n < c.gNodes) (hdim : dim < c.gN) :
    c.leftNode (c.rightNode n dim) dim = n := by
  have hright := rightNode_onRing hn hdim
  have hleft := leftNode_onRing hright.lt hdim
  rw [hright.coordinate, (mod_round (coordinate_lt (gK_pos hn hdim))).1] at hleft
  exact OnRing.unique (n := n) ⟨hleft.lt, hleft.coordinate, fun j hj =>
    (hleft.others j hj).trans (hright.others j hj)⟩ ⟨hn, rfl, fun _ _ => rfl⟩

theorem rightNode_leftNode (hn : n < c.gNodes) (hdim : dim < c.gN) :
    c.rightNode (c.leftNode n dim) dim = n := by
  have hleft := leftNode_onRing hn hdim
  have hright := rightNode_onRing hleft.lt hdim
  rw [hleft.coordinate, (mod_round (coordinate_lt (gK_pos hn hdim))).2] at hright
  exact OnRing.unique (n := n) ⟨hright.lt, hright.coordinate, fun j hj =>
    (hright.others j hj).trans (hleft.others j hj)⟩ ⟨hn, rfl, fun _ _ => rfl⟩

/-! ### The links -/

/-- The input channels in the order in which `_BuildNet` adds them: what comes from the
right before what comes from the left. -/
def inputPort (dim : Nat) (right : Bool) : Int := if right then 2 * dim else 2 * dim + 1

/-- An output port of the one router feeds an input port of the other; the ports from
`2*gN` on lead out of the network. -/
def Feeds (c : Cube) (node : Nat) (port : Int) (sink : Nat) (inPort : Int) : Prop :=
  port < 2 * c.gN ∧ ∃ dim < c.gN, ∃ right,
    c.inputChannel sink dim right = c.outputChannel node port ∧ inPort = inputPort dim right

/-- What a port feeds: the next router in its direction, where it comes in from behind. -/
theorem feeds_iff {right : Bool} {inPort : Int} (hn : n < c.gNodes) (hm : m < c.gNodes)
    (hdim : dim < c.gN) :
    c.Feeds n (directionPort dim right) m inPort ↔
      m = (if right then c.rightNode n dim else c.leftNode n dim) ∧
        inPort = CubeCall.opposite (directionPort dim right) := by
  cases right with
  | true =>
      have hout : c.outputChannel n (directionPort dim true) = c.rightChannel n dim := by
        rw [directionPort, if_pos rfl, outputChannel, if_pos (port_right dim).1, (port_right dim).2]
      have hback : CubeCall.opposite (directionPort dim true) = inputPort dim false := by
        rw [directionPort, if_pos rfl, CubeCall.opposite, if_pos (port_right dim).1]
        rfl
      rw [Feeds, hout, hback, if_pos rfl]
      constructor
      · rintro ⟨-, d, hd, right, hchannel, rfl⟩
        cases right with
        | true =>
            obtain ⟨-, hoff⟩ :=
              channel_inj (i := 2 * d + 1) (j := 2 * dim) (by omega) (by omega) hchannel
            omega
        | false =>
            obtain ⟨rfl, hoff⟩ :=
              channel_inj (i := 2 * d) (j := 2 * dim) (by omega) (by omega) hchannel
            obtain rfl : d = dim := by omega
            exact ⟨(rightNode_leftNode hm hdim).symm, rfl⟩
      · rintro ⟨rfl, rfl⟩
        refine ⟨by simp [directionPort]; omega, dim, hdim, false, ?_, rfl⟩
        rw [inputChannel, if_neg Bool.false_ne_true, leftNode_rightNode hn hdim]
  | false =>
      have hout : c.outputChannel n (directionPort dim false) = c.leftChannel n dim := by
        rw [directionPort, if_neg Bool.false_ne_true, outputChannel, if_neg (port_left dim).1,
          (port_left dim).2]
      have hback : CubeCall.opposite (directionPort dim false) = inputPort dim true := by
        rw [directionPort, if_neg Bool.false_ne_true, CubeCall.opposite, if_neg (port_left dim).1]
        simp [inputPort]
      rw [Feeds, hout, hback, if_neg Bool.false_ne_true]
      constructor
      · rintro ⟨-, d, hd, right, hchannel, rfl⟩
        cases right with
        | true =>
            obtain ⟨rfl, hoff⟩ :=
              channel_inj (i := 2 * d + 1) (j := 2 * dim + 1) (by omega) (by omega) hchannel
            obtain rfl : d = dim := by omega
            exact ⟨(leftNode_rightNode hm hdim).symm, rfl⟩
        | false =>
            obtain ⟨-, hoff⟩ :=
              channel_inj (i := 2 * d) (j := 2 * dim + 1) (by omega) (by omega) hchannel
            omega
      · rintro ⟨rfl, rfl⟩
        refine ⟨by simp [directionPort]; omega, dim, hdim, true, ?_, rfl⟩
        rw [inputChannel, if_pos rfl, rightNode_leftNode hn hdim]

/-! ### Distances -/

/-- The steps to the right from one coordinate to another. -/
def ahead (k a b : Nat) : Nat := (b + (k - a)) % k

/-- The steps in a direction. -/
def wayLeft (k : Nat) (right : Bool) (a b : Nat) : Nat := if right then ahead k a b else ahead k b a

/-- The coordinate that a step leads to. -/
def nextCoordinate (k : Nat) (right : Bool) (a : Nat) : Nat :=
  if right then (a + 1) % k else (a + (k - 1)) % k

/-- The steps by the shorter way. -/
def ringDistance (k a b : Nat) : Nat := min (ahead k a b) (ahead k b a)

/-- The distance in a torus. -/
def torusDistance (c : Cube) (a b : Nat) : Nat :=
  ∑ dim ∈ Finset.range c.gN, ringDistance c.gK (coordinate c.gK a dim) (coordinate c.gK b dim)

section Ring

variable {a b : Nat}

theorem ahead_eq (ha : a < k) (hb : b < k) : ahead k a b = if a ≤ b then b - a else b + k - a := by
  unfold ahead
  split
  next hle =>
    rw [show b + (k - a) = b - a + k by omega, Nat.add_mod_right, Nat.mod_eq_of_lt (by omega)]
  next hgt => rw [Nat.mod_eq_of_lt (by omega), Nat.add_sub_assoc (by omega)]

theorem nextCoordinate_eq (ha : a < k) (right : Bool) : nextCoordinate k right a =
    if right then if a + 1 = k then 0 else a + 1 else if a = 0 then k - 1 else a - 1 := by
  unfold nextCoordinate
  cases right with
  | true =>
      simp only [if_true]
      split
      next hedge => rw [hedge, Nat.mod_self]
      next hinner => exact Nat.mod_eq_of_lt (by omega)
  | false =>
      simp only [Bool.false_eq_true, if_false]
      split
      next hedge => rw [hedge, Nat.zero_add, Nat.mod_eq_of_lt (by omega)]
      next hinner =>
        rw [show a + (k - 1) = a - 1 + k by omega, Nat.add_mod_right, Nat.mod_eq_of_lt (by omega)]

theorem nextCoordinate_lt (ha : a < k) (right : Bool) : nextCoordinate k right a < k := by
  rw [nextCoordinate_eq ha]
  cases right <;> simp <;> split <;> omega

theorem ahead_self (ha : a < k) : ahead k a a = 0 := by simp [ahead_eq ha ha]

/-- A step leaves one less. -/
theorem wayLeft_next (ha : a < k) (hb : b < k) (hne : a ≠ b) (right : Bool) :
    wayLeft k right (nextCoordinate k right a) b + 1 = wayLeft k right a b := by
  have hnext := nextCoordinate_lt ha right
  rw [nextCoordinate_eq ha] at hnext ⊢
  cases right with
  | true =>
      simp only [wayLeft, if_true] at hnext ⊢
      rw [ahead_eq hnext hb, ahead_eq ha hb]
      split <;> split <;> split <;> omega
  | false =>
      simp only [wayLeft, Bool.false_eq_true, if_false] at hnext ⊢
      rw [ahead_eq hb hnext, ahead_eq hb ha]
      split <;> split <;> split <;> omega

/-- Both ways together go once around. -/
theorem wayLeft_add (ha : a < k) (hb : b < k) (hne : a ≠ b) (right : Bool) :
    wayLeft k right a b + wayLeft k (!right) a b = k := by
  cases right <;> simp only [wayLeft, Bool.not_true, Bool.not_false, if_true, Bool.false_eq_true,
    if_false] <;> rw [ahead_eq ha hb, ahead_eq hb ha] <;> split <;> split <;> omega

/-- A way that is not longer than half of the ring is the distance. -/
theorem ringDistance_eq (ha : a < k) (hb : b < k) (hne : a ≠ b) {right : Bool}
    (hshort : 2 * wayLeft k right a b ≤ k) : ringDistance k a b = wayLeft k right a b := by
  have hround := wayLeft_add ha hb hne right
  cases right with
  | true => exact min_eq_left (by simp [wayLeft] at hround hshort; omega)
  | false => exact min_eq_right (by simp [wayLeft] at hround hshort; omega)

theorem dist2_eq (ha : a < k) : dist2 k a b = k - 2 * (ahead k a b : Int) := by
  unfold dist2 ahead
  rw [Int.natCast_mod, Nat.cast_add, Nat.cast_sub ha.le]
  congr 3
  ring

/-- The direction that is chosen is a shorter one. -/
theorem torusRight_shorter (ha : a < k) (hb : b < k) (hne : a ≠ b) (drawn : Nat) :
    2 * wayLeft k (torusRight k a b drawn) a b ≤ k := by
  have hround := wayLeft_add ha hb hne true
  simp only [wayLeft, if_true, Bool.not_true, Bool.false_eq_true, if_false] at hround
  have hdist := dist2_eq (b := b) ha
  cases hright : torusRight k a b drawn with
  | true =>
      have hnonneg : 0 ≤ dist2 k a b := by
        simp only [torusRight, Bool.or_eq_true, Bool.and_eq_true, decide_eq_true_eq] at hright
        omega
      simp only [wayLeft, if_true]
      omega
  | false =>
      have hnonpos : dist2 k a b ≤ 0 := by
        simp only [torusRight, Bool.or_eq_false_iff, decide_eq_false_iff_not] at hright
        omega
      simp only [wayLeft, Bool.false_eq_true, if_false]
      omega

end Ring

/-! ### The port -/

/-- The first dimension in which two routers differ. -/
structure Differs (c : Cube) (cur dest dim : Nat) : Prop where
  dim_lt : dim < c.gN
  ne : coordinate c.gK cur dim ≠ coordinate c.gK dest dim
  before : ∀ j < dim, coordinate c.gK cur j = coordinate c.gK dest j

theorem Differs.le {cur dest dim' : Nat} (h : c.Differs cur dest dim)
    (hne : coordinate c.gK cur dim' ≠ coordinate c.gK dest dim') : dim ≤ dim' := by
  by_contra hlt
  exact hne (h.before dim' (not_le.mp hlt))

theorem exists_differs {cur dest : Nat} (hcur : cur < c.gNodes) (hdest : dest < c.gNodes)
    (hne : cur ≠ dest) : ∃ dim, c.Differs cur dest dim := by
  have hdiffer : ∃ dim, dim < c.gN ∧ coordinate c.gK cur dim ≠ coordinate c.gK dest dim := by
    by_contra hsame
    refine hne (eq_of_coordinates hcur hdest fun dim hdim => ?_)
    by_contra hcoordinate
    exact hsame ⟨dim, hdim, hcoordinate⟩
  classical
  refine ⟨Nat.find hdiffer, (Nat.find_spec hdiffer).1, (Nat.find_spec hdiffer).2, fun j hj => ?_⟩
  by_contra hcoordinate
  exact Nat.find_min hdiffer hj ⟨hj.trans (Nat.find_spec hdiffer).1, hcoordinate⟩

/-- The loop finds it. -/
theorem torusDimension_eq {left dimLeft cur dest : Nat} (hdim : dim < left)
    (hne : coordinate k cur dim ≠ coordinate k dest dim)
    (hbefore : ∀ j < dim, coordinate k cur j = coordinate k dest j) :
    torusDimension k left dimLeft cur dest = (dimLeft + dim, cur / k ^ dim, dest / k ^ dim) := by
  induction left generalizing dimLeft dim cur dest with
  | zero => exact absurd hdim (Nat.not_lt_zero _)
  | succ left ih =>
      rw [torusDimension]
      cases dim with
      | zero =>
          rw [coordinate_zero, coordinate_zero] at hne
          rw [if_pos hne]
          simp
      | succ dim =>
          have hsame := hbefore 0 (Nat.succ_pos dim)
          rw [coordinate_zero, coordinate_zero] at hsame
          rw [if_neg (not_not.mpr hsame)]
          have hrest : torusDimension k left (dimLeft + 1) (cur / k) (dest / k) =
              (dimLeft + 1 + dim, cur / k / k ^ dim, dest / k / k ^ dim) := ih
            (Nat.lt_of_succ_lt_succ hdim)
            (by rwa [← coordinate_succ, ← coordinate_succ])
            (fun j hj => by
              rw [← coordinate_succ, ← coordinate_succ]
              exact hbefore (j + 1) (Nat.succ_lt_succ hj))
          rw [hrest, Nat.div_div_eq_div_mul, Nat.div_div_eq_div_mul, pow_succ', Nat.add_assoc,
            Nat.add_comm 1 dim]

theorem torusDimension_self (left dimLeft cur : Nat) :
    (torusDimension k left dimLeft cur cur).1 = dimLeft + left := by
  induction left generalizing dimLeft cur with
  | zero => rfl
  | succ left ih =>
      rw [torusDimension, if_neg (by simp), ih]
      omega

theorem dorNextTorus_self (balance : Bool) (draw : Nat → Nat) (cur : Nat) (inPort : Int) :
    c.dorNextTorus balance draw cur cur inPort = ((2 * c.gN : Int), none) := by
  have hlast := torusDimension_self (k := c.gK) c.gN 0 cur
  unfold dorNextTorus
  split
  next dimLeft _ _ heq =>
    rw [heq] at hlast
    exact if_neg (by simp at hlast; omega)

/-- A packet turns, or goes straight on. -/
theorem dorNextTorus_eq {cur dest : Nat} (h : c.Differs cur dest dim) (balance : Bool)
    (draw : Nat → Nat) (inPort : Int) :
    (inPort / 2 = dim ∧
      c.dorNextTorus balance draw cur dest inPort = (CubeCall.opposite inPort, none)) ∨
    inPort / 2 ≠ dim ∧ ∃ drawn ∈ ({draw 0, draw 1} : Set Nat), ∃ right,
      right = torusRight c.gK (coordinate c.gK cur dim) (coordinate c.gK dest dim) (draw 0) ∧
      c.dorNextTorus balance draw cur dest inPort = (directionPort dim right,
        some (torusPartition balance c.gK right (coordinate c.gK cur dim)
          (coordinate c.gK dest dim) drawn)) := by
  unfold dorNextTorus
  rw [torusDimension_eq h.dim_lt h.ne h.before]
  simp only [Nat.zero_add, if_pos h.dim_lt]
  by_cases hin : inPort / 2 = dim
  · exact .inl ⟨hin, if_neg (not_not.mpr hin)⟩
  · rw [if_pos hin]
    refine .inr ⟨hin, _, ?_, _, rfl, rfl⟩
    split <;> simp

end Cube

/-! ### Packets -/

/-- What stays the same of a packet on its way through a cube. -/
structure CubePacket (c : Cube) where
  type : FlitType
  dest : Fin c.gNodes

/-- Where a packet is: its router, the buffer it is in, and `f->ph`. -/
structure CubeSpot (c : Cube) where
  router : Fin c.gNodes
  inChannel : Int
  vc : Int
  ph : Int

/-- A call for a packet that is not being injected; `RandomInt( 1 )` is 0 or 1. -/
structure CubeCall.For {c : Cube} (call : CubeCall c) (config : RoutingConfig) (pkt : CubePacket c)
    (s : CubeSpot c) : Prop where
  config : call.config = config
  type : call.f.type = pkt.type
  dest : call.f.dest = pkt.dest
  id : call.id = s.router
  inChannel : call.inChannel = s.inChannel
  vc : call.f.vc = s.vc
  ph : call.f.ph = s.ph
  inject : call.inject = false
  draw : ∀ i, call.draw i ≤ 1

/-- A call for a packet, with free buffers everywhere and 0 for every draw. -/
def CubeSpot.call {c : Cube} (s : CubeSpot c) (config : RoutingConfig) (pkt : CubePacket c) :
    CubeCall c where
  config := config
  id := s.router
  f := ⟨pkt.type, s.vc, s.router, pkt.dest, s.ph, 0⟩
  inChannel := s.inChannel
  inject := false
  freeCredit _ := 0
  usedCredit _ := 0
  isFaultyOutput _ := false
  draw _ := 0

theorem CubeSpot.call_for {c : Cube} (s : CubeSpot c) (config : RoutingConfig)
    (pkt : CubePacket c) : (s.call config pkt).For config pkt s :=
  ⟨rfl, rfl, rfl, rfl, rfl, rfl, rfl, rfl, fun _ => Nat.zero_le _⟩

namespace CubeCall

variable {c : Cube}

/-- A packet goes on from a call of `dim_order_torus` or `dim_order_bal_torus`: over an
offered port to the router that it feeds, into an offered virtual channel. -/
def Takes (call : CubeCall c) (balance : Bool) (s : CubeSpot c) : Prop :=
  ∃ offers offer, call.routeTorus balance = some (offers, s.ph) ∧ offer ∈ offers ∧
    c.Feeds call.id offer.outputPort s.router s.inChannel ∧
    offer.vcStart ≤ s.vc ∧ s.vc ≤ offer.vcEnd

end CubeCall

namespace Torus

variable (c : Cube) (config : RoutingConfig) (balance : Bool) (pkt : CubePacket c)

/-- One hop of a packet. -/
def Hop (s s' : CubeSpot c) : Prop :=
  ∃ call : CubeCall c, call.For config pkt s ∧ call.Takes balance s'

/-- A packet that has been injected. -/
structure Source (s : CubeSpot c) : Prop where
  inChannel : s.inChannel = 2 * c.gN
  vcBegin_le : (config.vcs pkt.type).vcBegin ≤ s.vc
  le_vcEnd : s.vc ≤ (config.vcs pkt.type).vcEnd

/-- Where a packet can be after so many hops. -/
abbrev Route (source : CubeSpot c) : Nat → CubeSpot c → Prop :=
  Progress.Walk (Hop c config balance pkt) source

end Torus

end Flyover
