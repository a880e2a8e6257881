import Flyover.Dateline.Ring
import Flyover.Mesh

/-!
# The NoRD ring

Each router picks the two ports that connect it to the ring, and its number on
the ring, from its own column and row: along the top row to the east, then down
and up the columns back to the west. The columns pair up if their number is
even. Nothing rejects an odd number; then the last column has no way up, and
its router at the bottom is left out.
-/

namespace Flyover

variable {k : Nat}

/-- The ring ports of a router. -/
structure RingPorts where
  ringInPort : Port
  ringOutPort : Port
  deriving DecidableEq, Repr

namespace Node

/-- `NoRDRouter::NoRDRouter`: `_ring_in_port` and `_ring_out_port` -/
def ringPorts (n : Node k) : RingPorts :=
  if n.val = 0 then ⟨.south, .east⟩
  else if n.val = k - 1 then ⟨.west, .south⟩
  else if n.y = 1 ∧ n.x % 2 = 1 ∧ n.x < k - 1 then ⟨.east, .south⟩
  else if n.y = 1 ∧ n.x % 2 = 0 ∧ n.x > 0 then ⟨.south, .west⟩
  else if n.y = k - 1 ∧ n.x % 2 = 0 then ⟨.east, .north⟩
  else if n.y = k - 1 ∧ n.x % 2 = 1 then ⟨.north, .west⟩
  else if n.y = 0 then ⟨.west, .east⟩
  else if n.x % 2 = 0 then ⟨.south, .north⟩
  else ⟨.north, .south⟩

/-- `_ring_in_port` -/
def ringInPort (n : Node k) : Port := n.ringPorts.ringInPort

/-- `GetRingOutput()` -/
def ringOutput (n : Node k) : Port := n.ringPorts.ringOutPort

/-- `GetRingID()` -/
def ringID (n : Node k) : Nat :=
  if n.y = 0 then n.val
  else if n.x % 2 = 1 then (k - n.x) * (k - 1) + n.y
  else (k - n.x) * (k - 1) + (k - n.y)

/-- `GetRingOutputChannel()->GetSink()` -/
def ringNext (n : Node k) : Node k := n.neighbor n.ringOutput

theorem val_eq_zero_iff (n : Node k) : n.val = 0 ↔ n.y = 0 ∧ n.x = 0 := by
  have hval := n.val_eq
  constructor
  · intro hzero
    rw [hzero] at hval
    have hrow : k * n.y = 0 := by omega
    rcases Nat.mul_eq_zero.mp hrow with hk | hy
    · exact absurd n.pos (by omega)
    · exact ⟨hy, by omega⟩
  · rintro ⟨hy, hx⟩
    rw [hval, hy, hx]
    rfl

theorem val_eq_last_iff (n : Node k) : n.val = k - 1 ↔ n.y = 0 ∧ n.x = k - 1 := by
  have hval := n.val_eq
  have hx := n.x_lt
  constructor
  · intro hlast
    have hy : n.y = 0 := Nat.div_eq_of_lt (by omega)
    rw [hy, Nat.mul_zero] at hval
    exact ⟨hy, by omega⟩
  · rintro ⟨hy, hlast⟩
    rw [hval, hy, hlast, Nat.mul_zero, Nat.zero_add]

theorem square_eq (n : Node k) : k * k = k * (k - 1) + k := by
  have hk := n.pos
  calc k * k = k * (k - 1 + 1) := by rw [Nat.sub_add_cancel hk]
    _ = k * (k - 1) + k := by rw [Nat.mul_add, Nat.mul_one]

theorem ringID_of_top {n : Node k} (h : n.y = 0) : n.ringID = n.x := by
  have hval := n.val_eq
  rw [h, Nat.mul_zero, Nat.zero_add] at hval
  rw [ringID, if_pos h, hval]

/-- How far down or up its column the ring has come at a router below the top row. -/
def ringDepth (n : Node k) : Nat := if n.x % 2 = 1 then n.y else k - n.y

theorem ringID_of_below {n : Node k} (h : n.y ≠ 0) :
    n.ringID = (k - n.x) * (k - 1) + n.ringDepth := by
  rw [ringID, if_neg h, ringDepth]
  split <;> rfl

theorem ringDepth_bounds {n : Node k} (h : n.y ≠ 0) : 0 < n.ringDepth ∧ n.ringDepth ≤ k - 1 := by
  have hy := n.y_lt
  unfold ringDepth
  split <;> omega

theorem ringDepth_inj {n m : Node k} (hx : n.x = m.x) (h : n.ringDepth = m.ringDepth) :
    n.y = m.y := by
  have hn := n.y_lt
  have hm := m.y_lt
  unfold ringDepth at h
  rw [hx] at h
  split at h <;> omega

theorem ringID_lt (n : Node k) : n.ringID < k * k := by
  by_cases htop : n.y = 0
  · rw [ringID, if_pos htop]
    exact n.isLt
  · have hcolumn : (k - n.x) * (k - 1) ≤ k * (k - 1) := Nat.mul_le_mul_right _ (Nat.sub_le _ _)
    have hdepth := ringDepth_bounds htop
    rw [ringID_of_below htop, n.square_eq]
    have hk := n.pos
    omega

/-- The columns have separate ranges of numbers below the top row. -/
theorem ringID_column_lt {n m : Node k} (hn : n.y ≠ 0) (hm : m.y ≠ 0) (hx : m.x < n.x) :
    n.ringID < m.ringID := by
  have hnx := n.x_lt
  have hcolumn : (k - n.x + 1) * (k - 1) ≤ (k - m.x) * (k - 1) :=
    Nat.mul_le_mul_right _ (by omega)
  rw [Nat.add_mul, Nat.one_mul] at hcolumn
  have hdepth := ringDepth_bounds hn
  have hdepth' := ringDepth_bounds hm
  rw [ringID_of_below hn, ringID_of_below hm]
  omega

theorem top_lt_below {n m : Node k} (hn : n.y = 0) (hm : m.y ≠ 0) : n.ringID < m.ringID := by
  have hnx := n.x_lt
  have hmx := m.x_lt
  have hdepth := ringDepth_bounds hm
  have hcolumn : 1 * (k - 1) ≤ (k - m.x) * (k - 1) := Nat.mul_le_mul_right _ (by omega)
  rw [ringID_of_top hn, ringID_of_below hm]
  omega

/-- The ring numbers are different, also where there is no ring. -/
theorem ringID_injective : Function.Injective (ringID (k := k)) := by
  intro n m heq
  by_cases hn : n.y = 0
  · by_cases hm : m.y = 0
    · rw [ringID_of_top hn, ringID_of_top hm] at heq
      exact ext_xy heq (hn.trans hm.symm)
    · exact absurd heq (Nat.ne_of_lt (top_lt_below hn hm))
  · by_cases hm : m.y = 0
    · exact absurd heq (Nat.ne_of_gt (top_lt_below hm hn))
    · rcases Nat.lt_trichotomy n.x m.x with hlt | hx | hgt
      · exact absurd heq (Nat.ne_of_gt (ringID_column_lt hm hn hlt))
      · refine ext_xy hx (ringDepth_inj hx ?_)
        rw [ringID_of_below hn, ringID_of_below hm, hx] at heq
        omega
      · exact absurd heq (Nat.ne_of_lt (ringID_column_lt hn hm hgt))

theorem ringID_eq_zero_iff (n : Node k) : n.ringID = 0 ↔ n.y = 0 ∧ n.x = 0 := by
  by_cases htop : n.y = 0
  · rw [ringID_of_top htop]
    exact ⟨fun hx => ⟨htop, hx⟩, And.right⟩
  · have hdepth := ringDepth_bounds htop
    rw [ringID_of_below htop]
    exact ⟨fun hzero => by omega, fun h => absurd h.1 htop⟩

section Even

variable (hk : k % 2 = 0)

include hk

/-- Where the ring goes from a router: along the top row, down an odd column, to
the next column at the bottom or in row 1, or up an even column. -/
theorem ringOutput_cases (n : Node k) :
    n.y = 0 ∧ n.x < k - 1 ∧ n.ringOutput = .east ∨
    n.x % 2 = 1 ∧ n.y < k - 1 ∧ (n.y = 0 → n.x = k - 1) ∧ n.ringOutput = .south ∨
    0 < n.x ∧ n.y ≠ 0 ∧ n.ringDepth = k - 1 ∧ (n.x % 2 = 0 → n.y = 1) ∧ n.ringOutput = .west ∨
    n.x % 2 = 0 ∧ 0 < n.y ∧ (n.y = 1 → n.x = 0) ∧ n.ringOutput = .north := by
  have hx := n.x_lt
  have hy := n.y_lt
  simp only [ringOutput, ringPorts, val_eq_zero_iff, val_eq_last_iff, ringDepth]
  split_ifs <;> simp only [and_false, and_true, false_or, or_false] <;> omega

theorem ringInPort_west {n : Node k} (hy : n.y = 0) (hx : 0 < n.x) : n.ringInPort = .west := by
  have hk' := n.x_lt
  simp only [ringInPort, ringPorts, val_eq_zero_iff, val_eq_last_iff]
  split_ifs <;> first | rfl | omega

theorem ringInPort_north {n : Node k} (hx : n.x % 2 = 1) (hy : 0 < n.y)
    (htop : n.y = 1 → n.x = k - 1) : n.ringInPort = .north := by
  have hk' := n.x_lt
  simp only [ringInPort, ringPorts, val_eq_zero_iff, val_eq_last_iff]
  split_ifs <;> first | rfl | omega

theorem ringInPort_east {n : Node k} (hx : n.x < k - 1) (hy : 0 < n.y) (hdepth : n.ringDepth = 1)
    (hfirst : n.y = 1 → n.x % 2 = 0 → n.x = 0) : n.ringInPort = .east := by
  have hy' := n.y_lt
  simp only [ringInPort, ringPorts, val_eq_zero_iff, val_eq_last_iff]
  unfold ringDepth at hdepth
  split_ifs <;> first | rfl | (split at hdepth <;> omega)

omit hk in
theorem ringInPort_south {n : Node k} (hx : n.x % 2 = 0) (hy : n.y < k - 1)
    (htop : n.y = 0 → n.x = 0) : n.ringInPort = .south := by
  have hk' := n.x_lt
  simp only [ringInPort, ringPorts, val_eq_zero_iff, val_eq_last_iff]
  split_ifs <;> first | rfl | omega

/-- What the ring output of a router leads to. -/
structure RingLink (n : Node k) : Prop where
  inner : n.edge n.ringOutput = false
  arrives : n.ringNext.ringInPort = n.ringOutput.opp
  step : n.ringNext.ringID = (n.ringID + 1) % (k * k)

theorem ringLink (n : Node k) : n.RingLink := by
  have hx := n.x_lt
  have hy := n.y_lt
  have hcol : n.val % k = n.x := rfl
  have hrow : n.val / k = n.y := rfl
  -- the number goes up by one, except at the end of the first column
  have hup : n.ringNext.ringID = n.ringID + 1 → n.ringNext.ringID = (n.ringID + 1) % (k * k) := by
    intro hstep
    rw [Nat.mod_eq_of_lt (hstep ▸ n.ringNext.ringID_lt), hstep]
  rcases n.ringOutput_cases hk with ⟨htop, hbefore, hout⟩ | ⟨hodd, hnot, hlast, hout⟩ |
    ⟨hleft, hbelow, hdepth, hfirst, hout⟩ | ⟨heven, hbelow, hfirst, hout⟩
  case inl =>
    have hnx : n.ringNext.x = n.x + 1 := by
      rw [ringNext, hout, neighbor_x, neighborX, if_neg (by omega)]
    have hny : n.ringNext.y = 0 := by
      rw [ringNext, hout, neighbor_y, neighborY, htop]
    refine ⟨?_, ?_, hup ?_⟩
    · rw [hout, edge, hcol, decide_eq_false_iff_not]
      omega
    · rw [hout, ringInPort_west hk hny (by omega)]
      rfl
    · rw [ringID_of_top hny, ringID_of_top htop, hnx]
  case inr.inl =>
    have hnx : n.ringNext.x = n.x := by
      rw [ringNext, hout, neighbor_x, neighborX]
    have hny : n.ringNext.y = n.y + 1 := by
      rw [ringNext, hout, neighbor_y, neighborY, if_neg (by omega)]
    refine ⟨?_, ?_, hup ?_⟩
    · rw [hout, edge, hrow, decide_eq_false_iff_not]
      omega
    · rw [hout, ringInPort_north hk (by omega) (by omega) (by omega)]
      rfl
    · rw [ringID_of_below (n := n.ringNext) (by omega), ringDepth, hnx, hny, if_pos hodd]
      by_cases htop : n.y = 0
      · rw [ringID_of_top htop, htop, hlast htop]
        have hone : k - (k - 1) = 1 := by omega
        rw [hone, Nat.one_mul]
      · rw [ringID_of_below htop, ringDepth, if_pos hodd, Nat.add_assoc]
  case inr.inr.inl =>
    have hnx : n.ringNext.x = n.x - 1 := by
      rw [ringNext, hout, neighbor_x, neighborX, if_neg (by omega)]
    have hny : n.ringNext.y = n.y := by
      rw [ringNext, hout, neighbor_y, neighborY]
    have hstart : n.ringNext.ringDepth = 1 := by
      unfold ringDepth at hdepth ⊢
      rw [hnx, hny]
      split at hdepth <;> split <;> omega
    have hbottom : n.x % 2 = 1 → n.y = k - 1 := by
      intro hodd
      rwa [ringDepth, if_pos hodd] at hdepth
    refine ⟨?_, ?_, hup ?_⟩
    · rw [hout, edge, hcol, decide_eq_false_iff_not]
      omega
    · rw [hout, ringInPort_east hk (by omega) (by omega) hstart (by omega)]
      rfl
    · have hcolumn : k - (n.x - 1) = k - n.x + 1 := by omega
      rw [ringID_of_below (n := n.ringNext) (by omega), ringID_of_below hbelow, hstart, hdepth,
        hnx, hcolumn, Nat.add_mul, Nat.one_mul]
  case inr.inr.inr =>
    have hnx : n.ringNext.x = n.x := by
      rw [ringNext, hout, neighbor_x, neighborX]
    have hny : n.ringNext.y = n.y - 1 := by
      rw [ringNext, hout, neighbor_y, neighborY, if_neg (by omega)]
    refine ⟨?_, ?_, ?_⟩
    · rw [hout, edge, hrow, decide_eq_false_iff_not]
      omega
    · rw [hout, ringInPort_south (by omega) (by omega) (by omega)]
      rfl
    · have hnotodd : ¬ n.x % 2 = 1 := by omega
      by_cases htop : n.y = 1
      · have hend : n.ringID + 1 = k * k := by
          rw [ringID_of_below (by omega), ringDepth, if_neg hnotodd, hfirst htop, htop, n.square_eq,
            Nat.sub_zero]
          omega
        rw [hend, Nat.mod_self, ringID_of_top (by omega), hnx, hfirst htop]
      · apply hup
        rw [ringID_of_below (n := n.ringNext) (by omega), ringID_of_below (by omega), ringDepth,
          ringDepth, hnx, hny, if_neg hnotodd, if_neg hnotodd]
        omega

end Even

end Node

/-- The routers form a ring: each sends over a mesh link to the port at which the
next one expects it, one cycle goes through all of them, and the ring numbers are
those of a single turn. -/
structure FormsRing (k : Nat) : Prop where
  links : ∀ n : Node k, n.edge n.ringOutput = false
  arrives : ∀ n : Node k, n.ringNext.ringInPort = n.ringOutput.opp
  cycle : ∀ n m : Node k, ∃ i < k * k, Node.ringNext^[i] n = m
  closes : ∀ n : Node k, Node.ringNext^[k * k] n = n
  lt : ∀ n : Node k, n.ringID < k * k
  injective : Function.Injective (Node.ringID (k := k))
  surjective : ∀ i < k * k, ∃ n : Node k, n.ringID = i
  dateline : ∃ last : Node k, ∀ n : Node k, n.ringNext.ringID = n.ringID + 1 ↔ n ≠ last

theorem Node.ringID_final (hk : 2 ≤ k) :
    (Node.ofXY 0 1 (by omega) (by omega) : Node k).ringID + 1 = k * k := by
  have hsquare := (Node.ofXY 0 1 (by omega) (by omega) : Node k).square_eq
  rw [Node.ringID_of_below (by rw [ofXY_y]; decide), ringDepth, ofXY_x, ofXY_y, if_neg (by decide),
    hsquare, Nat.sub_zero]
  omega

/-- With an odd number of columns the ring turns down an even column. -/
theorem Node.ringID_next_corner (hk : 2 ≤ k) (hodd : ¬ k % 2 = 0) :
    (Node.ofXY (k - 1) 0 (by omega) (by omega) : Node k).ringNext.ringID = 2 * (k - 1) := by
  have hcorner : (Node.ofXY (k - 1) 0 (by omega) (by omega) : Node k).ringOutput = .south := by
    have hnotfirst : ¬ k - 1 = 0 := by omega
    simp only [ringOutput, ringPorts, val_eq_zero_iff, val_eq_last_iff, ofXY_x, ofXY_y, hnotfirst,
      and_false, if_false, and_self, if_true]
  have hx : (Node.ofXY (k - 1) 0 (by omega) (by omega) : Node k).ringNext.x = k - 1 := by
    rw [ringNext, hcorner, neighbor_x, neighborX, ofXY_x]
  have hy : (Node.ofXY (k - 1) 0 (by omega) (by omega) : Node k).ringNext.y = 1 := by
    rw [ringNext, hcorner, neighbor_y, neighborY, ofXY_y, if_neg (by omega)]
  have hone : k - (k - 1) = 1 := by omega
  rw [ringID_of_below (by omega), ringDepth, hx, hy, if_neg (by omega), hone]
  omega

/-- The ring numbers of an even mesh. -/
theorem ring_of_even (hk : k % 2 = 0) :
    Dateline.Ring (Node.ringNext (k := k)) Node.ringID (k * k) where
  lt := Node.ringID_lt
  injective := Node.ringID_injective
  step := fun n => (n.ringLink hk).step

/-- The constructors form a ring exactly when the mesh has an even number of columns. -/
theorem formsRing_iff (hk : 2 ≤ k) : FormsRing k ↔ k % 2 = 0 := by
  have hpos : 0 < k * k := Nat.mul_pos (by omega) (by omega)
  constructor
  · intro hring
    by_contra hodd
    obtain ⟨last, hlast⟩ := hring.dateline
    -- the numbers end in the first column
    have hfinal : Node.ofXY 0 1 (by omega) (by omega) = last := by
      by_contra hne
      have hstep := (hlast _).mpr hne
      have hlt := hring.lt (Node.ringNext (Node.ofXY 0 1 (by omega) (by omega)))
      rw [hstep, Node.ringID_final hk] at hlt
      exact Nat.lt_irrefl _ hlt
    -- and they jump at the end of the top row
    have hstep := (hlast (Node.ofXY (k - 1) 0 (by omega) (by omega))).mpr (by
      rw [← hfinal]
      intro heq
      have hrows := congrArg Node.y heq
      rw [Node.ofXY_y, Node.ofXY_y] at hrows
      cases hrows)
    rw [Node.ringID_next_corner hk hodd, Node.ringID_of_top (Node.ofXY_y _ _), Node.ofXY_x] at hstep
    omega
  · intro heven
    have hnonempty : Nonempty (Node k) := ⟨⟨0, hpos⟩⟩
    have hring := ring_of_even heven
    exact
      { links := fun n => (n.ringLink heven).inner
        arrives := fun n => (n.ringLink heven).arrives
        cycle := hring.reaches
        closes := hring.iterate_size
        lt := hring.lt
        injective := hring.injective
        surjective := fun i hi => hring.exists_number hi
        dateline := hring.exists_dateline }

theorem formsRing_four : FormsRing 4 := (formsRing_iff (by decide)).mpr (by decide)

/-- In the 3 by 3 mesh the ring goes round without router 8. -/
theorem not_formsRing_three : ¬ FormsRing 3 := by
  intro hring
  obtain ⟨i, hi, hcycle⟩ := hring.cycle 0 8
  revert i
  decide

end Flyover
