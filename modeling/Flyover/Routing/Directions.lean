import Flyover.Routing.Map
import Flyover.Routing.Function
import Flyover.Routing.TurnModel

/-!
# Directions towards a destination

What dimension-order directions achieve over a power map: where the packet
lands, and that it does not fly past its destination in the row or the column
that it shares with it.
-/

namespace Flyover

variable {k : Nat}

namespace Node

theorem xyPort_cases {n m : Node k} (h : n ≠ m) :
    n.x < m.x ∧ n.xyPort m = .east ∨ m.x < n.x ∧ n.xyPort m = .west ∨
      n.x = m.x ∧ n.y < m.y ∧ n.xyPort m = .south ∨
      n.x = m.x ∧ m.y < n.y ∧ n.xyPort m = .north := by
  unfold xyPort sidePort
  by_cases hx : n.x = m.x
  · have hy : n.y ≠ m.y := fun hy => h (ext_xy hx hy)
    by_cases hlt : n.y < m.y
    · simp [hx, hlt]
    · have hgt : m.y < n.y := by omega
      simp [hx, hlt, hgt]
  · by_cases hlt : n.x < m.x
    · simp [hx, hlt]
    · have hgt : m.x < n.x := by omega
      simp [hx, hlt, hgt]

theorem yxPort_cases {n m : Node k} (h : n ≠ m) :
    n.y < m.y ∧ n.yxPort m = .south ∨ m.y < n.y ∧ n.yxPort m = .north ∨
      n.y = m.y ∧ n.x < m.x ∧ n.yxPort m = .east ∨
      n.y = m.y ∧ m.x < n.x ∧ n.yxPort m = .west := by
  unfold yxPort sidePort
  by_cases hy : n.y = m.y
  · have hx : n.x ≠ m.x := fun hx => h (ext_xy hx hy)
    by_cases hlt : n.x < m.x
    · simp [hy, hlt]
    · have hgt : m.x < n.x := by omega
      simp [hy, hlt, hgt]
  · by_cases hlt : n.y < m.y
    · simp [hy, hlt]
    · have hgt : m.y < n.y := by omega
      simp [hy, hlt, hgt]

/-- In the row or the column of `m` both orders give the direction to it. -/
theorem ahead_xyPort {n m : Node k} (h : n ≠ m) (hstraight : ¬ n.Diagonal m) :
    n.Ahead m (n.xyPort m) := by
  unfold Diagonal at hstraight
  rcases xyPort_cases h with ⟨hlt, hp⟩ | ⟨hlt, hp⟩ | ⟨hx, hlt, hp⟩ | ⟨hx, hlt, hp⟩ <;> rw [hp]
  · exact ⟨by omega, hlt⟩
  · exact ⟨by omega, hlt⟩
  · exact ⟨hx.symm, hlt⟩
  · exact ⟨hx.symm, hlt⟩

theorem yxPort_eq_xyPort {n m : Node k} (h : n ≠ m) (hstraight : ¬ n.Diagonal m) :
    n.yxPort m = n.xyPort m := by
  unfold Diagonal at hstraight
  rcases xyPort_cases h with ⟨hlt, hp⟩ | ⟨hlt, hp⟩ | ⟨hx, hlt, hp⟩ | ⟨hx, hlt, hp⟩ <;>
    rcases yxPort_cases h with ⟨hlt', hq⟩ | ⟨hlt', hq⟩ | ⟨hy, hlt', hq⟩ | ⟨hy, hlt', hq⟩ <;>
    first | omega | rw [hp, hq]

theorem xyPort_of_diagonal {n m : Node k} (h : n.Diagonal m) :
    n.x < m.x ∧ n.xyPort m = .east ∨ m.x < n.x ∧ n.xyPort m = .west := by
  have hne : n ≠ m := fun heq => h.1 (congrArg Node.x heq)
  rcases xyPort_cases hne with hp | hp | ⟨hx, -⟩ | ⟨hx, -⟩
  · exact .inl hp
  · exact .inr hp
  · exact absurd hx h.1
  · exact absurd hx h.1

theorem yxPort_of_diagonal {n m : Node k} (h : n.Diagonal m) :
    n.y < m.y ∧ n.yxPort m = .south ∨ m.y < n.y ∧ n.yxPort m = .north := by
  have hne : n ≠ m := fun heq => h.1 (congrArg Node.x heq)
  rcases yxPort_cases hne with hp | hp | ⟨hy, -⟩ | ⟨hy, -⟩
  · exact .inl hp
  · exact .inr hp
  · exact absurd hy h.2
  · exact absurd hy h.2

/-- Away from both the row and the column, the two orders start differently. -/
theorem xyPort_ne_yxPort {n m : Node k} (h : n.Diagonal m) : n.xyPort m ≠ n.yxPort m := by
  rcases xyPort_of_diagonal h with ⟨-, hp⟩ | ⟨-, hp⟩ <;>
    rcases yxPort_of_diagonal h with ⟨-, hq⟩ | ⟨-, hq⟩ <;>
    rw [hp, hq] <;> decide

theorem edge_eq (n : Node k) (p : Port) :
    n.edge p = match p with
      | .east => decide (n.x = k - 1)
      | .west => decide (n.x = 0)
      | .south => decide (n.y = k - 1)
      | .north => decide (n.y = 0) := by
  cases p <;> rfl

/-- Dimension-order directions lead into the mesh. -/
theorem edge_xyPort {n m : Node k} (h : n ≠ m) : n.edge (n.xyPort m) = false := by
  have hmx := m.x_lt
  have hmy := m.y_lt
  rcases xyPort_cases h with ⟨hlt, hp⟩ | ⟨hlt, hp⟩ | ⟨hx, hlt, hp⟩ | ⟨hx, hlt, hp⟩ <;>
    rw [hp, edge_eq, decide_eq_false_iff_not] <;> omega

theorem edge_yxPort {n m : Node k} (h : n ≠ m) : n.edge (n.yxPort m) = false := by
  have hmx := m.x_lt
  have hmy := m.y_lt
  rcases yxPort_cases h with ⟨hlt, hp⟩ | ⟨hlt, hp⟩ | ⟨hy, hlt, hp⟩ | ⟨hy, hlt, hp⟩ <;>
    rw [hp, edge_eq, decide_eq_false_iff_not] <;> omega

/-- The rows and columns between two routers. -/
def hopsTo (n m : Node k) : Nat := (n.x - m.x) + (m.x - n.x) + ((n.y - m.y) + (m.y - n.y))

end Node

namespace PowerMap

variable {map : PowerMap k}

/-- Towards a router in the same row or column that is on there is a landing router. -/
theorem lands_straight {n dest : Node k} (hne : n ≠ dest) (hstraight : ¬ n.Diagonal dest)
    (hon : map.on dest = true) : ∃ m, map.Lands n (n.xyPort dest) m := by
  obtain ⟨m, hm, -⟩ := lands_before (n.ahead_xyPort hne hstraight) hon
  exact ⟨m, hm⟩

theorem lands_neighbor {n : Node k} {p : Port} (hp : n.edge p = false)
    (hon : map.on (n.neighbor p) = true) : map.Lands n p (n.neighbor p) :=
  Node.Nearest.neighbor hp hon

/-- In the bottom row the neighbours along the row are on. -/
theorem on_of_bottomRow {n dest : Node k} (hn : Router.bottomRow n = true)
    (hdiagonal : n.Diagonal dest) : map.on (n.neighbor (n.xyPort dest)) = true := by
  apply map.bottomRow
  rw [Node.bottomRow_iff] at hn ⊢
  rcases Node.xyPort_of_diagonal hdiagonal with ⟨-, hp⟩ | ⟨-, hp⟩ <;>
    rw [hp, Node.neighbor_y, Node.neighborY, hn]

/-- Nothing is passed on the way to the next router. -/
theorem Lands.between_of_straight {n m dest : Node k} (hne : n ≠ dest)
    (hstraight : ¬ n.Diagonal dest) (hon : map.on dest = true)
    (h : map.Lands n (n.xyPort dest) m) : Between n.x m.x dest.x ∧ m.hopsTo dest < n.hopsTo dest := by
  have hahead := n.ahead_xyPort hne hstraight
  have hm := h.ahead
  have hpast := h.not_past hahead hon
  unfold Between Node.hopsTo
  rcases hpast with rfl | hpast
  · rcases hp : n.xyPort m with _ | _ | _ | _ <;> rw [hp] at hm <;> simp only [Node.Ahead] at hm <;>
      omega
  · rcases hp : n.xyPort dest with _ | _ | _ | _ <;> rw [hp] at hm hpast <;>
      simp only [Node.Ahead] at hm hpast <;> omega

/-- The next router along the row. -/
theorem Lands.between_of_next {n m dest : Node k} (hdiagonal : n.Diagonal dest)
    (hon : map.on (n.neighbor (n.xyPort dest)) = true) (h : map.Lands n (n.xyPort dest) m) :
    Between n.x m.x dest.x ∧ m.hopsTo dest < n.hopsTo dest := by
  have hne : n ≠ dest := fun heq => hdiagonal.1 (congrArg Node.x heq)
  have hx := dest.x_lt
  obtain rfl := h.unique (lands_neighbor (Node.edge_xyPort hne) hon)
  unfold Between Node.hopsTo
  rcases Node.xyPort_of_diagonal hdiagonal with ⟨hlt, hp⟩ | ⟨hlt, hp⟩ <;> rw [hp] <;>
    simp only [Node.neighbor_x, Node.neighbor_y, Node.neighborX, Node.neighborY] <;> split <;> omega

/-- The next router along the column. -/
theorem Lands.closer_of_next {n m dest : Node k} (hdiagonal : n.Diagonal dest)
    (hon : map.on (n.neighbor (n.yxPort dest)) = true) (h : map.Lands n (n.yxPort dest) m) :
    m.x = n.x ∧ m.hopsTo dest < n.hopsTo dest := by
  have hne : n ≠ dest := fun heq => hdiagonal.1 (congrArg Node.x heq)
  have hy := dest.y_lt
  obtain rfl := h.unique (lands_neighbor (Node.edge_yxPort hne) hon)
  unfold Node.hopsTo
  rcases Node.yxPort_of_diagonal hdiagonal with ⟨hlt, hp⟩ | ⟨hlt, hp⟩ <;> rw [hp] <;>
    simp only [Node.neighbor_x, Node.neighbor_y, Node.neighborX, Node.neighborY, true_and] <;>
    split <;> omega

end PowerMap

/-- A landing router along the row and not past the column is in the direction of
the destination. -/
theorem PowerMap.Lands.row {map : PowerMap k} {n m dest : Node k} {p : Port}
    (h : map.Lands n p m) (hp : p = .east ∧ m.x ≤ dest.x ∨ p = .west ∧ dest.x ≤ m.x) :
    n.xyPort dest = p ∧ Between n.x m.x dest.x := by
  have hahead := h.ahead
  unfold Node.xyPort sidePort Between
  rcases hp with ⟨rfl, hx⟩ | ⟨rfl, hx⟩ <;> simp only [Node.Ahead] at hahead
  · rw [if_pos (by omega), if_pos rfl, if_pos (by omega)]
    exact ⟨rfl, by omega⟩
  · rw [if_pos (by omega), if_pos rfl, if_neg (by omega)]
    exact ⟨rfl, by omega⟩

/-- The columns and rows of the logical neighbours. -/
theorem Informed.logical_cases {map : PowerMap k} {n : Node k} {r : Router} (h : Informed map n r) (p : Port) :
    (∃ m, map.Lands n p m ∧ r.logicalNeighborX k p = m.x ∧ r.logicalNeighborY k p = m.y) ∨
      r.logicalNeighborX k p = -1 ∧ r.logicalNeighborY k p = -1 := by
  unfold Router.logicalNeighborX Router.logicalNeighborY
  by_cases hlands : ∃ m, map.Lands n p m
  · obtain ⟨m, hm⟩ := hlands
    have hlogical := h.logical p m hm
    have hne : (m.val : Int) ≠ -1 := by omega
    rw [hlogical, if_pos hne, if_pos hne]
    exact .inl ⟨m, hm, rfl, rfl⟩
  · rw [h.nobody p fun m hm => hlands ⟨m, hm⟩]
    exact .inr ⟨rfl, rfl⟩

/-- The direction on the escape channel of `flov_mesh` and `adaptive_flov_mesh`: down
to the row of the destination or the bottom row, along it, and along the column. -/
def Node.escapePort (n dest : Node k) : Port :=
  if Router.bottomRow n = false ∧ n.Diagonal dest then .south else n.xyPort dest

/-- The turns of `escapePort`: none, out of the south, and into the north. -/
inductive RowTurn : Port → Port → Prop
  | straight (p : Port) : RowTurn p p
  | southEast : RowTurn .south .east
  | southWest : RowTurn .south .west
  | eastNorth : RowTurn .east .north
  | westNorth : RowTurn .west .north

namespace PowerMap

variable {map : PowerMap k} {n dest : Node k}

theorem lands_escapePort (hne : n ≠ dest) (hon : map.on dest = true) :
    ∃ m, map.Lands n (n.escapePort dest) m := by
  unfold Node.escapePort
  by_cases hdown : Router.bottomRow n = false ∧ n.Diagonal dest
  · rw [if_pos hdown]
    exact lands_south hdown.1
  · rw [if_neg hdown]
    by_cases hdiagonal : n.Diagonal dest
    · have hbottom : Router.bottomRow n = true :=
        Bool.eq_true_of_not_eq_false fun hnot => hdown ⟨hnot, hdiagonal⟩
      exact ⟨_, lands_neighbor (Node.edge_xyPort hne) (on_of_bottomRow hbottom hdiagonal)⟩
    · exact lands_straight hne hdiagonal hon

theorem escapeStep_xyPort {m : Node k} (h : map.Lands n (n.xyPort dest) m)
    (hcolumn : Between n.x m.x dest.x) : EscapeStep map dest n (n.xyPort dest) m where
  lands := h
  inColumn := by
    intro hx
    rw [Node.xyPort, if_neg (not_not.mpr hx)]
    rfl
  notNorth := by
    intro hx
    rw [Node.xyPort, if_pos hx, sidePort, if_pos rfl]
    split <;> decide
  column := hcolumn

theorem escapeStep_south {m : Node k} (hdiagonal : n.Diagonal dest) (h : map.Lands n .south m) :
    EscapeStep map dest n .south m where
  lands := h
  inColumn := fun hx => absurd hx hdiagonal.1
  notNorth := fun _ => by decide
  column := by
    have hx := h.ahead.1
    unfold Between
    omega

theorem escapeStep_escapePort {m : Node k} (hne : n ≠ dest) (hon : map.on dest = true)
    (h : map.Lands n (n.escapePort dest) m) :
    EscapeStep map dest n (n.escapePort dest) m := by
  unfold Node.escapePort at h ⊢
  by_cases hdown : Router.bottomRow n = false ∧ n.Diagonal dest
  · rw [if_pos hdown] at h ⊢
    exact escapeStep_south hdown.2 h
  · rw [if_neg hdown] at h ⊢
    apply escapeStep_xyPort h
    by_cases hdiagonal : n.Diagonal dest
    · have hbottom : Router.bottomRow n = true :=
        Bool.eq_true_of_not_eq_false fun hnot => hdown ⟨hnot, hdiagonal⟩
      exact (h.between_of_next hdiagonal (on_of_bottomRow hbottom hdiagonal)).1
    · exact (h.between_of_straight hne hdiagonal hon).1

/-- After an escape hop the packet goes on straight or makes one of the four turns. -/
theorem rowTurn_escapePort {m : Node k} (hne : n ≠ dest) (hon : map.on dest = true)
    (h : map.Lands n (n.escapePort dest) m) (hne' : m ≠ dest) :
    RowTurn (n.escapePort dest) (m.escapePort dest) := by
  have hstep := escapeStep_escapePort hne hon h
  have hahead := h.ahead
  have hbetween := hstep.column
  unfold Between at hbetween
  by_cases hcolumn : n.x = dest.x
  · -- in the column of the destination, which stays ahead
    have hm : m.x = dest.x := by omega
    have hpast := (hstep.column_not_past hon hne hcolumn).resolve_left hne'
    have hstraight : ∀ n : Node k, n.x = dest.x → n.escapePort dest = columnPort n dest := by
      intro n hx
      rw [Node.escapePort, if_neg fun hdown => hdown.2.1 hx, Node.xyPort,
        if_neg (not_not.mpr hx)]
      rfl
    have hport : m.escapePort dest = n.escapePort dest := by
      rw [hstraight n hcolumn] at hpast hahead
      rw [hstraight m hm, hstraight n hcolumn]
      unfold columnPort at hpast hahead ⊢
      split at hpast
      next hlt =>
        simp only [Node.Ahead] at hpast
        rw [if_pos hlt, if_pos hpast.2]
      next hge =>
        simp only [Node.Ahead] at hpast
        rw [if_neg hge, if_neg (by omega)]
    rw [hport]
    exact .straight _
  · by_cases hdown : Router.bottomRow n = false ∧ n.Diagonal dest
    · -- down, still beside the column: anything but north may follow
      rw [Node.escapePort, if_pos hdown] at hahead ⊢
      have hm : m.x ≠ dest.x := by
        rw [hahead.1]
        exact hcolumn
      rw [Node.escapePort, Node.xyPort, if_pos hm, sidePort, if_pos rfl]
      split
      · exact .straight _
      · split
        · exact .southEast
        · exact .southWest
    · -- along the row of the destination or the bottom row, and then up
      rw [Node.escapePort, if_neg hdown, Node.xyPort, if_pos hcolumn, sidePort, if_pos rfl]
        at hahead hstep ⊢
      have hrow : m.y = n.y := by
        split at hahead <;> exact hahead.1
      have hlevel : ¬ (Router.bottomRow m = false ∧ m.Diagonal dest) := by
        rintro ⟨hbottom, hdiagonal⟩
        rw [Bool.eq_false_iff, ne_eq, Node.bottomRow_iff, hrow, ← Node.bottomRow_iff,
          ← ne_eq, ← Bool.eq_false_iff] at hbottom
        exact hdown ⟨hbottom, hcolumn, hrow ▸ hdiagonal.2⟩
      by_cases hm : m.x = dest.x
      · have hnorth : ¬ m.y < dest.y := by
          intro hlt
          have hbottom : Router.bottomRow n = true := by
            by_contra hnot
            exact hdown ⟨Bool.eq_false_of_not_eq_true hnot, hcolumn, by omega⟩
          have hdy := dest.y_lt
          rw [Node.bottomRow_iff] at hbottom
          omega
        have hport : m.escapePort dest = .north := by
          rw [Node.escapePort, if_neg hlevel, Node.xyPort, if_neg (not_not.mpr hm), sidePort,
            if_neg one_ne_zero, if_neg hnorth]
        rw [hport]
        split
        · exact .eastNorth
        · exact .westNorth
      · have hport : m.escapePort dest = if m.x < dest.x then .east else .west := by
          rw [Node.escapePort, if_neg hlevel, Node.xyPort, if_pos hm, sidePort, if_pos rfl]
        rw [hport]
        split
        next hlt =>
          rw [if_pos (by omega)]
          exact .straight _
        next hge =>
          rw [if_neg (by omega)]
          exact .straight _

end PowerMap

end Flyover
