import Flyover.Progress.Inevitable
import Flyover.Routing.Map

/-!
# A turn model for flying over routers

The rule that the escape channels of the FLOV routing functions follow, apart
from any of them: in the column of the destination go along it; elsewhere do not
go north, and do not fly past that column. A packet that follows it arrives, and
the channels it takes can be numbered so that every next one is greater.
-/

namespace Flyover

variable {k : Nat}

/-- `b` lies between `a` and `c`. -/
def Between (a b c : Nat) : Prop := a ≤ b ∧ b ≤ c ∨ c ≤ b ∧ b ≤ a

/-- The direction along a column. -/
def columnPort (n dest : Node k) : Port := if n.y < dest.y then .south else .north

/-- The turns between consecutive hops: any into the north, none out of it, and no
reversal along a row. -/
def SafeTurn (p q : Port) : Prop := q = .north ∨ p ≠ .north ∧ (p = .south ∨ q = .south ∨ p = q)

/-- A hop from `n` to `m` by port `p` that the rule allows. -/
structure EscapeStep (map : PowerMap k) (dest n : Node k) (p : Port) (m : Node k) : Prop where
  lands : map.Lands n p m
  inColumn : n.x = dest.x → p = columnPort n dest
  notNorth : n.x ≠ dest.x → p ≠ .north
  column : Between n.x m.x dest.x

namespace PowerMap

variable {map : PowerMap k}

theorem Lands.not_past {n m dest : Node k} {p : Port} (h : map.Lands n p m)
    (hdest : n.Ahead dest p) (hon : map.on dest = true) : m = dest ∨ m.Ahead dest p := by
  obtain ⟨l, hl, hbefore⟩ := lands_before hdest hon
  rwa [h.unique hl]

end PowerMap

/-- The number of hops that are left at most: down, along a row and along the column. -/
def escapeDistance (dest n : Node k) : Nat :=
  if n.x = dest.x then (n.y - dest.y) + (dest.y - n.y)
  else (n.x - dest.x) + (dest.x - n.x) + (k - 1 - n.y) + k

theorem escapeDistance_lt (dest n : Node k) : escapeDistance dest n < 3 * k := by
  have hn := n.x_lt
  have hny := n.y_lt
  have hd := dest.x_lt
  have hdy := dest.y_lt
  unfold escapeDistance
  split <;> omega

namespace EscapeStep

variable {map : PowerMap k} {dest n m : Node k} {p : Port}

theorem ahead_of_column (hne : n ≠ dest) (hcolumn : n.x = dest.x) :
    n.Ahead dest (columnPort n dest) := by
  have hrow : n.y ≠ dest.y := fun hrow => hne (Node.ext_xy hcolumn hrow)
  unfold columnPort
  split
  next hlt => exact ⟨hcolumn.symm, hlt⟩
  next hge => exact ⟨hcolumn.symm, by omega⟩

/-- In the column the packet does not fly past its destination. -/
theorem column_not_past (h : EscapeStep map dest n p m) (hon : map.on dest = true)
    (hne : n ≠ dest) (hcolumn : n.x = dest.x) : m = dest ∨ m.Ahead dest p := by
  have hahead := ahead_of_column hne hcolumn
  rw [← h.inColumn hcolumn] at hahead
  exact h.lands.not_past hahead hon

theorem closer (h : EscapeStep map dest n p m) (hon : map.on dest = true) (hne : n ≠ dest) :
    escapeDistance dest m < escapeDistance dest n := by
  have hmy := m.y_lt
  have hdy := dest.y_lt
  have hahead := h.lands.ahead
  by_cases hcolumn : n.x = dest.x
  · have hpast := h.column_not_past hon hne hcolumn
    have hport := h.inColumn hcolumn
    have hm : m.x = dest.x := by
      have hbetween := h.column
      unfold Between at hbetween
      omega
    rw [escapeDistance, escapeDistance, if_pos hcolumn, if_pos hm]
    unfold columnPort at hport
    split at hport
    next hlt =>
      subst hport
      rcases hpast with rfl | hpast
      · omega
      · simp only [Node.Ahead] at hahead hpast
        omega
    next hge =>
      subst hport
      rcases hpast with rfl | hpast
      · simp only [Node.Ahead] at hahead
        omega
      · simp only [Node.Ahead] at hahead hpast
        omega
  · have hnorth := h.notNorth hcolumn
    have hbetween := h.column
    unfold Between at hbetween
    rw [escapeDistance, escapeDistance, if_neg hcolumn]
    cases p with
    | north => exact absurd rfl hnorth
    | south =>
        simp only [Node.Ahead] at hahead
        rw [if_neg (by omega)]
        omega
    | east | west =>
        simp only [Node.Ahead] at hahead
        split <;> omega

/-- Two hops in a row that the rule allows make a safe turn. -/
theorem safeTurn {q : Port} {m' : Node k} (h : EscapeStep map dest n p m)
    (h' : EscapeStep map dest m q m') (hon : map.on dest = true) (hne : n ≠ dest)
    (hne' : m ≠ dest) : SafeTurn p q := by
  have hahead := h.lands.ahead
  have hahead' := h'.lands.ahead
  have hbetween := h.column
  have hbetween' := h'.column
  unfold Between at hbetween hbetween'
  by_cases hcolumn : n.x = dest.x
  · -- along the column the direction stays the same, since the destination stays ahead
    have hm : m.x = dest.x := by omega
    have hpast := (h.column_not_past hon hne hcolumn).resolve_left hne'
    have hq : q = p := by
      rw [h'.inColumn hm, columnPort]
      rcases hp : p with _ | _ | _ | _ <;> rw [hp] at hpast hahead <;>
        simp only [Node.Ahead] at hpast hahead
      · omega
      · omega
      · rw [if_pos hpast.2]
      · rw [if_neg (by omega)]
    rw [hq]
    cases p <;> simp [SafeTurn]
  · have hp := h.notNorth hcolumn
    cases p with
    | north => exact absurd rfl hp
    | south => exact .inr ⟨hp, .inl rfl⟩
    | east =>
        cases q with
        | west =>
            simp only [Node.Ahead] at hahead hahead'
            omega
        | east | south | north => simp [SafeTurn]
    | west =>
        cases q with
        | east =>
            simp only [Node.Ahead] at hahead hahead'
            omega
        | west | south | north => simp [SafeTurn]

end EscapeStep

/-- A number for each channel, by the router it leaves and its direction: the
channels south of others come later, in a row those to the south come last, and
those to the north come after all. -/
def channelRank (c : Node k × Port) : Nat :=
  match c.2 with
  | .east => c.1.y * (k + 1) + c.1.x
  | .west => c.1.y * (k + 1) + (k - 1 - c.1.x)
  | .south => c.1.y * (k + 1) + k
  | .north => k * (k + 1) + (k - 1 - c.1.y)

/-- A safe turn leads to a channel of a greater number. -/
theorem SafeTurn.rank_lt {n m : Node k} {p q : Port} (h : SafeTurn p q) (hahead : n.Ahead m p) :
    channelRank (n, p) < channelRank (m, q) := by
  have hnx := n.x_lt
  have hny := n.y_lt
  have hmx := m.x_lt
  have hlast : n.y * (k + 1) + (k + 1) ≤ k * (k + 1) := by
    calc n.y * (k + 1) + (k + 1) = (n.y + 1) * (k + 1) := by rw [Nat.add_mul, Nat.one_mul]
      _ ≤ k * (k + 1) := Nat.mul_le_mul_right _ hny
  cases p with
  | north =>
      simp only [Node.Ahead] at hahead
      cases q with
      | north =>
          simp only [channelRank]
          omega
      | east | west | south => simp [SafeTurn] at h
  | south =>
      simp only [Node.Ahead] at hahead
      have hbelow : n.y * (k + 1) + (k + 1) ≤ m.y * (k + 1) := by
        calc n.y * (k + 1) + (k + 1) = (n.y + 1) * (k + 1) := by rw [Nat.add_mul, Nat.one_mul]
          _ ≤ m.y * (k + 1) := Nat.mul_le_mul_right _ hahead.2
      cases q <;> simp only [channelRank] <;> omega
  | east =>
      simp only [Node.Ahead] at hahead
      cases q with
      | west => simp [SafeTurn] at h
      | east | south | north =>
          simp only [channelRank, hahead.1]
          omega
  | west =>
      simp only [Node.Ahead] at hahead
      cases q with
      | east => simp [SafeTurn] at h
      | west | south | north =>
          simp only [channelRank, hahead.1]
          omega

end Flyover
