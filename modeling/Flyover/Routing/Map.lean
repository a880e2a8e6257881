import Flyover.Router

/-!
# Static power maps

Which routers are on while packets are routed. A packet sent in some direction
flies over the routers that are off and lands on the nearest one that is on. In
the south there always is one: the bottom row is never gated.

A router knows of the map what its neighbour states and logical neighbours say.
-/

namespace Flyover

/-- Which routers are on; the bottom row is. -/
structure PowerMap (k : Nat) where
  on : Node k → Bool
  bottomRow : ∀ n, Router.bottomRow n = true → on n = true

namespace Node

variable {k : Nat}

theorem Ahead.eq_or_between {n m m' : Node k} {p : Port} (h : n.Ahead m p) (h' : n.Ahead m' p) :
    m = m' ∨ m.Ahead m' p ∨ m'.Ahead m p := by
  by_cases hm : m = m'
  · exact .inl hm
  · have hne : m.x ≠ m'.x ∨ m.y ≠ m'.y := by
      by_contra heq
      rw [not_or, not_not, not_not] at heq
      exact hm (ext_xy heq.1 heq.2)
    cases p <;> simp only [Ahead] at h h' ⊢ <;> omega

theorem Nearest.unique {on : Node k → Prop} {n m m' : Node k} {p : Port}
    (h : Nearest on n p m) (h' : Nearest on n p m') : m = m' := by
  rcases h.ahead.eq_or_between h'.ahead with heq | hahead | hahead
  · exact heq
  · exact absurd h.holds (h'.first m h.ahead hahead)
  · exact absurd h'.holds (h.first m' h'.ahead hahead)

theorem Nearest.neighbor {on : Node k → Prop} {n : Node k} {p : Port}
    (hp : n.edge p = false) (hon : on (n.neighbor p)) : Nearest on n p (n.neighbor p) where
  ahead := ahead_neighbor hp
  holds := hon
  first := by
    intro between hbetween hahead
    rcases hbetween.eq_or_ahead with rfl | hafter
    · exact absurd rfl hahead.ne
    · cases p <;> simp only [Ahead] at hafter hahead <;> omega

theorem Nearest.over_neighbor {on : Node k → Prop} {n m : Node k} {p : Port}
    (hp : n.edge p = false) (hoff : ¬ on (n.neighbor p)) (h : Nearest on (n.neighbor p) p m) :
    Nearest on n p m where
  ahead := h.ahead.of_neighbor hp
  holds := h.holds
  first := by
    intro between hbetween hahead
    rcases hbetween.eq_or_ahead with rfl | hafter
    · exact hoff
    · exact h.first between hafter hahead

end Node

namespace PowerMap

variable {k : Nat} (map : PowerMap k)

/-- A packet that leaves router `n` by port `p` lands on router `m`. -/
def Lands (n : Node k) (p : Port) (m : Node k) : Prop := Node.Nearest (map.on · = true) n p m

/-- Look for the landing router, one router at a time. -/
def landingIn (p : Port) (steps : Nat) (n : Node k) : Option (Node k) :=
  match steps with
  | 0 => none
  | steps + 1 =>
      if map.on (n.neighbor p) then some (n.neighbor p) else landingIn p steps (n.neighbor p)

/-- The landing router, if there is one before the boundary. -/
def landing (n : Node k) (p : Port) : Option (Node k) := map.landingIn p (n.distance p) n

variable {map}

theorem landingIn_some {p : Port} {steps : Nat} {n m : Node k} (hsteps : steps = n.distance p) :
    map.landingIn p steps n = some m ↔ map.Lands n p m := by
  induction steps generalizing n with
  | zero =>
      have hedge : ∀ m, ¬ n.Ahead m p := by
        intro m hm
        have hpos := Node.distance_pos hm.edge
        omega
      rw [landingIn]
      exact ⟨nofun, fun h => absurd h.ahead (hedge m)⟩
  | succ steps ih =>
      have hp : n.edge p = false := by
        by_contra hedge
        have hzero := Node.distance_of_edge (Bool.eq_true_of_not_eq_false hedge)
        omega
      rw [landingIn]
      by_cases hon : map.on (n.neighbor p) = true
      · rw [if_pos hon]
        constructor
        · intro hm
          rw [← Option.some.inj hm]
          exact Node.Nearest.neighbor hp hon
        · intro h
          rw [h.eq_neighbor hon]
      · have hdistance := Node.distance_neighbor hp
        rw [if_neg hon, ih (by have := Node.distance_neighbor hp; omega)]
        exact ⟨Node.Nearest.over_neighbor hp hon, fun h => h.of_neighbor hon⟩

theorem landing_some {n m : Node k} {p : Port} : map.landing n p = some m ↔ map.Lands n p m :=
  landingIn_some rfl

/-- A packet lands not beyond any router that is on. -/
theorem lands_before {n m : Node k} {p : Port} (hm : n.Ahead m p) (hon : map.on m = true) :
    ∃ l, map.Lands n p l ∧ (l = m ∨ l.Ahead m p) := by
  have hlanding : ∀ steps (n : Node k), steps = n.distance p → n.Ahead m p →
      ∃ l, map.Lands n p l := by
    intro steps
    induction steps with
    | zero =>
        intro n hsteps hm
        have hpos := Node.distance_pos hm.edge
        omega
    | succ steps ih =>
        intro n hsteps hm
        have hp := hm.edge
        by_cases hnext : map.on (n.neighbor p) = true
        · exact ⟨_, Node.Nearest.neighbor hp hnext⟩
        · have hafter : (n.neighbor p).Ahead m p := hm.eq_or_ahead.resolve_left fun heq =>
            hnext (heq ▸ hon)
          have hdistance := Node.distance_neighbor hp
          obtain ⟨l, hl⟩ := ih (n.neighbor p) (by omega) hafter
          exact ⟨l, Node.Nearest.over_neighbor hp hnext hl⟩
  obtain ⟨l, hl⟩ := hlanding _ n rfl hm
  refine ⟨l, hl, ?_⟩
  rcases hl.ahead.eq_or_between hm with heq | hbefore | hbeyond
  · exact .inl heq
  · exact .inr hbefore
  · exact absurd hon (hl.first m hm hbeyond)

theorem Lands.unique {n m m' : Node k} {p : Port} (h : map.Lands n p m) (h' : map.Lands n p m') :
    m = m' := Node.Nearest.unique h h'

/-- Off the bottom row there is a landing router in the south. -/
theorem lands_south {n : Node k} (hn : Router.bottomRow n = false) :
    ∃ m, map.Lands n .south m := by
  have hx := n.x_lt
  have hy := n.y_lt
  have hrow : n.y ≠ k - 1 := by
    intro hlast
    rw [(Node.bottomRow_iff n).mpr hlast] at hn
    cases hn
  have hbottom : Router.bottomRow (Node.ofXY n.x (k - 1) hx (by omega)) = true := by
    rw [Node.bottomRow_iff, Node.ofXY_y]
  have hahead : n.Ahead (Node.ofXY n.x (k - 1) hx (by omega)) .south := by
    rw [Node.Ahead, Node.ofXY_x, Node.ofXY_y]
    omega
  obtain ⟨m, hm, -⟩ := lands_before hahead (map.bottomRow _ hbottom)
  exact ⟨m, hm⟩

end PowerMap

/-- Everything off that can be. -/
def PowerMap.bottomOnly (k : Nat) : PowerMap k where
  on := Router.bottomRow
  bottomRow := fun _ hn => hn

/-- Everything off that can be, but for the first router. -/
def PowerMap.withCorner (k : Nat) : PowerMap k where
  on := fun n => n.val == 0 || Router.bottomRow n
  bottomRow := fun _ hn => by rw [hn, Bool.or_true]

/-- The recorded neighbour states are those of the map. -/
structure KnowsNeighbors {k : Nat} (map : PowerMap k) (n : Node k) (r : Router) : Prop where
  inner : ∀ p, n.edge p = false →
    (r.ports p).neighborState = if map.on (n.neighbor p) then .powerOn else .powerOff
  boundary : ∀ p, n.edge p = true → (r.ports p).neighborState = .powerOff

/-- The recorded neighbour states and logical neighbours are those of the map. -/
structure Informed {k : Nat} (map : PowerMap k) (n : Node k) (r : Router) : Prop
    extends KnowsNeighbors map n r where
  logical : ∀ p m, map.Lands n p m → (r.ports p).logicalNeighbor = m.val
  nobody : ∀ p, (∀ m, ¬ map.Lands n p m) → (r.ports p).logicalNeighbor = -1

namespace PowerMap

variable {k : Nat}

/-- A router that has recorded the map. -/
def view (map : PowerMap k) (n : Node k) : Router where
  ports := fun p =>
    { neighborState := if n.inner p && map.on (n.neighbor p) then .powerOn else .powerOff
      downstreamState := if (map.landing n p).isSome then .powerOn else .powerOff
      logicalNeighbor := (map.landing n p).elim (-1) fun m => m.val }

theorem informed_view (map : PowerMap k) (n : Node k) : Informed map n (map.view n) where
  inner := by
    intro p hp
    simp [view, Node.inner, hp]
  boundary := by
    intro p hp
    simp [view, Node.inner, hp]
  logical := by
    intro p m hm
    simp [view, landing_some.mpr hm]
  nobody := by
    intro p hnone
    have hlanding : map.landing n p = none := by
      cases hl : map.landing n p with
      | none => rfl
      | some m => exact absurd (landing_some.mp hl) (hnone m)
    simp [view, hlanding]

end PowerMap

/-- What the routers read of it: the neighbour is on. -/
theorem KnowsNeighbors.powerOn_iff {k : Nat} {map : PowerMap k} {n : Node k} {r : Router}
    (h : KnowsNeighbors map n r) {p : Port} (hp : n.edge p = false) :
    (r.ports p).neighborState = .powerOn ↔ map.on (n.neighbor p) = true := by
  rw [h.inner p hp]
  split <;> simp_all

end Flyover
