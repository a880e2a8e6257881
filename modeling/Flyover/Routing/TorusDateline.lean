import Flyover.Routing.Torus
import Flyover.Progress.Deadlock

/-!
# Around the torus without a deadlock

A packet keeps to one half of its virtual channels in each ring. A half is used in
one direction by packets that never cross one of the links: the link between
`gK - 1` and 0, or the one in the middle, which a packet that wraps around does not
get to by the shorter way. Counted from that link, the positions of a packet go up.
-/

namespace Flyover.Torus

open Flyover.Cube

variable {c : Cube} {config : RoutingConfig} {balance : Bool} {pkt : CubePacket c}
  {k a b dim : Nat} {right : Bool} {ph : Int}

/-! ### Positions in a ring -/

/-- The half is that of the packets that wrap around. With one dateline the halves are
the other way around for the packets that go to the left. -/
def overDateline (balance right : Bool) (ph : Int) : Bool :=
  if balance then decide (ph = 1) else decide (ph = 1) == right

/-- The position of a coordinate in a direction, counted from the edge, or from the
middle of the ring. -/
def ringPosition (k : Nat) (crossed right : Bool) (a : Nat) : Nat :=
  if crossed then
    if right then if a ≤ (k - 1) / 2 then a + k - ((k - 1) / 2 + 1) else a - ((k - 1) / 2 + 1)
    else if a ≤ (k - 1) / 2 then (k - 1) / 2 - a else (k - 1) / 2 + k - a
  else if right then a else k - 1 - a

/-- The way leads over the edge. -/
def Wraps (right : Bool) (a b : Nat) : Prop := if right then b < a else a < b

/-- The packet goes around a ring by a shorter way, and does not cross the link that its
half is not used for. -/
structure Heading (balance : Bool) (k : Nat) (right : Bool) (ph : Int) (a b : Nat) : Prop where
  half : ph = 0 ∨ ph = 1
  shorter : 2 * wayLeft k right a b ≤ k
  position : ringPosition k (overDateline balance right ph) right a + wayLeft k right a b < k

theorem torusPartition_half {drawn : Nat} (hdrawn : drawn ≤ 1) :
    torusPartition balance k right a b drawn = 0 ∨
      torusPartition balance k right a b drawn = 1 := by
  unfold torusPartition
  split
  · split
    · exact .inr rfl
    · split
      · exact .inl rfl
      · omega
  · split
    · exact .inr rfl
    · exact .inl rfl

/-- Who wraps around gets the half that is meant for it; of the others only who stays
on one side of the middle may get it too. -/
theorem overDateline_partition {drawn : Nat} (hne : a ≠ b) :
    (overDateline balance right (torusPartition balance k right a b drawn) = true →
      Wraps right a b ∨ (a ≤ (k - 1) / 2 ↔ b ≤ (k - 1) / 2)) ∧
    (overDateline balance right (torusPartition balance k right a b drawn) = false →
      ¬ Wraps right a b) := by
  have hwraps : (right = true ∧ a > b) ∨ (right = false ∧ a < b) ↔ Wraps right a b := by
    cases right <;> simp [Wraps]
  cases balance with
  | true =>
      simp only [overDateline, torusPartition, if_true]
      split
      next hover => exact ⟨fun _ => .inl (hwraps.mp hover), by simp⟩
      next hinside =>
        split
        next hmiddle => exact ⟨by simp, fun _ => fun h => hinside (hwraps.mpr h)⟩
        next hmiddle =>
          refine ⟨fun _ => .inr ?_, fun _ => fun h => hinside (hwraps.mpr h)⟩
          cases right <;> (simp at hinside hmiddle; omega)
  | false =>
      have hdateline : (right = true ∧ a > b) ∨ (right = false ∧ b < a) ↔
          (Wraps right a b ↔ right = true) := by
        cases right with
        | true => simp [Wraps]
        | false =>
            simp [Wraps]
            omega
      simp only [overDateline, torusPartition, Bool.false_eq_true, if_false, hdateline]
      split
      next hfirst => cases right <;> simp_all
      next hsecond => cases right <;> simp_all

theorem position_of_wraps (ha : a < k) (hb : b < k) (hshorter : 2 * wayLeft k right a b ≤ k)
    (hwraps : Wraps right a b ∨ a ≠ b ∧ (a ≤ (k - 1) / 2 ↔ b ≤ (k - 1) / 2)) :
    ringPosition k true right a + wayLeft k right a b < k := by
  cases right <;> simp only [wayLeft, Wraps, ringPosition, if_true, if_false,
    Bool.false_eq_true, ahead_eq ha hb, ahead_eq hb ha] at hshorter hwraps ⊢ <;>
    split at hshorter <;> split <;> omega

theorem position_of_not_wraps (ha : a < k) (hb : b < k) (hwraps : ¬ Wraps right a b) :
    ringPosition k false right a + wayLeft k right a b < k := by
  cases right <;> simp only [wayLeft, Wraps, ringPosition, if_true, if_false,
    Bool.false_eq_true, ahead_eq ha hb, ahead_eq hb ha] at hwraps ⊢ <;> split <;> omega

/-- So it is where a packet turns into the ring. -/
theorem heading_turn (ha : a < k) (hb : b < k) (hne : a ≠ b) {first drawn : Nat}
    (hdrawn : drawn ≤ 1) :
    Heading balance k (torusRight k a b first)
      (torusPartition balance k (torusRight k a b first) a b drawn) a b := by
  have hshorter := torusRight_shorter ha hb hne first
  generalize torusRight k a b first = right at hshorter ⊢
  refine ⟨torusPartition_half hdrawn, hshorter, ?_⟩
  cases hside : overDateline balance right (torusPartition balance k right a b drawn) with
  | true =>
      have hwraps := (overDateline_partition hne).1 hside
      exact position_of_wraps ha hb hshorter (hwraps.imp_right fun h => ⟨hne, h⟩)
  | false => exact position_of_not_wraps ha hb ((overDateline_partition hne).2 hside)

theorem ringPosition_next (ha : a < k) (hb : b < k) (hne : a ≠ b) {crossed : Bool}
    (hposition : ringPosition k crossed right a + wayLeft k right a b < k) :
    ringPosition k crossed right (nextCoordinate k right a) = ringPosition k crossed right a + 1 := by
  have hstep := wayLeft_next ha hb hne right
  have hinner : ringPosition k crossed right a + 1 < k := by omega
  have htwo : 2 ≤ k := by omega
  rw [nextCoordinate_eq ha]
  unfold ringPosition at hinner ⊢
  cases crossed <;> cases right <;> simp only [if_true, if_false, Bool.false_eq_true] at hinner ⊢
  · split <;> omega
  · split <;> omega
  · split at hinner <;> split <;> split <;> omega
  · split at hinner <;> split <;> split <;> omega

/-! ### The two halves -/

/-- A virtual channel of the half for a value of `f->ph`. -/
def InHalf (vcs : VCRange) (ph vc : Int) : Prop :=
  ∃ half, vcs.half (ph = 0) = some half ∧ half.vcBegin ≤ vc ∧ vc ≤ half.vcEnd

/-- A virtual channel of one half only: with an odd number of them the halves share one. -/
def ownVC (vcs : VCRange) (ph : Int) : Int := if ph = 0 then vcs.vcBegin else vcs.vcEnd

section Halves

variable {vcs : VCRange}

theorem half_eq (hvcs : vcs.vcBegin < vcs.vcEnd) (lower : Bool) :
    ∃ available > 0, 2 * available ≤ vcs.vcEnd - vcs.vcBegin + 1 ∧
      vcs.half lower = some (if lower then ⟨vcs.vcBegin, vcs.vcEnd - available⟩
        else ⟨vcs.vcBegin + available, vcs.vcEnd⟩) := by
  have hdiv : (vcs.vcEnd - vcs.vcBegin + 1).tdiv 2 = (vcs.vcEnd - vcs.vcBegin + 1) / 2 :=
    Int.tdiv_eq_ediv_of_nonneg (by omega)
  have hpos : (vcs.vcEnd - vcs.vcBegin + 1).tdiv 2 > 0 := by omega
  exact ⟨(vcs.vcEnd - vcs.vcBegin + 1).tdiv 2, hpos, by omega, if_pos hpos⟩

theorem ownVC_inHalf (hvcs : vcs.vcBegin < vcs.vcEnd) (ph : Int) : InHalf vcs ph (ownVC vcs ph) := by
  obtain ⟨available, hpos, hroom, heq⟩ := half_eq hvcs (ph = 0)
  refine ⟨_, heq, ?_⟩
  unfold ownVC
  by_cases hph : ph = 0 <;> simp [hph] <;> omega

theorem InHalf.bounds {vc : Int} (hvcs : vcs.vcBegin < vcs.vcEnd) (h : InHalf vcs ph vc) :
    vcs.vcBegin ≤ vc ∧ vc ≤ vcs.vcEnd := by
  obtain ⟨half, hhalf, hlower, hupper⟩ := h
  obtain ⟨available, hpos, hroom, heq⟩ := half_eq hvcs (ph = 0)
  obtain rfl := Option.some.inj (heq.symm.trans hhalf)
  by_cases hph : ph = 0 <;> simp [hph] at hlower hupper <;> omega

/-- Who holds a virtual channel of one half only uses that half. -/
theorem InHalf.eq_of_own {ph' : Int} (hvcs : vcs.vcBegin < vcs.vcEnd) (hph : ph = 0 ∨ ph = 1)
    (hph' : ph' = 0 ∨ ph' = 1) (h : InHalf vcs ph' (ownVC vcs ph)) : ph' = ph := by
  obtain ⟨half, hhalf, hlower, hupper⟩ := h
  obtain ⟨available, hpos, hroom, heq⟩ := half_eq hvcs (ph' = 0)
  obtain rfl := Option.some.inj (heq.symm.trans hhalf)
  rcases hph with rfl | rfl <;> rcases hph' with rfl | rfl <;> simp [ownVC] at hlower hupper ⊢ <;>
    omega

end Halves

/-! ### What a call answers -/

/-- A packet came in over a ring that it goes around. -/
structure Entered (c : Cube) (config : RoutingConfig) (balance : Bool) (pkt : CubePacket c)
    (s : CubeSpot c) (dim : Nat) (right : Bool) : Prop where
  dim_lt : dim < c.gN
  inChannel : s.inChannel = CubeCall.opposite (directionPort dim right)
  before : ∀ j < dim, coordinate c.gK s.router j = coordinate c.gK pkt.dest j
  heading : Heading balance c.gK right s.ph (coordinate c.gK s.router dim)
    (coordinate c.gK pkt.dest dim)
  vc : InHalf (config.vcs pkt.type) s.ph s.vc

/-- Where a packet may be. -/
structure OnTrack (c : Cube) (config : RoutingConfig) (balance : Bool) (pkt : CubePacket c)
    (s : CubeSpot c) : Prop where
  vcBegin_le : (config.vcs pkt.type).vcBegin ≤ s.vc
  le_vcEnd : s.vc ≤ (config.vcs pkt.type).vcEnd
  entered : s.inChannel = 2 * c.gN ∨ ∃ dim right, Entered c config balance pkt s dim right

theorem opposite_directionPort (dim : Nat) (right : Bool) :
    CubeCall.opposite (directionPort dim right) = directionPort dim (!right) ∧
      CubeCall.opposite (CubeCall.opposite (directionPort dim right)) = directionPort dim right ∧
      CubeCall.opposite (directionPort dim right) / 2 = dim := by
  cases right with
  | true =>
      simp [CubeCall.opposite, directionPort]
      omega
  | false => simp [CubeCall.opposite, directionPort]

section Calls

variable {call : CubeCall c} {s : CubeSpot c}

theorem assertVC_eq (hfor : call.For config pkt s) (htrack : OnTrack c config balance pkt s) :
    call.assertVC = some () := by
  refine if_pos (.inl ?_)
  rw [CubeCall.vcs, hfor.config, hfor.type, hfor.vc]
  exact ⟨htrack.vcBegin_le, htrack.le_vcEnd⟩

/-- At its destination a packet is offered the ejection port. -/
theorem routeTorus_arrived (hfor : call.For config pkt s)
    (htrack : OnTrack c config balance pkt s) (hdest : s.router = pkt.dest) :
    call.routeTorus balance = some ((config.vcs pkt.type).offer (2 * c.gN), s.ph) := by
  unfold CubeCall.routeTorus
  have hid : call.id = call.f.dest := by rw [hfor.id, hfor.dest, hdest]
  have hvcs : call.vcs = config.vcs pkt.type := by rw [CubeCall.vcs, hfor.config, hfor.type]
  simp [assertVC_eq hfor htrack, hfor.inject, hid, dorNextTorus_self, hvcs, hfor.ph]

/-- On its way it is offered one half at one port, in a direction in which it comes
nearer. -/
theorem routeTorus_transit (hfor : call.For config pkt s)
    (htrack : OnTrack c config balance pkt s) (hne : s.router ≠ pkt.dest)
    (hvcs : (config.vcs pkt.type).vcBegin < (config.vcs pkt.type).vcEnd) :
    ∃ dim right ph half, c.Differs s.router pkt.dest dim ∧
      Heading balance c.gK right ph (coordinate c.gK s.router dim) (coordinate c.gK pkt.dest dim) ∧
      (s.inChannel / 2 = dim → s.inChannel = CubeCall.opposite (directionPort dim right) ∧
        ph = s.ph) ∧
      (config.vcs pkt.type).half (ph = 0) = some half ∧
      call.routeTorus balance = some (half.offer (directionPort dim right), ph) := by
  obtain ⟨dim, hdiffers⟩ := exists_differs s.router.isLt pkt.dest.isLt
    (fun heq => hne (Fin.ext heq))
  have hk : 0 < c.gK := gK_pos s.router.isLt hdiffers.dim_lt
  have hroute : ∃ right ph partition, Heading balance c.gK right ph
        (coordinate c.gK s.router dim) (coordinate c.gK pkt.dest dim) ∧
      (s.inChannel / 2 = dim → s.inChannel = CubeCall.opposite (directionPort dim right) ∧
        ph = s.ph) ∧
      c.dorNextTorus balance call.draw s.router pkt.dest s.inChannel =
        (directionPort dim right, partition) ∧ partition.getD s.ph = ph := by
    rcases dorNextTorus_eq hdiffers balance call.draw s.inChannel with
      ⟨hstraight, heq⟩ | ⟨hturns, drawn, hdrawn, right, rfl, heq⟩
    · rcases htrack.entered with hinjected | ⟨dim', right, hentered⟩
      · have hlt := hdiffers.dim_lt
        omega
      · rw [hentered.inChannel] at hstraight heq
        rw [(opposite_directionPort dim' right).2.2] at hstraight
        obtain rfl : dim' = dim := Int.ofNat_inj.mp hstraight
        rw [(opposite_directionPort dim' right).2.1] at heq
        rw [hentered.inChannel]
        exact ⟨right, s.ph, none, hentered.heading, fun _ => ⟨rfl, rfl⟩, heq, rfl⟩
    · have hle : drawn ≤ 1 := by
        rcases hdrawn with rfl | rfl
        · exact hfor.draw 0
        · exact hfor.draw 1
      exact ⟨_, _, _, heading_turn (coordinate_lt hk) (coordinate_lt hk) hdiffers.ne hle,
        fun hstraight => absurd hstraight hturns, heq, rfl⟩
  obtain ⟨right, ph, partition, hheading, hstraight, heq, hph⟩ := hroute
  obtain ⟨available, -, -, hhalf⟩ := half_eq hvcs (ph = 0)
  refine ⟨dim, right, ph, _, hdiffers, hheading, hstraight, hhalf, ?_⟩
  have hassert : ¬ (balance = true ∧ ph ≠ 0 ∧ ph ≠ 1) := by
    rintro ⟨-, hzero, hone⟩
    exact hheading.half.elim hzero hone
  have hcallVCs : call.vcs = config.vcs pkt.type := by rw [CubeCall.vcs, hfor.config, hfor.type]
  unfold CubeCall.routeTorus
  rw [assertVC_eq hfor htrack, hfor.inject, hfor.id, hfor.dest, hfor.inChannel, hfor.ph, hcallVCs, heq]
  simp only [Option.bind_eq_bind, Option.bind_some, Bool.false_eq_true, if_false, hph, if_neg hne,
    hhalf, if_neg hassert]
  rfl

end Calls

/-! ### Hops -/

/-- A packet advances in a ring: it lands on the next router, comes in from behind, and
holds a virtual channel of its half. In a ring that it is in already it goes straight on. -/
structure Advances (c : Cube) (config : RoutingConfig) (balance : Bool) (pkt : CubePacket c)
    (s s' : CubeSpot c) (dim : Nat) (right : Bool) : Prop where
  differs : c.Differs s.router pkt.dest dim
  heading : Heading balance c.gK right s'.ph (coordinate c.gK s.router dim)
    (coordinate c.gK pkt.dest dim)
  lands : c.OnRing dim (nextCoordinate c.gK right (coordinate c.gK s.router dim)) s.router s'.router
  feeds : c.Feeds s.router (directionPort dim right) s'.router s'.inChannel
  inChannel : s'.inChannel = CubeCall.opposite (directionPort dim right)
  straight : s.inChannel / 2 = dim → s.inChannel = CubeCall.opposite (directionPort dim right) ∧
    s'.ph = s.ph
  vc : InHalf (config.vcs pkt.type) s'.ph s'.vc

section Hops

variable {s s' : CubeSpot c}

theorem takes_advances {call : CubeCall c} (hfor : call.For config pkt s)
    (htrack : OnTrack c config balance pkt s)
    (hvcs : (config.vcs pkt.type).vcBegin < (config.vcs pkt.type).vcEnd)
    (htakes : call.Takes balance s') :
    s.router ≠ pkt.dest ∧ ∃ dim right, Advances c config balance pkt s s' dim right := by
  obtain ⟨offers, offer, hroute, hmem, hfeeds, hvc⟩ := htakes
  by_cases hdest : s.router = pkt.dest
  · -- the ejection port leads to no router
    rw [routeTorus_arrived hfor htrack hdest] at hroute
    obtain ⟨rfl, -⟩ := Prod.mk.inj (Option.some.inj hroute)
    obtain rfl := List.mem_singleton.mp hmem
    exact absurd hfeeds.1 (lt_irrefl _)
  · refine ⟨hdest, ?_⟩
    obtain ⟨dim, right, ph, half, hdiffers, hheading, hstraight, hhalf, heq⟩ :=
      routeTorus_transit hfor htrack hdest hvcs
    rw [heq] at hroute
    obtain ⟨rfl, rfl⟩ := Prod.mk.inj (Option.some.inj hroute)
    obtain rfl := List.mem_singleton.mp hmem
    rw [hfor.id] at hfeeds
    obtain ⟨hsink, hin⟩ := (feeds_iff s.router.isLt s'.router.isLt hdiffers.dim_lt).mp hfeeds
    have hlands : c.OnRing dim (nextCoordinate c.gK right (coordinate c.gK s.router dim)) s.router
        s'.router := by
      rw [hsink]
      cases right with
      | true => exact rightNode_onRing s.router.isLt hdiffers.dim_lt
      | false => exact leftNode_onRing s.router.isLt hdiffers.dim_lt
    exact ⟨dim, right, hdiffers, hheading, hlands, hfeeds, hin, hstraight, half, hhalf, hvc⟩

namespace Advances

variable (h : Advances c config balance pkt s s' dim right)

include h

theorem gK_pos : 0 < c.gK := Cube.gK_pos s.router.isLt h.differs.dim_lt

theorem entered : Entered c config balance pkt s' dim right := by
  have ha : coordinate c.gK s.router dim < c.gK := coordinate_lt h.gK_pos
  have hb : coordinate c.gK pkt.dest dim < c.gK := coordinate_lt h.gK_pos
  have hstep := wayLeft_next ha hb h.differs.ne right
  have hposition := ringPosition_next ha hb h.differs.ne h.heading.position
  have hbefore := h.heading.position
  have hshorter := h.heading.shorter
  refine ⟨h.differs.dim_lt, h.inChannel, fun j hj => ?_, ⟨h.heading.half, ?_, ?_⟩, h.vc⟩
  · rw [h.lands.others j hj.ne]
    exact h.differs.before j hj
  · rw [h.lands.coordinate]
    omega
  · rw [h.lands.coordinate, hposition]
    omega

theorem onTrack (hvcs : (config.vcs pkt.type).vcBegin < (config.vcs pkt.type).vcEnd) :
    OnTrack c config balance pkt s' :=
  ⟨(h.vc.bounds hvcs).1, (h.vc.bounds hvcs).2, .inr ⟨dim, right, h.entered⟩⟩

/-- One step nearer. -/
theorem nearer : c.torusDistance s'.router pkt.dest + 1 = c.torusDistance s.router pkt.dest := by
  have ha : coordinate c.gK s.router dim < c.gK := coordinate_lt h.gK_pos
  have hb : coordinate c.gK pkt.dest dim < c.gK := coordinate_lt h.gK_pos
  have hnext : nextCoordinate c.gK right (coordinate c.gK s.router dim) < c.gK :=
    nextCoordinate_lt ha right
  have hstep := wayLeft_next ha hb h.differs.ne right
  have hdistance := ringDistance_eq ha hb h.differs.ne h.heading.shorter
  have hcloser : ringDistance c.gK (coordinate c.gK s'.router dim) (coordinate c.gK pkt.dest dim) + 1 =
      ringDistance c.gK (coordinate c.gK s.router dim) (coordinate c.gK pkt.dest dim) := by
    rw [h.lands.coordinate, hdistance, ← hstep]
    by_cases hlast : nextCoordinate c.gK right (coordinate c.gK s.router dim) =
        coordinate c.gK pkt.dest dim
    · rw [hlast]
      cases right <;> simp [ringDistance, wayLeft, ahead_self hb]
    · have hshorter := h.heading.shorter
      rw [ringDistance_eq hnext hb hlast (by omega : 2 * wayLeft c.gK right _ _ ≤ c.gK)]
  have hmem : dim ∈ Finset.range c.gN := Finset.mem_range.mpr h.differs.dim_lt
  have hsame : ∑ j ∈ (Finset.range c.gN).erase dim,
        ringDistance c.gK (coordinate c.gK s'.router j) (coordinate c.gK pkt.dest j) =
      ∑ j ∈ (Finset.range c.gN).erase dim,
        ringDistance c.gK (coordinate c.gK s.router j) (coordinate c.gK pkt.dest j) := by
    refine Finset.sum_congr rfl fun j hj => ?_
    rw [h.lands.others j (Finset.ne_of_mem_erase hj)]
  rw [torusDistance, torusDistance, ← Finset.add_sum_erase _ _ hmem, ← Finset.add_sum_erase _ _ hmem,
    hsame, ← hcloser]
  exact Nat.add_right_comm _ _ _

end Advances

/-- The position of a packet on its way: by the dimension, then along the ring. -/
def rank (balance : Bool) (s : CubeSpot c) : Nat :=
  if s.inChannel = 2 * c.gN then 0
  else
    let dim := (s.inChannel / 2).toNat
    let right := decide (s.inChannel % 2 = 1)
    dim * c.gK +
      ringPosition c.gK (overDateline balance right s.ph) right (coordinate c.gK s.router dim) + 1

theorem Entered.rank_eq (h : Entered c config balance pkt s dim right) :
    rank balance s = dim * c.gK +
      ringPosition c.gK (overDateline balance right s.ph) right (coordinate c.gK s.router dim) + 1 := by
  have hin := h.inChannel
  have hdim := (opposite_directionPort dim right).2.2
  have hlt := h.dim_lt
  have hright : decide (s.inChannel % 2 = 1) = right := by
    rw [hin, (opposite_directionPort dim right).1]
    cases right <;> simp [directionPort]
  have hnet : s.inChannel ≠ 2 * c.gN := by
    rw [hin]
    omega
  unfold rank
  simp only [if_neg hnet, hright]
  rw [hin, hdim, Int.toNat_natCast]

theorem Entered.rank_le (h : Entered c config balance pkt s dim right) :
    rank balance s ≤ c.gN * c.gK ∧ dim * c.gK < rank balance s ∧
      rank balance s ≤ (dim + 1) * c.gK := by
  have hposition := h.heading.position
  have hdims : (dim + 1) * c.gK ≤ c.gN * c.gK := Nat.mul_le_mul_right _ h.dim_lt
  rw [h.rank_eq]
  rw [Nat.add_mul, Nat.one_mul] at hdims ⊢
  omega

/-- Every hop goes up. -/
theorem Advances.rank_lt (h : Advances c config balance pkt s s' dim right)
    (htrack : OnTrack c config balance pkt s) : rank balance s < rank balance s' := by
  rcases htrack.entered with hinjected | ⟨dim', right', hentered⟩
  · have hzero : rank balance s = 0 := if_pos hinjected
    rw [hzero]
    exact Nat.zero_lt_of_lt h.entered.rank_le.2.1
  · have hle : dim' ≤ dim := by
      by_contra hlt
      exact h.differs.ne (hentered.before dim (not_le.mp hlt))
    obtain hlt | rfl := hle.lt_or_eq
    · have hbelow := hentered.rank_le.2.2
      have habove := h.entered.rank_le.2.1
      have hdims : (dim' + 1) * c.gK ≤ dim * c.gK := Nat.mul_le_mul_right _ hlt
      omega
    · have hin : s.inChannel / 2 = dim' := by
        rw [hentered.inChannel]
        exact (opposite_directionPort dim' right').2.2
      obtain ⟨hdirection, hph⟩ := h.straight hin
      obtain rfl : right' = right := by
        rw [hentered.inChannel, (opposite_directionPort dim' right').1,
          (opposite_directionPort dim' right).1] at hdirection
        cases right' <;> cases right <;> simp [directionPort] at hdirection ⊢
      have hposition := ringPosition_next (coordinate_lt h.gK_pos) (coordinate_lt h.gK_pos)
        h.differs.ne hentered.heading.position
      rw [hentered.rank_eq, h.entered.rank_eq, h.lands.coordinate, hph, hposition]
      exact Nat.lt_succ_self _

end Hops

/-! ### Delivery -/

theorem torusDistance_eq_zero (x y : Fin c.gNodes) : c.torusDistance x y = 0 ↔ x = y := by
  constructor
  · intro hzero
    by_contra hne
    obtain ⟨dim, hdiffers⟩ := exists_differs x.isLt y.isLt fun heq => hne (Fin.ext heq)
    have hk := Cube.gK_pos x.isLt hdiffers.dim_lt
    have ha : coordinate c.gK x dim < c.gK := coordinate_lt hk
    have hb : coordinate c.gK y dim < c.gK := coordinate_lt hk
    have hring := Finset.sum_eq_zero_iff.mp hzero dim (Finset.mem_range.mpr hdiffers.dim_lt)
    have hnear := hdiffers.ne
    rw [ringDistance, ahead_eq ha hb, ahead_eq hb ha] at hring
    split at hring <;> split at hring <;> omega
  · rintro rfl
    refine Finset.sum_eq_zero fun dim hdim => ?_
    have hk := Cube.gK_pos x.isLt (Finset.mem_range.mp hdim)
    simp [ringDistance, ahead_self (coordinate_lt hk : coordinate c.gK x dim < c.gK)]

section Routes

variable {source s : CubeSpot c} {i : Nat}

theorem Source.onTrack (h : Source c config pkt source) : OnTrack c config balance pkt source :=
  ⟨h.vcBegin_le, h.le_vcEnd, .inl h.inChannel⟩

theorem route_onTrack (hvcs : (config.vcs pkt.type).vcBegin < (config.vcs pkt.type).vcEnd)
    (hsource : Source c config pkt source) (h : Route c config balance pkt source i s) :
    OnTrack c config balance pkt s ∧
      c.torusDistance s.router pkt.dest + i = c.torusDistance source.router pkt.dest := by
  refine h.invariant (P := fun i s => OnTrack c config balance pkt s ∧
    c.torusDistance s.router pkt.dest + i = c.torusDistance source.router pkt.dest)
    ⟨hsource.onTrack, rfl⟩ ?_
  rintro i s s' ⟨htrack, hdistance⟩ ⟨call, hfor, htakes⟩
  obtain ⟨-, dim, right, hadvances⟩ := takes_advances hfor htrack hvcs htakes
  have hnearer := hadvances.nearer
  exact ⟨hadvances.onTrack hvcs, by omega⟩

/-- A packet that is not at its destination can go on from every call. -/
theorem exists_takes {call : CubeCall c} (hfor : call.For config pkt s)
    (htrack : OnTrack c config balance pkt s) (hne : s.router ≠ pkt.dest)
    (hvcs : (config.vcs pkt.type).vcBegin < (config.vcs pkt.type).vcEnd) :
    ∃ s' : CubeSpot c, call.Takes balance s' ∧ s'.vc = ownVC (config.vcs pkt.type) s'.ph := by
  obtain ⟨dim, right, ph, half, hdiffers, -, -, hhalf, hroute⟩ :=
    routeTorus_transit hfor htrack hne hvcs
  obtain ⟨half', hhalf', hown⟩ := ownVC_inHalf hvcs ph
  obtain rfl := Option.some.inj (hhalf'.symm.trans hhalf)
  have hsink : (if right then c.rightNode s.router dim else c.leftNode s.router dim) < c.gNodes := by
    cases right with
    | true => exact (rightNode_onRing s.router.isLt hdiffers.dim_lt).lt
    | false => exact (leftNode_onRing s.router.isLt hdiffers.dim_lt).lt
  have hfeeds : c.Feeds call.id (directionPort dim right)
      (if right then c.rightNode s.router dim else c.leftNode s.router dim)
      (CubeCall.opposite (directionPort dim right)) := by
    rw [hfor.id]
    exact (feeds_iff s.router.isLt hsink hdiffers.dim_lt).mpr ⟨rfl, rfl⟩
  exact ⟨⟨⟨_, hsink⟩, _, ownVC (config.vcs pkt.type) ph, ph⟩,
    ⟨_, _, hroute, List.mem_singleton_self _, hfeeds, hown⟩, rfl⟩

/-- Whatever is drawn and whatever virtual channels it takes, a packet is at its
destination after as many hops as the distance, and not before; there it is ejected,
and before every call lets it go on. -/
theorem route_minimal (hvcs : (config.vcs pkt.type).vcBegin < (config.vcs pkt.type).vcEnd)
    (hsource : Source c config pkt source) (hroute : Route c config balance pkt source i s) :
    (s.router = pkt.dest ↔ i = c.torusDistance source.router pkt.dest) ∧
    ∀ call : CubeCall c, call.For config pkt s →
      (s.router = pkt.dest →
        call.routeTorus balance = some ((config.vcs pkt.type).offer (2 * c.gN), s.ph)) ∧
      (s.router ≠ pkt.dest → ∃ s', call.Takes balance s') := by
  obtain ⟨htrack, hdistance⟩ := route_onTrack hvcs hsource hroute
  refine ⟨?_, fun call hfor => ⟨routeTorus_arrived hfor htrack, fun hne => ?_⟩⟩
  · rw [← torusDistance_eq_zero]
    omega
  · obtain ⟨s', htakes, -⟩ := exists_takes hfor htrack hne hvcs
    exact ⟨s', htakes⟩

theorem four_lt : 4 < (⟨5, 2⟩ : Cube).gNodes := by decide

theorem six_lt : 6 < (⟨5, 2⟩ : Cube).gNodes := by decide

/-- A packet to router 6 of a torus of five by five, -/
def wrapping : CubePacket ⟨5, 2⟩ := ⟨.anyType, ⟨6, six_lt⟩⟩

/-- as it is injected at router 4, -/
def beforeWrap : CubeSpot ⟨5, 2⟩ := ⟨⟨4, four_lt⟩, 4, 0, -1⟩

/-- and where it is when it has wrapped around. -/
def afterWrap : CubeSpot ⟨5, 2⟩ := ⟨⟨0, Nat.zero_lt_of_lt four_lt⟩, 1, 1, 1⟩

theorem beforeWrap_source : Source ⟨5, 2⟩ .twoVCs wrapping beforeWrap := ⟨rfl, by decide, by decide⟩

theorem afterWrap_route : Route ⟨5, 2⟩ .twoVCs false wrapping beforeWrap 1 afterWrap := by
  refine .step .start ⟨beforeWrap.call .twoVCs wrapping, CubeSpot.call_for _ _ _, [⟨0, 1, 1, 0⟩],
    ⟨0, 1, 1, 0⟩, by decide, List.mem_singleton_self _, ?_, by decide, by decide⟩
  exact ⟨by decide, 0, by decide, false, by decide, rfl⟩

theorem route_minimal_wrapped :
    (afterWrap.router = wrapping.dest ↔
      1 = (⟨5, 2⟩ : Cube).torusDistance beforeWrap.router wrapping.dest) ∧
    ∀ call : CubeCall ⟨5, 2⟩, call.For .twoVCs wrapping afterWrap →
      (afterWrap.router = wrapping.dest → call.routeTorus false =
        some ((RoutingConfig.twoVCs.vcs wrapping.type).offer (2 * (⟨5, 2⟩ : Cube).gN), afterWrap.ph)) ∧
      (afterWrap.router ≠ wrapping.dest → ∃ s', call.Takes false s') :=
  route_minimal (by decide) beforeWrap_source afterWrap_route

end Routes

/-! ### No deadlock -/

/-- A packet that waits, with the call that has been made for it. -/
structure Waiting (c : Cube) (config : RoutingConfig) (balance : Bool) where
  pkt : CubePacket c
  spot : CubeSpot c
  call : CubeCall c
  source : CubeSpot c
  hops : Nat
  injected : Source c config pkt source
  reached : Route c config balance pkt source hops spot
  routed : call.For config pkt spot
  inTransit : spot.router ≠ pkt.dest

namespace Waiting

/-- The buffer that it is in: the router, the input port and the virtual channel. -/
def holds (w : Waiting c config balance) : Fin c.gNodes × Int × Int :=
  (w.spot.router, w.spot.inChannel, w.spot.vc)

/-- The buffers that it may go on to. -/
def wants (w : Waiting c config balance) (buffer : Fin c.gNodes × Int × Int) : Prop :=
  ∃ s' : CubeSpot c, w.call.Takes balance s' ∧ (s'.router, s'.inChannel, s'.vc) = buffer

end Waiting

/-- Packets with two virtual channels at least, of types that share all of them or none,
never wait for each other in a circle as they go around the torus in dimension order,
whichever directions and partitions they draw. -/
theorem not_deadlock {S : Set (Waiting c config balance)}
    (hvcs : ∀ w ∈ S, (config.vcs w.pkt.type).vcBegin < (config.vcs w.pkt.type).vcEnd)
    (hshared : ∀ w ∈ S, ∀ q ∈ S, config.vcs q.pkt.type = config.vcs w.pkt.type ∨
      (config.vcs q.pkt.type).vcEnd < (config.vcs w.pkt.type).vcBegin ∨
      (config.vcs w.pkt.type).vcEnd < (config.vcs q.pkt.type).vcBegin) :
    ¬ Progress.Deadlock Waiting.holds Waiting.wants S := by
  have htrack : ∀ w ∈ S, OnTrack c config balance w.pkt w.spot := fun w hw =>
    (route_onTrack (hvcs w hw) w.injected w.reached).1
  refine Progress.not_deadlock_of_rank (fun w => rank balance w.spot) (c.gN * c.gK)
    (fun w hw => ?_) (fun w hw => ?_)
  · rcases (htrack w hw).entered with hinjected | ⟨dim, right, hentered⟩
    · exact (if_pos hinjected).trans_le (Nat.zero_le _)
    · exact hentered.rank_le.1
  · obtain ⟨s', htakes, hown⟩ := exists_takes w.routed (htrack w hw) w.inTransit (hvcs w hw)
    obtain ⟨-, dim, right, hadvances⟩ := takes_advances w.routed (htrack w hw) (hvcs w hw) htakes
    refine ⟨_, ⟨s', htakes, rfl⟩, fun q hq hholds => ?_⟩
    obtain ⟨hrouter, hbuffer⟩ := Prod.mk.inj hholds
    obtain ⟨hin, hvc⟩ := Prod.mk.inj hbuffer
    -- who holds the virtual channel of the half is in the half too, and has its rank
    have hrank : rank balance q.spot = rank balance s' := by
      rcases (htrack q hq).entered with hinjected | ⟨dim', right', hentered⟩
      · have hlt := hadvances.differs.dim_lt
        have hport := (opposite_directionPort dim right).2.2
        rw [hin, hadvances.inChannel] at hinjected
        omega
      · have hbounds := hadvances.vc.bounds (hvcs w hw)
        have hbounds' := hentered.vc.bounds (hvcs q hq)
        rw [hvc] at hbounds'
        have hsame : config.vcs q.pkt.type = config.vcs w.pkt.type := by
          rcases hshared w hw q hq with heq | hbelow | habove
          · exact heq
          · omega
          · omega
        have hhalf := hentered.vc
        rw [hsame, hvc, hown] at hhalf
        have hph := hhalf.eq_of_own (hvcs w hw) hadvances.heading.half hentered.heading.half
        simp only [rank, hin, hph, hrouter]
    rw [hrank]
    exact hadvances.rank_lt (htrack w hw)

/-- The packet that has wrapped around, alone. -/
def afterWrapWaiting : Waiting ⟨5, 2⟩ .twoVCs false where
  pkt := wrapping
  spot := afterWrap
  call := afterWrap.call .twoVCs wrapping
  source := beforeWrap
  hops := 1
  injected := beforeWrap_source
  reached := afterWrap_route
  routed := CubeSpot.call_for _ _ _
  inTransit h := absurd (congrArg Fin.val h) (Nat.succ_ne_zero 5).symm

theorem not_deadlock_wrapped :
    ¬ Progress.Deadlock Waiting.holds Waiting.wants {afterWrapWaiting} := by
  refine not_deadlock (fun w hw => ?_) (fun w hw q hq => ?_)
  · rw [Set.mem_singleton_iff.mp hw]
    decide
  · rw [Set.mem_singleton_iff.mp hw, Set.mem_singleton_iff.mp hq]
    exact .inl rfl

end Flyover.Torus
