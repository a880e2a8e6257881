import Flyover.Routing.CubeMesh

/-!
# What the baselines offer and what is kept

An output set holds one entry of each priority, the first. So a call loses an
offer when two of its calls of `AddRange` give one priority: `chaos_mesh` and
`min_adapt_mesh` give every productive dimension the same, `planar_adapt_mesh`
both dimensions of its plane.
-/

namespace Flyover

open KeyedSet

theorem Offer.Covers.pri_eq (a b : Offer) (t : OfferedVC) (ha : a.Covers t) (hb : b.Covers t) :
    a.pri = b.pri :=
  ha.2.2.symm.trans hb.2.2

/-- The output set that the calls leave represents what they offer. -/
def Kept (calls : List Offer) : Prop :=
  ∀ t, Covered Offer.Covers (ofList Offer.pri calls) t ↔ Covered Offer.Covers calls t

theorem kept_of_pris {calls : List Offer} (h : calls.Pairwise fun a b => a.pri ≠ b.pri) :
    Kept calls :=
  covered_ofList_of_keys Offer.Covers.pri_eq h

theorem kept_offer (vcs : VCRange) (outPort : Int) : Kept (vcs.offer outPort) :=
  kept_of_pris (List.pairwise_singleton _ _)

/-- Of calls with one priority the first is kept. -/
theorem kept_cons_iff {first : Offer} {calls : List Offer}
    (h : ∀ c ∈ calls, c.pri = first.pri) :
    Kept (first :: calls) ↔ ∀ c ∈ calls, ∀ t, c.Covers t → first.Covers t := by
  rw [Kept, ofList_cons_of_keys h]
  constructor
  · intro hkept c hc t ht
    obtain ⟨e, he, het⟩ := (hkept t).mpr ⟨c, List.mem_cons_of_mem _ hc, ht⟩
    exact List.mem_singleton.mp he ▸ het
  · intro hcovers t
    constructor
    · rintro ⟨e, he, het⟩
      exact ⟨e, List.mem_singleton.mp he ▸ List.mem_cons_self, het⟩
    · rintro ⟨e, he, het⟩
      refine ⟨first, List.mem_singleton_self _, ?_⟩
      rcases List.mem_cons.mp he with rfl | he
      · exact het
      · exact hcovers e he t het

/-- A second port at the priority of the first is kept only if nothing is offered there. -/
theorem kept_cons_offer_iff {first : Offer} {vcs : VCRange} {outPort : Int}
    (hport : outPort ≠ first.outputPort) (hpri : first.pri = 0) :
    Kept (first :: vcs.offer outPort) ↔ vcs.vcEnd < vcs.vcBegin := by
  have hsame : ∀ c ∈ vcs.offer outPort, c.pri = first.pri := by
    intro c hc
    rw [List.mem_singleton.mp hc, hpri]
  rw [kept_cons_iff hsame]
  constructor
  · intro hcovers
    by_contra hle
    have ht := hcovers _ (List.mem_singleton_self _) ⟨outPort, vcs.vcBegin, 0⟩
      ⟨rfl, ⟨le_rfl, not_lt.mp hle⟩, rfl⟩
    exact hport ht.1
  · intro hempty c hc t ht
    rw [List.mem_singleton.mp hc] at ht
    exact absurd (ht.2.1.1.trans ht.2.1.2) (not_le.mpr hempty)

/-- A call with a priority of its own does not matter. -/
theorem kept_cons_iff_of_ne {first : Offer} {calls : List Offer}
    (h : ∀ c ∈ calls, c.pri ≠ first.pri) : Kept (first :: calls) ↔ Kept calls := by
  have hbeq : ∀ c ∈ calls, (first.pri == c.pri) = false := fun c hc =>
    beq_eq_false_iff_ne.mpr (h c hc).symm
  rw [Kept, Kept, covered_ofList_iff Offer.Covers.pri_eq, covered_ofList_iff Offer.Covers.pri_eq]
  constructor
  · intro hkept c hc e he
    refine hkept c (List.mem_cons_of_mem _ hc) e ?_
    rwa [List.find?_cons, hbeq c hc]
  · intro hkept c hc e he t ht
    rcases List.mem_cons.mp hc with rfl | hc
    · rw [List.find?_cons, beq_self_eq_true] at he
      exact Option.some.inj he ▸ ht
    · rw [List.find?_cons, hbeq c hc] at he
      exact hkept c hc e he t ht

/-- Calls that differ by their ports. -/
theorem kept_iff_of_range {calls : List Offer} {vcs : VCRange} {pri : Int}
    (h : ∀ c ∈ calls, c = ⟨c.outputPort, vcs.vcBegin, vcs.vcEnd, pri⟩) :
    Kept calls ↔
      vcs.vcEnd < vcs.vcBegin ∨ ∀ a ∈ calls, ∀ b ∈ calls, a.outputPort = b.outputPort := by
  have hcovers : ∀ a ∈ calls, ∀ t, a.Covers t ↔
      t.outputPort = a.outputPort ∧ (vcs.vcBegin ≤ t.vc ∧ t.vc ≤ vcs.vcEnd) ∧ t.pri = pri := by
    intro a ha t
    rw [h a ha]
    rfl
  cases calls with
  | nil => simp [Kept, Covered, ofList]
  | cons first calls =>
      have hfirst := List.mem_cons_self (a := first) (l := calls)
      have hpri : ∀ c ∈ calls, c.pri = first.pri := by
        intro c hc
        rw [h c (List.mem_cons_of_mem _ hc), h first hfirst]
      rw [kept_cons_iff hpri]
      constructor
      · intro hkept
        by_cases hempty : vcs.vcEnd < vcs.vcBegin
        · exact .inl hempty
        · have hport : ∀ a ∈ first :: calls, a.outputPort = first.outputPort := by
            intro a ha
            rcases List.mem_cons.mp ha with rfl | hc
            · rfl
            · have ht := hkept a hc ⟨a.outputPort, vcs.vcBegin, pri⟩
                ((hcovers a ha _).mpr ⟨rfl, ⟨le_rfl, not_lt.mp hempty⟩, rfl⟩)
              exact ((hcovers first hfirst _).mp ht).1
          exact .inr fun a ha b hb => (hport a ha).trans (hport b hb).symm
      · rintro hports c hc t ht
        have hmem := List.mem_cons_of_mem first hc
        obtain ⟨hport, hrange, htpri⟩ := (hcovers c hmem t).mp ht
        rcases hports with hempty | hports
        · exact absurd (hrange.1.trans hrange.2) (not_le.mpr hempty)
        · exact (hcovers first hfirst t).mpr
            ⟨hport.trans (hports c hmem first hfirst), hrange, htpri⟩

namespace Cube

/-! ### Coordinates -/

/-- The coordinate of a router in a dimension. -/
def coordinate (gK n dim : Nat) : Nat := n / gK ^ dim % gK

@[simp] theorem coordinate_zero (gK n : Nat) : coordinate gK n 0 = n % gK := by
  simp [coordinate]

theorem coordinate_succ (gK n dim : Nat) :
    coordinate gK n (dim + 1) = coordinate gK (n / gK) dim := by
  rw [coordinate, coordinate, pow_succ', Nat.div_div_eq_div_mul]

theorem coordinate_of_le {gK n dims dim : Nat} (hn : n < gK ^ dims) (hdim : dims ≤ dim) :
    coordinate gK n dim = 0 := by
  rcases Nat.eq_zero_or_pos gK with rfl | hgK
  · have hzero : n = 0 := by
      cases dims with
      | zero => exact Nat.lt_one_iff.mp hn
      | succ dims => simp at hn
    rw [hzero, coordinate, Nat.zero_div, Nat.zero_mod]
  · rw [coordinate, Nat.div_eq_of_lt (hn.trans_le (Nat.pow_le_pow_right hgK hdim)), Nat.zero_mod]

theorem eq_of_coordinates {gK dims a b : Nat} (ha : a < gK ^ dims) (hb : b < gK ^ dims)
    (h : ∀ dim < dims, coordinate gK a dim = coordinate gK b dim) : a = b := by
  induction dims generalizing a b with
  | zero => exact (Nat.lt_one_iff.mp ha).trans (Nat.lt_one_iff.mp hb).symm
  | succ dims ih =>
      have hlow : a % gK = b % gK := by simpa using h 0 (Nat.zero_lt_succ _)
      rw [pow_succ] at ha hb
      have hhigh : a / gK = b / gK := by
        apply ih (Nat.div_lt_of_lt_mul (Nat.mul_comm _ _ ▸ ha))
          (Nat.div_lt_of_lt_mul (Nat.mul_comm _ _ ▸ hb))
        intro dim hdim
        rw [← coordinate_succ, ← coordinate_succ]
        exact h (dim + 1) (Nat.succ_lt_succ hdim)
      rw [← Nat.div_add_mod a gK, ← Nat.div_add_mod b gK, hlow, hhigh]

theorem sidePort_inj {i j a b a' b' : Nat} (h : sidePort i a b = sidePort j a' b') : i = j := by
  unfold sidePort at h
  split at h <;> split at h <;> omega

/-! ### The loops -/

/-- The offer in a dimension. -/
def minimalOffer (gK : Nat) (vcs : VCRange) (pri : Int) (n cur dest dim : Nat) : Offer :=
  ⟨sidePort (n + dim) (coordinate gK cur dim) (coordinate gK dest dim), vcs.vcBegin, vcs.vcEnd,
    pri⟩

theorem mem_minimalOffers {gK : Nat} {vcs : VCRange} {pri : Int} {o : Offer}
    {left n cur dest : Nat} :
    o ∈ minimalOffers gK vcs pri left n cur dest ↔
      ∃ dim < left, coordinate gK cur dim ≠ coordinate gK dest dim ∧
        o = minimalOffer gK vcs pri n cur dest dim := by
  induction left generalizing n cur dest with
  | zero => simp [minimalOffers]
  | succ left ih =>
      have hrest : o ∈ minimalOffers gK vcs pri left (n + 1) (cur / gK) (dest / gK) ↔
          ∃ dim < left, coordinate gK cur (dim + 1) ≠ coordinate gK dest (dim + 1) ∧
            o = minimalOffer gK vcs pri n cur dest (dim + 1) := by
        simp only [ih, minimalOffer, coordinate_succ, Nat.add_assoc, Nat.add_comm 1]
      rw [Nat.exists_lt_succ_left, minimalOffers, ← hrest]
      simp only [coordinate_zero, minimalOffer, Nat.add_zero]
      split
      next hne => simp [hne]
      next heq => simp [not_not.mp heq]

theorem findPlane_some {gK : Nat} {misrouted : Bool} {left n cur dest : Nat}
    {plane : Nat × Nat × Nat} (h : findPlane gK misrouted left n cur dest = some plane) :
    ∃ dim < left, plane = (n + dim, cur / gK ^ dim, dest / gK ^ dim) ∧
      coordinate gK cur dim ≠ coordinate gK dest dim ∧ ¬ (misrouted = true ∧ n + dim = 0) ∧
      ∀ j < dim, coordinate gK cur j ≠ coordinate gK dest j → misrouted = true ∧ n + j = 0 := by
  induction left generalizing n cur dest with
  | zero => cases h
  | succ left ih =>
      rw [findPlane] at h
      split at h
      next hplane =>
        refine ⟨0, Nat.zero_lt_succ _, ?_, by simpa using hplane.1, hplane.2, nofun⟩
        simpa using (Option.some.inj h).symm
      next hnot =>
        obtain ⟨dim, hdim, rfl, hdiffers, hkeep, hbefore⟩ := ih h
        refine ⟨dim + 1, Nat.succ_lt_succ hdim, ?_, ?_, ?_, ?_⟩
        · simp [pow_succ', Nat.div_div_eq_div_mul, Nat.add_assoc, Nat.add_comm 1]
        · simpa only [coordinate_succ] using hdiffers
        · rwa [← Nat.add_assoc, Nat.add_right_comm]
        · intro j hj hne
          cases j with
          | zero =>
              rw [coordinate_zero, coordinate_zero] at hne
              exact not_not.mp fun hno => hnot ⟨hne, hno⟩
          | succ j =>
              rw [coordinate_succ, coordinate_succ] at hne
              have := hbefore j (Nat.lt_of_succ_lt_succ hj) hne
              exact absurd this.2 (by omega)

end Cube

/-- The routing functions without power gating. -/
inductive CubeRouting where
  | dimOrderMesh
  | dimOrderNiMesh
  | dimOrderPniMesh
  | xyYxMesh
  | adaptiveXYYXMesh
  | rommMesh
  | rommNiMesh
  | valiantMesh
  | minAdaptiveMesh
  | minAdaptMesh
  | planarAdaptMesh
  | chaosMesh
  deriving DecidableEq, Repr

namespace CubeCall

variable {c : Cube} (call : CubeCall c)

/-- The calls of `AddRange` of one call of a routing function. -/
def offers : CubeRouting → Option (List Offer)
  | .dimOrderMesh => call.dimOrderMesh
  | .dimOrderNiMesh => call.dimOrderNiMesh
  | .dimOrderPniMesh => call.dimOrderPniMesh
  | .xyYxMesh => call.xyYxMesh
  | .adaptiveXYYXMesh => call.adaptiveXYYXMesh
  | .rommMesh => call.rommMesh
  | .rommNiMesh => call.rommNiMesh
  | .valiantMesh => call.valiantMesh
  | .minAdaptiveMesh => call.minAdaptiveMesh
  | .minAdaptMesh => call.minAdaptMesh
  | .planarAdaptMesh => call.planarAdaptMesh
  | .chaosMesh => call.chaosMesh

/-- The router and the destination have different coordinates in a dimension. -/
def Differs (dim : Nat) : Prop :=
  Cube.coordinate c.gK call.id dim ≠ Cube.coordinate c.gK call.f.dest dim

/-- The direction to the destination in a dimension. -/
def port (dim : Nat) : Int :=
  Cube.sidePort dim (Cube.coordinate c.gK call.id dim) (Cube.coordinate c.gK call.f.dest dim)

/-- There is one way at most: the router and the destination differ in no two
dimensions. -/
def Straight : Prop :=
  ∀ i j, i < c.gN → j < c.gN → call.Differs i → call.Differs j → i = j

/-- The first dimension of the adaptive plane. -/
structure InPlane (dim : Nat) : Prop where
  differs : call.Differs dim
  keep : ¬ (call.misrouted = true ∧ dim = 0)
  before : ∀ j < dim, call.Differs j → call.misrouted = true ∧ j = 0

/-- When a call keeps what it offers. Two productive dimensions are too many for
`chaos_mesh`, and for `min_adapt_mesh` unless the range that it offers is empty;
there the escape entry has the priority of the others if the first virtual
channel of the class is 1. In `planar_adapt_mesh` both dimensions of the plane are
offered when neither has a fault and the second does not lead back, and the range
for the second is empty when the class has fewer than three virtual channels. -/
def Keeps : CubeRouting → Prop
  | .chaosMesh => call.inject = true ∨ call.Straight
  | .minAdaptMesh => call.inject = true ∨ call.id = call.f.dest ∨
      call.inVC = call.vcs.vcBegin ∨ call.vcs.vcEnd ≤ call.vcs.vcBegin ∨
      call.vcs.vcBegin ≠ 1 ∧ call.Straight
  | .planarAdaptMesh => call.inject = true ∨ ∀ dim, call.InPlane dim →
      call.isFaultyOutput (call.port dim) = true ∨ ¬ call.Differs (dim + 1) ∨
      call.port (dim + 1) = call.inChannel ∨
      call.isFaultyOutput (call.port (dim + 1)) = true ∨ call.vcs.vcEnd - call.vcs.vcBegin < 2
  | _ => True

variable {call}

theorem differs_lt {dim : Nat} (h : call.Differs dim) : dim < c.gN := by
  by_contra hge
  push Not at hge
  exact h ((Cube.coordinate_of_le call.id.isLt hge).trans
    (Cube.coordinate_of_le call.f.dest.isLt hge).symm)

theorem exists_differs (h : call.id ≠ call.f.dest) : ∃ dim < c.gN, call.Differs dim := by
  by_contra hnone
  push Not at hnone
  exact h (Fin.ext (Cube.eq_of_coordinates call.id.isLt call.f.dest.isLt
    fun dim hdim => not_not.mp (hnone dim hdim)))

/-! ### One call -/

theorem routeXYYX_kept {order : Bool} {calls : List Offer}
    (h : call.routeXYYX order = some calls) : Kept calls := by
  simp only [routeXYYX, Option.bind_eq_bind, Option.pure_def, Option.bind_eq_some_iff] at h
  obtain ⟨⟨⟩, -, h⟩ := h
  split at h
  next => exact Option.some.inj h ▸ kept_offer _ _
  next =>
    split at h
    next => exact Option.some.inj h ▸ kept_offer _ _
    next =>
      obtain ⟨vcs, -, h⟩ := Option.bind_eq_some_iff.mp h
      exact Option.some.inj h ▸ kept_offer _ _

theorem routePhased_kept {intermediate : Nat} {calls : List Offer}
    (h : call.routePhased intermediate = some calls) : Kept calls := by
  simp only [routePhased, Option.bind_eq_bind, Option.pure_def, Option.bind_eq_some_iff] at h
  obtain ⟨⟨⟩, -, h⟩ := h
  split at h
  next => exact Option.some.inj h ▸ kept_offer _ _
  next =>
    split at h
    next => exact Option.some.inj h ▸ kept_offer _ _
    next =>
      obtain ⟨vcs, -, h⟩ := Option.bind_eq_some_iff.mp h
      split at h
      next => exact Option.some.inj h ▸ kept_offer _ _
      next => cases h

theorem dimOrderMesh_kept {calls : List Offer} (h : call.dimOrderMesh = some calls) :
    Kept calls := by
  obtain ⟨⟨⟩, -, h⟩ := Option.bind_eq_some_iff.mp h
  exact Option.some.inj h ▸ kept_offer _ _

theorem dimOrderNiMesh_kept {calls : List Offer} (h : call.dimOrderNiMesh = some calls) :
    Kept calls := by
  obtain ⟨⟨⟩, -, h⟩ := Option.bind_eq_some_iff.mp h
  obtain ⟨vcs, -, h⟩ := Option.bind_eq_some_iff.mp h
  exact Option.some.inj h ▸ kept_offer _ _

theorem dimOrderPniMesh_kept {calls : List Offer} (h : call.dimOrderPniMesh = some calls) :
    Kept calls := by
  obtain ⟨⟨⟩, -, h⟩ := Option.bind_eq_some_iff.mp h
  split at h
  next =>
    obtain ⟨vcs, -, h⟩ := Option.bind_eq_some_iff.mp h
    exact Option.some.inj h ▸ kept_offer _ _
  next => exact Option.some.inj h ▸ kept_offer _ _

theorem rommNiMesh_kept {calls : List Offer} (h : call.rommNiMesh = some calls) :
    Kept calls := by
  obtain ⟨⟨⟩, -, h⟩ := Option.bind_eq_some_iff.mp h
  obtain ⟨vcs, -, h⟩ := Option.bind_eq_some_iff.mp h
  split at h
  next => exact Option.some.inj h ▸ kept_offer _ _
  next => exact Option.some.inj h ▸ kept_offer _ _

/-! ### Several calls -/

/-- At the endpoints there is one call, between them the rest of the function decides. -/
theorem routeMinimal_cases {transit calls : List Offer}
    (h : call.routeMinimal transit = some calls) :
    (call.inject = true ∨ call.id = call.f.dest) ∧ Kept calls ∨
      call.inject = false ∧ call.id ≠ call.f.dest ∧ calls = transit := by
  obtain ⟨⟨⟩, -, h⟩ := Option.bind_eq_some_iff.mp h
  split at h
  next hinject => exact .inl ⟨.inl hinject, Option.some.inj h ▸ kept_offer _ _⟩
  next hinject =>
    split at h
    next hdest => exact .inl ⟨.inr hdest, Option.some.inj h ▸ kept_offer _ _⟩
    next hdest =>
      exact .inr ⟨Bool.eq_false_of_not_eq_true hinject, hdest, (Option.some.inj h).symm⟩

theorem minAdaptiveMesh_kept {calls : List Offer} (h : call.minAdaptiveMesh = some calls) :
    Kept calls := by
  rcases routeMinimal_cases h with ⟨-, hkept⟩ | ⟨-, -, rfl⟩
  · exact hkept
  · apply kept_of_pris
    by_cases hfirst : call.freeCredit (c.dorNextMesh call.id call.f.dest false) ≥
        call.freeCredit (c.dorNextMesh call.id call.f.dest true) <;>
      by_cases hport : c.dorNextMesh call.id call.f.dest false =
        c.dorNextMesh call.id call.f.dest true <;>
      by_cases hvc : call.inVC = call.vcs.vcBegin <;> simp [hfirst, hport, hvc]

theorem kept_minimalOffers {vcs : VCRange} {pri : Int} :
    Kept (Cube.minimalOffers c.gK vcs pri c.gN 0 call.id call.f.dest) ↔
      vcs.vcEnd < vcs.vcBegin ∨ call.Straight := by
  have hrange : ∀ o ∈ Cube.minimalOffers c.gK vcs pri c.gN 0 call.id call.f.dest,
      o = ⟨o.outputPort, vcs.vcBegin, vcs.vcEnd, pri⟩ := by
    intro o ho
    obtain ⟨dim, -, -, rfl⟩ := Cube.mem_minimalOffers.mp ho
    rfl
  rw [kept_iff_of_range hrange]
  apply or_congr_right
  constructor
  · intro hports i j hi hj hdi hdj
    have heq := hports _ (Cube.mem_minimalOffers.mpr ⟨i, hi, hdi, rfl⟩)
      _ (Cube.mem_minimalOffers.mpr ⟨j, hj, hdj, rfl⟩)
    simpa using Cube.sidePort_inj heq
  · intro hstraight a ha b hb
    obtain ⟨i, hi, hdi, rfl⟩ := Cube.mem_minimalOffers.mp ha
    obtain ⟨j, hj, hdj, rfl⟩ := Cube.mem_minimalOffers.mp hb
    rw [hstraight i j hi hj hdi hdj]

theorem chaosMesh_kept_iff {calls : List Offer} (h : call.chaosMesh = some calls) :
    Kept calls ↔ call.Keeps .chaosMesh := by
  obtain rfl := Option.some.inj h
  unfold Keeps
  split
  next hinject => simp [hinject, kept_of_pris]
  next hinject =>
    split
    next hne => simp [hinject, kept_minimalOffers]
    next hdest =>
      have hstraight : call.Straight := fun i j _ _ hi => absurd (by rw [not_not.mp hdest]) hi
      exact iff_of_true (kept_of_pris (List.pairwise_singleton _ _)) (.inr hstraight)

theorem minAdaptMesh_kept_iff {calls : List Offer} (h : call.minAdaptMesh = some calls) :
    Kept calls ↔ call.Keeps .minAdaptMesh := by
  unfold Keeps
  rcases routeMinimal_cases h with ⟨hend, hkept⟩ | ⟨hinject, hne, rfl⟩
  · refine iff_of_true hkept ?_
    rcases hend with hinject | hdest
    · exact .inl hinject
    · exact .inr (.inl hdest)
  · by_cases hvc : call.inVC = call.vcs.vcBegin
    · simp [hvc, kept_of_pris]
    · have hpri : ∀ o ∈ Cube.minimalOffers c.gK ⟨call.vcs.vcBegin + 1, call.vcs.vcEnd⟩ 1 c.gN 0
          call.id call.f.dest, o.pri = 1 := by
        intro o ho
        obtain ⟨dim, -, -, rfl⟩ := Cube.mem_minimalOffers.mp ho
        rfl
      rw [if_pos hvc]
      by_cases hone : call.vcs.vcBegin = 1
      · -- The escape entry has taken the priority of the others.
        rw [kept_cons_iff fun o ho => (hpri o ho).trans hone.symm]
        rw [hone] at hvc
        simp only [hinject, Bool.false_eq_true, hne, hvc, hone, ne_eq, not_true_eq_false,
          false_and, or_false, false_or]
        constructor
        · intro hcovers
          by_contra hlt
          obtain ⟨dim, hdim, hdiffers⟩ := exists_differs hne
          have ht := hcovers _ (Cube.mem_minimalOffers.mpr ⟨dim, hdim, hdiffers, rfl⟩)
            ⟨_, 2, 1⟩ ⟨rfl, ⟨le_rfl, not_le.mp hlt⟩, rfl⟩
          exact absurd ht.2.1.2 (show ¬ (2 : Int) ≤ 1 by decide)
        · intro hle o ho t ht
          obtain ⟨dim, -, -, rfl⟩ := Cube.mem_minimalOffers.mp ho
          have hrange : (1 : Int) + 1 ≤ call.vcs.vcEnd := ht.2.1.1.trans ht.2.1.2
          exact absurd (hrange.trans hle) (by decide)
      · rw [kept_cons_iff_of_ne, kept_minimalOffers]
        · simp only [Int.lt_add_one_iff, hinject, Bool.false_eq_true, hne, hvc, ne_eq, hone,
            not_false_eq_true, true_and, false_or]
        · intro o ho
          rw [hpri o ho]
          exact fun heq => hone heq.symm

/-- What the second dimension of a plane adds when the first has no fault. -/
theorem planarSecond_of_no_fault {n cur dest : Nat} {vcs : VCRange} {second : List Offer}
    (h : call.planarSecond false n cur dest vcs = some second) :
    second = if cur = dest ∨ Cube.sidePort n cur dest = call.inChannel ∨
      call.isFaultyOutput (Cube.sidePort n cur dest) = true then []
      else vcs.offer (Cube.sidePort n cur dest) := by
  unfold planarSecond at h
  by_cases heq : cur = dest
  · have hnone : secondPort n cur dest = -1 := by simp [secondPort, heq]
    rw [hnone] at h
    simpa [heq] using h.symm
  · have hport : secondPort n cur dest = Cube.sidePort n cur dest := by
      rw [secondPort, if_pos heq]
      rfl
    have hside : Cube.sidePort n cur dest ≠ -1 := by
      unfold Cube.sidePort
      split <;> omega
    rw [hport] at h
    by_cases hback : Cube.sidePort n cur dest = call.inChannel
    · simpa [hback] using h.symm
    · simp only [if_neg hback, if_pos hside] at h
      by_cases hfaulty : call.isFaultyOutput (Cube.sidePort n cur dest) = true
      · simpa [hfaulty] using h.symm
      · rw [Bool.not_eq_true] at hfaulty
        simpa [hfaulty, heq, hback] using h.symm

theorem misroute_kept {n cur : Nat} {vcs : VCRange} {calls : List Offer}
    (h : call.misroute n cur vcs = some calls) : Kept calls := by
  unfold misroute at h
  extract_lets atEdge random d1 at h
  split at h
  next => exact Option.some.inj h ▸ kept_offer _ _
  next =>
    split at h
    next => exact Option.some.inj h ▸ kept_offer _ _
    next => cases h

/-- With a fault in the first dimension there is one offer. -/
theorem planarSecond_of_fault {n cur dest : Nat} {vcs : VCRange} {second : List Offer}
    (h : call.planarSecond true n cur dest vcs = some second) : Kept second := by
  unfold planarSecond at h
  extract_lets d d1 at h
  split at h
  next =>
    split at h
    next => exact Option.some.inj h ▸ kept_offer _ _
    next => cases h
  next => exact misroute_kept h

theorem InPlane.unique {i j : Nat} (hi : call.InPlane i) (hj : call.InPlane j) : i = j := by
  rcases lt_trichotomy i j with hlt | heq | hlt
  · exact absurd (hj.before i hlt hi.differs) hi.keep
  · exact heq
  · exact absurd (hi.before j hlt hj.differs) hj.keep

/-- On the way, the first dimension of the plane is offered unless it has a fault,
and then what the second adds. -/
theorem planarAdaptMesh_cases {calls : List Offer} (h : call.planarAdaptMesh = some calls) :
    (call.inject = true ∨ call.id = call.f.dest) ∧ Kept calls ∨
      call.inject = false ∧ call.vcs.vcBegin ≤ call.vcs.vcEnd ∧
      ∃ dim vcBegin second, call.InPlane dim ∧
        call.planarSecond (call.isFaultyOutput (call.port dim)) ((dim + 1) % c.gN)
          (Cube.coordinate c.gK call.id (dim + 1)) (Cube.coordinate c.gK call.f.dest (dim + 1))
          ⟨vcBegin, vcBegin + call.vcMult - 1⟩ = some second ∧
        calls = if call.isFaultyOutput (call.port dim) then second
          else ⟨call.port dim, call.vcs.vcBegin + 2 * call.vcMult, call.vcs.vcEnd, 0⟩ :: second := by
  obtain ⟨⟨⟩, hassert, h⟩ := Option.bind_eq_some_iff.mp h
  split at h
  next hinject => exact .inl ⟨.inl hinject, Option.some.inj h ▸ kept_offer _ _⟩
  next hinject =>
    split at h
    next hne =>
      obtain ⟨plane, hplane, h⟩ := Option.bind_eq_some_iff.mp h
      obtain ⟨second, hsecond, h⟩ := Option.bind_eq_some_iff.mp h
      obtain ⟨dim, hdim, rfl, hdiffers, hkeep, hbefore⟩ := Cube.findPlane_some hplane
      have hnext : ∀ n : Nat, n / c.gK ^ dim / c.gK % c.gK =
          Cube.coordinate c.gK n (dim + 1) := by
        intro n
        rw [Cube.coordinate, Nat.div_div_eq_div_mul, pow_succ]
      have hrange : call.vcs.vcBegin ≤ call.f.vc ∧ call.f.vc ≤ call.vcs.vcEnd := by
        by_contra hout
        rw [assertVC, if_neg] at hassert
        · cases hassert
        · simp [hinject, hout]
      simp only [Nat.zero_add, hnext] at hkeep hbefore hsecond h
      exact .inr ⟨Bool.eq_false_of_not_eq_true hinject, hrange.1.trans hrange.2, dim, _, second,
        ⟨hdiffers, hkeep, hbefore⟩, hsecond, (Option.some.inj h).symm⟩
    next hdest => exact .inl ⟨.inr (not_not.mp hdest), Option.some.inj h ▸ kept_offer _ _⟩

theorem planarAdaptMesh_kept_iff {calls : List Offer} (h : call.planarAdaptMesh = some calls) :
    Kept calls ↔ call.Keeps .planarAdaptMesh := by
  unfold Keeps
  rcases planarAdaptMesh_cases h with ⟨hend, hkept⟩ |
    ⟨hinject, hle, dim, vcBegin, second, hplane, hsecond, rfl⟩
  · refine iff_of_true hkept (hend.imp_right fun hdest other hother => ?_)
    exact absurd (by rw [hdest]) hother.differs
  · have hall : (∀ other, call.InPlane other →
        call.isFaultyOutput (call.port other) = true ∨ ¬ call.Differs (other + 1) ∨
          call.port (other + 1) = call.inChannel ∨
          call.isFaultyOutput (call.port (other + 1)) = true ∨
          call.vcs.vcEnd - call.vcs.vcBegin < 2) ↔
        call.isFaultyOutput (call.port dim) = true ∨ ¬ call.Differs (dim + 1) ∨
          call.port (dim + 1) = call.inChannel ∨
          call.isFaultyOutput (call.port (dim + 1)) = true ∨
          call.vcs.vcEnd - call.vcs.vcBegin < 2 :=
      ⟨fun hkeeps => hkeeps dim hplane, fun hkeeps other hother => hother.unique hplane ▸ hkeeps⟩
    rw [hall]
    simp only [hinject, Bool.false_eq_true, false_or]
    cases hfault : call.isFaultyOutput (call.port dim) with
    | true =>
        rw [hfault] at hsecond
        exact iff_of_true (planarSecond_of_fault hsecond) (.inl rfl)
    | false =>
        rw [hfault] at hsecond
        have hport : call.Differs (dim + 1) → (dim + 1) % c.gN = dim + 1 := fun hdiffers =>
          Nat.mod_eq_of_lt (differs_lt hdiffers)
        have hmult : call.vcMult ≤ 0 ↔ call.vcs.vcEnd - call.vcs.vcBegin < 2 := by
          rw [vcMult, Int.tdiv_eq_ediv_of_nonneg (by omega)]
          omega
        rw [planarSecond_of_no_fault hsecond]
        by_cases hdiffers : call.Differs (dim + 1)
        · have hne : Cube.coordinate c.gK call.id (dim + 1) ≠
            Cube.coordinate c.gK call.f.dest (dim + 1) := hdiffers
          rw [hport hdiffers]
          change Kept (_ :: if _ ∨ call.port (dim + 1) = call.inChannel ∨
            call.isFaultyOutput (call.port (dim + 1)) = true then [] else _) ↔ _
          simp only [hne, hdiffers, not_true_eq_false, Bool.false_eq_true, false_or, ← or_assoc]
          by_cases hskip : call.port (dim + 1) = call.inChannel ∨
              call.isFaultyOutput (call.port (dim + 1)) = true
          · rw [if_pos hskip]
            exact iff_of_true (kept_of_pris (List.pairwise_singleton _ _)) (.inl hskip)
          · have hports : call.port (dim + 1) ≠ call.port dim := fun heq =>
              absurd (Cube.sidePort_inj heq) (Nat.succ_ne_self dim)
            rw [if_neg hskip, kept_cons_offer_iff hports rfl, or_iff_right hskip, ← hmult]
            change vcBegin + call.vcMult - 1 < vcBegin ↔ call.vcMult ≤ 0
            omega
        · have hsame := not_not.mp hdiffers
          rw [if_neg Bool.false_ne_true, if_pos (.inl hsame)]
          exact iff_of_true (kept_of_pris (List.pairwise_singleton _ _)) (.inr (.inl hdiffers))

/-- A call of a routing function keeps all that it offers exactly under its condition. -/
theorem offers_kept_iff (fn : CubeRouting) {calls : List Offer}
    (h : call.offers fn = some calls) : Kept calls ↔ call.Keeps fn := by
  cases fn with
  | chaosMesh => exact chaosMesh_kept_iff h
  | minAdaptMesh => exact minAdaptMesh_kept_iff h
  | planarAdaptMesh => exact planarAdaptMesh_kept_iff h
  | minAdaptiveMesh => exact iff_true_intro (minAdaptiveMesh_kept h)
  | dimOrderMesh => exact iff_true_intro (dimOrderMesh_kept h)
  | dimOrderNiMesh => exact iff_true_intro (dimOrderNiMesh_kept h)
  | dimOrderPniMesh => exact iff_true_intro (dimOrderPniMesh_kept h)
  | xyYxMesh => exact iff_true_intro (routeXYYX_kept h)
  | adaptiveXYYXMesh => exact iff_true_intro (routeXYYX_kept h)
  | rommMesh => exact iff_true_intro (routePhased_kept h)
  | valiantMesh => exact iff_true_intro (routePhased_kept h)
  | rommNiMesh => exact iff_true_intro (rommNiMesh_kept h)

end CubeCall

end Flyover
