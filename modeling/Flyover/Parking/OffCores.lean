import Mathlib.Algebra.Group.Int.Defs
import Mathlib.Algebra.Group.Nat.Defs
import Mathlib.Data.Finset.Card
import Mathlib.Data.Int.Basic
import Mathlib.Data.List.Sort
import Flyover.Progress.Drawing

/-!
# Selecting the cores that are off

`Network::_Alloc` draws cores until it has as many as the percentile says, none of
them twice, none in the bottom row and not the fabric manager. The check before the
loop leaves room for the bottom row, but not for the fabric manager.
-/

namespace Flyover

open Drawing

/-- An `int` computation that wraps around. -/
def toInt32 (x : Int) : Int := Int.bmod x (2 ^ 32)

/-- An `int` converted to `unsigned`. -/
def toUnsigned (x : Int) : Nat := (x % 2 ^ 32).toNat

/-- `_nodes * _powergate_percentile / 100` -/
def offCoreShare (nodes : Nat) (percentile : Int) : Int := (toInt32 (nodes * percentile)).tdiv 100

/-- `num_off_cores` -/
def numOffCores (nodes : Nat) (percentile : Int) : Nat := toUnsigned (offCoreShare nodes percentile)

/-- The check that one row is kept active; the sum is unsigned. -/
def TooHigh (gK nodes : Nat) (percentile : Int) : Prop :=
  (numOffCores nodes percentile + gK) % 2 ^ 32 > nodes

instance (gK nodes : Nat) (percentile : Int) : Decidable (TooHigh gK nodes percentile) :=
  inferInstanceAs (Decidable (_ > _))

/-- `_fabric_manager` after its default has been put in. -/
def fabricManagerId (gK size : Nat) (fabricManager : Int) : Int :=
  if fabricManager < 0 ∨ fabricManager ≥ size then
    ((gK * gK / 2 : Nat) : Int) - ((gK / 2 : Nat) : Int) - 1
  else fabricManager

/-- `_off_cores` after so many iterations. -/
def drawOffCores (gK nodes : Nat) (fabricManager : Int) : Nat → Draws (List Nat)
  | 0 => pure []
  | i + 1 => do
      let offCores ← drawOffCores gK nodes fabricManager i
      let cid : Nat ← drawUntil (nodes - 1 - gK) fun cid =>
        some (!(decide (cid ∈ offCores) || decide ((cid : Int) = fabricManager)))
      pure (offCores ++ [cid])

/-- `_off_cores` after the selection, sorted; a percentile that is too high is an error. -/
def selectOffCores (gK nodes size : Nat) (percentile fabricManager : Int) : Draws (List Nat) :=
  if TooHigh gK nodes percentile then ofOption none
  else do
    let offCores ← drawOffCores gK nodes (fabricManagerId gK size fabricManager)
      (numOffCores nodes percentile)
    pure (offCores.insertionSort (· ≤ ·))

/-- As many different cores as wanted, all outside the bottom row. -/
structure OffCores (gK nodes count : Nat) (offCores : List Nat) : Prop where
  length : offCores.length = count
  nodup : offCores.Nodup
  above : ∀ cid ∈ offCores, cid < nodes - gK

/-- A core that can be drawn next. -/
def Candidate (gK nodes : Nat) (fabricManager : Int) (offCores : List Nat) (cid : Nat) : Prop :=
  cid ≤ nodes - 1 - gK ∧ cid ∉ offCores ∧ (cid : Int) ≠ fabricManager

/-- The selection can always finish, with the right number of cores. -/
structure CanFinish (gK nodes size : Nat) (percentile fabricManager : Int) : Prop where
  candidate : ∀ i < numOffCores nodes percentile, ∀ draws offCores rest,
    drawOffCores gK nodes (fabricManagerId gK size fabricManager) i draws = .ok (offCores, rest) →
      ∃ cid, Candidate gK nodes (fabricManagerId gK size fabricManager) offCores cid
  settles : Settles (selectOffCores gK nodes size percentile fabricManager) fun offCores =>
    OffCores gK nodes (numOffCores nodes percentile) offCores ∧ offCores.Pairwise (· ≤ ·)

section

variable {gK nodes : Nat} {fabricManager : Int}

/-- What the loop has after so many iterations. -/
structure Drawn (gK nodes : Nat) (fabricManager : Int) (i : Nat) (offCores : List Nat) : Prop
    extends OffCores gK nodes i offCores where
  ne_manager : ∀ cid ∈ offCores, (cid : Int) ≠ fabricManager

theorem Drawn.append {i cid : Nat} {offCores : List Nat} (hrows : gK < nodes)
    (h : Drawn gK nodes fabricManager i offCores)
    (hcid : Candidate gK nodes fabricManager offCores cid) :
    Drawn gK nodes fabricManager (i + 1) (offCores ++ [cid]) where
  length := by rw [List.length_append, h.length, List.length_singleton]
  nodup := by
    rw [List.nodup_append]
    refine ⟨h.nodup, List.nodup_singleton cid, ?_⟩
    rintro a ha b hb rfl
    exact hcid.2.1 (List.mem_singleton.mp hb ▸ ha)
  above := by
    intro c hc
    rcases List.mem_append.mp hc with hc | hc
    · exact h.above c hc
    · have hle := hcid.1
      rw [List.mem_singleton.mp hc]
      omega
  ne_manager := by
    intro c hc
    rcases List.mem_append.mp hc with hc | hc
    · exact h.ne_manager c hc
    · rw [List.mem_singleton.mp hc]
      exact hcid.2.2

/-- The test of the loop that draws. -/
theorem candidate_iff {offCores : List Nat} {cid : Nat} :
    cid ≤ nodes - 1 - gK ∧
      some (!(decide (cid ∈ offCores) || decide ((cid : Int) = fabricManager))) = some true ↔
    Candidate gK nodes fabricManager offCores cid := by
  simp [Candidate]

theorem drawOffCores_delivers (hrows : gK < nodes) (i : Nat) :
    Delivers (drawOffCores gK nodes fabricManager i) (Drawn gK nodes fabricManager i) := by
  induction i with
  | zero => exact Delivers.pure ⟨⟨rfl, List.nodup_nil, nofun⟩, nofun⟩
  | succ i ih =>
      unfold drawOffCores
      refine ih.bind fun offCores hdrawn => ?_
      refine Delivers.drawUntil.bind fun cid hcid => ?_
      exact Delivers.pure (hdrawn.append hrows (candidate_iff.mp hcid))

/-- The loop settles while there is a candidate after every iteration. -/
theorem drawOffCores_settles (hrows : gK < nodes) {count : Nat}
    (hcandidate : ∀ i < count, ∀ offCores, Drawn gK nodes fabricManager i offCores →
      ∃ cid, Candidate gK nodes fabricManager offCores cid) {i : Nat} (hi : i ≤ count) :
    Settles (drawOffCores gK nodes fabricManager i) (Drawn gK nodes fabricManager i) := by
  induction i with
  | zero => exact Settles.pure ⟨⟨rfl, List.nodup_nil, nofun⟩, nofun⟩
  | succ i ih =>
      unfold drawOffCores
      apply (ih (Nat.le_of_succ_le hi)).bind
      intro offCores hdrawn
      obtain ⟨cid, hcid⟩ := hcandidate i hi offCores hdrawn
      obtain ⟨hle, htest⟩ := candidate_iff.mpr hcid
      apply (Settles.drawUntil (fun _ _ => rfl) ⟨cid, hle, htest⟩).bind
      intro cid' hcid'
      exact Settles.pure (hdrawn.append hrows (candidate_iff.mp hcid'))

theorem Drawn.sort {i : Nat} {offCores : List Nat} (h : Drawn gK nodes fabricManager i offCores) :
    Drawn gK nodes fabricManager i (offCores.insertionSort (· ≤ ·)) := by
  have hperm := List.perm_insertionSort (· ≤ ·) offCores
  refine ⟨⟨hperm.length_eq.trans h.length, hperm.nodup_iff.mpr h.nodup, ?_⟩, ?_⟩
  · exact fun cid hcid => h.above cid (hperm.mem_iff.mp hcid)
  · exact fun cid hcid => h.ne_manager cid (hperm.mem_iff.mp hcid)

theorem selectOffCores_delivers (hrows : gK < nodes) (size : Nat) (percentile fabricManager : Int) :
    Delivers (selectOffCores gK nodes size percentile fabricManager)
      (Drawn gK nodes (fabricManagerId gK size fabricManager) (numOffCores nodes percentile)) := by
  unfold selectOffCores
  by_cases hhigh : TooHigh gK nodes percentile
  · rw [if_pos hhigh]
    intro draws offCores rest hok
    cases hok
  · rw [if_neg hhigh]
    exact (drawOffCores_delivers hrows _).bind fun _ hdrawn => Delivers.pure hdrawn.sort

end

/-! ### When there is a candidate -/

theorem exists_not_mem {n : Nat} {xs : List Nat} (h : xs.length < n) : ∃ c < n, c ∉ xs := by
  have hcard : xs.toFinset.card < (Finset.range n).card := by
    rw [Finset.card_range]
    exact (List.toFinset_card_le xs).trans_lt h
  obtain ⟨c, hc, hnot⟩ := Finset.exists_mem_notMem_of_card_lt_card hcard
  exact ⟨c, Finset.mem_range.mp hc, fun hmem => hnot (List.mem_toFinset.mpr hmem)⟩

theorem length_le_of_nodup {n : Nat} {xs : List Nat} (hnodup : xs.Nodup) (h : ∀ c ∈ xs, c < n) :
    xs.length ≤ n := by
  have hsub : xs ⊆ List.range n := fun c hc => List.mem_range.mpr (h c hc)
  have hle := (List.subperm_of_subset hnodup hsub).length_le
  rwa [List.length_range] at hle

/-- The number of cores as an `int` is small; as `unsigned` it is the same, or huge. -/
theorem numOffCores_cases (nodes : Nat) (percentile : Int) :
    0 ≤ offCoreShare nodes percentile ∧
        (numOffCores nodes percentile : Int) = offCoreShare nodes percentile ∧
        numOffCores nodes percentile ≤ 2 ^ 25 ∨
      offCoreShare nodes percentile < 0 ∧ 2 ^ 31 ≤ numOffCores nodes percentile := by
  have hsmall : (offCoreShare nodes percentile).natAbs ≤ 2 ^ 25 := by
    rw [offCoreShare, Int.natAbs_tdiv]
    have hlow : -(2 ^ 32 / 2) ≤ toInt32 (nodes * percentile) := Int.le_bmod (by decide)
    have hhigh : toInt32 (nodes * percentile) < (2 ^ 32 + 1) / 2 := Int.bmod_lt (by decide)
    have habs : (toInt32 (nodes * percentile)).natAbs ≤ 2 ^ 31 := by omega
    exact Nat.div_le_of_le_mul (habs.trans (by decide))
  unfold numOffCores toUnsigned
  omega

/-- The percentile leaves a row and, unless it is in that row, the fabric manager. -/
def Selectable (k : Nat) (percentile fabricManager : Int) : Prop :=
  0 ≤ offCoreShare (k * k) percentile ∧
    (offCoreShare (k * k) percentile < k * k - k ∨
      offCoreShare (k * k) percentile = k * k - k ∧
        (k * k - k ≤ fabricManager ∧ fabricManager < k * k))

variable {k : Nat} {percentile fabricManager : Int}

/-- The default is above the bottom row. -/
theorem fabricManagerId_default (hk : 2 ≤ k) (h : fabricManager < 0 ∨ fabricManager ≥ (k * k : Nat)) :
    0 ≤ fabricManagerId k (k * k) fabricManager ∧
      fabricManagerId k (k * k) fabricManager < k * k - k := by
  rw [fabricManagerId, if_pos h]
  have hsquare : 2 * k ≤ k * k := Nat.mul_le_mul_right k hk
  rw [← Int.natCast_mul]
  generalize k * k = square at hsquare ⊢
  omega

/-- A selectable percentile passes the check. -/
theorem Selectable.not_tooHigh (hk : 2 ≤ k) (hint : k * k < 2 ^ 31)
    (h : Selectable k percentile fabricManager) : ¬ TooHigh k (k * k) percentile := by
  have hsquare : 2 * k ≤ k * k := Nat.mul_le_mul_right k hk
  have hcast : ((k * k : Nat) : Int) = k * k := Int.natCast_mul k k
  obtain ⟨hpos, hshare⟩ := h
  unfold TooHigh
  rcases numOffCores_cases (k * k) percentile with ⟨-, hnum, -⟩ | ⟨hneg, -⟩
  · omega
  · exact absurd hpos (not_le.mpr hneg)

/-- A selectable percentile leaves a candidate after every iteration. -/
theorem Selectable.exists_candidate (hk : 2 ≤ k) (h : Selectable k percentile fabricManager) {i : Nat}
    (hi : i < numOffCores (k * k) percentile) {offCores : List Nat}
    (hdrawn : Drawn k (k * k) (fabricManagerId k (k * k) fabricManager) i offCores) :
    ∃ cid, Candidate k (k * k) (fabricManagerId k (k * k) fabricManager) offCores cid := by
  have hsquare : 2 * k ≤ k * k := Nat.mul_le_mul_right k hk
  obtain ⟨hpos, hshare⟩ := h
  have hnum : (numOffCores (k * k) percentile : Int) = offCoreShare (k * k) percentile := by
    rcases numOffCores_cases (k * k) percentile with ⟨-, hnum, -⟩ | ⟨hneg, -⟩
    · exact hnum
    · exact absurd hpos (not_le.mpr hneg)
  have hcast : ((k * k : Nat) : Int) = k * k := Int.natCast_mul k k
  rcases hshare with hless | ⟨heq, hlow, hhigh⟩
  · -- room for one more, and for the fabric manager
    have hlength : ((fabricManagerId k (k * k) fabricManager).toNat :: offCores).length <
        k * k - k := by
      rw [List.length_cons, hdrawn.length]
      omega
    obtain ⟨cid, hcid, hnot⟩ := exists_not_mem hlength
    rw [List.mem_cons, not_or] at hnot
    exact ⟨cid, by omega, hnot.2, by omega⟩
  · -- the fabric manager is in the bottom row
    have hlength : offCores.length < k * k - k := by
      rw [hdrawn.length]
      omega
    obtain ⟨cid, hcid, hnot⟩ := exists_not_mem hlength
    refine ⟨cid, by omega, hnot, ?_⟩
    rw [fabricManagerId, if_neg (by omega)]
    omega

/-- Cores that have been drawn leave no place for the fabric manager above the bottom row. -/
theorem Drawn.length_lt {gK nodes i : Nat} {offCores : List Nat}
    (h : Drawn gK nodes fabricManager i offCores) (hlow : 0 ≤ fabricManager)
    (hhigh : fabricManager < ((nodes - gK : Nat) : Int)) : i < nodes - gK := by
  have hnodup : (fabricManager.toNat :: offCores).Nodup := by
    rw [List.nodup_cons]
    refine ⟨fun hmem => h.ne_manager _ hmem ?_, h.nodup⟩
    exact Int.toNat_of_nonneg hlow
  have hle := length_le_of_nodup (n := nodes - gK) hnodup (by
    intro c hc
    rcases List.mem_cons.mp hc with rfl | hc
    · omega
    · exact h.above c hc)
  rw [List.length_cons, h.length] at hle
  exact hle

/-- A percentile for which the loop has ended once is selectable. -/
theorem selectable_of_drawn (hk : 2 ≤ k) (hint : k * k < 2 ^ 31) {offCores : List Nat}
    (h : Drawn k (k * k) (fabricManagerId k (k * k) fabricManager)
      (numOffCores (k * k) percentile) offCores) : Selectable k percentile fabricManager := by
  have hsquare : 2 * k ≤ k * k := Nat.mul_le_mul_right k hk
  have hcast : ((k * k : Nat) : Int) = k * k := Int.natCast_mul k k
  have hcount := length_le_of_nodup h.nodup h.above
  rw [h.length] at hcount
  rcases numOffCores_cases (k * k) percentile with ⟨hpos, hnum, -⟩ | ⟨-, hhuge⟩
  · refine ⟨hpos, ?_⟩
    by_cases hless : offCoreShare (k * k) percentile < k * k - k
    · exact .inl hless
    · refine .inr ⟨by omega, ?_⟩
      by_contra hout
      have hmanager : 0 ≤ fabricManagerId k (k * k) fabricManager ∧
          fabricManagerId k (k * k) fabricManager < k * k - k := by
        by_cases hdefault : fabricManager < 0 ∨ fabricManager ≥ (k * k : Nat)
        · exact fabricManagerId_default hk hdefault
        · rw [fabricManagerId, if_neg hdefault]
          omega
      have hlt := h.length_lt hmanager.1 (by omega)
      omega
  · omega

/-- The selection can finish exactly if the percentile leaves room for the fabric manager
as well, or this is in the bottom row. -/
theorem canFinish_iff (hk : 2 ≤ k) (hint : k * k < 2 ^ 31) (percentile fabricManager : Int) :
    CanFinish k (k * k) (k * k) percentile fabricManager ↔
      Selectable k percentile fabricManager := by
  have hsquare : 2 * k ≤ k * k := Nat.mul_le_mul_right k hk
  have hrows : k < k * k := by omega
  constructor
  · rintro ⟨-, hsettles⟩
    obtain ⟨draws, offCores, rest, hok⟩ := hsettles.exists_result
    exact selectable_of_drawn hk hint
      (selectOffCores_delivers hrows _ _ _ draws offCores rest hok)
  · intro h
    have hcandidate : ∀ i < numOffCores (k * k) percentile, ∀ offCores,
        Drawn k (k * k) (fabricManagerId k (k * k) fabricManager) i offCores →
          ∃ cid, Candidate k (k * k) (fabricManagerId k (k * k) fabricManager) offCores cid :=
      fun i hi offCores hdrawn => h.exists_candidate hk hi hdrawn
    constructor
    case candidate =>
      intro i hi draws offCores rest hok
      exact hcandidate i hi offCores (drawOffCores_delivers hrows i draws offCores rest hok)
    case settles =>
      rw [selectOffCores, if_neg (h.not_tooHigh hk hint)]
      apply (drawOffCores_settles hrows hcandidate le_rfl).bind
      intro offCores hdrawn
      exact Settles.pure ⟨hdrawn.sort.toOffCores, List.pairwise_insertionSort _ offCores⟩

theorem canFinish_iff_fourNodes : (2 ≤ 2 ∧ 2 * 2 < 2 ^ 31) ∧
    (CanFinish 2 (2 * 2) (2 * 2) 25 (-1) ↔ Selectable 2 25 (-1)) :=
  ⟨by decide, canFinish_iff (by decide) (by decide) 25 (-1)⟩

/-- Half of the cores of the 2 by 2 mesh are to be off, and the fabric manager is router 0. -/
theorem not_canFinish_half : ¬ ∀ (k : Nat) (percentile fabricManager : Int), 2 ≤ k →
    k * k < 2 ^ 31 → ¬ TooHigh k (k * k) percentile →
      CanFinish k (k * k) (k * k) percentile fabricManager := by
  intro hall
  have hfinish := hall 2 50 (-1) (by decide) (by decide) (by decide)
  obtain ⟨draws, offCores, rest, hok⟩ := hfinish.settles.exists_result
  have hdrawn : Drawn 2 (2 * 2) 0 2 offCores :=
    selectOffCores_delivers (by decide) _ _ _ draws offCores rest hok
  exact absurd (hdrawn.length_lt (by decide) (by decide)) (by decide)

end Flyover
