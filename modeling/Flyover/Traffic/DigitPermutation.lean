import Mathlib.Algebra.BigOperators.Fin
import Mathlib.Data.ZMod.Defs
import Mathlib.Tactic.Ring
import Flyover.Parking.OffCores
import Flyover.Traffic.BitPermutation

/-!
# Digit permutations

The patterns that send from each node to the one with every digit of its number moved
on by one, and to the one about half a row away. The second pattern was rewritten for
networks of two dimensions: it looks at rows of `k` nodes, and takes neither the
number of dimensions nor the number of nodes to a router into account.
-/

namespace Flyover.Traffic

/-! ## The patterns -/

/-- `offset` and `result` after so many rounds of the loop; `radix` is `_xr * _k`. -/
def neighborLoop (radix source : ℤ) : ℕ → ℤ × ℤ
  | 0 => (1, 0)
  | n + 1 =>
      let (offset, result) := neighborLoop radix source n
      (offset * radix, result + offset * (((source.tdiv offset).tmod radix + 1).tmod radix))

/-- A radix of zero divides by zero in the first round. -/
def neighborDest (nodes : ℕ) (k n xr source : ℤ) : Option ℤ :=
  if xr * k = 0 ∧ 0 < n then none
  else sent nodes source (neighborLoop (xr * k) source n.toNat).2

/-- The division under `ceil` is one of integers. -/
def tornadoDest (nodes : ℕ) (k _n _xr source : ℤ) : Option ℤ :=
  if k = 0 then none
  else
    let srcX := source.tmod k
    let srcY := source.tdiv k
    let destX := (toInt32 (srcX + k.tdiv 2 - 1)).tmod k
    let destY := srcY
    sent nodes source (destY * k + destX)

/-- A permutation of so many numbers is a bijection of the numbers below. -/
theorem bijOn_of_perm {nodes : ℕ} {f : ℕ → ℕ} (p : Equiv.Perm (Fin nodes))
    (hf : ∀ x : Fin nodes, f x = p x) : Set.BijOn f (Set.Iio nodes) (Set.Iio nodes) := by
  refine ⟨?_, ?_, ?_⟩
  · intro x hx
    exact (hf ⟨x, hx⟩).trans_lt (p ⟨x, hx⟩).isLt
  · intro x hx y hy hxy
    have hval : p ⟨x, hx⟩ = p ⟨y, hy⟩ := Fin.ext ((hf ⟨x, hx⟩).symm.trans (hxy.trans (hf ⟨y, hy⟩)))
    exact congrArg Fin.val (p.injective hval)
  · intro y hy
    refine ⟨p.symm ⟨y, hy⟩, (p.symm ⟨y, hy⟩).isLt, ?_⟩
    rw [hf, Equiv.apply_symm_apply]

theorem bijOn_one : Set.BijOn (fun _ => 0) (Set.Iio 1) (Set.Iio 1) :=
  bijOn_of_perm (Equiv.refl (Fin 1)) fun x => (Nat.lt_one_iff.mp x.isLt).symm

/-- Adding to a digit goes around. -/
theorem val_addRight {radix : ℕ} [NeZero radix] (c : ℕ) (d : Fin radix) :
    (Equiv.addRight (Fin.ofNat radix c) d : ℕ) = (d + c) % radix := by
  simp [Fin.val_add]

/-! ## The neighbor pattern -/

section Neighbor

variable {radix : ℕ}

/-- The loop adds up the digits, each moved on by one. -/
theorem neighborLoop_eq (radix source n : ℕ) :
    neighborLoop radix source n = (((radix ^ n : ℕ) : ℤ),
      ((∑ i ∈ Finset.range n, (source / radix ^ i % radix + 1) % radix * radix ^ i : ℕ) : ℤ)) := by
  induction n with
  | zero => rfl
  | succ n ih =>
      rw [neighborLoop, ih]
      simp only [Prod.mk.injEq]
      constructor
      · rw [pow_succ, Nat.cast_mul]
      · rw [Finset.sum_range_succ, Nat.cast_add, ← Int.ofNat_tdiv, ← Int.ofNat_tmod,
          ← Int.natCast_succ, ← Int.ofNat_tmod, Nat.mul_comm _ (radix ^ n), Nat.cast_mul]

/-- Moving every digit on by one permutes the numbers with so many digits. -/
theorem bijOn_neighbor (hradix : 0 < radix) (n : ℕ) :
    Set.BijOn (fun x => ∑ i ∈ Finset.range n, (x / radix ^ i % radix + 1) % radix * radix ^ i)
      (Set.Iio (radix ^ n)) (Set.Iio (radix ^ n)) := by
  have : NeZero radix := ⟨Nat.ne_of_gt hradix⟩
  let step : Equiv.Perm (Fin n → Fin radix) :=
    Equiv.piCongrRight fun _ => Equiv.addRight (Fin.ofNat radix 1)
  apply bijOn_of_perm ((finFunctionFinEquiv.symm.trans step).trans finFunctionFinEquiv)
  intro x
  rw [Equiv.trans_apply, Equiv.trans_apply, finFunctionFinEquiv_apply, Finset.sum_range]
  apply Finset.sum_congr rfl
  intro i _
  exact congrArg (· * radix ^ (i : ℕ))
    (val_addRight 1 (finFunctionFinEquiv.symm x i)).symm

theorem permutes_neighbor {nodes : ℕ} {k n xr : ℤ} (hradix : 0 < xr * k ∨ n ≤ 0)
    (hnodes : (xr * k) ^ n.toNat = nodes) : Permutes nodes (neighborDest nodes k n xr) := by
  rcases hradix with hpos | hn
  · obtain ⟨radix, hradix⟩ := Int.eq_ofNat_of_zero_le hpos.le
    rw [hradix] at hpos hnodes
    obtain rfl : radix ^ n.toNat = nodes := by exact_mod_cast hnodes
    apply permutes_of_natCast _ (bijOn_neighbor (Int.natCast_pos.mp hpos) n.toNat)
    intro source hsource
    rw [neighborDest, hradix, if_neg (fun h => hpos.ne' h.1), neighborLoop_eq,
      sent_natCast hsource]
  · -- without a dimension there is one node
    rw [Int.toNat_of_nonpos hn, pow_zero] at hnodes
    obtain rfl : nodes = 1 := by exact_mod_cast hnodes.symm
    apply permutes_of_natCast (f := fun _ => 0) _ bijOn_one
    intro source hsource
    rw [neighborDest, if_neg (fun h => absurd h.2 (not_lt.mpr hn)), Int.toNat_of_nonpos hn,
      sent_natCast hsource]
    rfl

end Neighbor

/-! ## The tornado pattern -/

section Tornado

variable {k nodes : ℕ}

/-- Going around in rows of `k` nodes permutes them. -/
theorem bijOn_rows (hk : 0 < k) (rows c : ℕ) :
    Set.BijOn (fun x => x / k * k + (x % k + c) % k) (Set.Iio (rows * k)) (Set.Iio (rows * k)) := by
  have : NeZero k := ⟨Nat.ne_of_gt hk⟩
  let around : Equiv.Perm (Fin rows × Fin k) :=
    Equiv.prodCongr (Equiv.refl _) (Equiv.addRight (Fin.ofNat k c))
  apply bijOn_of_perm ((finProdFinEquiv.symm.trans around).trans finProdFinEquiv)
  intro x
  have hx : ((finProdFinEquiv.symm.trans around).trans finProdFinEquiv x : ℕ)
      = (Equiv.addRight (Fin.ofNat k c) x.modNat : ℕ) + k * (x.divNat : ℕ) := rfl
  rw [hx, val_addRight, Nat.add_comm, Nat.mul_comm k]
  rfl

theorem toInt32_of_lt {x : ℤ} (hlow : -2 ^ 31 ≤ x) (hhigh : x < 2 ^ 31) : toInt32 x = x :=
  Int.bmod_eq_of_le (by omega) (by omega)

/-- Without an overflow the column moves on by half a row less one. -/
theorem tornadoDest_natCast (hk : 0 < k) (hfits : k + k / 2 < 2 ^ 31 + 2) (n xr : ℤ) {x : ℕ}
    (hx : x < nodes) : tornadoDest nodes k n xr x
      = some ((x / k * k + (x % k + (k / 2 - 1)) % k : ℕ) : ℤ) := by
  have hmod : x % k < k := Nat.mod_lt x hk
  have hcol : (toInt32 ((x % k : ℕ) + (k / 2 : ℕ) - 1)).tmod k
      = (((x % k + (k / 2 - 1)) % k : ℕ) : ℤ) := by
    rw [toInt32_of_lt (by omega) (by omega)]
    by_cases hone : k = 1
    · subst hone
      simp
    · have hhalf : ((x % k : ℕ) + (k / 2 : ℕ) - 1 : ℤ) = ((x % k + (k / 2 - 1) : ℕ) : ℤ) := by
        omega
      rw [hhalf, ← Int.ofNat_tmod]
  have hne : (k : ℤ) ≠ 0 := Int.natCast_ne_zero.mpr (Nat.ne_of_gt hk)
  rw [tornadoDest, if_neg hne]
  simp only [sent_natCast hx, ← Int.ofNat_tmod, ← Int.ofNat_tdiv]
  rw [show ((2 : ℤ)) = ((2 : ℕ) : ℤ) from rfl, ← Int.ofNat_tdiv, hcol]
  push_cast
  rfl

theorem tornadoDest_firstRow {x : ℕ} (hxk : x < k) (hx : x < nodes) (n xr : ℤ) :
    tornadoDest nodes k n xr x = some ((toInt32 (x + (k / 2 : ℕ) - 1)).tmod k) := by
  have hne : (k : ℤ) ≠ 0 := by omega
  rw [tornadoDest, if_neg hne]
  simp only [sent_natCast hx, ← Int.ofNat_tmod, ← Int.ofNat_tdiv, Nat.mod_eq_of_lt hxk,
    Nat.div_eq_of_lt hxk]
  rw [show ((2 : ℤ)) = ((2 : ℕ) : ℤ) from rfl, ← Int.ofNat_tdiv, Int.natCast_zero, Int.zero_mul,
    Int.zero_add]

theorem exists_dest_of_permutes {dest : ℤ → Option ℤ} (h : Permutes nodes dest) {x : ℕ}
    (hx : x < nodes) : ∃ d : ℤ, dest x = some d ∧ 0 ≤ d ∧ d < nodes := by
  obtain ⟨f, hdest, hf⟩ := h
  have hmem : (x : ℤ) ∈ Set.Ico 0 (nodes : ℤ) := ⟨Int.natCast_nonneg x, Int.ofNat_lt.mpr hx⟩
  exact ⟨f x, hdest x hmem, hf.mapsTo hmem⟩

/-- In the column whose sum is just too large for an `int` the pattern leaves the network. -/
theorem not_permutes_of_overflow (hint : k < 2 ^ 31) (hlarge : 2 ^ 31 + 2 ≤ k + k / 2)
    (hrow : k ≤ nodes) (n xr : ℤ) : ¬ Permutes nodes (tornadoDest nodes k n xr) := by
  intro h
  obtain ⟨x, hx⟩ : ∃ x, x = 2 ^ 31 + 1 - k / 2 := ⟨_, rfl⟩
  have hxk : x < k := by omega
  obtain ⟨d, hd, hpos, -⟩ := exists_dest_of_permutes h (Nat.lt_of_lt_of_le hxk hrow)
  have hwrap : toInt32 ((x : ℤ) + (k / 2 : ℕ) - 1) = -(2 ^ 31 : ℕ) := by
    rw [show (x : ℤ) + (k / 2 : ℕ) - 1 = 2 ^ 31 by omega]
    rfl
  rw [tornadoDest_firstRow hxk (Nat.lt_of_lt_of_le hxk hrow), hwrap, Int.neg_tmod,
    ← Int.ofNat_tmod] at hd
  obtain rfl := Option.some.inj hd
  have hdvd : k ∣ 2 ^ 31 := Nat.dvd_of_mod_eq_zero (by omega)
  obtain ⟨q, hq⟩ := hdvd
  -- `k` is more than half of the power, but not all of it
  have hlow : 1 < q := by
    by_contra hle
    have hmul := Nat.mul_le_mul_left k (Nat.not_lt.mp hle)
    omega
  have hmul := Nat.mul_le_mul_left k hlow
  omega

/-- Without a dimension there is one node, and a row of four sends it out of the network. -/
theorem not_permutes_of_one (hk : 3 < k) (hint : k < 2 ^ 31) (n xr : ℤ) :
    ¬ Permutes 1 (tornadoDest 1 k n xr) := by
  intro h
  obtain ⟨d, hd, hpos, hlt⟩ := exists_dest_of_permutes h one_pos
  have hcol : ((0 : ℕ) : ℤ) + (k / 2 : ℕ) - 1 = ((k / 2 - 1 : ℕ) : ℤ) := by omega
  rw [tornadoDest_firstRow (by omega) one_pos, hcol, toInt32_of_lt (by omega) (by omega),
    ← Int.ofNat_tmod, Nat.mod_eq_of_lt (by omega)] at hd
  obtain rfl := Option.some.inj hd
  omega

/-- The pattern permutes the nodes if there is a dimension and no sum overflows, or if a
row is so short that nothing moves. -/
theorem permutes_tornado_iff {n xr : ℤ} (hk : 0 < k) (hint : k < 2 ^ 31)
    (hnodes : (xr * k) ^ n.toNat = nodes) (hpos : 0 < nodes) :
    Permutes nodes (tornadoDest nodes k n xr) ↔
      0 < n ∧ k + k / 2 < 2 ^ 31 + 2 ∨ k ≤ 3 := by
  by_cases hn : 0 < n
  · have hdvd : k ∣ nodes := by
      have hpow : (k : ℤ) ∣ (xr * k) ^ n.toNat :=
        (Int.dvd_mul_left xr k).trans (dvd_pow_self _ (by omega))
      rw [hnodes] at hpow
      exact Int.natCast_dvd_natCast.mp hpow
    have hrow : k ≤ nodes := Nat.le_of_dvd hpos hdvd
    constructor
    · intro h
      refine .inl ⟨hn, ?_⟩
      by_contra hlarge
      exact not_permutes_of_overflow hint (Nat.not_lt.mp hlarge) hrow n xr h
    · intro h
      have hfits : k + k / 2 < 2 ^ 31 + 2 := by omega
      obtain ⟨rows, rfl⟩ := exists_eq_mul_left_of_dvd hdvd
      exact permutes_of_natCast (fun x hx => tornadoDest_natCast hk hfits n xr hx)
        (bijOn_rows hk rows (k / 2 - 1))
  · rw [Int.toNat_of_nonpos (not_lt.mp hn), pow_zero] at hnodes
    obtain rfl : nodes = 1 := by exact_mod_cast hnodes.symm
    constructor
    · intro h
      refine .inr ?_
      by_contra hlarge
      exact not_permutes_of_one (Nat.not_le.mp hlarge) hint n xr h
    · intro h
      have hshort : k ≤ 3 := h.resolve_left fun h => hn h.1
      apply permutes_of_natCast (f := fun _ => 0) _ bijOn_one
      intro x hx
      rw [tornadoDest_natCast hk (by omega) n xr hx, Nat.lt_one_iff.mp hx]
      obtain rfl | rfl | rfl : k = 1 ∨ k = 2 ∨ k = 3 := by omega
      · rfl
      · rfl
      · rfl

end Tornado

end Flyover.Traffic
