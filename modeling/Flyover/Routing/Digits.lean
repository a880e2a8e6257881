import Flyover.Routing.DimensionOrder

/-!
# Digits and ports

In a butterfly and in a fat tree the router at the other end of a channel differs
from this one in one digit of its position: the digit becomes the number of the port
that the channel leaves by, and the channel comes in by the port that has the old
digit as its number.
-/

namespace Flyover

open Flyover.Cube

variable {k n m d v u : Nat}

/-- A number with another digit at place `d`. -/
def replaceDigit (k d v n : Nat) : Nat := n / k ^ (d + 1) * k ^ (d + 1) + v * k ^ d + n % k ^ d

theorem mod_pow_succ (k d n : Nat) : n % k ^ (d + 1) = coordinate k n d * k ^ d + n % k ^ d := by
  rw [pow_succ, Nat.mod_mul, coordinate, Nat.add_comm, Nat.mul_comm]

/-- A number, taken apart at place `d`. -/
theorem replaceDigit_self (k d n : Nat) : replaceDigit k d (coordinate k n d) n = n := by
  rw [replaceDigit, Nat.add_assoc, ← mod_pow_succ]
  exact Nat.div_add_mod' n _

theorem low_lt (hv : v < k) (n : Nat) : v * k ^ d + n % k ^ d < k ^ (d + 1) := by
  have hpow : 0 < k ^ d := Nat.pow_pos (Nat.zero_lt_of_lt hv)
  have hdigit : (v + 1) * k ^ d ≤ k * k ^ d := Nat.mul_le_mul_right _ hv
  have hmod := Nat.mod_lt n hpow
  rw [pow_succ', Nat.add_mul, Nat.one_mul] at *
  omega

theorem replaceDigit_div (hv : v < k) : replaceDigit k d v n / k ^ (d + 1) = n / k ^ (d + 1) := by
  have hpow : 0 < k ^ (d + 1) := Nat.pow_pos (Nat.zero_lt_of_lt hv)
  rw [replaceDigit, Nat.add_assoc, Nat.add_comm, Nat.add_mul_div_right _ _ hpow,
    Nat.div_eq_of_lt (low_lt hv n), Nat.zero_add]

theorem replaceDigit_div_of_lt {j : Nat} (hv : v < k) (hj : d < j) :
    replaceDigit k d v n / k ^ j = n / k ^ j := by
  obtain ⟨i, rfl⟩ := Nat.exists_eq_add_of_lt hj
  have hpow : k ^ (d + i + 1) = k ^ (d + 1) * k ^ i := by ring
  rw [hpow, ← Nat.div_div_eq_div_mul, ← Nat.div_div_eq_div_mul, replaceDigit_div hv]

theorem replaceDigit_mod (hk : 0 < k) : replaceDigit k d v n % k ^ d = n % k ^ d := by
  have hsplit : replaceDigit k d v n = n % k ^ d + k ^ d * (n / k ^ (d + 1) * k + v) := by
    rw [replaceDigit, pow_succ]
    ring
  have hpow : 0 < k ^ d := Nat.pow_pos hk
  rw [hsplit, Nat.add_mul_mod_self_left, Nat.mod_eq_of_lt (Nat.mod_lt n hpow)]

@[simp] theorem coordinate_replaceDigit (hv : v < k) :
    coordinate k (replaceDigit k d v n) d = v := by
  have hpow : 0 < k ^ d := Nat.pow_pos (Nat.zero_lt_of_lt hv)
  have hsplit : replaceDigit k d v n = n % k ^ d + k ^ d * (n / k ^ (d + 1) * k + v) := by
    rw [replaceDigit, pow_succ]
    ring
  rw [coordinate, hsplit, Nat.add_mul_div_left _ _ hpow, Nat.div_eq_of_lt (Nat.mod_lt n hpow),
    Nat.zero_add, Nat.mul_add_mod_self_right, Nat.mod_eq_of_lt hv]

/-- The digits below a place. -/
theorem coordinate_mod_pow {j : Nat} (hk : 0 < k) (hj : j < d) (m : Nat) :
    coordinate k (m % k ^ d) j = coordinate k m j := by
  obtain ⟨e, rfl⟩ := Nat.exists_eq_add_of_lt hj
  have hpow : k ^ (j + e + 1) = k ^ j * (k * k ^ e) := by ring
  conv_rhs => rw [← Nat.mod_add_div m (k ^ (j + e + 1))]
  rw [coordinate, coordinate, hpow, Nat.mul_assoc (k ^ j), Nat.add_mul_div_left _ _ (Nat.pow_pos hk),
    Nat.mul_assoc, Nat.add_mul_mod_self_left]

/-- The other digits stay. -/
theorem coordinate_replaceDigit_of_ne {j : Nat} (hv : v < k) (hj : j ≠ d) :
    coordinate k (replaceDigit k d v n) j = coordinate k n j := by
  have hk : 0 < k := Nat.zero_lt_of_lt hv
  rcases Nat.lt_or_gt_of_ne hj with hlt | hgt
  · rw [← coordinate_mod_pow hk hlt, replaceDigit_mod hk, coordinate_mod_pow hk hlt]
  · rw [coordinate, replaceDigit_div_of_lt hv hgt, coordinate]

theorem replaceDigit_eq_iff (hv : v < k) : replaceDigit k d v n = n ↔ v = coordinate k n d := by
  constructor
  · intro h
    rw [← coordinate_replaceDigit (d := d) (n := n) hv, h]
  · rintro rfl
    exact replaceDigit_self k d n

theorem lt_replaceDigit_iff (hk : 0 < k) : n < replaceDigit k d v n ↔ coordinate k n d < v := by
  conv_lhs => lhs; rw [← replaceDigit_self k d n]
  rw [replaceDigit, replaceDigit, Nat.add_lt_add_iff_right, Nat.add_lt_add_iff_left,
    Nat.mul_lt_mul_right (Nat.pow_pos hk)]

theorem replaceDigit_lt {digits : Nat} (hv : v < k) (hd : d < digits) (hn : n < k ^ digits) :
    replaceDigit k d v n < k ^ digits := by
  have hpow : k ^ digits ≠ 0 := (Nat.pow_pos (Nat.zero_lt_of_lt hv)).ne'
  have hzero : replaceDigit k d v n / k ^ digits = 0 := by
    rw [replaceDigit_div_of_lt hv hd, Nat.div_eq_of_lt hn]
  exact (Nat.div_eq_zero_iff.mp hzero).resolve_left hpow

/-- With the old digit back in its place it is the old number. -/
theorem replaceDigit_back (hv : v < k) :
    replaceDigit k d (coordinate k n d) (replaceDigit k d v n) = n := by
  conv => lhs; rw [replaceDigit, replaceDigit_div hv, replaceDigit_mod (Nat.zero_lt_of_lt hv)]
  exact replaceDigit_self k d n

/-- The digit and the port change places. -/
theorem exchange_iff (hv : v < k) (hu : u < k) :
    m = replaceDigit k d v n ∧ u = coordinate k n d ↔
      n = replaceDigit k d u m ∧ v = coordinate k m d := by
  constructor
  · rintro ⟨rfl, rfl⟩
    exact ⟨(replaceDigit_back hv).symm, (coordinate_replaceDigit hv).symm⟩
  · rintro ⟨rfl, rfl⟩
    exact ⟨(replaceDigit_back hu).symm, (coordinate_replaceDigit hu).symm⟩

/-- One more digit. -/
theorem div_pow_succ (k n d : Nat) : n / k ^ d = n / k ^ (d + 1) * k + coordinate k n d := by
  rw [coordinate, pow_succ, ← Nat.div_div_eq_div_mul, Nat.div_add_mod']

theorem replaceDigit_div_self (hv : v < k) :
    replaceDigit k d v n / k ^ d = n / k ^ (d + 1) * k + v := by
  rw [div_pow_succ, replaceDigit_div hv, coordinate_replaceDigit hv]

theorem eq_mul_add_iff {q r : Nat} (hr : r < k) : n = q * k + r ↔ n / k = q ∧ n % k = r := by
  rw [Nat.div_mod_unique (Nat.zero_lt_of_lt hr), Nat.mul_comm q, Nat.add_comm, eq_comm]
  exact (and_iff_left hr).symm

/-- The number that is numbered `port` among the `k` ports of `pos`. -/
theorem channel_eq_iff {pos pos' port port' : Nat} (hport : port < k) (hport' : port' < k) :
    pos * k + port = pos' * k + port' ↔ pos = pos' ∧ port = port' := by
  constructor
  · intro h
    have hk : 0 < k := Nat.zero_lt_of_lt hport
    have hdiv := congrArg (· / k) h
    have hmod := congrArg (· % k) h
    simp only [Nat.mul_comm _ k, Nat.mul_add_div hk, Nat.mul_add_mod, Nat.div_eq_of_lt hport,
      Nat.div_eq_of_lt hport', Nat.mod_eq_of_lt hport, Nat.mod_eq_of_lt hport', Nat.add_zero]
      at hdiv hmod
    exact ⟨hdiv, hmod⟩
  · rintro ⟨rfl, rfl⟩
    rfl

end Flyover
