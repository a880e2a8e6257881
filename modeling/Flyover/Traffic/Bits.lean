import Mathlib.Data.Set.Finite.Basic
import Mathlib.Data.Set.Function
import Mathlib.Order.Interval.Set.Defs
import Mathlib.Order.Interval.Finset.Nat

/-!
# Functions that move bits

A function on the numbers of so many bits that takes each bit of its result from one
bit of its argument, and flips all of them or none. It permutes the numbers if every
bit is taken, and it is its own inverse if the way the bits move is.
-/

/-- Bit `i` of the result is bit `source i` of the argument, flipped or not. -/
structure MovesBits (bits : ℕ) (source : ℕ → ℕ) (flip : Bool) (f : ℕ → ℕ) : Prop where
  testBit : ∀ x < 2 ^ bits, ∀ i,
    (f x).testBit i = (decide (i < bits) && (x.testBit (source i) ^^ flip))

namespace MovesBits

variable {bits : ℕ} {source : ℕ → ℕ} {flip : Bool} {f : ℕ → ℕ}

theorem mapsTo (h : MovesBits bits source flip f) :
    Set.MapsTo f (Set.Iio (2 ^ bits)) (Set.Iio (2 ^ bits)) := by
  intro x hx
  apply Nat.lt_pow_two_of_testBit
  intro i hi
  rw [h.testBit x hx, decide_eq_false (Nat.not_lt.mpr hi), Bool.false_and]

theorem injOn (h : MovesBits bits source flip f) (htaken : ∀ j < bits, ∃ i < bits, source i = j) :
    Set.InjOn f (Set.Iio (2 ^ bits)) := by
  intro x hx y hy hxy
  apply Nat.eq_of_testBit_eq
  intro j
  by_cases hj : j < bits
  · obtain ⟨i, hi, rfl⟩ := htaken j hj
    have hbit : (f x).testBit i = (f y).testBit i := by rw [hxy]
    rw [h.testBit x hx, h.testBit y hy, decide_eq_true hi, Bool.true_and, Bool.true_and] at hbit
    exact Bool.xor_left_inj.mp hbit
  · have hpow : 2 ^ bits ≤ 2 ^ j := Nat.pow_le_pow_right (by decide) (Nat.not_lt.mp hj)
    rw [Nat.testBit_lt_two_pow (Nat.lt_of_lt_of_le hx hpow),
      Nat.testBit_lt_two_pow (Nat.lt_of_lt_of_le hy hpow)]

theorem bijOn (h : MovesBits bits source flip f) (htaken : ∀ j < bits, ∃ i < bits, source i = j) :
    Set.BijOn f (Set.Iio (2 ^ bits)) (Set.Iio (2 ^ bits)) :=
  ((Set.finite_Iio _).injOn_iff_bijOn_of_mapsTo h.mapsTo).mp (h.injOn htaken)

/-- Moving the bits twice brings them back if each stands where it came from. -/
theorem leftInvOn (h : MovesBits bits source flip f)
    (hback : ∀ i < bits, source i < bits ∧ source (source i) = i) :
    Set.LeftInvOn f f (Set.Iio (2 ^ bits)) := by
  intro x hx
  apply Nat.eq_of_testBit_eq
  intro i
  rw [h.testBit (f x) (h.mapsTo hx), h.testBit x hx]
  by_cases hi : i < bits
  · obtain ⟨hlt, hsource⟩ := hback i hi
    simp [hi, hlt, hsource]
  · have hpow : 2 ^ bits ≤ 2 ^ i := Nat.pow_le_pow_right (by decide) (Nat.not_lt.mp hi)
    rw [decide_eq_false hi, Bool.false_and,
      Nat.testBit_lt_two_pow (Nat.lt_of_lt_of_le hx hpow)]

theorem taken_of_back (hback : ∀ i < bits, source i < bits ∧ source (source i) = i) :
    ∀ j < bits, ∃ i < bits, source i = j :=
  fun j hj => ⟨source j, hback j hj⟩

end MovesBits
