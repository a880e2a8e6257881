import Mathlib.Logic.Function.Iterate
import Flyover.Progress.Inevitable

/-!
# Rings and their dateline

A numbering of finitely many places that goes up by one from each place to the
next, and starts over once, makes them a single cycle. The link over which it
starts over is the dateline.

Traffic around a ring uses two classes of channels: one for what has to cross
the dateline yet, one for what has not. What changes from the first class to
the second at the dateline, and only there, waits for no one in a circle.
-/

namespace Dateline

variable {V : Type} {next : V → V} {number : V → Nat} {size : Nat}

/-- The places are numbered along the ring, from 0 up to its size. -/
structure Ring (next : V → V) (number : V → Nat) (size : Nat) : Prop where
  lt : ∀ v, number v < size
  injective : Function.Injective number
  step : ∀ v, number (next v) = (number v + 1) % size

/-- The hops along the ring from one place to another. -/
def ahead (number : V → Nat) (size : Nat) (u v : V) : Nat :=
  (number v + (size - number u)) % size

namespace Ring

variable (h : Ring next number size)

include h

theorem size_pos (v : V) : 0 < size := Nat.lt_of_le_of_lt (Nat.zero_le _) (h.lt v)

theorem number_iterate (v : V) (i : Nat) : number (next^[i] v) = (number v + i) % size := by
  induction i with
  | zero => exact (Nat.mod_eq_of_lt (h.lt v)).symm
  | succ i ih =>
      rw [Function.iterate_succ_apply', h.step, ih, Nat.mod_add_mod, Nat.add_assoc]

theorem iterate_ahead (u v : V) : next^[ahead number size u v] u = v := by
  apply h.injective
  have hu := h.lt u
  rw [h.number_iterate, ahead, Nat.add_mod_mod]
  have hround : number u + (number v + (size - number u)) = number v + size := by omega
  rw [hround, Nat.add_mod_right, Nat.mod_eq_of_lt (h.lt v)]

theorem ahead_lt (u v : V) : ahead number size u v < size := Nat.mod_lt _ (h.size_pos u)

/-- Every place is reached from every other: there is one cycle. -/
theorem reaches (u v : V) : ∃ i < size, next^[i] u = v :=
  ⟨_, h.ahead_lt u v, h.iterate_ahead u v⟩

theorem iterate_size (v : V) : next^[size] v = v := by
  apply h.injective
  rw [h.number_iterate, Nat.add_mod_right, Nat.mod_eq_of_lt (h.lt v)]

theorem next_injective : Function.Injective next := by
  intro u v heq
  have hiterate : ∀ w, next^[size - 1] (next w) = w := by
    intro w
    have hpos := h.size_pos w
    rw [← Function.iterate_succ_apply, Nat.succ_eq_add_one, Nat.sub_add_cancel hpos]
    exact h.iterate_size w
  rw [← hiterate u, heq, hiterate]

theorem exists_number [Nonempty V] {i : Nat} (hi : i < size) : ∃ v, number v = i := by
  obtain ⟨v⟩ := ‹Nonempty V›
  have hv := h.lt v
  refine ⟨next^[size - number v + i] v, ?_⟩
  rw [h.number_iterate]
  have hround : number v + (size - number v + i) = i + size := by omega
  rw [hround, Nat.add_mod_right, Nat.mod_eq_of_lt hi]

/-- The number goes up by one, or starts over at the dateline. -/
theorem step_cases (v : V) :
    number v + 1 < size ∧ number (next v) = number v + 1 ∨
      number v + 1 = size ∧ number (next v) = 0 := by
  have hv := h.lt v
  have hstep := h.step v
  rcases Nat.lt_or_ge (number v + 1) size with hlt | hge
  · rw [Nat.mod_eq_of_lt hlt] at hstep
    exact .inl ⟨hlt, hstep⟩
  · obtain hlast : number v + 1 = size := by omega
    rw [hlast, Nat.mod_self] at hstep
    exact .inr ⟨hlast, hstep⟩

/-- The numbering goes up by one everywhere but at one link. -/
theorem exists_dateline [Nonempty V] : ∃ last, ∀ v, number (next v) = number v + 1 ↔ v ≠ last := by
  obtain ⟨v⟩ := ‹Nonempty V›
  have hpos := h.size_pos v
  have hnonempty : Nonempty V := ⟨v⟩
  obtain ⟨last, hlast⟩ := h.exists_number (i := size - 1) (by omega)
  refine ⟨last, ?_⟩
  intro v
  constructor
  · rintro hstep rfl
    rcases h.step_cases v with ⟨hlt, -⟩ | ⟨-, hzero⟩ <;> omega
  · intro hne
    rcases h.step_cases v with ⟨-, hstep⟩ | ⟨hsize, -⟩
    · exact hstep
    · exact absurd (h.injective (by omega)) hne

/-- Each hop is one nearer. -/
theorem ahead_next {u v : V} (hne : u ≠ v) :
    ahead number size (next u) v + 1 = ahead number size u v := by
  have hu := h.lt u
  have hv := h.lt v
  have hnumber : number u ≠ number v := fun heq => hne (h.injective heq)
  have hround : ∀ a b : Nat, a < size → b = a ∨ b = a + size → b % size = a := by
    rintro a b ha (rfl | rfl)
    · exact Nat.mod_eq_of_lt ha
    · rw [Nat.add_mod_right, Nat.mod_eq_of_lt ha]
  unfold ahead
  rcases h.step_cases u with ⟨hlt, hstep⟩ | ⟨hsize, hzero⟩
  · rw [hstep]
    rcases Nat.lt_or_gt_of_ne hnumber with hbefore | hafter
    · rw [hround (number v - number u - 1) _ (by omega) (.inr (by omega)),
        hround (number v - number u) _ (by omega) (.inr (by omega))]
      omega
    · rw [hround (number v + (size - (number u + 1))) _ (by omega) (.inl rfl),
        hround (number v + (size - number u)) _ (by omega) (.inl rfl)]
      omega
  · rw [hzero, hround (number v) _ hv (.inr (by omega)),
      hround (number v + 1) _ (by omega) (.inl (by omega))]

theorem ahead_self (v : V) : ahead number size v v = 0 := by
  have hv := h.lt v
  have hround : number v + (size - number v) = size := by omega
  rw [ahead, hround, Nat.mod_self]

theorem eq_of_ahead_eq_zero {u v : V} (hzero : ahead number size u v = 0) : u = v := by
  have hreached := h.iterate_ahead u v
  rwa [hzero] at hreached

/-- The same ring, numbered from another place on. -/
theorem startingAt (u : V) : Ring next (ahead number size u) size where
  lt v := h.ahead_lt u v
  injective v w heq := by
    rw [← h.iterate_ahead u v, heq, h.iterate_ahead]
  step v := by
    have hu := h.lt u
    rw [ahead, h.step, ahead, Nat.mod_add_mod, Nat.mod_add_mod]
    congr 1
    omega

end Ring

/-- The class for what goes to `dest` from a place: `before` if that is further
along the numbering, and `crossing` if the dateline is still to be crossed. -/
def classAt (number : V → Nat) (before crossing : Int) (dest v : V) : Int :=
  if number v < number dest then before else crossing

/-- The position of a channel in an order that no traffic goes against: along the
ring, first in the higher class. -/
def rank (number : V → Nat) (size : Nat) (channel : V × Int) : Int :=
  number channel.1 - channel.2 * size

namespace Ring

variable (h : Ring next number size) (before : Int) {dest v : V}

include h

/-- The class stays the same, but for what crosses the dateline. -/
theorem classAt_next (hne : next v ≠ dest) :
    number v + 1 < size ∧
        classAt number before (before + 1) dest (next v) =
          classAt number before (before + 1) dest v ∨
      number v + 1 = size ∧ classAt number before (before + 1) dest v = before + 1 ∧
        classAt number before (before + 1) dest (next v) = before := by
  have hnumber : number (next v) ≠ number dest := fun heq => hne (h.injective heq)
  have hdest := h.lt dest
  unfold classAt
  rcases h.step_cases v with ⟨hlt, hstep⟩ | ⟨hsize, hzero⟩
  · refine .inl ⟨hlt, ?_⟩
    split <;> split <;> omega
  · exact .inr ⟨hsize, if_neg (by omega), if_pos (by omega)⟩

/-- A channel that traffic holds comes before the one that it asks for. -/
theorem rank_lt (hne : next v ≠ dest) :
    rank number size (v, classAt number before (before + 1) dest v) <
      rank number size (next v, classAt number before (before + 1) dest (next v)) := by
  have hv := h.lt v
  unfold rank
  rcases h.classAt_next before hne with ⟨hlt, hsame⟩ | ⟨hsize, hhigh, hlow⟩
  · rcases h.step_cases v with ⟨-, hstep⟩ | ⟨hlast, -⟩
    · rw [hsame, hstep]
      dsimp only
      omega
    · omega
  · rcases h.step_cases v with ⟨hlt, -⟩ | ⟨-, hzero⟩
    · omega
    · rw [hhigh, hlow, hzero, Int.add_mul]
      dsimp only
      omega

end Ring

end Dateline
