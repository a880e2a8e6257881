import Mathlib
import Flyover.Traffic.Bits

/-!
# Bit permutations

The traffic patterns that send from each node to the one whose number has the bits of
its own in another order, or flipped. A node number is an `int` of 32 bits; the
patterns are constructed for powers of two only.
-/

namespace Flyover.Traffic

/-! ## Patterns that permute the nodes -/

/-- The assertion on the source. -/
def sent (nodes : ℕ) (source dest : ℤ) : Option ℤ :=
  if 0 ≤ source ∧ source < nodes then some dest else none

/-- Every node has a destination, and is the destination of one node. -/
def Permutes (nodes : ℕ) (dest : ℤ → Option ℤ) : Prop :=
  ∃ f : ℤ → ℤ, (∀ source ∈ Set.Ico 0 (nodes : ℤ), dest source = some (f source)) ∧
    Set.BijOn f (Set.Ico 0 (nodes : ℤ)) (Set.Ico 0 (nodes : ℤ))

/-- Every node is the destination of its own destination. -/
def SelfInverse (nodes : ℕ) (dest : ℤ → Option ℤ) : Prop :=
  ∀ source ∈ Set.Ico 0 (nodes : ℤ), (dest source).bind dest = some source

theorem sent_natCast {nodes source : ℕ} (h : source < nodes) (dest : ℤ) :
    sent nodes source dest = some dest :=
  if_pos ⟨Int.natCast_nonneg source, Int.ofNat_lt.mpr h⟩

section

variable {nodes : ℕ} {dest : ℤ → Option ℤ} {f : ℕ → ℕ}

theorem permutes_of_natCast (hdest : ∀ source < nodes, dest source = some (f source : ℤ))
    (hf : Set.BijOn f (Set.Iio nodes) (Set.Iio nodes)) : Permutes nodes dest := by
  refine ⟨fun source => f source.toNat, ?_, ?_, ?_, ?_⟩
  · rintro source ⟨hpos, hlt⟩
    lift source to ℕ using hpos
    exact hdest source (Int.ofNat_lt.mp hlt)
  · rintro source ⟨hpos, hlt⟩
    lift source to ℕ using hpos
    exact ⟨Int.natCast_nonneg _, Int.ofNat_lt.mpr (hf.mapsTo (Int.ofNat_lt.mp hlt))⟩
  · rintro source ⟨hpos, hlt⟩ source' ⟨hpos', hlt'⟩ heq
    lift source to ℕ using hpos
    lift source' to ℕ using hpos'
    exact congrArg Nat.cast
      (hf.injOn (Int.ofNat_lt.mp hlt) (Int.ofNat_lt.mp hlt') (Int.ofNat_inj.mp heq))
  · rintro d ⟨hpos, hlt⟩
    lift d to ℕ using hpos
    obtain ⟨source, hsource, rfl⟩ := hf.surjOn (Int.ofNat_lt.mp hlt)
    exact ⟨source, ⟨Int.natCast_nonneg source, Int.ofNat_lt.mpr hsource⟩, rfl⟩

theorem selfInverse_of_natCast (hdest : ∀ source < nodes, dest source = some (f source : ℤ))
    (hmaps : Set.MapsTo f (Set.Iio nodes) (Set.Iio nodes))
    (hf : Set.LeftInvOn f f (Set.Iio nodes)) : SelfInverse nodes dest := by
  rintro source ⟨hpos, hlt⟩
  lift source to ℕ using hpos
  have hlt := Int.ofNat_lt.mp hlt
  rw [hdest source hlt, Option.bind_some, hdest _ (hmaps hlt), hf hlt]

end

/-! ## The patterns -/

/-- The node counts for which a bit permutation is constructed. -/
structure BitAccepts (nodes : ℕ) : Prop where
  int : nodes < 2 ^ 31
  pos : 0 < nodes
  powerOfTwo : BitVec.ofNat 32 nodes &&& -BitVec.ofNat 32 nodes = BitVec.ofNat 32 nodes

def bitCompDest (nodes : ℕ) (source : ℤ) : Option ℤ :=
  let mask := BitVec.ofNat 32 nodes - 1
  sent nodes source (~~~(BitVec.ofInt 32 source) &&& mask).toInt

/-- The loop `while(nodes >>= 1) ++_shift`. -/
def countShift (nodes : ℕ) : ℕ :=
  if nodes >>> 1 = 0 then 0 else countShift (nodes >>> 1) + 1
termination_by nodes
decreasing_by
  simp only [Nat.shiftRight_one] at *
  omega

/-- `_shift`; an odd one is an error. -/
def transposeShift (nodes : ℕ) : Option ℕ :=
  if countShift nodes % 2 ≠ 0 then none else some (countShift nodes >>> 1)

def transposeDest (nodes shift : ℕ) (source : ℤ) : Option ℤ :=
  let maskLo := (1#32 <<< shift) - 1
  let maskHi := maskLo <<< shift
  sent nodes source
    (((BitVec.ofInt 32 source).sshiftRight shift &&& maskLo) |||
      ((BitVec.ofInt 32 source <<< shift) &&& maskHi)).toInt

/-- The loop of the reversal, for at most a number of rounds. -/
def bitRevLoop : ℕ → ℕ → BitVec 32 → BitVec 32 → BitVec 32
  | 0, _, _, result => result
  | rounds + 1, n, source, result =>
      if n > 1 then
        bitRevLoop rounds (n >>> 1) (source.sshiftRight 1) ((result <<< 1) ||| source.srem 2)
      else result

/-- An `int` is halved at most 31 times before it is 1. -/
def bitRevDest (nodes : ℕ) (source : ℤ) : Option ℤ :=
  sent nodes source (bitRevLoop 31 nodes (BitVec.ofInt 32 source) 0).toInt

def shuffleDest (nodes : ℕ) (source : ℤ) : Option ℤ :=
  let shifted := BitVec.ofInt 32 source <<< 1
  sent nodes source
    ((shifted &&& (BitVec.ofNat 32 nodes - 1)) |||
      (if shifted &&& BitVec.ofNat 32 nodes ≠ 0 then 1 else 0)).toInt

/-! ## Node counts are powers of two -/

/-- A number whose bits are those of its negation has one bit. -/
theorem BitAccepts.exists_two_pow {nodes : ℕ} (h : BitAccepts nodes) :
    ∃ bits ≤ 30, nodes = 2 ^ bits := by
  have hbit : ∀ i, (BitVec.ofNat 32 nodes).getLsbD i = nodes.testBit i := by
    intro i
    rw [BitVec.getLsbD_ofNat]
    by_cases hi : i < 32
    · simp [hi]
    · have hlt : nodes < 2 ^ i :=
        Nat.lt_of_lt_of_le h.int (Nat.pow_le_pow_right (by decide) (by omega))
      simp [Nat.testBit_lt_two_pow hlt]
  have hleast : ∀ i j, nodes.testBit i = true → j < i → nodes.testBit j = false := by
    intro i j hi hj
    have hboth : (BitVec.ofNat 32 nodes &&& -BitVec.ofNat 32 nodes).getLsbD i = true := by
      rw [h.powerOfTwo, hbit, hi]
    rw [BitVec.getLsbD_and, BitVec.getLsbD_neg, hbit, hi, Bool.true_and, Bool.true_xor,
      Bool.not_eq_true', Bool.and_eq_false_iff, decide_eq_false_iff_not,
      decide_eq_false_iff_not] at hboth
    rcases hboth with hlarge | hnone
    · have hlt : nodes < 2 ^ i :=
        Nat.lt_of_lt_of_le h.int (Nat.pow_le_pow_right (by decide) (by omega))
      rw [Nat.testBit_lt_two_pow hlt] at hi
      cases hi
    · rw [← hbit, Bool.eq_false_iff]
      exact fun hset => hnone ⟨j, hj, hset⟩
  have htop := Nat.testBit_log2 (Nat.ne_of_gt h.pos)
  refine ⟨nodes.log2, ?_, ?_⟩
  · have hlt : nodes.log2 < 31 := (Nat.log2_lt (Nat.ne_of_gt h.pos)).mpr h.int
    omega
  · apply Nat.eq_of_testBit_eq
    intro i
    rw [Nat.testBit_two_pow]
    rcases Nat.lt_trichotomy i nodes.log2 with hi | hi | hi
    · rw [hleast _ i htop hi, decide_eq_false (Nat.ne_of_gt hi)]
    · rw [hi, htop, decide_eq_true rfl]
    · rw [decide_eq_false (Nat.ne_of_lt hi), Bool.eq_false_iff]
      intro hset
      rw [hleast i _ hset hi] at htop
      cases htop

/-! ## The bits of the destinations -/

section Bits

variable {bits x : ℕ}

/-- The word of a node has the bits of its number. -/
theorem getLsbD_word (hbits : bits ≤ 30) (hx : x < 2 ^ bits) (i : ℕ) :
    (BitVec.ofInt 32 (x : ℤ)).getLsbD i = x.testBit i := by
  rw [BitVec.ofInt_natCast, BitVec.getLsbD_ofNat]
  by_cases hi : i < 32
  · simp [hi]
  · have hlt : x < 2 ^ i := Nat.lt_of_lt_of_le hx (Nat.pow_le_pow_right (by decide) (by omega))
    simp [Nat.testBit_lt_two_pow hlt]

theorem msb_word (hbits : bits ≤ 30) (hx : x < 2 ^ bits) :
    (BitVec.ofInt 32 (x : ℤ)).msb = false := by
  rw [BitVec.msb_eq_getLsbD_last, getLsbD_word hbits hx]
  exact Nat.testBit_lt_two_pow (Nat.lt_of_lt_of_le hx (Nat.pow_le_pow_right (by decide) hbits.step))

theorem getLsbD_mask (hbits : bits ≤ 31) (i : ℕ) :
    (BitVec.ofNat 32 (2 ^ bits) - 1).getLsbD i = decide (i < bits) := by
  have hmask : BitVec.ofNat 32 (2 ^ bits) - 1 = BitVec.ofNat 32 (2 ^ bits - 1) := by
    have hpos : 0 < 2 ^ bits := Nat.two_pow_pos bits
    have hle : 2 ^ bits ≤ 2 ^ 31 := Nat.pow_le_pow_right (by decide) hbits
    apply BitVec.eq_of_toNat_eq
    have hone : (1 : BitVec 32).toNat = 1 := rfl
    simp only [BitVec.toNat_sub, BitVec.toNat_ofNat, hone]
    omega
  rw [hmask, BitVec.getLsbD_ofNat, Nat.testBit_two_pow_sub_one]
  by_cases hi : i < bits
  · simp [hi, show i < 32 by omega]
  · simp [hi]

variable {source : ℕ → ℕ} {flip : Bool} {word : ℤ → BitVec 32}

/-- Words with no bits but those of a node number are node numbers. -/
theorem movesBits_of_getLsbD (hbits : bits ≤ 30) (hword : ∀ x : ℕ, x < 2 ^ bits → ∀ i,
      (word x).getLsbD i = (decide (i < bits) && (x.testBit (source i) ^^ flip))) :
    MovesBits bits source flip (fun x => (word x).toNat) ∧ ∀ x : ℕ, x < 2 ^ bits →
      sent (2 ^ bits) x (word x).toInt = some ((word x).toNat : ℤ) := by
  have hmoves : MovesBits bits source flip fun x => (word x).toNat :=
    ⟨fun x hx i => by rw [BitVec.testBit_toNat, hword x hx]⟩
  refine ⟨hmoves, fun x hx => ?_⟩
  have hlt : (word x).toNat < 2 ^ bits := hmoves.mapsTo hx
  have hpow : 2 ^ bits ≤ 2 ^ 30 := Nat.pow_le_pow_right (by decide) hbits
  rw [sent_natCast hx, BitVec.toInt_eq_toNat_of_lt (by omega)]

theorem permutes_of_getLsbD (hbits : bits ≤ 30) (hword : ∀ x : ℕ, x < 2 ^ bits → ∀ i,
      (word x).getLsbD i = (decide (i < bits) && (x.testBit (source i) ^^ flip)))
    (htaken : ∀ j < bits, ∃ i < bits, source i = j) :
    Permutes (2 ^ bits) fun x => sent (2 ^ bits) x (word x).toInt := by
  obtain ⟨hmoves, hdest⟩ := movesBits_of_getLsbD hbits hword
  exact permutes_of_natCast hdest (hmoves.bijOn htaken)

theorem selfInverse_of_getLsbD (hbits : bits ≤ 30) (hword : ∀ x : ℕ, x < 2 ^ bits → ∀ i,
      (word x).getLsbD i = (decide (i < bits) && (x.testBit (source i) ^^ flip)))
    (hback : ∀ i < bits, source i < bits ∧ source (source i) = i) :
    Permutes (2 ^ bits) (fun x => sent (2 ^ bits) x (word x).toInt) ∧
      SelfInverse (2 ^ bits) fun x => sent (2 ^ bits) x (word x).toInt := by
  obtain ⟨hmoves, hdest⟩ := movesBits_of_getLsbD hbits hword
  exact ⟨permutes_of_getLsbD hbits hword (MovesBits.taken_of_back hback),
    selfInverse_of_natCast hdest hmoves.mapsTo (hmoves.leftInvOn hback)⟩

end Bits

/-! ## The patterns permute the nodes -/

section Patterns

variable {bits x : ℕ}

theorem bitComp_bits (hbits : bits ≤ 30) : ∀ x : ℕ, x < 2 ^ bits → ∀ i,
    (~~~(BitVec.ofInt 32 (x : ℤ)) &&& (BitVec.ofNat 32 (2 ^ bits) - 1)).getLsbD i
      = (decide (i < bits) && (x.testBit i ^^ true)) := by
  intro x hx i
  rw [BitVec.getLsbD_and, BitVec.getLsbD_not, getLsbD_word hbits hx, getLsbD_mask (by omega)]
  by_cases hi : i < bits
  · simp [hi, show i < 32 by omega]
  · simp [hi]

theorem transpose_bits {shift : ℕ} (hbits : 2 * shift ≤ 30) : ∀ x : ℕ, x < 2 ^ (2 * shift) → ∀ i,
    (((BitVec.ofInt 32 (x : ℤ)).sshiftRight shift &&& ((1#32 <<< shift) - 1)) |||
        ((BitVec.ofInt 32 (x : ℤ) <<< shift) &&& (((1#32 <<< shift) - 1) <<< shift))).getLsbD i
      = (decide (i < 2 * shift) &&
          (x.testBit (if i < shift then shift + i else i - shift) ^^ false)) := by
  intro x hx i
  have hone : 1#32 <<< shift = BitVec.ofNat 32 (2 ^ shift) := by
    apply BitVec.eq_of_toNat_eq
    simp [BitVec.toNat_shiftLeft, Nat.shiftLeft_eq]
  rw [hone, BitVec.sshiftRight_eq_of_msb_false (msb_word hbits hx), BitVec.getLsbD_or,
    BitVec.getLsbD_and, BitVec.getLsbD_and, BitVec.getLsbD_ushiftRight, BitVec.getLsbD_shiftLeft,
    BitVec.getLsbD_shiftLeft, getLsbD_word hbits hx, getLsbD_word hbits hx,
    getLsbD_mask (by omega), getLsbD_mask (by omega)]
  rcases Nat.lt_trichotomy i shift with hi | hi | hi
  · simp [hi, show i < 2 * shift by omega, show i < 32 by omega]
  · subst hi
    rcases Nat.eq_zero_or_pos i with rfl | hpos
    · simp
    · simp [hpos, show i < 32 by omega, show i < 2 * i by omega]
  · have hnot : ¬ i < shift := by omega
    by_cases hlt : i < 2 * shift
    · simp [hnot, hlt, show i < 32 by omega, show i - shift < shift by omega]
    · simp [hnot, hlt, show ¬ i - shift < shift by omega]

/-- The bit that leaves the word on the left comes in on the right. -/
theorem shuffle_bits (hbits : bits ≤ 30) : ∀ x : ℕ, x < 2 ^ bits → ∀ i,
    ((BitVec.ofInt 32 (x : ℤ) <<< 1 &&& (BitVec.ofNat 32 (2 ^ bits) - 1)) |||
      (if BitVec.ofInt 32 (x : ℤ) <<< 1 &&& BitVec.ofNat 32 (2 ^ bits) ≠ 0 then 1 else 0)).getLsbD i
      = (decide (i < bits) && (x.testBit (if i = 0 then bits - 1 else i - 1) ^^ false)) := by
  intro x hx i
  have hpow : BitVec.ofNat 32 (2 ^ bits) = BitVec.twoPow 32 bits := by
    apply BitVec.eq_of_toNat_eq
    rw [BitVec.toNat_ofNat, BitVec.toNat_twoPow]
  have hcarry : (BitVec.ofInt 32 (x : ℤ) <<< 1 &&& BitVec.ofNat 32 (2 ^ bits) ≠ 0)
      ↔ bits ≠ 0 ∧ x.testBit (bits - 1) = true := by
    have hne : BitVec.twoPow 32 bits ≠ 0 := by
      intro hzero
      have hnat := BitVec.toNat_twoPow_of_lt (i := bits) (w := 32) (by omega)
      rw [hzero] at hnat
      exact absurd hnat.symm (Nat.ne_of_gt (Nat.two_pow_pos bits))
    rw [hpow, BitVec.and_twoPow, BitVec.getLsbD_shiftLeft, getLsbD_word hbits hx]
    by_cases hzero : bits = 0
    · simp [hzero]
    · simp only [hzero, ne_eq, not_false_eq_true, true_and]
      by_cases hbit : x.testBit (bits - 1) = true
      · simpa [hbit, hzero, show bits < 32 by omega] using hne
      · simp [hbit]
  rw [BitVec.getLsbD_or, BitVec.getLsbD_and, BitVec.getLsbD_shiftLeft, getLsbD_word hbits hx,
    getLsbD_mask (by omega)]
  simp only [hcarry]
  by_cases hi : i = 0
  · subst hi
    by_cases hbit : bits ≠ 0 ∧ x.testBit (bits - 1) = true
    · simp [hbit, Nat.pos_of_ne_zero hbit.1]
    · rw [if_neg hbit]
      by_cases hzero : bits = 0
      · simp [hzero]
      · have hclear : x.testBit (bits - 1) = false := by simpa [hzero] using hbit
        simp [hclear]
  · have hright : (if bits ≠ 0 ∧ x.testBit (bits - 1) = true then (1 : BitVec 32) else 0).getLsbD i
        = false := by
      split_ifs
      · simp [BitVec.getLsbD_one, hi]
      · simp
    rw [hright]
    by_cases hlt : i < bits
    · simp [hi, hlt, show i < 32 by omega]
    · simp [hlt]

theorem getLsbD_srem_two {source : BitVec 32} (hsource : source.msb = false) (i : ℕ) :
    (source.srem 2).getLsbD i = (decide (i = 0) && source.getLsbD 0) := by
  have hrem : source.srem 2 = source % 2 := by
    rw [BitVec.srem_eq, hsource]
    rfl
  rw [hrem, ← BitVec.testBit_toNat, ← BitVec.testBit_toNat, BitVec.toNat_umod]
  have hmod := Nat.testBit_mod_two_pow source.toNat 1 i
  rw [pow_one] at hmod
  refine hmod.trans ?_
  by_cases hi : i = 0
  · simp [hi]
  · simp [hi]

/-- The loop takes the bits of the source from the right and puts them in on the right. -/
theorem getLsbD_bitRevLoop {rounds m : ℕ} (hrounds : m ≤ rounds) {source result : BitVec 32}
    (hsource : source.msb = false) {i : ℕ} (hi : i < 32) :
    (bitRevLoop rounds (2 ^ m) source result).getLsbD i
      = if i < m then source.getLsbD (m - 1 - i) else result.getLsbD (i - m) := by
  induction m generalizing rounds source result with
  | zero => cases rounds <;> simp [bitRevLoop]
  | succ m ih =>
      obtain ⟨rounds, rfl⟩ : ∃ r, rounds = r + 1 := ⟨rounds - 1, by omega⟩
      have hpos : 0 < 2 ^ m := Nat.two_pow_pos m
      have hhalf : 2 ^ (m + 1) >>> 1 = 2 ^ m := by
        rw [Nat.shiftRight_one, pow_succ]
        omega
      have hnext : (source.sshiftRight 1).msb = false := by
        rw [BitVec.msb_sshiftRight, hsource]
      rw [bitRevLoop, if_pos (by rw [pow_succ]; omega), hhalf, ih (by omega) hnext,
        BitVec.sshiftRight_eq_of_msb_false hsource, BitVec.getLsbD_ushiftRight,
        BitVec.getLsbD_or, BitVec.getLsbD_shiftLeft, getLsbD_srem_two hsource]
      rcases Nat.lt_trichotomy i m with hlt | rfl | hgt
      · simp only [hlt, show i < m + 1 by omega, if_true]
        congr 1
        omega
      · simp
      · simp [show ¬ i < m by omega, show ¬ i < m + 1 by omega, show i - m < 32 by omega,
          show i - m ≠ 0 by omega, Nat.sub_sub]

theorem bitRev_bits (hbits : bits ≤ 30) : ∀ x : ℕ, x < 2 ^ bits → ∀ i,
    (bitRevLoop 31 (2 ^ bits) (BitVec.ofInt 32 (x : ℤ)) 0).getLsbD i
      = (decide (i < bits) && (x.testBit (bits - 1 - i) ^^ false)) := by
  intro x hx i
  by_cases hi : i < 32
  · rw [getLsbD_bitRevLoop (by omega) (msb_word hbits hx) hi, getLsbD_word hbits hx]
    by_cases hlt : i < bits
    · simp [hlt]
    · simp [hlt]
  · rw [BitVec.getLsbD_of_ge _ _ (Nat.not_lt.mp hi), decide_eq_false (by omega), Bool.false_and]

theorem countShift_two_pow (bits : ℕ) : countShift (2 ^ bits) = bits := by
  induction bits with
  | zero =>
      rw [countShift]
      rfl
  | succ bits ih =>
      have hhalf : 2 ^ (bits + 1) >>> 1 = 2 ^ bits := by
        rw [Nat.shiftRight_one, pow_succ]
        omega
      rw [countShift, hhalf, if_neg (Nat.ne_of_gt (Nat.two_pow_pos bits)), ih]

/-- The shift is half the number of bits. -/
theorem two_mul_of_transposeShift {shift : ℕ} (h : transposeShift (2 ^ bits) = some shift) :
    bits = 2 * shift := by
  rw [transposeShift, countShift_two_pow, Nat.shiftRight_one] at h
  obtain ⟨heven, ⟨⟩⟩ := Option.ite_none_left_eq_some.mp h
  omega

end Patterns

section Permutes

variable {nodes : ℕ}

theorem permutes_bitComp (h : BitAccepts nodes) :
    Permutes nodes (bitCompDest nodes) ∧ SelfInverse nodes (bitCompDest nodes) := by
  obtain ⟨bits, hbits, rfl⟩ := h.exists_two_pow
  apply selfInverse_of_getLsbD hbits (bitComp_bits hbits)
  intro i hi
  exact ⟨hi, rfl⟩

theorem permutes_transpose (h : BitAccepts nodes) {shift : ℕ}
    (hshift : transposeShift nodes = some shift) :
    Permutes nodes (transposeDest nodes shift) ∧ SelfInverse nodes (transposeDest nodes shift) := by
  obtain ⟨bits, hbits, rfl⟩ := h.exists_two_pow
  obtain rfl := two_mul_of_transposeShift hshift
  apply selfInverse_of_getLsbD hbits (transpose_bits hbits)
  intro i hi
  by_cases hlow : i < shift
  · simp [hlow]
    omega
  · simp [hlow, show i - shift < shift by omega]
    omega

theorem permutes_bitRev (h : BitAccepts nodes) :
    Permutes nodes (bitRevDest nodes) ∧ SelfInverse nodes (bitRevDest nodes) := by
  obtain ⟨bits, hbits, rfl⟩ := h.exists_two_pow
  apply selfInverse_of_getLsbD hbits (bitRev_bits hbits)
  intro i hi
  omega

theorem permutes_shuffle (h : BitAccepts nodes) : Permutes nodes (shuffleDest nodes) := by
  obtain ⟨bits, hbits, rfl⟩ := h.exists_two_pow
  apply permutes_of_getLsbD hbits (shuffle_bits hbits)
  intro j hj
  by_cases hlast : j = bits - 1
  · exact ⟨0, by omega, by simp [hlast]⟩
  · exact ⟨j + 1, by omega, by simp⟩

end Permutes

end Flyover.Traffic
