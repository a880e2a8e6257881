import Mathlib.Data.List.Perm.Basic
import Flyover.Progress.Worklist
import Flyover.Traffic.DigitPermutation

/-!
# Random permutations

The random permutation is filled in from node to node: a number is drawn among those
of the slots that are still free, and a walk through the array counts the free slots
that it passes until it stands on that one.
-/

namespace Flyover.Traffic

/-- `RandomInt(max)`, from the number that the generator returns. -/
def randomInt (raw max : ℕ) : ℕ := raw % (max + 1)

/-- The walk to the free slot with the number `ind`, from where it has counted `cnt` of
them. At the end of the array the assertion fails. -/
def freeSlot (ind : ℕ) : ℕ → List ℤ → Option ℕ
  | _, [] => none
  | cnt, d :: rest =>
      if cnt < ind ∨ d ≠ -1 then
        (freeSlot ind (if d = -1 then cnt + 1 else cnt) rest).map (· + 1)
      else some 0

/-- The round of the loop for node `i`. -/
def place (nodes : ℕ) (draws : ℕ → ℕ) (dest : List ℤ) (i : ℕ) : Option (List ℤ) :=
  (freeSlot (randomInt (draws i) (nodes - 1 - i)) 0 dest).map fun j => dest.set j i

/-- `_dest` after `randomize`. -/
def randomize (nodes : ℕ) (draws : ℕ → ℕ) : Option (List ℤ) :=
  (List.range nodes).foldlM (place nodes draws) (List.replicate nodes (-1))

def randomPermutationDest (nodes : ℕ) (dest : List ℤ) (source : ℤ) : Option ℤ :=
  if 0 ≤ source ∧ source < nodes then
    dest[source.toNat]?.bind fun d => if 0 ≤ d ∧ d < nodes then some d else none
  else none

/-- The walk ends on a free slot if there are more of them than it is to pass. -/
theorem exists_freeSlot {ind cnt : ℕ} {dest : List ℤ} (hcnt : cnt ≤ ind)
    (hind : ind < cnt + dest.count (-1)) :
    ∃ j, freeSlot ind cnt dest = some j ∧ dest[j]? = some (-1) := by
  induction dest generalizing cnt with
  | nil =>
      rw [List.count_nil] at hind
      omega
  | cons d rest ih =>
      by_cases hfree : d = -1
      · subst hfree
        rw [List.count_cons_self] at hind
        by_cases hpass : cnt < ind
        · have hnext : cnt + 1 ≤ ind := hpass
          obtain ⟨j, hj, hslot⟩ := ih hnext (by omega)
          refine ⟨j + 1, ?_, hslot⟩
          simp [freeSlot, hpass, hj]
        · exact ⟨0, by simp [freeSlot, hpass], rfl⟩
      · rw [List.count_cons_of_ne hfree] at hind
        obtain ⟨j, hj, hslot⟩ := ih hcnt hind
        refine ⟨j + 1, ?_, hslot⟩
        simp [freeSlot, hfree, hj]

/-- What stands in the array after the rounds for some nodes. -/
def Placed (nodes : ℕ) (done : List ℕ) (dest : List ℤ) : Prop :=
  dest.Perm (done.map (↑) ++ List.replicate (nodes - done.length) (-1))

theorem Placed.count {nodes : ℕ} {done : List ℕ} {dest : List ℤ} (h : Placed nodes done dest) :
    dest.count (-1) = nodes - done.length := by
  have hnone : (done.map (↑) : List ℤ).count (-1) = 0 := by
    apply List.count_eq_zero_of_not_mem
    intro hmem
    obtain ⟨i, -, hi⟩ := List.mem_map.mp hmem
    omega
  rw [List.Perm.count_eq h, List.count_append, hnone, Nat.zero_add, List.count_replicate_self]

/-- A round puts its node into a free slot. -/
theorem Placed.place {nodes : ℕ} {draws : ℕ → ℕ} {done : List ℕ} {dest : List ℤ} {i : ℕ}
    (h : Placed nodes done dest) (hi : i = done.length) (hlt : i < nodes) :
    ∃ dest', place nodes draws dest i = some dest' ∧ Placed nodes (done ++ [i]) dest' := by
  have hind : randomInt (draws i) (nodes - 1 - i) < 0 + dest.count (-1) := by
    have hmod : randomInt (draws i) (nodes - 1 - i) < nodes - 1 - i + 1 :=
      Nat.mod_lt _ (Nat.succ_pos _)
    rw [h.count]
    omega
  obtain ⟨j, hj, hslot⟩ := exists_freeSlot (Nat.zero_le _) hind
  refine ⟨dest.set j i, by rw [Traffic.place, hj, Option.map_some], ?_⟩
  obtain ⟨hjlt, hjval⟩ := List.getElem?_eq_some_iff.mp hslot
  have hfree : (-1 :: dest.eraseIdx j).Perm dest := hjval ▸ List.getElem_cons_eraseIdx_perm hjlt
  have hleft : nodes - done.length = nodes - (done ++ [i]).length + 1 := by
    rw [List.length_append, List.length_singleton]
    omega
  have hrest : (dest.eraseIdx j).Perm
      (done.map (↑) ++ List.replicate (nodes - (done ++ [i]).length) (-1)) := by
    apply List.Perm.cons_inv (a := -1)
    apply (hfree.trans h).trans
    rw [hleft, List.replicate_succ]
    exact List.perm_middle
  apply (List.set_perm_cons_eraseIdx hjlt (i : ℤ)).trans
  apply (hrest.cons (i : ℤ)).trans
  rw [List.map_append, List.append_assoc]
  exact List.perm_middle.symm

/-- The array ends up with every node once, whatever is drawn. -/
theorem exists_randomize (nodes : ℕ) (draws : ℕ → ℕ) :
    ∃ dest, randomize nodes draws = some dest ∧ dest.Perm ((List.range nodes).map (↑)) := by
  obtain ⟨dest, hrun, hplaced⟩ : ∃ dest, (List.range nodes).foldlM (Traffic.place nodes draws)
      (List.replicate nodes (-1)) = some dest ∧ Placed nodes (List.range nodes) dest :=
    Worklist.exists_foldlM (motive := Placed nodes) (List.Perm.refl _) (by
      intro done i rest hrange t ht
      have hlen : done.length < nodes := by
        have hlen := congrArg List.length hrange
        rw [List.length_range, List.length_append, List.length_cons] at hlen
        omega
      have hi : i = done.length := by
        have hget : (List.range nodes)[done.length]? = some i := by rw [hrange]; simp
        rw [List.getElem?_range hlen] at hget
        exact (Option.some.inj hget).symm
      exact ht.place hi (hi ▸ hlen))
  refine ⟨dest, hrun, ?_⟩
  simpa [Placed] using hplaced

/-- An array that holds every node once permutes the nodes. -/
theorem permutes_of_perm {nodes : ℕ} {dest : List ℤ} (h : dest.Perm ((List.range nodes).map (↑))) :
    Permutes nodes (randomPermutationDest nodes dest) := by
  have hlen : dest.length = nodes := by simpa using h.length_eq
  have hmem : ∀ d ∈ dest, 0 ≤ d ∧ d < nodes := by
    intro d hd
    obtain ⟨i, hi, rfl⟩ := List.mem_map.mp (h.mem_iff.mp hd)
    exact ⟨Int.natCast_nonneg i, Int.ofNat_lt.mpr (List.mem_range.mp hi)⟩
  have hnodup : dest.Nodup :=
    h.nodup_iff.mpr (List.nodup_range.map fun i j hij => Int.ofNat_inj.mp hij)
  have hslot : ∀ source < nodes, ∃ d : ℕ, dest[source]? = some (d : ℤ) ∧ d < nodes := by
    intro source hsource
    have hget := List.getElem?_eq_getElem (hlen.symm ▸ hsource)
    obtain ⟨hpos, hlt⟩ := hmem _ (List.getElem_mem (hlen.symm ▸ hsource))
    obtain ⟨d, hd⟩ := Int.eq_ofNat_of_zero_le hpos
    rw [hd] at hget hlt
    exact ⟨d, hget, Int.ofNat_lt.mp hlt⟩
  let f : ℕ → ℕ := fun source => (dest.getD source 0).toNat
  have hf : ∀ source < nodes, dest[source]? = some (f source : ℤ) ∧ f source < nodes := by
    intro source hsource
    obtain ⟨d, hd, hlt⟩ := hslot source hsource
    have hval : f source = d := by simp [f, List.getD, hd]
    rw [hval]
    exact ⟨hd, hlt⟩
  apply permutes_of_natCast (f := f)
  · intro source hsource
    obtain ⟨hget, hlt⟩ := hf source hsource
    have hin : (0 : ℤ) ≤ f source ∧ (f source : ℤ) < nodes :=
      ⟨Int.natCast_nonneg _, Int.ofNat_lt.mpr hlt⟩
    rw [randomPermutationDest,
      if_pos ⟨Int.natCast_nonneg source, Int.ofNat_lt.mpr hsource⟩, Int.toNat_natCast, hget,
      Option.bind_some, if_pos hin]
  · apply ((Set.finite_Iio nodes).injOn_iff_bijOn_of_mapsTo fun x hx => (hf x hx).2).mp
    intro x hx y hy hxy
    have hget : dest[x]? = dest[y]? := by rw [(hf x hx).1, (hf y hy).1, hxy]
    exact (List.getElem?_inj (hlen.symm ▸ hx) hnodup).mp hget

/-! ## All permutation patterns -/

/-- What is constructed as a permutation is one: the bit patterns for every node count that
is accepted, the neighbor pattern for every positive radix, the random permutation for all
draws, and the tornado for every network with a dimension, unless its sum overflows. -/
theorem patterns_permute (nodes : ℕ) :
    (BitAccepts nodes →
      (Permutes nodes (bitCompDest nodes) ∧ SelfInverse nodes (bitCompDest nodes)) ∧
      (∀ shift, transposeShift nodes = some shift →
        Permutes nodes (transposeDest nodes shift) ∧
          SelfInverse nodes (transposeDest nodes shift)) ∧
      (Permutes nodes (bitRevDest nodes) ∧ SelfInverse nodes (bitRevDest nodes)) ∧
      Permutes nodes (shuffleDest nodes)) ∧
    (∀ k n xr : ℤ, (xr * k) ^ n.toNat = nodes → 0 < nodes →
      (0 < xr * k ∨ n ≤ 0 → Permutes nodes (neighborDest nodes k n xr)) ∧
      (0 < k → k < 2 ^ 31 → (Permutes nodes (tornadoDest nodes k n xr) ↔
        0 < n ∧ k + k / 2 < 2 ^ 31 + 2 ∨ k ≤ 3))) ∧
    ∀ draws : ℕ → ℕ, ∃ dest, randomize nodes draws = some dest ∧
      dest.Perm ((List.range nodes).map (↑)) ∧
      Permutes nodes (randomPermutationDest nodes dest) := by
  refine ⟨fun h => ?_, fun k n xr hnodes hpos => ⟨?_, ?_⟩, fun draws => ?_⟩
  · exact ⟨permutes_bitComp h, fun _ => permutes_transpose h, permutes_bitRev h,
      permutes_shuffle h⟩
  · intro hradix
    exact permutes_neighbor hradix hnodes
  · intro hk hint
    lift k to ℕ using hk.le
    rw [permutes_tornado_iff (by omega) (by omega) hnodes hpos]
    omega
  · obtain ⟨dest, hrun, hperm⟩ := exists_randomize nodes draws
    exact ⟨dest, hrun, hperm, permutes_of_perm hperm⟩

/-- One node and no dimension: the tornado sends the node to node 1. A negative radix leads
both patterns out of the network. -/
theorem not_permutes_tornado_one :
    (((1 : ℤ) * 4) ^ (0 : ℤ).toNat = (1 : ℕ) ∧ ¬ Permutes 1 (tornadoDest 1 4 0 1)) ∧
      ((1 : ℤ) * (-4)) ^ (2 : ℤ).toNat = (16 : ℕ) ∧ ¬ Permutes 16 (tornadoDest 16 (-4) 2 1) ∧
      ¬ Permutes 16 (neighborDest 16 (-4) 2 1) := by
  have houtside : ∀ (nodes x : ℕ) (dest : ℤ → Option ℤ) (d : ℤ), x < nodes → dest x = some d →
      d < 0 ∨ nodes ≤ d → ¬ Permutes nodes dest := by
    intro nodes x dest d hx hd hout h
    obtain ⟨d', hd', hpos, hlt⟩ := exists_dest_of_permutes h hx
    obtain rfl := Option.some.inj (hd.symm.trans hd')
    omega
  refine ⟨⟨rfl, houtside 1 0 _ 1 (by decide) rfl (by decide)⟩, rfl, ?_, ?_⟩
  · exact houtside 16 1 _ (-2) (by decide) rfl (by decide)
  · exact houtside 16 1 _ (-2) (by decide) rfl (by decide)

end Flyover.Traffic
