import Mathlib.Data.List.FinRange
import Mathlib.Data.List.Induction
import Mathlib.Data.List.Nodup
import Mathlib.Data.List.TakeWhile
import Mathlib.Data.Fin.Basic
import Mathlib.Data.Int.Order.Basic
import Mathlib.Data.Nat.ModEq

/-!
# Scans that start in the middle

Round-robin arbitration goes through the candidates from a pointer on and wraps
around. What such a scan chooses by priority is the leader: of the candidates of
highest priority, the one whose turn comes first.
-/

namespace Scan

variable {n : Nat} {α : Type*}

/-! ### The orders of a scan -/

/-- `(i + offset) % n` for `i` from 0 -/
def rotation (offset : Fin n) : List (Fin n) := (List.finRange n).map fun i => i + offset

theorem mem_rotation (offset x : Fin n) : x ∈ rotation offset := by
  rw [rotation, List.mem_map]
  refine ⟨x - offset, List.mem_finRange _, ?_⟩
  apply Fin.ext
  rw [Fin.add_def, Fin.sub_def]
  show ((n - offset.val + x.val) % n + offset.val) % n = x.val
  rw [Nat.mod_add_mod, show n - offset.val + x.val + offset.val = x.val + n by omega,
    Nat.add_mod_right, Nat.mod_eq_of_lt x.isLt]

theorem nodup_rotation (offset : Fin n) : (rotation offset).Nodup := by
  apply (List.nodup_finRange n).map
  intro a b hab
  have ha := a.isLt
  have hb := b.isLt
  have hval : (a.val + offset.val) % n = (b.val + offset.val) % n := congrArg Fin.val hab
  have hsub := Nat.ModEq.add_right_cancel' offset.val hval
  exact Fin.ext (by rwa [Nat.ModEq, Nat.mod_eq_of_lt ha, Nat.mod_eq_of_lt hb] at hsub)

/-- The iterator starts at the first entry that is not below the offset. At the
end it wraps around, looks at the first entry in any case, and goes on below the
offset. -/
def roundRobin (entries : List (Fin n)) (offset : Fin n) : List (Fin n) :=
  entries.dropWhile (· < offset) ++
    (entries.take 1 ++ (entries.drop 1).takeWhile (· < offset))

theorem mem_of_mem_roundRobin {entries : List (Fin n)} {offset x : Fin n}
    (h : x ∈ roundRobin entries offset) : x ∈ entries := by
  rw [roundRobin, List.mem_append, List.mem_append] at h
  obtain h | h | h := h
  · exact (List.dropWhile_sublist _).subset h
  · exact List.mem_of_mem_take h
  · exact List.mem_of_mem_drop ((List.takeWhile_prefix _).subset h)

/-- The wrap-around leaves out no entry. -/
theorem mem_roundRobin {entries : List (Fin n)} {x : Fin n} (h : x ∈ entries) (offset : Fin n) :
    x ∈ roundRobin entries offset := by
  rw [← List.takeWhile_append_dropWhile (p := (· < offset)) (l := entries), List.mem_append] at h
  rw [roundRobin, List.mem_append, List.mem_append]
  rcases h with hbelow | hfrom
  · cases entries with
    | nil => cases hbelow
    | cons y rest =>
        rw [List.takeWhile_cons] at hbelow
        split at hbelow
        next =>
          rcases List.mem_cons.mp hbelow with rfl | hbelow
          · exact .inr (.inl List.mem_cons_self)
          · exact .inr (.inr hbelow)
        next => cases hbelow
  · exact .inl hfrom

/-- How many steps the scan makes before it comes to an entry. -/
def turn (offset x : Fin n) : Nat := (x - offset).val

/-! ### The leader -/

/-- The leader is a candidate, and every other one has a lower priority or the
same priority and a later turn. -/
structure Leads (candidate : α → Prop) (pri : α → Int) (turn : α → Nat) (x : α) : Prop where
  eligible : candidate x
  before : ∀ y, candidate y → y ≠ x → pri y < pri x ∨ (pri y = pri x ∧ turn x < turn y)

theorem Leads.unique {candidate : α → Prop} {pri : α → Int} {turn : α → Nat} {x y : α}
    (hx : Leads candidate pri turn x) (hy : Leads candidate pri turn y) : x = y := by
  by_contra hne
  have hxy := hx.before y hy.eligible (Ne.symm hne)
  have hyx := hy.before x hx.eligible hne
  omega

/-- One round of a scan: a candidate replaces what was chosen before if its
priority is higher. -/
def improve (candidate : α → Bool) (pri : α → Int) (chosen : Option α) (x : α) : Option α :=
  if candidate x && chosen.all (fun y => decide (pri y < pri x)) then some x else chosen

/-- What a scan chooses. -/
def best (candidate : α → Bool) (pri : α → Int) (entries : List α) : Option α :=
  entries.foldl (improve candidate pri) none

section Best

variable {candidate : α → Bool} {pri : α → Int} {entries : List α}

theorem improve_of_le {x y : α} (h : pri x ≤ pri y) :
    improve candidate pri (some y) x = some y := by
  have hnot : decide (pri y < pri x) = false := by
    rw [decide_eq_false_iff_not]
    omega
  simp [improve, hnot]

theorem best_append_singleton (x : α) :
    best candidate pri (entries ++ [x]) = improve candidate pri (best candidate pri entries) x := by
  rw [best, List.foldl_append]
  rfl

/-- The chosen entry is a candidate of highest priority, and the first such. -/
theorem best_spec (entries : List α) :
    (∀ x, best candidate pri entries = some x → candidate x = true ∧
      ∃ before after, entries = before ++ x :: after ∧
        (∀ y ∈ before, candidate y = true → pri y < pri x) ∧
        ∀ y ∈ after, candidate y = true → pri y ≤ pri x) ∧
    (best candidate pri entries = none → ∀ x ∈ entries, candidate x = false) := by
  induction entries using List.reverseRecOn with
  | nil =>
      constructor
      · intro x hx
        cases hx
      · intro _ x hx
        cases hx
  | append_singleton entries x ih =>
      rw [best_append_singleton, improve]
      split
      next htaken =>
        rw [Bool.and_eq_true] at htaken
        refine ⟨?_, fun h => nomatch h⟩
        intro z hz
        cases hz
        refine ⟨htaken.1, entries, [], rfl, ?_, fun y hy => nomatch hy⟩
        intro y hy hcandidate
        cases hbest : best candidate pri entries with
        | none =>
            rw [ih.2 hbest y hy] at hcandidate
            cases hcandidate
        | some z =>
            have hz : pri z < pri x := by
              simpa [hbest] using htaken.2
            obtain ⟨-, before, after, rfl, hbefore, hafter⟩ := ih.1 z hbest
            obtain hy | hy | hy : y ∈ before ∨ y = z ∨ y ∈ after := by simpa using hy
            · exact (hbefore y hy hcandidate).trans hz
            · exact hy ▸ hz
            · exact (hafter y hy hcandidate).trans_lt hz
      next hkept =>
        constructor
        · intro z hz
          obtain ⟨hcandidate, before, after, rfl, hbefore, hafter⟩ := ih.1 z hz
          refine ⟨hcandidate, before, after ++ [x], by simp, hbefore, ?_⟩
          intro y hy hy'
          rw [List.mem_append, List.mem_singleton] at hy
          cases hy with
          | inl hy => exact hafter y hy hy'
          | inr hy =>
              subst hy
              rw [hz, hy'] at hkept
              simpa using hkept
        · intro hnone y hy
          rw [List.mem_append, List.mem_singleton] at hy
          cases hy with
          | inl hy => exact ih.2 hnone y hy
          | inr hy =>
              subst hy
              rw [hnone] at hkept
              simpa using hkept

theorem mem_of_best {x : α} (h : best candidate pri entries = some x) :
    x ∈ entries ∧ candidate x = true := by
  obtain ⟨hcandidate, before, after, rfl, -⟩ := (best_spec entries).1 x h
  exact ⟨by simp, hcandidate⟩

theorem best_eq_none_iff :
    best candidate pri entries = none ↔ ∀ x ∈ entries, candidate x = false := by
  constructor
  · exact (best_spec entries).2
  · intro h
    cases hbest : best candidate pri entries with
    | none => rfl
    | some x =>
        obtain ⟨hx, hcandidate⟩ := mem_of_best hbest
        rw [h x hx] at hcandidate
        cases hcandidate

/-- To look at an entry again makes no difference. -/
theorem best_append_of_mem {x : α} (hx : x ∈ entries) :
    best candidate pri (entries ++ [x]) = best candidate pri entries := by
  rw [best_append_singleton]
  cases hcandidate : candidate x with
  | false => simp [improve, hcandidate]
  | true =>
      cases hbest : best candidate pri entries with
      | none =>
          rw [best_eq_none_iff.mp hbest x hx] at hcandidate
          cases hcandidate
      | some y =>
          apply improve_of_le
          obtain ⟨-, before, after, rfl, hbefore, hafter⟩ := (best_spec entries).1 y hbest
          obtain hx | hx | hx : x ∈ before ∨ x = y ∨ x ∈ after := by simpa using hx
          · exact (hbefore x hx hcandidate).le
          · exact hx ▸ le_rfl
          · exact hafter x hx hcandidate

/-- In a list in order, the chosen entry is the first of those of its priority. -/
theorem first_of_best {r : α → α → Prop} {x y : α} (hsorted : entries.Pairwise r)
    (h : best candidate pri entries = some x) (hy : y ∈ entries) (hcandidate : candidate y = true)
    (hne : y ≠ x) : pri y < pri x ∨ pri y = pri x ∧ r x y := by
  obtain ⟨-, before, after, rfl, hbefore, hafter⟩ := (best_spec entries).1 x h
  obtain hy' | hy' | hy' : y ∈ before ∨ y = x ∨ y ∈ after := by simpa using hy
  · exact .inl (hbefore y hy' hcandidate)
  · exact absurd hy' hne
  · have hxy : r x y := List.rel_of_pairwise_cons (List.pairwise_append.mp hsorted).2.1 hy'
    obtain hlt | heq := (hafter y hy' hcandidate).lt_or_eq
    · exact .inl hlt
    · exact .inr ⟨heq, hxy⟩

/-- A scan in the order of the turns chooses the leader. -/
theorem leads_of_best {turn : α → Nat} {x : α}
    (hsorted : entries.Pairwise fun a b => turn a < turn b)
    (h : best candidate pri entries = some x) :
    Leads (fun y => y ∈ entries ∧ candidate y = true) pri turn x where
  eligible := mem_of_best h
  before _ hy hne := first_of_best hsorted h hy.1 hy.2 hne

end Best

/-! ### The round robin chooses the leader -/

/-- The entries from the offset on, and then the others. -/
def fromOffset (entries : List (Fin n)) (offset : Fin n) : List (Fin n) :=
  entries.dropWhile (· < offset) ++ entries.takeWhile (· < offset)

section RoundRobin

variable {entries : List (Fin n)} {offset x : Fin n}

theorem mem_fromOffset : x ∈ fromOffset entries offset ↔ x ∈ entries := by
  conv_rhs => rw [← List.takeWhile_append_dropWhile (p := (· < offset)) (l := entries)]
  rw [fromOffset, List.mem_append, List.mem_append]
  exact Or.comm

theorem turn_of_le (h : offset ≤ x) : turn offset x = x.val - offset.val :=
  Fin.sub_val_of_le h

theorem turn_of_lt (h : x < offset) : turn offset x = n - offset.val + x.val := by
  rw [turn, Fin.sub_def]
  apply Nat.mod_eq_of_lt
  have hx : x.val < offset.val := h
  omega

/-- The scan comes last to the entry before the offset. -/
theorem not_turn_succ_lt [NeZero n] (a b : Fin n) : ¬ turn (a + 1) a < turn (a + 1) b := by
  have hb : turn (a + 1) b < n := (b - (a + 1)).isLt
  have ha := a.isLt
  have hlast : turn (a + 1) a = n - 1 := by
    have hval : (a + 1).val = (a.val + 1) % n := by
      rw [Fin.add_def, Fin.val_one']
      exact Nat.add_mod_mod a.val 1 n
    by_cases hwrap : a.val + 1 = n
    · have hzero : (a + 1).val = 0 := by rw [hval, hwrap, Nat.mod_self]
      have hle : a + 1 ≤ a := by
        rw [Fin.le_def, hzero]
        exact Nat.zero_le a.val
      rw [turn_of_le hle, hzero]
      omega
    · rw [Nat.mod_eq_of_lt (by omega)] at hval
      have hlt : a < a + 1 := by
        rw [Fin.lt_def, hval]
        exact Nat.lt_succ_self a.val
      rw [turn_of_lt hlt, hval]
      omega
  omega

theorem turn_injective {y : Fin n} (h : turn offset x = turn offset y) : x = y := by
  have hx := x.isLt
  have hy := y.isLt
  apply Fin.ext
  rcases lt_or_ge x offset with hx' | hx' <;> rcases lt_or_ge y offset with hy' | hy'
  · rw [turn_of_lt hx', turn_of_lt hy'] at h
    omega
  · rw [turn_of_lt hx', turn_of_le hy'] at h
    omega
  · rw [turn_of_le hx', turn_of_lt hy'] at h
    omega
  · rw [turn_of_le hx', turn_of_le hy'] at h
    have hx'' : offset.val ≤ x.val := hx'
    have hy'' : offset.val ≤ y.val := hy'
    omega

theorem le_of_mem_dropWhile (hsorted : entries.Pairwise (· < ·))
    (hx : x ∈ entries.dropWhile (· < offset)) : offset ≤ x := by
  induction entries with
  | nil => cases hx
  | cons y rest ih =>
      rw [List.dropWhile_cons] at hx
      split at hx
      next => exact ih (List.Pairwise.of_cons hsorted) hx
      next hy =>
        have hy : offset ≤ y := by simpa using hy
        obtain rfl | hx := List.mem_cons.mp hx
        · exact hy
        · exact hy.trans (List.rel_of_pairwise_cons hsorted hx).le

theorem fromOffset_sorted (hsorted : entries.Pairwise (· < ·)) :
    (fromOffset entries offset).Pairwise fun a b => turn offset a < turn offset b := by
  rw [fromOffset, List.pairwise_append]
  refine ⟨?_, ?_, ?_⟩
  · apply (hsorted.sublist (List.dropWhile_sublist _)).imp_of_mem
    intro a b ha hb hlt
    have ha := le_of_mem_dropWhile hsorted ha
    rw [turn_of_le ha, turn_of_le (le_of_mem_dropWhile hsorted hb)]
    exact Nat.sub_lt_sub_right ha hlt
  · apply (hsorted.sublist (List.takeWhile_sublist _)).imp_of_mem
    intro a b ha hb hlt
    have ha : a < offset := by simpa using List.mem_takeWhile_imp ha
    have hb : b < offset := by simpa using List.mem_takeWhile_imp hb
    rw [turn_of_lt ha, turn_of_lt hb]
    exact Nat.add_lt_add_left hlt _
  · intro a ha b hb
    have hb : b < offset := by simpa using List.mem_takeWhile_imp hb
    rw [turn_of_le (le_of_mem_dropWhile hsorted ha), turn_of_lt hb]
    have halt := a.isLt
    omega

/-- The entry that is looked at twice, if there is one, does not matter. -/
theorem best_roundRobin {candidate : Fin n → Bool} {pri : Fin n → Int}
    (hsorted : entries.Pairwise (· < ·)) :
    best candidate pri (roundRobin entries offset) =
      best candidate pri (fromOffset entries offset) := by
  cases entries with
  | nil => rfl
  | cons y rest =>
      rw [roundRobin, fromOffset, List.take_succ_cons, List.take_zero, List.drop_succ_cons,
        List.drop_zero, List.singleton_append]
      by_cases hy : y < offset
      · rw [List.takeWhile_cons_of_pos (by simpa using hy)]
      · have hnone : rest.takeWhile (· < offset) = [] := by
          apply List.eq_nil_iff_forall_not_mem.mpr
          intro z hz
          have hlt : z < offset := by simpa using List.mem_takeWhile_imp hz
          have hyz : y < z :=
            List.rel_of_pairwise_cons hsorted ((List.takeWhile_prefix _).subset hz)
          exact hy (hyz.trans hlt)
        rw [hnone, List.takeWhile_cons_of_neg (by simpa using hy), List.append_nil,
          List.dropWhile_cons_of_neg (by simpa using hy)]
        exact best_append_of_mem List.mem_cons_self

/-- A round-robin scan by priority chooses the leader. -/
theorem best_roundRobin_eq_some_iff {candidate : Fin n → Bool} {pri : Fin n → Int}
    (hsorted : entries.Pairwise (· < ·)) :
    best candidate pri (roundRobin entries offset) = some x ↔
      Leads (fun y => y ∈ entries ∧ candidate y = true) pri (turn offset) x := by
  rw [best_roundRobin hsorted]
  have hleads (y : Fin n) (hy : best candidate pri (fromOffset entries offset) = some y) :
      Leads (fun y => y ∈ entries ∧ candidate y = true) pri (turn offset) y := by
    have h := leads_of_best (fromOffset_sorted hsorted) hy
    simpa only [mem_fromOffset] using h
  constructor
  · exact hleads x
  · intro hx
    cases hbest : best candidate pri (fromOffset entries offset) with
    | none =>
        have hnot := best_eq_none_iff.mp hbest x (mem_fromOffset.mpr hx.eligible.1)
        rw [hx.eligible.2] at hnot
        cases hnot
    | some y => exact congrArg some ((hleads y hbest).unique hx)

end RoundRobin

end Scan
