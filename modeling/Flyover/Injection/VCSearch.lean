import Flyover.Buffer.State

/-!
# The search for a virtual channel at injection

The traffic managers look for a virtual channel of a range, beginning after the one
that the class used last. Where that one is outside the range, every round of the
search looks at the first of the range.
-/

namespace Flyover

variable {vcs : Nat}

/-- The range that the routing function returns for injection. -/
structure InjectRange (vcs : Nat) where
  vcStart : Fin vcs
  vcEnd : Fin vcs

namespace InjectRange

variable (r : InjectRange vcs)

def vcCount : Nat := r.vcEnd + 1 - r.vcStart

def Contains (vc : Fin vcs) : Prop := r.vcStart ≤ vc ∧ vc ≤ r.vcEnd

instance (vc : Fin vcs) : Decidable (r.Contains vc) := inferInstanceAs (Decidable (_ ∧ _))

variable {r}

theorem vcCount_pos {vc : Fin vcs} (h : r.Contains vc) : 0 < r.vcCount := by
  have hle : r.vcStart.val ≤ r.vcEnd.val := h.1.trans h.2
  unfold vcCount
  omega

theorem add_mod_lt {lvc : Fin vcs} (h : r.Contains lvc) (i : Nat) :
    r.vcStart.val + (lvc.val - r.vcStart.val + i) % r.vcCount < vcs := by
  have hmod := Nat.mod_lt (lvc.val - r.vcStart.val + i) (vcCount_pos h)
  have hle : r.vcStart.val ≤ r.vcEnd.val := h.1.trans h.2
  have hend := r.vcEnd.isLt
  unfold vcCount at hmod ⊢
  omega

/-- `vc` in round `i`; a `_last_vc` of -1 is outside every range. -/
def tried (r : InjectRange vcs) (lastVC : Option (Fin vcs)) (i : Nat) : Fin vcs :=
  match lastVC with
  | none => r.vcStart
  | some lvc =>
      if h : r.Contains lvc then
        ⟨r.vcStart + (lvc - r.vcStart + i) % r.vcCount, add_mod_lt h i⟩
      else r.vcStart

end InjectRange

/-- Available and not full. -/
def BufferState.takes (s : BufferState vcs) (time : Int) (vc : Fin vcs) : Bool :=
  s.isAvailableFor vc && !s.isFullFor time vc

/-- The loop over `vc_count` rounds. -/
def BufferState.findVC (s : BufferState vcs) (time : Int) (r : InjectRange vcs)
    (lastVC : Option (Fin vcs)) : Option (Fin vcs) :=
  ((List.range r.vcCount).find? fun i => s.takes time (r.tried lastVC (i + 1))).map fun i =>
    r.tried lastVC (i + 1)

/-- How far a virtual channel is from the last one, going round all of them. -/
def turnAfter (lastVC : Option (Fin vcs)) (vc : Fin vcs) : Nat :=
  match lastVC with
  | none => vc
  | some lvc => (vc + vcs - lvc - 1) % vcs

/-- The search finds the first virtual channel of the range after the last one that can
be taken, if there is one. -/
structure SearchComplete (s : BufferState vcs) (time : Int) (r : InjectRange vcs)
    (lastVC : Option (Fin vcs)) : Prop where
  found : ∀ vc, s.findVC time r lastVC = some vc → (r.Contains vc ∧ s.takes time vc = true) ∧
    ∀ vc', r.Contains vc' → s.takes time vc' = true → turnAfter lastVC vc ≤ turnAfter lastVC vc'
  notFound : s.findVC time r lastVC = none → ∀ vc, r.Contains vc → s.takes time vc = false

/-- The last virtual channel is in the range, or the first of the range can be taken, or
none of them. -/
def Searchable (s : BufferState vcs) (time : Int) (r : InjectRange vcs)
    (lastVC : Option (Fin vcs)) : Prop :=
  (∃ lvc, lastVC = some lvc ∧ r.Contains lvc) ∨ s.takes time r.vcStart = true ∨
    ∀ vc, r.Contains vc → s.takes time vc = false

namespace BufferState

variable {s : BufferState vcs} {time : Int} {r : InjectRange vcs} {lastVC : Option (Fin vcs)}

/-- What is found has been tried in the first round that succeeds. -/
theorem findVC_eq_some {vc : Fin vcs} (h : s.findVC time r lastVC = some vc) :
    ∃ i < r.vcCount, vc = r.tried lastVC (i + 1) ∧ s.takes time vc = true ∧
      ∀ j < i, s.takes time (r.tried lastVC (j + 1)) = false := by
  obtain ⟨i, hfind, rfl⟩ := Option.map_eq_some_iff.mp h
  rw [List.find?_range_eq_some] at hfind
  obtain ⟨htakes, hi, hbefore⟩ := hfind
  refine ⟨i, List.mem_range.mp hi, rfl, htakes, fun j hj => ?_⟩
  simpa using hbefore j hj

theorem findVC_eq_none (h : s.findVC time r lastVC = none) {i : Nat} (hi : i < r.vcCount) :
    s.takes time (r.tried lastVC (i + 1)) = false := by
  rw [findVC, Option.map_eq_none_iff, List.find?_eq_none] at h
  simpa using h i (List.mem_range.mpr hi)

end BufferState

namespace InjectRange

variable {r : InjectRange vcs} {lastVC : Option (Fin vcs)}

theorem tried_of_outside (h : ¬ ∃ lvc, lastVC = some lvc ∧ r.Contains lvc) (i : Nat) :
    r.tried lastVC i = r.vcStart := by
  unfold tried
  cases lastVC with
  | none => rfl
  | some lvc => exact dif_neg fun hin => h ⟨lvc, rfl, hin⟩

/-- From a last virtual channel outside the range, the first of the range is the next. -/
theorem turnAfter_vcStart_le (h : ¬ ∃ lvc, lastVC = some lvc ∧ r.Contains lvc) {vc : Fin vcs}
    (hvc : r.Contains vc) : turnAfter lastVC r.vcStart ≤ turnAfter lastVC vc := by
  have hlow : r.vcStart.val ≤ vc.val := hvc.1
  have hhigh : vc.val ≤ r.vcEnd.val := hvc.2
  unfold turnAfter
  cases lastVC with
  | none => exact hlow
  | some lvc =>
      have hout : ¬ (r.vcStart.val ≤ lvc.val ∧ lvc.val ≤ r.vcEnd.val) := fun hin => h ⟨lvc, rfl, hin⟩
      have hvcs := vc.isLt
      have hlvc := lvc.isLt
      dsimp only
      by_cases hbelow : lvc.val < r.vcStart.val
      · have hwrap : ∀ v : Nat, lvc.val < v → v < vcs → (v + vcs - lvc.val - 1) % vcs = v - lvc.val - 1 := by
          intro v hv hv'
          rw [show v + vcs - lvc.val - 1 = (v - lvc.val - 1) + vcs by omega, Nat.add_mod_right,
            Nat.mod_eq_of_lt (by omega)]
        rw [hwrap _ hbelow (by omega), hwrap _ (by omega) hvcs]
        omega
      · rw [Nat.mod_eq_of_lt (by omega), Nat.mod_eq_of_lt (by omega)]
        omega

/-- In round `i + 1` the search is `i` further from the last virtual channel, or as many
more as are outside the range. -/
theorem turnAfter_tried {lvc : Fin vcs} (hin : r.Contains lvc) {i : Nat} (hi : i < r.vcCount) :
    r.Contains (r.tried (some lvc) (i + 1)) ∧
      turnAfter (some lvc) (r.tried (some lvc) (i + 1)) =
        if lvc.val + i + 1 ≤ r.vcEnd then i else i + (vcs - r.vcCount) := by
  have hlow : r.vcStart.val ≤ lvc.val := hin.1
  have hhigh : lvc.val ≤ r.vcEnd.val := hin.2
  have hend := r.vcEnd.isLt
  have hcount : r.vcCount = r.vcEnd + 1 - r.vcStart := rfl
  have hval : (r.tried (some lvc) (i + 1)).val =
      r.vcStart + (lvc - r.vcStart + (i + 1)) % r.vcCount := by
    rw [tried, dif_pos hin]
  unfold Contains turnAfter
  simp only [Fin.le_def, hval]
  by_cases hwrap : lvc.val + i + 1 ≤ r.vcEnd
  · rw [if_pos hwrap, Nat.mod_eq_of_lt (b := r.vcCount) (by omega)]
    refine ⟨by omega, ?_⟩
    rw [show r.vcStart.val + (lvc.val - r.vcStart.val + (i + 1)) + vcs - lvc.val - 1 = i + vcs by
      omega, Nat.add_mod_right, Nat.mod_eq_of_lt (by omega)]
  · have hmod : (lvc.val - r.vcStart.val + (i + 1)) % r.vcCount =
        lvc.val - r.vcStart.val + (i + 1) - r.vcCount := by
      rw [Nat.mod_eq_sub_mod (by omega), Nat.mod_eq_of_lt (by omega)]
    rw [if_neg hwrap, hmod]
    refine ⟨by omega, ?_⟩
    rw [Nat.mod_eq_of_lt (by omega)]
    omega

/-- Every virtual channel of the range is tried. -/
theorem exists_tried {lvc vc : Fin vcs} (hin : r.Contains lvc) (hvc : r.Contains vc) :
    ∃ i < r.vcCount, r.tried (some lvc) (i + 1) = vc := by
  have hlow : r.vcStart.val ≤ lvc.val := hin.1
  have hhigh : lvc.val ≤ r.vcEnd.val := hin.2
  have hvlow : r.vcStart.val ≤ vc.val := hvc.1
  have hvhigh : vc.val ≤ r.vcEnd.val := hvc.2
  have hcount : r.vcCount = r.vcEnd + 1 - r.vcStart := rfl
  have hval : ∀ i, (r.tried (some lvc) (i + 1)).val =
      r.vcStart + (lvc - r.vcStart + (i + 1)) % r.vcCount := by
    intro i
    rw [tried, dif_pos hin]
  by_cases hafter : lvc.val < vc.val
  · refine ⟨vc - lvc - 1, by omega, Fin.ext ?_⟩
    rw [hval, Nat.mod_eq_of_lt (by omega)]
    omega
  · refine ⟨vc + r.vcCount - lvc - 1, by omega, Fin.ext ?_⟩
    rw [hval, Nat.mod_eq_sub_mod (by omega), Nat.mod_eq_of_lt (by omega)]
    omega

theorem contains_tried {i : Nat} (hi : i < r.vcCount) : r.Contains (r.tried lastVC (i + 1)) := by
  have hcount : r.vcCount = r.vcEnd + 1 - r.vcStart := rfl
  by_cases hin : ∃ lvc, lastVC = some lvc ∧ r.Contains lvc
  · obtain ⟨lvc, rfl, hin⟩ := hin
    exact (turnAfter_tried hin hi).1
  · rw [tried_of_outside hin]
    exact ⟨le_rfl, Fin.le_def.mpr (by omega)⟩

end InjectRange

open BufferState InjectRange

variable {s : BufferState vcs} {time : Int} {r : InjectRange vcs} {lastVC : Option (Fin vcs)}

theorem searchComplete_of_contains {lvc : Fin vcs} (hin : r.Contains lvc) :
    SearchComplete s time r (some lvc) where
  found := by
    intro vc hvc
    obtain ⟨i, hi, rfl, htakes, hbefore⟩ := findVC_eq_some hvc
    obtain ⟨hcontains, hturn⟩ := turnAfter_tried hin hi
    refine ⟨⟨hcontains, htakes⟩, ?_⟩
    intro vc' hvc' htakes'
    obtain ⟨j, hj, rfl⟩ := exists_tried hin hvc'
    -- the rounds before found nothing
    have hij : i ≤ j := by
      by_contra hlt
      rw [hbefore j (not_le.mp hlt)] at htakes'
      cases htakes'
    rw [hturn, (turnAfter_tried hin hj).2]
    split
    next => split <;> omega
    next => split <;> omega
  notFound := by
    intro hnone vc hvc
    obtain ⟨i, hi, rfl⟩ := exists_tried hin hvc
    exact findVC_eq_none hnone hi

theorem searchComplete_of_outside (hout : ¬ ∃ lvc, lastVC = some lvc ∧ r.Contains lvc)
    (hstart : s.takes time r.vcStart = true) : SearchComplete s time r lastVC where
  found := by
    intro vc hvc
    obtain ⟨i, hi, rfl, htakes, -⟩ := findVC_eq_some hvc
    refine ⟨⟨contains_tried hi, htakes⟩, ?_⟩
    intro vc' hvc' _
    rw [tried_of_outside hout]
    exact turnAfter_vcStart_le hout hvc'
  notFound := by
    intro hnone vc hvc
    have hfirst := findVC_eq_none hnone (vcCount_pos hvc)
    rw [tried_of_outside hout, hstart] at hfirst
    cases hfirst

theorem searchComplete_of_none (hnone : ∀ vc, r.Contains vc → s.takes time vc = false) :
    SearchComplete s time r lastVC where
  found := by
    intro vc hvc
    obtain ⟨i, hi, rfl, htakes, -⟩ := findVC_eq_some hvc
    rw [hnone _ (contains_tried hi)] at htakes
    cases htakes
  notFound := fun _ => hnone

/-- The search is complete exactly if it begins in the range, or has no need to go on
from where it begins. -/
theorem searchComplete_iff (s : BufferState vcs) (time : Int) (r : InjectRange vcs)
    (lastVC : Option (Fin vcs)) : SearchComplete s time r lastVC ↔ Searchable s time r lastVC := by
  by_cases hin : ∃ lvc, lastVC = some lvc ∧ r.Contains lvc
  · refine iff_of_true ?_ (.inl hin)
    obtain ⟨lvc, rfl, hin⟩ := hin
    exact searchComplete_of_contains hin
  · constructor
    · intro h
      by_cases hstart : s.takes time r.vcStart = true
      · exact .inr (.inl hstart)
      · refine .inr (.inr (h.notFound ?_))
        cases hfind : s.findVC time r lastVC with
        | none => rfl
        | some vc =>
            obtain ⟨i, -, rfl, htakes, -⟩ := findVC_eq_some hfind
            rw [tried_of_outside hin] at htakes
            exact absurd htakes hstart
    · rintro (hin' | hstart | hnone)
      · exact absurd hin' hin
      · exact searchComplete_of_outside hin hstart
      · exact searchComplete_of_none hnone

/-- Three virtual channels, of which the first is in use. -/
def firstTaken : BufferState 3 :=
  { BufferState.new ⟨4, -1, false⟩ (.privateBuffer (by decide)) with
    inUseBy := fun vc => if vc = 0 then some 0 else none }

/-- The range is the first two, and the last one was used last. -/
theorem not_searchComplete_outside : ¬ ∀ (vcs : Nat) (s : BufferState vcs) (time : Int)
    (r : InjectRange vcs) (lastVC : Option (Fin vcs)), SearchComplete s time r lastVC := by
  intro hall
  have hnone : firstTaken.findVC 0 ⟨0, 1⟩ (some 2) = none := by decide
  have hfree := (hall 3 firstTaken 0 ⟨0, 1⟩ (some 2)).notFound hnone 1 (by decide)
  exact absurd hfree (by decide)

end Flyover
