import Flyover.Matching.Scan

/-!
# Scans that an entry can stop

A scan looks at the entries whose priority is above that of what it has chosen. Some
of them it does not choose, but stops. So it chooses the best of the entries that it
has seen until then.
-/

namespace Scan

variable {α : Type*} (candidate stops : α → Bool) (pri : α → Int)

/-- The scan, with what was chosen before. -/
def scanFrom : Option α → List α → Option α
  | chosen, [] => chosen
  | chosen, x :: rest =>
      if chosen.all (fun y => decide (pri y < pri x)) then
        if stops x then chosen else scanFrom (if candidate x then some x else chosen) rest
      else scanFrom chosen rest

/-- The priority is above that of every candidate before. -/
def Overtakes (before : List α) (x : α) : Prop := ∀ y ∈ before, candidate y = true → pri y < pri x

/-- No entry that was seen has stopped the scan, and the next one does so if there is one. -/
structure Seen (entries seen : List α) : Prop where
  goesOn : ∀ before x after, seen = before ++ x :: after → stops x = true →
    ¬ Overtakes candidate pri before x
  ends : ∃ rest, entries = seen ++ rest ∧
    ∀ x after, rest = x :: after → stops x = true ∧ Overtakes candidate pri seen x

variable {candidate stops pri} {entries seen : List α} {x : α}

/-- It is enough to compare with what has been chosen. -/
theorem all_best_iff :
    (best candidate pri seen).all (fun y => decide (pri y < pri x)) = true ↔
      Overtakes candidate pri seen x := by
  cases hbest : best candidate pri seen with
  | none =>
      refine iff_of_true rfl ?_
      intro y hy hcandidate
      rw [(best_spec seen).2 hbest y hy] at hcandidate
      cases hcandidate
  | some z =>
      obtain ⟨hz, before, after, hseen, hbefore, hafter⟩ := (best_spec seen).1 z hbest
      rw [Option.all_some, decide_eq_true_iff]
      constructor
      · intro hzx y hy hcandidate
        rw [hseen, List.mem_append, List.mem_cons] at hy
        obtain hy | rfl | hy := hy
        · exact (hbefore y hy hcandidate).trans hzx
        · exact hzx
        · exact (hafter y hy hcandidate).trans_lt hzx
      · intro hovertakes
        refine hovertakes z ?_ hz
        simp [hseen]

theorem goesOn_append_singleton
    (h : ∀ before y after, seen = before ++ y :: after → stops y = true →
      ¬ Overtakes candidate pri before y)
    (hx : stops x = true → ¬ Overtakes candidate pri seen x) :
    ∀ before y after, seen ++ [x] = before ++ y :: after → stops y = true →
      ¬ Overtakes candidate pri before y := by
  intro before y after hsplit
  induction after using List.reverseRecOn with
  | nil =>
      obtain ⟨rfl, hxy⟩ := List.append_inj' hsplit rfl
      cases hxy
      exact hx
  | append_singleton after z _ =>
      rw [← List.cons_append, ← List.append_assoc] at hsplit
      exact h before y after (List.append_inj' hsplit rfl).1

/-- The induction is on what is left; so far the scan has not been stopped. -/
theorem scanFrom_best (rest : List α) : ∀ seen : List α,
    (∀ before x after, seen = before ++ x :: after → stops x = true →
      ¬ Overtakes candidate pri before x) →
    ∃ seen', Seen candidate stops pri (seen ++ rest) seen' ∧
      scanFrom candidate stops pri (best candidate pri seen) rest = best candidate pri seen' := by
  induction rest with
  | nil =>
      intro seen hseen
      exact ⟨seen, ⟨hseen, [], rfl, fun x after h => nomatch h⟩, rfl⟩
  | cons x rest ih =>
      intro seen hseen
      rw [scanFrom]
      by_cases hovertakes : Overtakes candidate pri seen x
      · rw [if_pos (all_best_iff.mpr hovertakes)]
        by_cases hstops : stops x = true
        · rw [if_pos hstops]
          refine ⟨seen, ⟨hseen, x :: rest, rfl, ?_⟩, rfl⟩
          intro y after hy
          cases hy
          exact ⟨hstops, hovertakes⟩
        · have hbest : (if candidate x then some x else best candidate pri seen) =
              best candidate pri (seen ++ [x]) := by
            rw [best_append_singleton, improve, all_best_iff.mpr hovertakes, Bool.and_true]
          rw [if_neg hstops, hbest, List.append_cons]
          exact ih _ (goesOn_append_singleton hseen fun h => absurd h hstops)
      · have hbest : best candidate pri seen = best candidate pri (seen ++ [x]) := by
          rw [best_append_singleton, improve, Bool.eq_false_of_not_eq_true (mt all_best_iff.mp hovertakes),
            Bool.and_false]
          rfl
        rw [if_neg (mt all_best_iff.mp hovertakes), hbest, List.append_cons]
        exact ih _ (goesOn_append_singleton hseen fun _ => hovertakes)

/-- An entry that was seen by one scan and stops another one has not been seen. -/
theorem Seen.length_le {seen' : List α} (h : Seen candidate stops pri entries seen)
    (h' : Seen candidate stops pri entries seen') : seen'.length ≤ seen.length := by
  obtain ⟨rest, hrest, hends⟩ := h.ends
  obtain ⟨rest', hrest', -⟩ := h'.ends
  by_contra hlt
  obtain ⟨after, rfl⟩ : ∃ after, seen' = seen ++ after :=
    (List.prefix_of_prefix_length_le ⟨rest, hrest.symm⟩ ⟨rest', hrest'.symm⟩ (by omega)).imp
      fun _ => Eq.symm
  cases after with
  | nil => simp at hlt
  | cons x after =>
      rw [hrest, List.append_assoc, List.append_right_inj] at hrest'
      obtain ⟨hstops, hovertakes⟩ := hends x _ hrest'
      exact h'.goesOn seen x after rfl hstops hovertakes

theorem Seen.unique {seen' : List α} (h : Seen candidate stops pri entries seen)
    (h' : Seen candidate stops pri entries seen') : seen = seen' := by
  obtain ⟨rest, hrest, -⟩ := h.ends
  obtain ⟨rest', hrest', -⟩ := h'.ends
  refine (List.append_inj (hrest.symm.trans hrest') ?_).1
  exact le_antisymm (h'.length_le h) (h.length_le h')

theorem exists_seen (entries : List α) : ∃ seen, Seen candidate stops pri entries seen ∧
    scanFrom candidate stops pri none entries = best candidate pri seen :=
  scanFrom_best entries [] fun _ _ _ h => by simp at h

/-- The scan chooses the best of what it sees. -/
theorem Seen.scanFrom_eq (h : Seen candidate stops pri entries seen) :
    scanFrom candidate stops pri none entries = best candidate pri seen := by
  obtain ⟨seen', hseen', hscan⟩ :
      ∃ seen', Seen candidate stops pri entries seen' ∧
        scanFrom candidate stops pri none entries = best candidate pri seen' :=
    exists_seen entries
  rw [h.unique hseen', hscan]

end Scan
