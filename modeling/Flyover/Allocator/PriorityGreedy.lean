import Flyover.Allocator.Types
import Flyover.Matching.Greedy

/-!
# `Wavefront` with requests that are withdrawn

`RemoveRequest` is inherited and does not know the counters of `AddRequest`. As long as
a request is left, both ways to allocate match greedily, from the greatest priority on.
When the last one has been withdrawn, neither does what it should.
-/

namespace Flyover

open PartialMatching

variable {inputs outputs : Nat}

/-- `RemoveRequest`; it does not look at the label. -/
def Allocator.removeRequest (a : Allocator inputs outputs) (i : Fin inputs) (o : Fin outputs) :
    Allocator inputs outputs :=
  { a with request := Function.update a.request i (Function.update (a.request i) o none) }

namespace Wavefront

/-- The calls between `Clear` and `Allocate`. -/
inductive Call (inputs outputs : Nat) where
  | addRequest (i : Fin inputs) (o : Fin outputs) (r : Request)
  | removeRequest (i : Fin inputs) (o : Fin outputs)

/-- One call. -/
def perform (s : Wavefront inputs outputs) : Call inputs outputs → Option (Wavefront inputs outputs)
  | .addRequest i o r => s.addRequest i o r
  | .removeRequest i o => some { s with toAllocator := s.toAllocator.removeRequest i o }

/-- After `Clear`, with nothing counted since the last allocation. -/
def start (skipDiags : Bool) (pri : Nat) : Wavefront inputs outputs where
  last := none
  skipDiags := skipDiags
  pri := pri
  numRequests := 0
  priorities := []

/-- The loops, whatever the number of requests. -/
def fullSweep (s : Wavefront inputs outputs) : Sweep inputs outputs :=
  (cells (square inputs outputs) s.priorities).foldl (visit s.request s.pri) ⟨s.matching, none⟩

/-- `make_pair(out_pri, in_pri)` -/
def priorityOf (request : Requests inputs outputs) (p : Fin inputs × Fin outputs) : Int × Int :=
  match request p.1 p.2 with
  | some r => (r.outPri, r.inPri)
  | none => (0, 0)

/-- An allocation returns; the matching has only requests that are still there, a request
without a grant is blocked by a granted one with at least its priority, and the loops
would have found the same. -/
def AllocatesGreedily (s : Wavefront inputs outputs) : Prop :=
  ∃ s', s.allocate = some s' ∧ s'.matching.Consistent ∧ s'.matching.Within s.request.Has ∧
    (∀ p : Fin inputs × Fin outputs, s.request.Has p.1 p.2 → ∃ q : Fin inputs × Fin outputs,
      s'.matching.inmatch q.1 = some q.2 ∧ (q.1 = p.1 ∨ q.2 = p.2) ∧
        (q = p ∨ greater (priorityOf s.request p) (priorityOf s.request q) = false)) ∧
    s'.matching = s.fullSweep.matching

/-! ### The loops are a greedy matching -/

section Sweep

variable (request : Requests inputs outputs) (pri : Nat)

/-- The pair that a cell stands for, if it is requested with the cell's priority. -/
def hit (c : Cell) : Option (Fin inputs × Fin outputs) :=
  if h : c.input (square inputs outputs) pri < inputs ∧ c.output < outputs then
    if (request ⟨_, Cell.input_lt h⟩ ⟨_, Cell.output_lt h⟩).any fun r =>
        r.inPri = c.priority.2 && r.outPri = c.priority.1 then
      some (⟨_, Cell.input_lt h⟩, ⟨_, Cell.output_lt h⟩)
    else none
  else none

variable {request pri} {c : Cell} {p : Fin inputs × Fin outputs}

theorem hit_requested (h : hit request pri c = some p) :
    request.Has p.1 p.2 ∧ priorityOf request p = c.priority := by
  unfold hit at h
  split at h
  next hin =>
    split at h
    next hany =>
      cases h
      cases hr : request ⟨_, hin.1⟩ ⟨_, hin.2⟩ with
      | none =>
          rw [hr] at hany
          cases hany
      | some r =>
          rw [hr, Option.any_some, Bool.and_eq_true, decide_eq_true_iff, decide_eq_true_iff] at hany
          refine ⟨congrArg Option.isSome hr, ?_⟩
          rw [priorityOf, hr]
          exact Prod.ext hany.2 hany.1
    next => cases h
  next => cases h

theorem hit_of_hits (h : c.Hits request pri p.1 p.2) : hit request pri c = some p := by
  obtain ⟨hin, hout, r, hr, hpriority⟩ := h
  have hrange : c.input (square inputs outputs) pri < inputs ∧ c.output < outputs := by
    rw [hin, hout]
    exact ⟨p.1.isLt, p.2.isLt⟩
  have hi : (⟨c.input (square inputs outputs) pri, hrange.1⟩ : Fin inputs) = p.1 := Fin.ext hin
  have ho : (⟨c.output, hrange.2⟩ : Fin outputs) = p.2 := Fin.ext hout
  rw [hit, dif_pos hrange]
  simp only [hi, ho, hr, hpriority, Option.any_some, decide_true, Bool.and_self, if_true]

theorem visit_matching (w : Sweep inputs outputs) (c : Cell) :
    (visit request pri w c).matching =
      match hit request pri c with
      | some p => w.matching.offer p
      | none => w.matching := by
  unfold visit hit
  split
  next h =>
    dsimp only
    split
    next htest =>
      rw [Bool.and_eq_true] at htest
      rw [if_pos htest.2]
      exact (if_pos htest.1).symm
    next htest =>
      split
      next p hp =>
        split at hp
        next hany =>
          cases hp
          rw [hany, Bool.and_true] at htest
          exact (if_neg htest).symm
        next => cases hp
      next => rfl
  next => rfl

theorem foldl_visit_matching (l : List Cell) (w : Sweep inputs outputs) :
    (l.foldl (visit request pri) w).matching = (l.filterMap (hit request pri)).foldl offer w.matching := by
  induction l generalizing w with
  | nil => rfl
  | cons c rest ih =>
      rw [List.foldl_cons, ih, visit_matching, List.filterMap_cons]
      cases hit request pri c <;> rfl

end Sweep

/-! ### The order of the cells -/

theorem greater_iff {a b : Int × Int} : greater a b = true ↔ b.1 < a.1 ∨ b.1 = a.1 ∧ b.2 < a.2 := by
  simp [greater]

theorem greater_eq_false_iff {a b : Int × Int} :
    greater a b = false ↔ a.1 < b.1 ∨ a.1 = b.1 ∧ a.2 ≤ b.2 := by
  rw [← Bool.not_eq_true, greater_iff]
  omega

/-- The set of priorities is kept from the greatest down. -/
theorem sorted_insertPriority {x : Int × Int} {l : List (Int × Int)}
    (h : l.Pairwise fun a b => greater b a = false) :
    (insertPriority x l).Pairwise fun a b => greater b a = false := by
  induction l with
  | nil => exact List.pairwise_singleton ..
  | cons y rest ih =>
      obtain ⟨hy, hrest⟩ := List.pairwise_cons.mp h
      unfold insertPriority
      split
      next => exact h
      next =>
        split
        next hgreater =>
          refine List.pairwise_cons.mpr ⟨fun z hz => ?_, h⟩
          rw [greater_iff] at hgreater
          have hz' : greater z y = false := by
            rcases List.mem_cons.mp hz with rfl | hz
            · exact greater_eq_false_iff.mpr (.inr ⟨rfl, le_rfl⟩)
            · exact hy z hz
          rw [greater_eq_false_iff] at hz' ⊢
          omega
        next hless =>
          refine List.pairwise_cons.mpr ⟨fun z hz => ?_, ih hrest⟩
          rcases mem_insertPriority.mp hz with rfl | hz
          · exact Bool.eq_false_of_not_eq_true hless
          · exact hy z hz

theorem cells_sorted (square : Nat) {priorities : List (Int × Int)}
    (h : priorities.Pairwise fun a b => greater b a = false) :
    (cells square priorities).Pairwise fun c c' => greater c'.priority c.priority = false := by
  have hblock (x : Int × Int) : ∀ c ∈ cells square [x], c.priority = x := by
    intro c hc
    simp only [cells, List.flatMap_singleton, List.mem_flatMap, List.mem_map] at hc
    obtain ⟨p, -, output, -, rfl⟩ := hc
    rfl
  induction priorities with
  | nil => exact .nil
  | cons x rest ih =>
      obtain ⟨hx, hrest⟩ := List.pairwise_cons.mp h
      have hcells : cells square (x :: rest) = cells square [x] ++ cells square rest := by
        simp only [cells, List.flatMap_cons, List.flatMap_nil, List.append_nil]
      rw [hcells, List.pairwise_append]
      refine ⟨?_, ih hrest, ?_⟩
      · apply List.pairwise_of_forall_mem_list
        intro c hc c' hc'
        rw [hblock x c hc, hblock x c' hc']
        exact greater_eq_false_iff.mpr (.inr ⟨rfl, le_rfl⟩)
      · intro c hc c' hc'
        rw [hblock x c hc]
        obtain ⟨y, hy, hc'⟩ := List.mem_flatMap.mp hc'
        rw [hblock y c' (by simpa only [cells, List.flatMap_singleton] using hc')]
        exact hx y hy

/-! ### What is counted -/

/-- The calls that are counted. -/
def Call.isAdd : Call inputs outputs → Bool
  | .addRequest .. => true
  | .removeRequest .. => false

/-- What the counters know of the requests, some of which may have been withdrawn. -/
structure Counted (s : Wavefront inputs outputs) : Prop where
  matching : s.matching = .empty
  dirty : s.numRequests ≠ 0 → s.dirty = true
  none : s.numRequests = 0 → s.last = none ∧ s.priorities = [] ∧ ∀ i o, ¬ s.request.Has i o
  last : s.numRequests ≠ 0 → ∃ i o, s.last = some (i, o)
  single : s.numRequests = 1 → ∀ i o, s.request.Has i o → s.last = some (i, o)
  priorities : ∀ i o r, s.request i o = some r → (r.outPri, r.inPri) ∈ s.priorities
  sorted : s.priorities.Pairwise fun a b => greater b a = false

variable {s s' : Wavefront inputs outputs}

theorem counted_start (skipDiags : Bool) (pri : Nat) :
    (start skipDiags pri : Wavefront inputs outputs).Counted where
  matching := rfl
  dirty h := absurd rfl h
  none _ := ⟨rfl, rfl, fun _ _ => Bool.false_ne_true⟩
  last h := absurd rfl h
  single h := nomatch h
  priorities _ _ _ h := nomatch h
  sorted := .nil

/-- A request that is there after one has been withdrawn was there before. -/
theorem request_of_remove {request : Requests inputs outputs} {i i' : Fin inputs}
    {o o' : Fin outputs} {r : Request}
    (h : Function.update request i (Function.update (request i) o none) i' o' = some r) :
    request i' o' = some r := by
  by_cases hi : i' = i
  · subst hi
    rw [Function.update_self] at h
    by_cases ho : o' = o
    · subst ho
      rw [Function.update_self] at h
      cases h
    · rwa [Function.update_of_ne ho] at h
  · rwa [Function.update_of_ne hi] at h

theorem request_of_add {request : Requests inputs outputs} {i i' : Fin inputs} {o o' : Fin outputs}
    {r r' : Request}
    (h : Function.update request i (Function.update (request i) o (some r)) i' o' = some r') :
    r' = r ∨ request i' o' = some r' := by
  by_cases hi : i' = i
  · subst hi
    rw [Function.update_self] at h
    by_cases ho : o' = o
    · subst ho
      rw [Function.update_self] at h
      exact .inl (Option.some.inj h).symm
    · rw [Function.update_of_ne ho] at h
      exact .inr h
  · rw [Function.update_of_ne hi] at h
    exact .inr h

theorem Counted.perform (h : s.Counted) {c : Call inputs outputs}
    (hc : perform s c = some s') : s'.Counted ∧
      s'.numRequests = s.numRequests + if c.isAdd then 1 else 0 := by
  cases c with
  | addRequest i o r =>
      obtain ⟨a, ha, hs'⟩ := Option.bind_eq_some_iff.mp hc
      cases hs'
      obtain ⟨-, rfl⟩ := Allocator.addRequest_eq_some ha
      refine ⟨⟨h.matching, fun _ => rfl, (fun hzero => nomatch hzero), fun _ => ⟨i, o, rfl⟩, ?_, ?_,
        sorted_insertPriority h.sorted⟩, rfl⟩
      · intro hone i' o' hhas
        have hzero : s.numRequests = 0 := Nat.succ.inj hone
        rcases Allocator.has_update.mp hhas with ⟨rfl, rfl⟩ | hold
        · rfl
        · exact absurd hold ((h.none hzero).2.2 i' o')
      · intro i' o' r' hr'
        rw [mem_insertPriority]
        rcases request_of_add hr' with rfl | hold
        · exact .inl rfl
        · exact .inr (h.priorities i' o' r' hold)
  | removeRequest i o =>
      cases hc
      have hold {i' : Fin inputs} {o' : Fin outputs}
          (hhas : (s.toAllocator.removeRequest i o).request.Has i' o') : s.request.Has i' o' := by
        obtain ⟨r, hr⟩ := Option.isSome_iff_exists.mp hhas
        exact congrArg Option.isSome (request_of_remove hr)
      refine ⟨⟨h.matching, h.dirty, fun hzero => ?_, h.last, fun hone i' o' hhas => ?_, ?_,
        h.sorted⟩, rfl⟩
      · obtain ⟨hlast, hpriorities, hnone⟩ := h.none hzero
        exact ⟨hlast, hpriorities, fun i' o' hhas => hnone i' o' (hold hhas)⟩
      · exact h.single hone i' o' (hold hhas)
      · exact fun i' o' r hr => h.priorities i' o' r (request_of_remove hr)

theorem Counted.performAll (h : s.Counted) {calls : List (Call inputs outputs)}
    (hcalls : calls.foldlM Wavefront.perform s = some s') : s'.Counted ∧
      s'.numRequests = s.numRequests + calls.countP Call.isAdd := by
  induction calls generalizing s with
  | nil =>
      cases hcalls
      exact ⟨h, rfl⟩
  | cons c rest ih =>
      obtain ⟨u, hu, hrest⟩ := Option.bind_eq_some_iff.mp hcalls
      obtain ⟨hcounted, hfirst⟩ := h.perform hu
      obtain ⟨hcounted', hothers⟩ := ih hcounted hrest
      refine ⟨hcounted', ?_⟩
      rw [hothers, hfirst, List.countP_cons]
      omega

/-- Clearing after an allocation leads back to the start, on another diagonal. -/
theorem clear_of_allocate (h : s.Counted) (hallocate : s.allocate = some s') :
    { s' with toAllocator := s'.toAllocator.clear } = start s'.skipDiags s'.pri := by
  unfold allocate at hallocate
  split at hallocate
  next hzero =>
    cases hallocate
    obtain ⟨hlast, hpriorities, -⟩ := h.none hzero
    unfold Allocator.clear
    rw [hlast, hpriorities, hzero, h.matching, ite_self]
    rfl
  next hsome =>
    obtain ⟨d, -, rfl⟩ := Option.map_eq_some_iff.mp hallocate
    unfold Allocator.clear
    dsimp only
    rw [if_pos (h.dirty hsome)]
    rfl

/-! ### Both ways to allocate -/

/-- The loops match greedily, as the pairs come from the greatest priority on. -/
theorem fullSweep_matching (h : s.Counted) :
    s.fullSweep.matching =
      greedy ((cells (square inputs outputs) s.priorities).filterMap (hit s.request s.pri)) := by
  rw [fullSweep, foldl_visit_matching, h.matching]
  rfl

theorem within_fullSweep (h : s.Counted) : s.fullSweep.matching.Within s.request.Has := by
  intro i o hmatched
  rw [fullSweep_matching h] at hmatched
  obtain ⟨c, -, hc⟩ := List.mem_filterMap.mp (mem_of_greedy hmatched)
  exact (hit_requested hc).1

theorem exists_blocker_fullSweep (h : s.Counted) {p : Fin inputs × Fin outputs}
    (hhas : s.request.Has p.1 p.2) : ∃ q : Fin inputs × Fin outputs,
      s.fullSweep.matching.inmatch q.1 = some q.2 ∧ (q.1 = p.1 ∨ q.2 = p.2) ∧
        (q = p ∨ greater (priorityOf s.request p) (priorityOf s.request q) = false) := by
  obtain ⟨r, hr⟩ := Option.isSome_iff_exists.mp hhas
  obtain ⟨c, hc, hits⟩ := exists_cell hr (h.priorities p.1 p.2 r hr) s.pri
  rw [fullSweep_matching h]
  apply exists_blocker (r := fun q p => greater (priorityOf s.request p) (priorityOf s.request q) = false)
  · rw [List.pairwise_filterMap]
    apply (cells_sorted _ h.sorted).imp
    intro c c' hle p hp p' hp'
    rwa [(hit_requested hp).2, (hit_requested hp').2]
  · exact List.mem_filterMap.mpr ⟨c, hc, hit_of_hits hits⟩

theorem firstDiag_fullSweep (h : s.Counted) {i : Fin inputs} {o : Fin outputs}
    (hhas : s.request.Has i o) : s.fullSweep.firstDiag ≠ none := by
  obtain ⟨r, hr⟩ := Option.isSome_iff_exists.mp hhas
  obtain ⟨c, hc, hits⟩ := exists_cell hr (h.priorities i o r hr) s.pri
  exact firstDiag_foldl hc hits h.matching

/-- A single request that is still there is what the loops find. -/
theorem single_eq_fullSweep (h : s.Counted) (hone : s.numRequests = 1) {i : Fin inputs}
    {o : Fin outputs} (hhas : s.request.Has i o) :
    s.matching.assign i o = s.fullSweep.matching := by
  have hlast := h.single hone i o hhas
  have honly {i' : Fin inputs} {o' : Fin outputs} (hhas' : s.request.Has i' o') : i' = i ∧ o' = o := by
    have hsame := (h.single hone i' o' hhas').symm.trans hlast
    cases hsame
    exact ⟨rfl, rfl⟩
  have hin : s.fullSweep.matching.inmatch i = some o := by
    obtain ⟨q, hq, -⟩ := exists_blocker_fullSweep h (p := (i, o)) hhas
    obtain ⟨hqi, hqo⟩ := honly (within_fullSweep h q.1 q.2 hq)
    rwa [hqi, hqo] at hq
  have hconsistent : s.fullSweep.matching.Consistent := fullSweep_matching h ▸ consistent_greedy _
  rw [h.matching]
  apply PartialMatching.ext
  · funext i'
    by_cases hi : i' = i
    · rw [hi, assign_inmatch_self, hin]
    · rw [assign_inmatch_of_ne hi]
      cases hi' : s.fullSweep.matching.inmatch i' with
      | none => rfl
      | some o' => exact absurd (honly (within_fullSweep h i' o' hi')).1 hi
  · funext o'
    by_cases ho : o' = o
    · rw [ho, assign_outmatch_self, (hconsistent i o).mp hin]
    · rw [assign_outmatch_of_ne ho]
      cases ho' : s.fullSweep.matching.outmatch o' with
      | none => rfl
      | some i' =>
          have hmatched := (hconsistent i' o').mpr ho'
          exact absurd (honly (within_fullSweep h i' o' hmatched)).2 ho

theorem sweep_of_ne_one (h : s.numRequests ≠ 1) : s.sweep = s.fullSweep := by
  unfold sweep
  split
  next hone _ => exact absurd hone h
  next => rfl

theorem sweep_of_last {i : Fin inputs} {o : Fin outputs} (hone : s.numRequests = 1)
    (hlast : s.last = some (i, o)) : s.sweep = ⟨s.matching.assign i o, some (i.val + o.val)⟩ := by
  unfold sweep
  rw [hone, hlast]
  rfl

theorem sweep_eq (h : s.Counted) {i : Fin inputs} {o : Fin outputs} (hhas : s.request.Has i o) :
    s.sweep.matching = s.fullSweep.matching ∧ s.sweep.firstDiag ≠ none := by
  by_cases hone : s.numRequests = 1
  · rw [sweep_of_last hone (h.single hone i o hhas)]
    exact ⟨single_eq_fullSweep h hone hhas, Option.some_ne_none _⟩
  · rw [sweep_of_ne_one hone]
    exact ⟨rfl, firstDiag_fullSweep h hhas⟩

/-- Without a request the loops find nothing. -/
theorem fullSweep_of_forall_not (hnone : ∀ i o, ¬ s.request.Has i o) :
    s.fullSweep = ⟨s.matching, none⟩ := by
  unfold fullSweep
  induction cells (square inputs outputs) s.priorities with
  | nil => rfl
  | cons c rest ih =>
      have hsame : visit s.request s.pri ⟨s.matching, none⟩ c = ⟨s.matching, none⟩ := by
        rcases visit_cases s.request s.pri ⟨s.matching, none⟩ c with hsame | ⟨i, o, -, hhas, -⟩
        · exact hsame
        · exact absurd hhas (hnone i o)
      rw [List.foldl_cons, hsame]
      exact ih

theorem Counted.allocatesGreedily (h : s.Counted) {i : Fin inputs} {o : Fin outputs}
    (hhas : s.request.Has i o) : s.AllocatesGreedily := by
  have hsome : s.numRequests ≠ 0 := fun hzero => (h.none hzero).2.2 i o hhas
  obtain ⟨hmatching, hdiag⟩ := sweep_eq h hhas
  obtain ⟨d, hd⟩ := Option.ne_none_iff_exists'.mp hdiag
  have hconsistent : s.fullSweep.matching.Consistent := fullSweep_matching h ▸ consistent_greedy _
  unfold AllocatesGreedily allocate
  rw [if_neg hsome]
  dsimp only
  rw [hd]
  refine ⟨_, rfl, ?_⟩
  dsimp only
  rw [hmatching]
  exact ⟨hconsistent, within_fullSweep h, fun _ => exists_blocker_fullSweep h, rfl⟩

/-- When all requests have been withdrawn, a single one is granted nevertheless, and after
several ones the loops find nothing and the assertion fails. -/
theorem Counted.not_allocatesGreedily (h : s.Counted) (hsome : s.numRequests ≠ 0)
    (hnone : ∀ i o, ¬ s.request.Has i o) : ¬ s.AllocatesGreedily := by
  rintro ⟨s', hs', -, hwithin, -⟩
  rw [allocate, if_neg hsome] at hs'
  dsimp only at hs'
  by_cases hone : s.numRequests = 1
  · obtain ⟨i, o, hlast⟩ := h.last hsome
    rw [sweep_of_last hone hlast] at hs'
    cases hs'
    exact hnone i o (hwithin i o assign_inmatch_self)
  · rw [sweep_of_ne_one hone, fullSweep_of_forall_not hnone] at hs'
    cases hs'

/-- From the start, on every diagonal and after any calls, this is when the allocation is
greedy. -/
theorem allocatesGreedily_iff (skipDiags : Bool) (pri : Nat) (calls : List (Call inputs outputs))
    (hcalls : calls.foldlM perform (start skipDiags pri) = some s) :
    s.AllocatesGreedily ↔
      (∀ c ∈ calls, c.isAdd = false) ∨ ∃ i o, s.request.Has i o := by
  obtain ⟨h, hcount⟩ := (counted_start skipDiags pri).performAll hcalls
  rw [show (start skipDiags pri : Wavefront inputs outputs).numRequests = 0 from rfl,
    Nat.zero_add] at hcount
  have hnoAdd : (∀ c ∈ calls, c.isAdd = false) ↔ s.numRequests = 0 := by
    rw [hcount, List.countP_eq_zero]
    simp only [Bool.not_eq_true]
  rw [hnoAdd]
  constructor
  · intro hgreedy
    by_contra hbad
    rw [not_or] at hbad
    exact h.not_allocatesGreedily hbad.1 (fun i o hhas => hbad.2 ⟨i, o, hhas⟩) hgreedy
  · rintro (hzero | ⟨i, o, hhas⟩)
    · obtain ⟨-, hpriorities, hnone⟩ := h.none hzero
      refine ⟨s, if_pos hzero, ?_, ?_, ?_, ?_⟩
      · rw [h.matching]
        exact consistent_empty
      · rw [h.matching]
        exact within_empty
      · exact fun p hhas => absurd hhas (hnone p.1 p.2)
      · rw [fullSweep_of_forall_not hnone]
    · exact h.allocatesGreedily hhas

/-- A request of the given priority. -/
def withPriority (pri : Int) : Request where
  label := 0
  inPri := pri
  outPri := pri

/-- One request is withdrawn and made again with a higher priority. -/
theorem allocatesGreedily_again : ∃ s : Wavefront 2 2,
    [.addRequest 0 0 (withPriority 0), .addRequest 1 0 (withPriority 1), .removeRequest 0 0,
      .addRequest 0 0 (withPriority 2)].foldlM perform (start false 0) = some s ∧
    s.AllocatesGreedily := by
  refine ⟨_, rfl, ?_⟩
  apply (allocatesGreedily_iff false 0
    [.addRequest 0 0 (withPriority 0), .addRequest 1 0 (withPriority 1), .removeRequest 0 0,
      .addRequest 0 0 (withPriority 2)] rfl).mpr
  exact .inr ⟨0, 0, rfl⟩

/-- The only request is withdrawn. -/
theorem not_allocatesGreedily_withdrawn : ∃ s : Wavefront 1 1,
    [.addRequest 0 0 (withPriority 0), .removeRequest 0 0].foldlM perform (start false 0) = some s ∧
      ¬ s.AllocatesGreedily := by
  refine ⟨_, rfl, ?_⟩
  rintro ⟨s', hs', -, hwithin, -⟩
  cases hs'
  exact Bool.false_ne_true (hwithin 0 0 rfl)

end Wavefront

end Flyover
