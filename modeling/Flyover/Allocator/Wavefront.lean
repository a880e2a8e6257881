import Flyover.Allocator.Base
import Mathlib.Data.Nat.ModEq

/-!
# `Wavefront`

The diagonals of the request matrix are gone through one priority after another,
from the priority diagonal on. A single request is granted without any of this.
-/

namespace Flyover

open PartialMatching

variable {inputs outputs : Nat}

/-- `Wavefront`; the set of pairs of an output and an input priority is kept in
the order in which it is gone through, the greatest pair first. -/
structure Wavefront (inputs outputs : Nat) extends Allocator inputs outputs where
  last : Option (Fin inputs × Fin outputs)
  skipDiags : Bool
  pri : Nat
  numRequests : Nat
  priorities : List (Int × Int)

namespace Wavefront

/-- `_square` -/
def square (inputs outputs : Nat) : Nat := max inputs outputs

/-- The order of `pair<int, int>`. -/
def greater (a b : Int × Int) : Bool := decide (b.1 < a.1) || (decide (b.1 = a.1) && decide (b.2 < a.2))

/-- `_priorities.insert` -/
def insertPriority (x : Int × Int) : List (Int × Int) → List (Int × Int)
  | [] => [x]
  | y :: rest =>
      if y = x then y :: rest
      else if greater x y then x :: y :: rest
      else y :: insertPriority x rest

/-- `AddRequest` -/
def addRequest (s : Wavefront inputs outputs) (i : Fin inputs) (o : Fin outputs) (r : Request) :
    Option (Wavefront inputs outputs) := do
  let a ← s.toAllocator.addRequest i o r
  return { s with
    toAllocator := a
    numRequests := s.numRequests + 1
    last := some (i, o)
    priorities := insertPriority (r.outPri, r.inPri) s.priorities }

/-- The match arrays and `first_diag`. -/
structure Sweep (inputs outputs : Nat) where
  matching : PartialMatching (Fin inputs) (Fin outputs)
  firstDiag : Option Nat

/-- Where the three loops stand: the priority, the diagonal and the output. -/
structure Cell where
  priority : Int × Int
  p : Nat
  output : Nat

/-- `((_pri + p) + (_square - output)) % _square` -/
def Cell.input (c : Cell) (square pri : Nat) : Nat := (pri + c.p + (square - c.output)) % square

theorem Cell.input_lt {pri : Nat} {c : Cell}
    (h : c.input (square inputs outputs) pri < inputs ∧ c.output < outputs) :
    c.input (square inputs outputs) pri < inputs := h.1

theorem Cell.output_lt {pri : Nat} {c : Cell}
    (h : c.input (square inputs outputs) pri < inputs ∧ c.output < outputs) : c.output < outputs := h.2

/-- The body of the loops. -/
def visit (request : Requests inputs outputs) (pri : Nat) (w : Sweep inputs outputs) (c : Cell) :
    Sweep inputs outputs :=
  if h : c.input (square inputs outputs) pri < inputs ∧ c.output < outputs then
    let i : Fin inputs := ⟨c.input (square inputs outputs) pri, Cell.input_lt h⟩
    let o : Fin outputs := ⟨c.output, Cell.output_lt h⟩
    if (w.matching.inmatch i).isNone && (w.matching.outmatch o).isNone &&
        (request i o).any (fun r => r.inPri = c.priority.2 && r.outPri = c.priority.1) then
      { matching := w.matching.assign i o
        firstDiag := w.firstDiag.or (some (i.val + o.val)) }
    else w
  else w

/-- The cells in the order of the loops. -/
def cells (square : Nat) (priorities : List (Int × Int)) : List Cell :=
  priorities.flatMap fun priority =>
    (List.range square).flatMap fun p =>
      (List.range square).map fun output => ⟨priority, p, output⟩

/-- The grants of an allocation with at least one request. -/
def sweep (s : Wavefront inputs outputs) : Sweep inputs outputs :=
  match s.numRequests, s.last with
  -- the last request is known whenever one has been counted
  | 1, some (i, o) => ⟨s.matching.assign i o, some (i.val + o.val)⟩
  | _, _ => (cells (square inputs outputs) s.priorities).foldl (visit s.request s.pri) ⟨s.matching, none⟩

/-- `Allocate`; it asserts that something has been granted. -/
def allocate (s : Wavefront inputs outputs) : Option (Wavefront inputs outputs) :=
  if s.numRequests = 0 then some s
  else
    let w := s.sweep
    w.firstDiag.map fun firstDiag =>
      { s with
        matching := w.matching
        numRequests := 0
        last := none
        priorities := []
        pri := ((if s.skipDiags then firstDiag else s.pri) + 1) % square inputs outputs }

/-! ### What is granted -/

theorem mem_insertPriority {x y : Int × Int} {l : List (Int × Int)} :
    x ∈ insertPriority y l ↔ x = y ∨ x ∈ l := by
  induction l with
  | nil => simp [insertPriority]
  | cons z rest ih =>
      unfold insertPriority
      split
      next heq =>
        subst heq
        simp
      next =>
        split
        next => simp
        next =>
          rw [List.mem_cons, ih, List.mem_cons]
          exact or_left_comm

variable {request : Requests inputs outputs} {pri : Nat} {w : Sweep inputs outputs} {c : Cell}

/-- A visit grants a free pair that has been requested, or does nothing. -/
theorem visit_cases (request : Requests inputs outputs) (pri : Nat) (w : Sweep inputs outputs)
    (c : Cell) :
    visit request pri w c = w ∨ ∃ i o, w.matching.Free i o ∧ request.Has i o ∧
      visit request pri w c = ⟨w.matching.assign i o, w.firstDiag.or (some (i.val + o.val))⟩ := by
  unfold visit
  split
  next h =>
    dsimp only
    split
    next hgrant =>
      rw [Bool.and_eq_true, Bool.and_eq_true, Option.isNone_iff_eq_none,
        Option.isNone_iff_eq_none] at hgrant
      refine .inr ⟨_, _, ⟨hgrant.1.1, hgrant.1.2⟩, ?_, rfl⟩
      cases hr : request ⟨_, h.1⟩ ⟨c.output, h.2⟩ with
      | none => simp [hr] at hgrant
      | some r => simp [Requests.Has, hr]
    next => exact .inl rfl
  next => exact .inl rfl

theorem visit_extends (w : Sweep inputs outputs) (c : Cell) :
    Extends request.Has w.matching (visit request pri w c).matching := by
  obtain h | ⟨i, o, hfree, hhas, h⟩ := visit_cases request pri w c
  · rw [h]
    exact .refl
  · rw [h]
    exact Extends.refl.assign hfree hhas

/-- Once something has been granted, the first diagonal is known. -/
theorem firstDiag_visit (h : w.firstDiag ≠ none) (c : Cell) :
    (visit request pri w c).firstDiag ≠ none := by
  obtain hsame | ⟨i, o, -, -, hgrant⟩ := visit_cases request pri w c
  · rwa [hsame]
  · rw [hgrant]
    cases hdiag : w.firstDiag with
    | none => exact absurd hdiag h
    | some d => exact Option.some_ne_none d

/-- A cell whose pair is requested with the cell's priority. -/
structure Cell.Hits (request : Requests inputs outputs) (pri : Nat) (c : Cell) (i : Fin inputs)
    (o : Fin outputs) : Prop where
  input : c.input (square inputs outputs) pri = i.val
  output : c.output = o.val
  requested : ∃ r, request i o = some r ∧ c.priority = (r.outPri, r.inPri)

theorem firstDiag_of_hits {i : Fin inputs} {o : Fin outputs} (hits : c.Hits request pri i o)
    (hempty : w.matching = .empty) : (visit request pri w c).firstDiag ≠ none := by
  obtain ⟨hin, hout, r, hr, hpriority⟩ := hits
  have hrange : c.input (square inputs outputs) pri < inputs ∧ c.output < outputs := by
    rw [hin, hout]
    exact ⟨i.isLt, o.isLt⟩
  have hi : (⟨c.input (square inputs outputs) pri, hrange.1⟩ : Fin inputs) = i := Fin.ext hin
  have ho : (⟨c.output, hrange.2⟩ : Fin outputs) = o := Fin.ext hout
  rw [visit, dif_pos hrange]
  dsimp only
  rw [hi, ho, hempty, hr, hpriority, if_pos (by simp [empty])]
  cases w.firstDiag <;> exact Option.some_ne_none _

/-- If some cell is hit, something is granted. -/
theorem firstDiag_foldl {l : List Cell} {i : Fin inputs} {o : Fin outputs} (hc : c ∈ l)
    (hits : c.Hits request pri i o) (hempty : w.matching = .empty) :
    (l.foldl (visit request pri) w).firstDiag ≠ none := by
  have hpersists (l : List Cell) (w : Sweep inputs outputs) (h : w.firstDiag ≠ none) :
      (l.foldl (visit request pri) w).firstDiag ≠ none := by
    induction l generalizing w with
    | nil => exact h
    | cons x rest ih => exact ih (visit request pri w x) (firstDiag_visit h x)
  induction l generalizing w with
  | nil => cases hc
  | cons x rest ih =>
      obtain rfl | hc := List.mem_cons.mp hc
      · exact hpersists rest _ (firstDiag_of_hits hits hempty)
      · obtain hsame | ⟨i', o', -, -, hgrant⟩ := visit_cases request pri w x
        · rw [List.foldl_cons, hsame]
          exact ih hc hempty
        · apply hpersists rest
          rw [hgrant]
          cases w.firstDiag <;> exact Option.some_ne_none _

/-- Every requested pair lies on a diagonal. -/
theorem exists_cell {i : Fin inputs} {o : Fin outputs} {r : Request} {priorities : List (Int × Int)}
    (hr : request i o = some r) (hmem : (r.outPri, r.inPri) ∈ priorities) (pri : Nat) :
    ∃ c ∈ cells (square inputs outputs) priorities, c.Hits request pri i o := by
  have hi : i.val < square inputs outputs := lt_of_lt_of_le i.isLt (le_max_left ..)
  have ho : o.val < square inputs outputs := lt_of_lt_of_le o.isLt (le_max_right ..)
  generalize hsq : square inputs outputs = sq at hi ho ⊢
  have hpos : 0 < sq := by omega
  -- the diagonal, counted from the priority diagonal on
  let p := (i.val + o.val + (sq - pri % sq)) % sq
  have hdiag : (pri + p) % sq = (i.val + o.val) % sq := by
    have hrem : pri % sq < sq := Nat.mod_lt _ hpos
    have hdiv := Nat.div_add_mod pri sq
    have hsum : pri + (i.val + o.val + (sq - pri % sq)) =
        i.val + o.val + sq * (pri / sq + 1) := by
      rw [Nat.mul_add, Nat.mul_one]
      omega
    rw [Nat.add_mod_mod, hsum, Nat.add_mul_mod_self_left]
  refine ⟨⟨(r.outPri, r.inPri), p, o.val⟩, ?_, ⟨?_, rfl, r, hr, rfl⟩⟩
  · simp only [cells, List.mem_flatMap, List.mem_map, List.mem_range]
    exact ⟨_, hmem, p, Nat.mod_lt _ hpos, o.val, ho, rfl⟩
  · show (pri + p + (square inputs outputs - o.val)) % square inputs outputs = i.val
    rw [hsq, Nat.add_mod, hdiag, ← Nat.add_mod, show i.val + o.val + (sq - o.val) = i.val + sq by omega,
      Nat.add_mod_right, Nat.mod_eq_of_lt hi]

/-! ### The requests since the last allocation -/

/-- The counters know the requests that have been added. -/
structure Counts (s : Wavefront inputs outputs) : Prop where
  none : s.numRequests = 0 → ∀ i o, ¬ s.request.Has i o
  last : s.numRequests ≠ 0 → ∃ i o, s.last = some (i, o) ∧ s.request.Has i o
  priorities : ∀ i o r, s.request i o = some r → (r.outPri, r.inPri) ∈ s.priorities

variable {s s' : Wavefront inputs outputs}

theorem Counts.addRequest (h : s.Counts) {i : Fin inputs} {o : Fin outputs} {r : Request}
    (hadd : s.addRequest i o r = some s') : s'.Counts := by
  obtain ⟨a, ha, hs'⟩ := Option.bind_eq_some_iff.mp hadd
  cases hs'
  obtain ⟨-, rfl⟩ := Allocator.addRequest_eq_some ha
  constructor
  case none =>
    intro hzero
    exact absurd hzero (Nat.succ_ne_zero _)
  case last =>
    intro _
    exact ⟨i, o, rfl, Allocator.has_update.mpr (.inl ⟨rfl, rfl⟩)⟩
  case priorities =>
    intro i' o' r' hr'
    rw [mem_insertPriority]
    dsimp only at hr'
    by_cases hi : i' = i
    · subst hi
      rw [Function.update_self] at hr'
      by_cases ho : o' = o
      · subst ho
        rw [Function.update_self] at hr'
        cases hr'
        exact .inl rfl
      · rw [Function.update_of_ne ho] at hr'
        exact .inr (h.priorities _ _ _ hr')
    · rw [Function.update_of_ne hi] at hr'
      exact .inr (h.priorities _ _ _ hr')

theorem sweep_extends (h : s.Counts) (hready : s.toAllocator.Ready) (hsome : s.numRequests ≠ 0) :
    Extends s.request.Has s.matching s.sweep.matching ∧ s.sweep.firstDiag ≠ none := by
  obtain ⟨i, o, hlast, hhas⟩ := h.last hsome
  have hempty := hready.matching
  unfold sweep
  split
  next i' o' _ hlast' =>
    rw [hlast] at hlast'
    cases hlast'
    refine ⟨Extends.refl.assign ?_ hhas, Option.some_ne_none _⟩
    rw [hempty]
    exact free_empty
  next =>
    constructor
    · exact Extends.foldl Sweep.matching visit_extends _ ⟨s.matching, none⟩
    · obtain ⟨r, hr⟩ := Option.isSome_iff_exists.mp hhas
      obtain ⟨c, hc, hits⟩ := exists_cell hr (h.priorities i o r hr) s.pri
      exact firstDiag_foldl hc hits hempty

/-- An allocation returns, has granted only what was free and requested, and
starts to count anew. -/
theorem exists_allocate (h : s.Counts) (hready : s.toAllocator.Ready) :
    ∃ s', s.allocate = some s' ∧ s'.request = s.request ∧ s'.dirty = s.dirty ∧
      Extends s.request.Has s.matching s'.matching ∧ s'.numRequests = 0 := by
  unfold allocate
  split
  next hzero => exact ⟨s, rfl, rfl, rfl, .refl, hzero⟩
  next hsome =>
    obtain ⟨hextends, hdiag⟩ := sweep_extends h hready hsome
    obtain ⟨d, hd⟩ := Option.ne_none_iff_exists'.mp hdiag
    dsimp only
    rw [hd]
    exact ⟨_, rfl, rfl, rfl, hextends, rfl⟩

end Wavefront

end Flyover
