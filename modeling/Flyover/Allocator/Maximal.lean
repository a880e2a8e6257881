import Flyover.Allocator.Types
import Flyover.Matching.Progress

/-!
# The iterative allocators converge

As long as a requested pair is free, its output grants to some free input, and that
input accepts a grant. So every iteration of `PIM`, `iSLIP_Sparse` and `SelAlloc` matches
one more input and one more output.
-/

namespace Flyover

open PartialMatching Scan

variable {inputs outputs : Nat}

/-- No requested pair has both ends unmatched. -/
def Allocator.IsMaximal (a : Allocator inputs outputs) : Prop := a.matching.IsMaximal a.request.Has

/-- The input is matched, and some output that granted to it is. -/
def Accepts (granted : Fin outputs → Option (Fin inputs)) (j : Fin inputs)
    (m : PartialMatching (Fin inputs) (Fin outputs)) : Prop :=
  m.inmatch j ≠ none ∧ ∃ b, granted b = some j ∧ m.outmatch b ≠ none

section Accepts

variable {granted : Fin outputs → Option (Fin inputs)} {j : Fin inputs} {b : Fin outputs}
  {m m' : PartialMatching (Fin inputs) (Fin outputs)}

theorem accepts_assign (h : granted b = some j) (m : PartialMatching (Fin inputs) (Fin outputs)) :
    Accepts granted j (m.assign j b) := by
  refine ⟨?_, b, h, ?_⟩
  · rw [assign_inmatch_self]
    exact Option.some_ne_none b
  · rw [assign_outmatch_self]
    exact Option.some_ne_none j

theorem Accepts.grows (h : Accepts granted j m) (hgrows : Grows m m') : Accepts granted j m' := by
  obtain ⟨hin, b, hb, hout⟩ := h
  exact ⟨hgrows.inmatch j hin, b, hb, hgrows.outmatch b hout⟩

/-- If all its grants come from free outputs, a free input that accepts is a gain. -/
theorem Accepts.gains (h : Accepts granted j m') (hfree : ∀ b, granted b = some j → m.Free j b) :
    Gains m m' := by
  obtain ⟨hin, b, hb, hout⟩ := h
  exact ⟨⟨j, (hfree b hb).1, hin⟩, ⟨b, (hfree b hb).2, hout⟩⟩

end Accepts

variable {request : Requests inputs outputs}

/-! ### `PIM` -/

namespace PIM

variable {draw : Draw inputs outputs} {m : PartialMatching (Fin inputs) (Fin outputs)}
  {granted : Fin outputs → Option (Fin inputs)} {i : Fin inputs} {o : Fin outputs}

theorem grows_accept (i : Fin inputs) : Grows m (accept draw granted m i) := by
  unfold accept
  split
  next => exact Grows.refl m
  next o _ => exact grows_assign m i o

/-- An input with a grant accepts one. -/
theorem accept_of_granted (draw : Draw inputs outputs) (h : granted o = some i) (m : PartialMatching (Fin inputs) (Fin outputs)) :
    ∃ b, granted b = some i ∧ accept draw granted m i = m.assign i b := by
  unfold accept
  cases hfind : (rotation (draw.outputOffset i)).find? fun o => granted o == some i with
  | none =>
      have hnot := List.find?_eq_none.mp hfind o (mem_rotation _ o)
      exact absurd (beq_iff_eq.mpr h) hnot
  | some b => exact ⟨b, by simpa using List.find?_some hfind, rfl⟩

theorem exists_grants (draw : Draw inputs outputs) (hhas : request.Has i o) (hfree : m.Free i o) :
    ∃ j, grants request draw m o = some j := by
  rw [← Option.isSome_iff_exists, grants, List.find?_isSome]
  refine ⟨i, mem_rotation _ i, ?_⟩
  rw [show (request i o).isSome = true from hhas, hfree.1, hfree.2]
  rfl

theorem gains_iterate (hopen : ¬ m.IsMaximal request.Has) : Gains m (iterate request draw m) := by
  obtain ⟨i, o, hhas, hfree⟩ := not_isMaximal_iff.mp hopen
  obtain ⟨j, hj⟩ := exists_grants draw hhas hfree
  have haccepts : Accepts (grants request draw m) j (iterate request draw m) := by
    apply foldl_establishes (Q := Accepts (grants request draw m) j) (List.mem_finRange j)
    · intro m'
      obtain ⟨b, hb, haccept⟩ := accept_of_granted draw hj m'
      rw [haccept]
      exact accepts_assign hb m'
    · exact fun m' x h => h.grows (grows_accept x)
  exact haccepts.gains fun b hb => (of_grants hb).1

theorem isMaximal_allocate (s : PIM inputs outputs) (draws : Nat → Draw inputs outputs)
    (hiter : min inputs outputs ≤ s.iter) : (s.allocate draws).IsMaximal := by
  apply isMaximal_of_progress (fun m => m) (P := fun _ => True) (fun _ _ _ => trivial)
  · intro m n
    exact Grows.foldl (fun m => m) (fun m i => grows_accept i) (List.finRange inputs) m
  · exact fun m n _ => gains_iterate
  · rwa [Fintype.card_fin, Fintype.card_fin]
  · trivial

end PIM

/-! ### `iSLIP_Sparse` -/

namespace ISLIP

variable [NeZero inputs] [NeZero outputs] {p : Pointed inputs outputs} {iter : Nat}
  {granted : Fin outputs → Option (Fin inputs)} {i : Fin inputs} {o : Fin outputs}

theorem grows_accept (i : Fin inputs) :
    Grows p.matching (accept request iter granted p i).matching := by
  unfold accept
  split
  next => exact Grows.refl p.matching
  next o _ => exact grows_assign p.matching i o

/-- An input with a grant accepts one, wherever its pointer is. -/
theorem accept_of_granted (hhas : request.Has i o) (h : granted o = some i) (iter : Nat)
    (p : Pointed inputs outputs) :
    ∃ b, granted b = some i ∧
      (accept request iter granted p i).matching = p.matching.assign i b := by
  unfold accept
  cases hfind : (roundRobin (request.inReq i) (p.aptrs i)).find? fun o => granted o == some i with
  | none =>
      have hmem := mem_roundRobin (Requests.mem_inReq.mpr hhas) (p.aptrs i)
      exact absurd (beq_iff_eq.mpr h) (List.find?_eq_none.mp hfind o hmem)
  | some b => exact ⟨b, by simpa using List.find?_some hfind, rfl⟩

omit [NeZero inputs] [NeZero outputs] in
theorem exists_grants (hhas : request.Has i o) (hfree : p.matching.Free i o) :
    ∃ j, grants request p o = some j := by
  have hmem := Requests.mem_outReq.mpr hhas
  have hrun : ((request.outReq o).isEmpty || (p.matching.outmatch o).isSome) = false := by
    rw [hfree.2, List.isEmpty_eq_false_iff.mpr (List.ne_nil_of_mem hmem)]
    rfl
  rw [← Option.isSome_iff_exists, grants, hrun, if_neg Bool.false_ne_true, List.find?_isSome]
  exact ⟨i, mem_roundRobin hmem (p.gptrs o), Option.isNone_iff_eq_none.mpr hfree.1⟩

theorem gains_iterate (hopen : ¬ p.matching.IsMaximal request.Has) (iter : Nat) :
    Gains p.matching (iterate request p iter).matching := by
  obtain ⟨i, o, hhas, hfree⟩ := not_isMaximal_iff.mp hopen
  obtain ⟨j, hj⟩ := exists_grants hhas hfree
  have haccepts : Accepts (grants request p) j (iterate request p iter).matching := by
    apply foldl_establishes (Q := fun p' : Pointed inputs outputs =>
      Accepts (grants request p) j p'.matching) (List.mem_finRange j)
    · intro p'
      obtain ⟨b, hb, haccept⟩ := accept_of_granted (of_grants hj).2 hj iter p'
      rw [haccept]
      exact accepts_assign hb p'.matching
    · exact fun p' x h => h.grows (grows_accept x)
  exact haccepts.gains fun b hb => (of_grants hb).1

theorem isMaximal_allocate (s : ISLIP inputs outputs) (hiter : min inputs outputs ≤ s.iter) :
    s.allocate.IsMaximal := by
  apply isMaximal_of_progress Pointed.matching (P := fun _ => True) (fun _ _ _ => trivial)
  · intro p n
    exact Grows.foldl Pointed.matching (fun p i => grows_accept i) (List.finRange inputs) p
  · exact fun p n _ hopen => gains_iterate hopen n
  · rwa [Fintype.card_fin, Fintype.card_fin]
  · trivial

end ISLIP

/-! ### `SelAlloc` -/

namespace SelAlloc

variable [NeZero inputs] [NeZero outputs] {outmask : Fin outputs → Int}
  {g : Granted inputs outputs} {i : Fin inputs} {o : Fin outputs}

/-- A grant is for a requester, and the one that a matched output has kept for a matched
input. -/
structure Spent (request : Requests inputs outputs) (g : Granted inputs outputs) : Prop where
  requested : ∀ o i, g.grants o = some i → request.Has i o
  matched : ∀ o i, g.grants o = some i → g.matching.outmatch o ≠ none →
    g.matching.inmatch i ≠ none

theorem grows_iterate (g : Granted inputs outputs) (iter : Nat) :
    Grows g.matching (iterate request outmask g iter).matching where
  inmatch i hi := by
    rw [iterate_inmatch]
    cases chosen request outmask g i with
    | none => exact hi
    | some o => exact Option.some_ne_none o
  outmatch o ho := by
    obtain ⟨i, hi⟩ := Option.ne_none_iff_exists'.mp ho
    by_cases hchosen : ∃ j, chosen request outmask g j = some o
    · obtain ⟨j, hj⟩ := hchosen
      rw [(iterate_outmatch g iter o j).mpr (.inl hj)]
      exact Option.some_ne_none j
    · rw [(iterate_outmatch g iter o i).mpr (.inr ⟨hi, fun j hj => hchosen ⟨j, hj⟩⟩)]
      exact Option.some_ne_none i

omit [NeZero inputs] [NeZero outputs] in
theorem requested_grant (outmask : Fin outputs → Int) (h : Spent request g)
    (hgrant : grant request outmask g o = some i) :
    request.Has i o := by
  rcases grant_cases request outmask g o with hkept | ⟨j, hj, -, hhas, -⟩
  · exact h.requested o i (hkept.symm.trans hgrant)
  · cases hj.symm.trans hgrant
    exact hhas

theorem Spent.iterate (h : Spent request g) (iter : Nat) :
    Spent request (iterate request outmask g iter) where
  requested _ _ hgrant := requested_grant outmask h hgrant
  matched o i hgrant hout := by
    obtain ⟨j, hj⟩ := Option.ne_none_iff_exists'.mp hout
    rcases (iterate_outmatch g iter o j).mp hj with hchosen | ⟨hold, -⟩
    · have hsame := hgrant.symm.trans (grants_of_choice hchosen).2
      cases hsame
      rw [iterate_inmatch, hchosen]
      exact Option.some_ne_none o
    · have hmatched : g.matching.outmatch o ≠ none := by
        rw [hold]
        exact Option.some_ne_none j
      have hkept : g.grants o = some i := by
        have hsame : grant request outmask g o = g.grants o := grant_of_matched hmatched
        exact hsame.symm.trans hgrant
      exact (grows_iterate g iter).inmatch i (h.matched o i hkept hmatched)

/-- A free input chooses among its grants. -/
theorem accepts_iterate (h : Spent request g) {j : Fin inputs}
    (hgrant : grant request outmask g o = some j) (iter : Nat) :
    Accepts (grant request outmask g) j (SelAlloc.iterate request outmask g iter).matching := by
  have hhas := requested_grant outmask h hgrant
  cases hchosen : chosen request outmask g j with
  | none =>
      have hnot := best_eq_none_iff.mp hchosen o
        (mem_roundRobin (Requests.mem_inReq.mpr hhas) (g.aptrs j))
      rw [hgrant, List.isEmpty_eq_false_iff.mpr (List.ne_nil_of_mem (Requests.mem_outReq.mpr hhas))]
        at hnot
      simp at hnot
  | some b =>
      refine ⟨?_, b, (grants_of_choice hchosen).2, ?_⟩
      · rw [iterate_inmatch, hchosen]
        exact Option.some_ne_none b
      · rw [(iterate_outmatch g iter b j).mpr (.inl hchosen)]
        exact Option.some_ne_none j

theorem gains_iterate (h : Spent request g) (hmask : ∀ o, outmask o = 0)
    (hopen : ¬ g.matching.IsMaximal request.Has) (iter : Nat) :
    Gains g.matching (SelAlloc.iterate request outmask g iter).matching := by
  obtain ⟨i, o, hhas, hfree⟩ := not_isMaximal_iff.mp hopen
  have hgrants : ∃ j, grant request outmask g o = some j ∧ g.matching.inmatch j = none :=
    exists_grant hfree.2 (hmask o) hhas hfree.1
  obtain ⟨j, hj, hjfree⟩ := hgrants
  apply (accepts_iterate h hj iter).gains
  intro b hb
  refine ⟨hjfree, ?_⟩
  -- a matched output has kept its grant, and that is for a matched input
  by_contra hmatched
  have hkept : g.grants b = some j := (grant_of_matched hmatched).symm.trans hb
  exact h.matched b j hkept hmatched hjfree

theorem isMaximal_allocate (s : SelAlloc inputs outputs) (hmask : ∀ o, s.outmask o = 0)
    (hiter : min inputs outputs ≤ s.iter) : s.allocate.IsMaximal := by
  apply isMaximal_of_progress (fun g : Granted inputs outputs => g.matching)
    (P := Spent s.request) (fun g n h => h.iterate n)
  · exact fun g n => grows_iterate g n
  · exact fun g n h hopen => gains_iterate h hmask hopen n
  · rwa [Fintype.card_fin, Fintype.card_fin]
  · exact ⟨fun o i (h : none = some i) => absurd h.symm (Option.some_ne_none i),
      fun o i (h : none = some i) => absurd h.symm (Option.some_ne_none i)⟩

end SelAlloc

/-! ### All three -/

/-- Both inputs of a square ask for the first output, and the first one for the second too. -/
def threePairs : Requests 2 2 := fun i o => if i = 1 ∧ o = 1 then none else some AnyAllocator.plain

/-- `SelAlloc` with two iterations. -/
def twoRounds : SelAlloc 2 2 where
  request := threePairs
  iter := 2
  gptrs := fun _ => 1
  aptrs := fun _ => 0
  outmask := fun _ => 0

end Flyover
