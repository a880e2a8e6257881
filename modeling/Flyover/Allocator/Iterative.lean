import Flyover.Allocator.Base

/-!
# `PIM`, `iSLIP_Sparse` and `LOA`

Each of these lets the outputs grant and the inputs accept, or the other way
round. A grant goes to a free input, every input accepts at most one, and the
grants of an iteration are forgotten at its end.
-/

namespace Flyover

open PartialMatching

variable {inputs outputs : Nat}

/-! ### Parallel iterative matching -/

/-- The random numbers of one iteration: `RandomInt(_inputs - 1)` for each
output, and `RandomInt(_outputs - 1)` for each input. -/
structure Draw (inputs outputs : Nat) where
  inputOffset : Fin outputs → Fin inputs
  outputOffset : Fin inputs → Fin outputs

/-- `PIM` -/
structure PIM (inputs outputs : Nat) extends Allocator inputs outputs where
  iter : Nat

namespace PIM

variable (request : Requests inputs outputs) (draw : Draw inputs outputs)

/-- `grants[output]` after the grant phase -/
def grants (m : PartialMatching (Fin inputs) (Fin outputs)) (o : Fin outputs) :
    Option (Fin inputs) :=
  (Scan.rotation (draw.inputOffset o)).find? fun i =>
    (request i o).isSome && (m.inmatch i).isNone && (m.outmatch o).isNone

/-- One round of the accept phase. -/
def accept (granted : Fin outputs → Option (Fin inputs))
    (m : PartialMatching (Fin inputs) (Fin outputs)) (i : Fin inputs) :
    PartialMatching (Fin inputs) (Fin outputs) :=
  match (Scan.rotation (draw.outputOffset i)).find? fun o => granted o == some i with
  | none => m
  | some o => m.assign i o

/-- One iteration. -/
def iterate (m : PartialMatching (Fin inputs) (Fin outputs)) :
    PartialMatching (Fin inputs) (Fin outputs) :=
  (List.finRange inputs).foldl (accept draw (grants request draw m)) m

/-- `Allocate`, with the random numbers of every iteration. -/
def allocate (draws : Nat → Draw inputs outputs) (s : PIM inputs outputs) : PIM inputs outputs :=
  { s with
    matching := (List.range s.iter).foldl (fun m iter => iterate s.request (draws iter) m)
      s.matching }

variable {request draw} {m : PartialMatching (Fin inputs) (Fin outputs)}

theorem of_grants {o : Fin outputs} {i : Fin inputs} (h : grants request draw m o = some i) :
    m.Free i o ∧ request.Has i o := by
  have hfound := List.find?_some h
  simp only [Bool.and_eq_true, Option.isNone_iff_eq_none] at hfound
  exact ⟨⟨hfound.1.2, hfound.2⟩, hfound.1.1⟩

theorem iterate_extends : Extends request.Has m (iterate request draw m) := by
  apply Extends.foldl_of_grants (grants request draw m) (fun m => m)
    (List.nodup_finRange inputs)
  case hfree => exact fun i o h => (of_grants h).1
  case hR => exact fun i o h => (of_grants h).2
  case hstep =>
    intro m' i
    unfold accept
    split
    next => exact .inl rfl
    next o hfound => exact .inr ⟨o, by simpa using List.find?_some hfound, rfl⟩

theorem allocate_extends (s : PIM inputs outputs) (draws : Nat → Draw inputs outputs) :
    Extends s.request.Has s.matching (s.allocate draws).matching :=
  Extends.foldl (fun m => m) (fun _ _ => iterate_extends) (List.range s.iter) s.matching

end PIM

/-! ### iSLIP -/

/-- The match arrays and the round-robin pointers. -/
structure Pointed (inputs outputs : Nat) where
  matching : PartialMatching (Fin inputs) (Fin outputs)
  gptrs : Fin outputs → Fin inputs
  aptrs : Fin inputs → Fin outputs

namespace Pointed

variable [NeZero inputs] [NeZero outputs]

/-- The pointers move past what is accepted in the first iteration. -/
def acceptPair (iter : Nat) (p : Pointed inputs outputs) (i : Fin inputs) (o : Fin outputs) :
    Pointed inputs outputs where
  matching := p.matching.assign i o
  gptrs := if iter = 0 then Function.update p.gptrs o (i + 1) else p.gptrs
  aptrs := if iter = 0 then Function.update p.aptrs i (o + 1) else p.aptrs

end Pointed

/-- `iSLIP_Sparse` -/
structure ISLIP (inputs outputs : Nat) extends Allocator inputs outputs where
  iter : Nat
  gptrs : Fin outputs → Fin inputs
  aptrs : Fin inputs → Fin outputs

namespace ISLIP

variable (request : Requests inputs outputs)

/-- `grants[output]` after the grant phase -/
def grants (p : Pointed inputs outputs) (o : Fin outputs) : Option (Fin inputs) :=
  if (request.outReq o).isEmpty || (p.matching.outmatch o).isSome then none
  else (Scan.roundRobin (request.outReq o) (p.gptrs o)).find? fun i =>
    (p.matching.inmatch i).isNone

/-- One round of the accept phase. -/
def accept [NeZero inputs] [NeZero outputs] (iter : Nat) (granted : Fin outputs → Option (Fin inputs))
    (p : Pointed inputs outputs) (i : Fin inputs) : Pointed inputs outputs :=
  match (Scan.roundRobin (request.inReq i) (p.aptrs i)).find? fun o => granted o == some i with
  | none => p
  | some o => p.acceptPair iter i o

/-- One iteration. -/
def iterate [NeZero inputs] [NeZero outputs] (p : Pointed inputs outputs) (iter : Nat) :
    Pointed inputs outputs :=
  (List.finRange inputs).foldl (accept request iter (grants request p)) p

/-- `Allocate` -/
def allocate [NeZero inputs] [NeZero outputs] (s : ISLIP inputs outputs) : ISLIP inputs outputs :=
  let p := (List.range s.iter).foldl (iterate s.request) ⟨s.matching, s.gptrs, s.aptrs⟩
  { s with
    matching := p.matching
    gptrs := p.gptrs
    aptrs := p.aptrs }

variable {request} {p : Pointed inputs outputs}

theorem of_grants {o : Fin outputs} {i : Fin inputs} (h : grants request p o = some i) :
    p.matching.Free i o ∧ request.Has i o := by
  unfold grants at h
  split at h
  next => cases h
  next hskip =>
    rw [Bool.or_eq_true, not_or] at hskip
    have hin : p.matching.inmatch i = none := by simpa using List.find?_some h
    have hout : p.matching.outmatch o = none := by simpa using hskip.2
    have hmem := Scan.mem_of_mem_roundRobin (List.mem_of_find?_eq_some h)
    exact ⟨⟨hin, hout⟩, Requests.mem_outReq.mp hmem⟩

variable [NeZero inputs] [NeZero outputs]

theorem iterate_extends (iter : Nat) :
    Extends request.Has p.matching (iterate request p iter).matching := by
  apply Extends.foldl_of_grants (grants request p) Pointed.matching
    (List.nodup_finRange inputs)
  case hfree => exact fun i o h => (of_grants h).1
  case hR => exact fun i o h => (of_grants h).2
  case hstep =>
    intro p' i
    unfold accept
    split
    next => exact .inl rfl
    next o hfound => exact .inr ⟨o, by simpa using List.find?_some hfound, rfl⟩

theorem allocate_extends (s : ISLIP inputs outputs) :
    Extends s.request.Has s.matching s.allocate.matching :=
  Extends.foldl Pointed.matching (fun _ iter => iterate_extends iter) (List.range s.iter)
    ⟨s.matching, s.gptrs, s.aptrs⟩

end ISLIP

/-! ### Lonely output allocation -/

/-- `LOA`; `_counts` and `_req` are computed anew in each allocation. -/
structure LOA (inputs outputs : Nat) extends Allocator inputs outputs where
  rptr : Fin inputs → Fin outputs
  gptr : Fin outputs → Fin inputs

namespace LOA

/-- `_counts[j]` -/
def counts (request : Requests inputs outputs) (o : Fin outputs) : Nat := (request.outReq o).length

/-- The requested output with the fewest requests, the first from the pointer on. -/
def lonely (request : Requests inputs outputs) (offset : Fin outputs) (i : Fin inputs) :
    Option (Fin outputs) :=
  Scan.best (fun o => (request i o).isSome) (fun o => -(counts request o : Int))
    (Scan.rotation offset)

/-- One round of the grant phase. -/
def grant [NeZero inputs] [NeZero outputs] (req : Fin inputs → Option (Fin outputs))
    (s : LOA inputs outputs) (o : Fin outputs) : LOA inputs outputs :=
  match (Scan.rotation (s.gptr o)).find? fun i => req i == some o with
  | none => s
  | some i =>
      { s with
        matching := s.matching.assign i o
        rptr := Function.update s.rptr i (s.rptr i + 1)
        gptr := Function.update s.gptr o (s.gptr o + 1) }

/-- `Allocate` -/
def allocate [NeZero inputs] [NeZero outputs] (s : LOA inputs outputs) : LOA inputs outputs :=
  (List.finRange outputs).foldl (grant fun i => lonely s.request (s.rptr i) i) s

variable {request : Requests inputs outputs}

theorem has_of_lonely {offset o : Fin outputs} {i : Fin inputs}
    (h : lonely request offset i = some o) : request.Has i o :=
  (Scan.mem_of_best h).2

variable [NeZero inputs] [NeZero outputs] {s : LOA inputs outputs}

/-- Every input asks one output, so the outputs may grant in any case. -/
theorem allocate_extends (hempty : s.matching = .empty) :
    Extends s.request.Has s.matching s.allocate.matching := by
  apply Extends.foldl_of_disjoint
    (fun o i o' => o' = o ∧ lonely s.request (s.rptr i) i = some o)
    (fun s : LOA inputs outputs => s.matching) (List.nodup_finRange outputs)
  case hdisjoint =>
    intro o o' i b i' b' h h' hne
    refine ⟨fun heq => hne ?_, fun heq => hne ?_⟩
    · subst heq
      exact Option.some.inj (h.2.symm.trans h'.2)
    · rw [← h.1, ← h'.1, heq]
  case hfree =>
    intro _ _ i o _
    rw [hempty]
    exact free_empty
  case hR =>
    intro o i o' h
    exact h.1 ▸ has_of_lonely h.2
  case hstep =>
    intro s' o
    unfold grant
    split
    next => exact .inl rfl
    next i hfound => exact .inr ⟨i, o, ⟨rfl, by simpa using List.find?_some hfound⟩, rfl⟩

/-- Only the match arrays and the pointers change. -/
theorem allocate_request (s : LOA inputs outputs) :
    s.allocate.request = s.request ∧ s.allocate.dirty = s.dirty := by
  apply List.foldlRecOn (motive := fun s' : LOA inputs outputs =>
    s'.request = s.request ∧ s'.dirty = s.dirty)
  · exact ⟨rfl, rfl⟩
  · intro s' hs' o _
    unfold grant
    split
    next => exact hs'
    next => exact hs'

end LOA

end Flyover
