import Flyover.Checked
import Flyover.Matching.Basic
import Flyover.Matching.Scan

/-!
# Allocators

An allocator is cleared, takes requests, and then matches inputs with outputs.
This is the part that all of them share. The dense allocators keep a matrix of
requests, in which label -1 stands for none; the sparse ones keep each request
twice, in a map for its input and in one for its output. Here a request is an
entry of the matrix, and the maps are its rows and columns.
-/

namespace Flyover

variable {inputs outputs : Nat}

/-- `sRequest`, without the port. Labels are not negative. -/
structure Request where
  label : Nat
  inPri : Int
  outPri : Int

/-- The matrix of requests. -/
abbrev Requests (inputs outputs : Nat) := Fin inputs → Fin outputs → Option Request

namespace Requests

/-- The pair has been requested. -/
def Has (request : Requests inputs outputs) (i : Fin inputs) (o : Fin outputs) : Prop :=
  (request i o).isSome = true

instance (request : Requests inputs outputs) (i : Fin inputs) (o : Fin outputs) :
    Decidable (request.Has i o) := inferInstanceAs (Decidable (_ = true))

/-- `_in_req[input]`, in the order of the map. -/
def inReq (request : Requests inputs outputs) (i : Fin inputs) : List (Fin outputs) :=
  (List.finRange outputs).filter fun o => (request i o).isSome

/-- `_out_req[output]` -/
def outReq (request : Requests inputs outputs) (o : Fin outputs) : List (Fin inputs) :=
  (List.finRange inputs).filter fun i => (request i o).isSome

/-- `_in_occ` -/
def inOcc (request : Requests inputs outputs) : List (Fin inputs) :=
  (List.finRange inputs).filter fun i => !(request.inReq i).isEmpty

/-- `_out_occ` -/
def outOcc (request : Requests inputs outputs) : List (Fin outputs) :=
  (List.finRange outputs).filter fun o => !(request.outReq o).isEmpty

variable {request : Requests inputs outputs} {i : Fin inputs} {o : Fin outputs}

@[simp] theorem mem_inReq : o ∈ request.inReq i ↔ request.Has i o := by
  simp [inReq, Has]

@[simp] theorem mem_outReq : i ∈ request.outReq o ↔ request.Has i o := by
  simp [outReq, Has]

theorem mem_inOcc : i ∈ request.inOcc ↔ ∃ o, request.Has i o := by
  simp [inOcc, List.eq_nil_iff_forall_not_mem]

theorem mem_outOcc : o ∈ request.outOcc ↔ ∃ i, request.Has i o := by
  simp [outOcc, List.eq_nil_iff_forall_not_mem]

theorem sorted_finRange (n : Nat) : (List.finRange n).Pairwise (· < ·) := List.pairwise_lt_finRange n

theorem sorted_inReq : (request.inReq i).Pairwise (· < ·) := (sorted_finRange outputs).filter _

theorem sorted_outReq : (request.outReq o).Pairwise (· < ·) := (sorted_finRange inputs).filter _

theorem nodup_inOcc : request.inOcc.Nodup := (List.nodup_finRange inputs).filter _

theorem nodup_outOcc : request.outOcc.Nodup := (List.nodup_finRange outputs).filter _

end Requests

/-- `Allocator`: the two match arrays, `_dirty`, and the requests. -/
structure Allocator (inputs outputs : Nat) where
  matching : PartialMatching (Fin inputs) (Fin outputs) := .empty
  dirty : Bool := false
  request : Requests inputs outputs := fun _ _ => none

namespace Allocator

/-- `Clear`: the match arrays are only reset after a request. -/
def clear (a : Allocator inputs outputs) : Allocator inputs outputs where
  matching := if a.dirty then .empty else a.matching
  dirty := false
  request := fun _ _ => none

/-- `AddRequest`, which asserts that the pair has not been requested. -/
def addRequest (a : Allocator inputs outputs) (i : Fin inputs) (o : Fin outputs) (r : Request) :
    Option (Allocator inputs outputs) :=
  if a.request i o = none then
    some { a with
      dirty := true
      request := Function.update a.request i (Function.update (a.request i) o (some r)) }
  else none

/-- Where nothing has been requested nothing is matched. -/
structure Tidy (a : Allocator inputs outputs) : Prop where
  requests : a.dirty = false → ∀ i o, ¬ a.request.Has i o
  matching : a.dirty = false → a.matching = .empty

/-- The matching is one, and has only requested pairs. -/
def ReturnsMatching (a : Allocator inputs outputs) : Prop :=
  a.matching.Consistent ∧ a.matching.Within a.request.Has

variable {a a' : Allocator inputs outputs}

theorem tidy_new : ({} : Allocator inputs outputs).Tidy where
  requests _ _ _ := Bool.false_ne_true
  matching _ := rfl

theorem Tidy.clear (h : a.Tidy) : a.clear.Tidy where
  requests _ _ _ := Bool.false_ne_true
  matching _ := by
    cases hdirty : a.dirty with
    | true => simp [Allocator.clear, hdirty]
    | false => simp [Allocator.clear, hdirty, h.matching hdirty]

theorem addRequest_eq_some {i : Fin inputs} {o : Fin outputs} {r : Request}
    (h : a.addRequest i o r = some a') :
    a.request i o = none ∧ a' = { a with
      dirty := true
      request := Function.update a.request i (Function.update (a.request i) o (some r)) } := by
  unfold addRequest at h
  split at h
  next hfree => exact ⟨hfree, (Option.some.inj h).symm⟩
  next => cases h

/-- Only the requested pair is new. -/
theorem has_update {request : Requests inputs outputs} {i i' : Fin inputs} {o o' : Fin outputs}
    {r : Request} :
    Requests.Has (Function.update request i (Function.update (request i) o (some r))) i' o' ↔
      (i' = i ∧ o' = o) ∨ request.Has i' o' := by
  unfold Requests.Has
  by_cases hi : i' = i
  · subst hi
    rw [Function.update_self]
    by_cases ho : o' = o
    · subst ho
      simp
    · simp [ho]
  · simp [hi]

/-- Clearing empties the match arrays, and requests leave them so. -/
structure Ready (a : Allocator inputs outputs) : Prop where
  matching : a.matching = .empty
  requests : a.dirty = false → ∀ i o, ¬ a.request.Has i o

theorem Tidy.ready_clear (h : a.Tidy) : a.clear.Ready where
  matching := h.clear.matching rfl
  requests := h.clear.requests

theorem Ready.addRequest (h : a.Ready) {i : Fin inputs} {o : Fin outputs} {r : Request}
    (hadd : a.addRequest i o r = some a') : a'.Ready := by
  obtain ⟨-, rfl⟩ := addRequest_eq_some hadd
  exact ⟨h.matching, fun hdirty => nomatch hdirty⟩

/-- A matching that only grows by requested pairs is what the allocator has to return. -/
theorem Ready.returnsMatching (h : a.Ready) (hrequest : a'.request = a.request)
    (hextends : PartialMatching.Extends a.request.Has a.matching a'.matching) :
    a'.ReturnsMatching := by
  rw [h.matching] at hextends
  refine ⟨hextends.consistent PartialMatching.consistent_empty, ?_⟩
  rw [hrequest]
  exact hextends.within PartialMatching.within_empty

theorem ReturnsMatching.eq_empty (h : a.ReturnsMatching) (hnone : ∀ i o, ¬ a.request.Has i o) :
    a.matching = .empty := by
  have hin (i : Fin inputs) : a.matching.inmatch i = none := by
    cases hi : a.matching.inmatch i with
    | none => rfl
    | some o => exact (hnone i o (h.2 i o hi)).elim
  apply PartialMatching.ext
  · funext i
    exact hin i
  · funext o
    cases ho : a.matching.outmatch o with
    | none => rfl
    | some i => cases (hin i).symm.trans ((h.1 i o).mpr ho)

theorem Ready.tidy (h : a.Ready) (hrequest : a'.request = a.request) (hdirty : a'.dirty = a.dirty)
    (hmatching : a'.ReturnsMatching) : a'.Tidy := by
  have hnone (hclean : a'.dirty = false) : ∀ i o, ¬ a'.request.Has i o := by
    rw [hrequest]
    exact h.requests (hdirty ▸ hclean)
  exact ⟨hnone, fun hclean => hmatching.eq_empty (hnone hclean)⟩

end Allocator

end Flyover
