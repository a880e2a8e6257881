import Flyover.Matching.Scan
import Mathlib.Data.Int.Order.Basic

/-!
# `PriorityArbiter`

The requests are in a list in the order of their inputs. `Arbitrate` scans it from the first
input at or after the pointer to the end, and from the beginning to the pointer. An iterator
is the rest of the list that it is at the beginning of; what is read at the end of the list
is `none`.
-/

namespace Flyover

/-- `sRequest` -/
structure PriorityRequest where
  input : Nat
  label : Nat
  pri : Int
  deriving DecidableEq

structure PriorityArbiter where
  rrPtr : Nat := 0
  inputs : Nat
  requests : List PriorityRequest := []
  /-- `_match` -/
  matched : Option Nat := none

namespace PriorityArbiter

/-! ### The requests -/

/-- The loop of `AddRequest`, and what it does where it stops: a request for the same input
is replaced by one of higher priority. -/
def insert (r : PriorityRequest) : List PriorityRequest → List PriorityRequest
  | [] => [r]
  | q :: rest =>
      if q.input < r.input then q :: insert r rest
      else if q.input = r.input then
        if q.pri < r.pri then r :: rest else q :: rest
      else r :: q :: rest

/-- `AddRequest` -/
def addRequest (a : PriorityArbiter) (input label : Nat) (pri : Int) : PriorityArbiter :=
  { a with requests := insert ⟨input, label, pri⟩ a.requests }

/-- The loop of `RemoveRequest`, with its assertion. -/
def erase (input : Nat) : List PriorityRequest → Option (List PriorityRequest)
  | [] => none
  | q :: rest => if q.input < input then (erase input rest).map (q :: ·) else some rest

/-- `RemoveRequest` -/
def removeRequest (a : PriorityArbiter) (input : Nat) : Option PriorityArbiter :=
  (erase input a.requests).map fun requests => { a with requests := requests }

/-- `Clear` -/
def clear (a : PriorityArbiter) : PriorityArbiter := { a with requests := [] }

/-- `Update` -/
def update (a : PriorityArbiter) : PriorityArbiter :=
  { a with rrPtr := (a.rrPtr + 1) % a.inputs }

/-! ### The scan -/

/-- `max_index` and `max_pri` -/
structure Highest where
  maxIndex : Option Nat := none
  maxPri : Int := 0

/-- "check if request is the highest priority so far" -/
def Highest.check (h : Highest) (p : PriorityRequest) : Highest :=
  if p.pri > h.maxPri ∨ h.maxIndex = none then ⟨some p.input, p.pri⟩ else h

/-- The rounds of the loop with `wrapped` set. Their condition reads the request at the
iterator, so they do not come to the check for the end of the list. -/
def scanWrapped (rrPtr : Nat) : List PriorityRequest → Highest → Option Highest
  | [], _ => none
  | p :: rest, h => if p.input < rrPtr then scanWrapped rrPtr rest (h.check p) else some h

/-- The rounds up to the one in which the iterator wraps around. -/
def scan (rrPtr : Nat) (requests : List PriorityRequest) :
    List PriorityRequest → Highest → Option Highest
  | p :: rest, h => scan rrPtr requests rest (h.check p)
  | [], h =>
      match requests with
      | [] => none
      | p :: rest => scanWrapped rrPtr rest (h.check p)

/-- `Arbitrate` -/
def arbitrate (a : PriorityArbiter) : Option PriorityArbiter :=
  if a.requests = [] then some { a with matched := none }
  else do
    let h ← scan a.rrPtr a.requests (a.requests.dropWhile fun p => p.input < a.rrPtr) {}
    return match h.maxIndex with
      | none => { a with matched := none }
      | some i => { a with matched := some i, rrPtr := (i + 1) % a.inputs }

/-! ### The order of the requests -/

/-- The requests are sorted, one for each input. -/
def Ordered (requests : List PriorityRequest) : Prop :=
  requests.Pairwise fun p q => p.input < q.input

variable {r p : PriorityRequest} {requests rest requests' : List PriorityRequest} {rrPtr input : Nat}

theorem mem_insert (h : p ∈ insert r requests) : p = r ∨ p ∈ requests := by
  induction requests with
  | nil => exact .inl (List.mem_singleton.mp h)
  | cons q rest ih =>
      rw [insert] at h
      split at h
      · obtain rfl | h := List.mem_cons.mp h
        · exact .inr List.mem_cons_self
        · exact (ih h).imp_right (List.mem_cons_of_mem q)
      · split at h
        · split at h
          · exact (List.mem_cons.mp h).imp_right (List.mem_cons_of_mem q)
          · exact .inr h
        · exact List.mem_cons.mp h

/-- `AddRequest` keeps the order. -/
theorem Ordered.insert (h : Ordered requests) : Ordered (insert r requests) := by
  induction requests with
  | nil => exact List.pairwise_singleton _ _
  | cons q rest ih =>
      obtain ⟨hq, hrest⟩ := List.pairwise_cons.mp h
      rw [PriorityArbiter.insert]
      split
      next hlt =>
        refine List.pairwise_cons.mpr ⟨fun p hp => ?_, ih hrest⟩
        obtain rfl | hp := mem_insert hp
        · exact hlt
        · exact hq p hp
      next hge =>
        split
        next heq =>
          split
          · exact List.pairwise_cons.mpr ⟨fun p hp => heq ▸ hq p hp, hrest⟩
          · exact h
        next hne =>
          have hlt : r.input < q.input := lt_of_le_of_ne (not_lt.mp hge) (Ne.symm hne)
          refine List.pairwise_cons.mpr ⟨fun p hp => ?_, h⟩
          obtain rfl | hp := List.mem_cons.mp hp
          · exact hlt
          · exact hlt.trans (hq p hp)

theorem erase_sublist (h : erase input requests = some requests') : requests'.Sublist requests := by
  induction requests generalizing requests' with
  | nil => cases h
  | cons q rest ih =>
      rw [erase] at h
      split at h
      · obtain ⟨rest', hrest', rfl⟩ := Option.map_eq_some_iff.mp h
        exact (ih hrest').cons_cons q
      · cases h
        exact List.sublist_cons_self q rest

/-- `RemoveRequest` keeps the order. -/
theorem Ordered.erase (h : Ordered requests) (herase : erase input requests = some requests') :
    Ordered requests' := List.Pairwise.sublist (erase_sublist herase) h

/-! ### What the scan finds -/

/-- In cyclic order from the pointer, the one input is not after the other. -/
def AtOrBefore (rrPtr i j : Nat) : Prop :=
  rrPtr ≤ i ∧ (rrPtr ≤ j → i ≤ j) ∨ i < rrPtr ∧ j < rrPtr ∧ i ≤ j

/-- The requests in the order in which the scan comes to them. -/
def cyclic (rrPtr : Nat) (requests : List PriorityRequest) : List PriorityRequest :=
  (requests.dropWhile fun p => p.input < rrPtr) ++ requests.takeWhile fun p => p.input < rrPtr

theorem mem_cyclic : p ∈ cyclic rrPtr requests ↔ p ∈ requests := by
  rw [cyclic, List.mem_append, or_comm, ← List.mem_append, List.takeWhile_append_dropWhile]

/-- In a sorted list, all that is left is at or after the pointer. -/
theorem le_of_mem_dropWhile (hsorted : requests.Pairwise fun p q => p.input ≤ q.input)
    (h : p ∈ requests.dropWhile fun p => p.input < rrPtr) : rrPtr ≤ p.input := by
  induction requests with
  | nil => cases h
  | cons q rest ih =>
      obtain ⟨hq, hrest⟩ := List.pairwise_cons.mp hsorted
      rw [List.dropWhile_cons] at h
      split at h
      · exact ih hrest h
      next hge =>
        have hge : rrPtr ≤ q.input := by simpa using hge
        obtain rfl | h := List.mem_cons.mp h
        · exact hge
        · exact hge.trans (hq p h)

theorem cyclic_pairwise (hsorted : requests.Pairwise fun p q => p.input ≤ q.input) :
    (cyclic rrPtr requests).Pairwise fun p q => AtOrBefore rrPtr p.input q.input := by
  refine List.pairwise_append.mpr ⟨?_, ?_, ?_⟩
  · have hsuffix := hsorted.sublist (List.dropWhile_sublist fun p => decide (p.input < rrPtr))
    refine hsuffix.imp_of_mem fun hp _ hpq => ?_
    exact .inl ⟨le_of_mem_dropWhile hsorted hp, fun _ => hpq⟩
  · have hprefix := hsorted.sublist (List.takeWhile_sublist fun p => decide (p.input < rrPtr))
    refine hprefix.imp_of_mem fun hp hq hpq => ?_
    exact .inr ⟨by simpa using List.mem_takeWhile_imp hp, by simpa using List.mem_takeWhile_imp hq,
      hpq⟩
  · intro p hp q hq
    have hlt : q.input < rrPtr := by simpa using List.mem_takeWhile_imp hq
    exact .inl ⟨le_of_mem_dropWhile hsorted hp, fun hle => absurd hle (not_le.mpr hlt)⟩

/-- The variables of the loop once the best request so far is known. -/
def Highest.of (best : Option PriorityRequest) : Highest where
  maxIndex := best.map PriorityRequest.input
  maxPri := best.elim 0 PriorityRequest.pri

theorem check_of (best : Option PriorityRequest) :
    (Highest.of best).check p =
      .of (Scan.improve (fun _ => true) PriorityRequest.pri best p) := by
  cases best with
  | none => simp [Highest.check, Highest.of, Scan.improve]
  | some b =>
      by_cases hlt : b.pri < p.pri
      · simp [Highest.check, Highest.of, Scan.improve, hlt]
      · simp [Highest.check, Highest.of, Scan.improve, hlt]

/-- After the wrap the scan ends at a request at or after the pointer, if there is one. -/
theorem scanWrapped_eq (best : Option PriorityRequest) :
    scanWrapped rrPtr rest (.of best) =
      if ∃ q ∈ rest, rrPtr ≤ q.input then
        some (.of ((rest.takeWhile fun p => p.input < rrPtr).foldl
          (Scan.improve (fun _ => true) PriorityRequest.pri) best))
      else none := by
  induction rest generalizing best with
  | nil => simp [scanWrapped]
  | cons p rest ih =>
      rw [scanWrapped, check_of, ih]
      by_cases hlt : p.input < rrPtr
      · simp [hlt, not_le.mpr hlt]
      · simp [hlt, not_lt.mp hlt]

theorem scan_eq (rrPtr : Nat) (p : PriorityRequest) (requests rest : List PriorityRequest)
    (best : Option PriorityRequest) :
    scan rrPtr (p :: requests) rest (.of best) =
      scanWrapped rrPtr requests
        (.of ((rest ++ [p]).foldl (Scan.improve (fun _ => true) PriorityRequest.pri) best)) := by
  induction rest generalizing best with
  | nil => rw [scan, check_of, List.nil_append, List.foldl_cons, List.foldl_nil]
  | cons q rest ih => rw [scan, check_of, ih, List.cons_append, List.foldl_cons]

/-- The whole scan looks at the requests in cyclic order, and at the first again if the
pointer is not after it. -/
theorem scan_dropWhile (hsorted : (p :: requests).Pairwise fun p q => p.input ≤ q.input) :
    scan rrPtr (p :: requests) ((p :: requests).dropWhile fun p => p.input < rrPtr) {} =
      if ∃ q ∈ requests, rrPtr ≤ q.input then
        some (.of (Scan.best (fun _ => true) PriorityRequest.pri (cyclic rrPtr (p :: requests))))
      else none := by
  have hscan := scan_eq rrPtr p requests ((p :: requests).dropWhile fun p => p.input < rrPtr) none
  refine (hscan.trans (scanWrapped_eq _)).trans (ite_congr rfl (fun _ => ?_) fun _ => rfl)
  rw [← List.foldl_append, Scan.best, cyclic]
  by_cases hlt : p.input < rrPtr
  · have htake : (p :: requests).takeWhile (fun p => p.input < rrPtr) =
        p :: requests.takeWhile fun p => p.input < rrPtr := by
      simp [hlt]
    rw [htake, List.append_assoc, List.singleton_append]
  · have hdrop : (p :: requests).dropWhile (fun p => p.input < rrPtr) = p :: requests := by
      simp [hlt]
    have htake : (p :: requests).takeWhile (fun p => p.input < rrPtr) = [] := by
      simp [hlt]
    have hnone : requests.takeWhile (fun p => p.input < rrPtr) = [] := by
      rw [List.takeWhile_eq_nil_iff]
      intro hpos
      have hle := (List.pairwise_cons.mp hsorted).1 _ (List.getElem_mem hpos)
      simpa using (not_lt.mp hlt).trans hle
    rw [hdrop, htake, hnone, List.append_nil, List.append_nil]
    exact congrArg (some ∘ Highest.of) (Scan.best_append_of_mem List.mem_cons_self)

/-! ### The choice -/

/-- The match is the request of highest priority, and of several the first in cyclic order
from the pointer; there is none without requests. -/
def Chooses (a a' : PriorityArbiter) : Prop :=
  match a.requests with
  | [] => a'.matched = none
  | _ :: _ => ∃ r ∈ a.requests, a'.matched = some r.input ∧
      ∀ other ∈ a.requests,
        other.pri < r.pri ∨ other.pri = r.pri ∧ AtOrBefore a.rrPtr r.input other.input

theorem AtOrBefore.refl (i : Nat) : AtOrBefore rrPtr i i := by
  obtain hle | hlt := le_or_gt rrPtr i
  · exact .inl ⟨hle, fun _ => le_rfl⟩
  · exact .inr ⟨hlt, hlt, le_rfl⟩

/-- The code reads no request past the end, and makes the right choice, exactly if there is
no request, or one other than the first that is at or after the pointer. -/
theorem arbitrate_iff (a : PriorityArbiter)
    (hsorted : a.requests.Pairwise fun p q => p.input ≤ q.input) :
    (∃ a', a.arbitrate = some a' ∧ a.Chooses a') ↔
      a.requests = [] ∨ ∃ r ∈ a.requests.tail, a.rrPtr ≤ r.input := by
  unfold arbitrate Chooses
  cases hrequests : a.requests with
  | nil => exact iff_of_true ⟨_, if_pos rfl, rfl⟩ (.inl rfl)
  | cons p rest =>
      rw [hrequests] at hsorted
      rw [if_neg (List.cons_ne_nil p rest), scan_dropWhile hsorted, List.tail_cons]
      constructor
      · rintro ⟨a', h, -⟩
        split at h
        next hexists => exact .inr hexists
        next => cases h
      · rintro (hnil | hexists)
        · cases hnil
        rw [if_pos hexists]
        cases hbest : Scan.best (fun _ => true) PriorityRequest.pri (cyclic a.rrPtr (p :: rest)) with
        | none =>
            have hnone := Scan.best_eq_none_iff.mp hbest p (mem_cyclic.mpr List.mem_cons_self)
            cases hnone
        | some r =>
            refine ⟨_, rfl, r, mem_cyclic.mp (Scan.mem_of_best hbest).1, rfl, ?_⟩
            intro other hother
            by_cases hne : other = r
            · subst hne
              exact .inr ⟨rfl, .refl _⟩
            · exact Scan.first_of_best (cyclic_pairwise hsorted) hbest (mem_cyclic.mpr hother) rfl hne

/-- Two requests of one priority, the pointer at the second. -/
theorem arbitrate_iff_two :
    ∃ a', (PriorityArbiter.mk 1 2 [⟨0, 0, 0⟩, ⟨1, 0, 0⟩] none).arbitrate = some a' ∧
      (PriorityArbiter.mk 1 2 [⟨0, 0, 0⟩, ⟨1, 0, 0⟩] none).Chooses a' :=
  (arbitrate_iff (.mk 1 2 [⟨0, 0, 0⟩, ⟨1, 0, 0⟩] none) (by decide)).mpr (by decide)

/-- With a single request the loop reads the end of the list after it has wrapped around. -/
theorem not_arbitrate_single : ¬ ∀ a : PriorityArbiter,
    (a.requests.Pairwise fun p q => p.input ≤ q.input) → a.rrPtr < a.inputs →
      ∃ a', a.arbitrate = some a' ∧ a.Chooses a' := by
  intro hall
  obtain ⟨a', h, -⟩ := hall ((PriorityArbiter.mk 0 2 [] none).addRequest 0 0 0)
    (List.pairwise_singleton _ _) Nat.two_pos
  cases h

end PriorityArbiter

end Flyover
