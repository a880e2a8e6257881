import Flyover.Allocator.Base
import Mathlib.Data.Fintype.Card
import Mathlib.Tactic.Cases

/-!
# `MaxSizeMatch`

The matching is augmented along shortest paths until there is none. A search
starts from all unmatched inputs at once and remembers for each output it gets
to the input it came from; the path that it finds is turned over from its end.
-/

namespace Flyover

open PartialMatching

variable {inputs outputs : Nat}

/-- `_from`; `none` is -1. -/
abbrev Trail (inputs outputs : Nat) := Fin outputs → Option (Fin inputs)

/-- `MaxSizeMatch` -/
structure MaxSizeMatch (inputs outputs : Nat) extends Allocator inputs outputs where
  trail : Trail inputs outputs
  prio : Fin inputs

namespace MaxSizeMatch

/-- `_from` and the new stack. -/
structure Search (inputs outputs : Nat) where
  trail : Trail inputs outputs
  ns : List (Fin inputs)

/-- An unmatched output that the search got to, and the way to it. -/
structure Found (inputs outputs : Nat) where
  j : Fin outputs
  trail : Trail inputs outputs

section Search

variable (request : Requests inputs outputs) (m : PartialMatching (Fin inputs) (Fin outputs))

/-- The innermost loop's body. `goto found_augmenting` is an exception. -/
def edge (i : Fin inputs) (st : Search inputs outputs) (j : Fin outputs) :
    Except (Found inputs outputs) (Search inputs outputs) :=
  if (request i j).isSome && m.inmatch i != some j && (st.trail j).isNone then
    match m.outmatch j with
    | none => .error ⟨j, Function.update st.trail j (some i)⟩
    | some held => .ok ⟨Function.update st.trail j (some i), st.ns ++ [held]⟩
  else .ok st

/-- The edges of one input. -/
def expand (st : Search inputs outputs) (i : Fin inputs) :
    Except (Found inputs outputs) (Search inputs outputs) :=
  (List.finRange outputs).foldlM (edge request m i) st

/-- The search, as many levels deep as it may get. -/
def search : Nat → List (Fin inputs) → Trail inputs outputs →
    Except (Found inputs outputs) (Trail inputs outputs)
  | 0, _, trail => .ok trail
  | n + 1, stack, trail => do
      let st ← stack.foldlM (expand request m) ⟨trail, []⟩
      search n st.ns st.trail

end Search

/-- From the end of the path back: each input takes the output that the search
reached from it, and gives up the one it had. -/
def augment : Nat → PartialMatching (Fin inputs) (Fin outputs) → Trail inputs outputs →
    Fin outputs → Option (PartialMatching (Fin inputs) (Fin outputs))
  | 0, _, _, _ => none
  | n + 1, m, trail, j =>
      match trail j with
      | none => none
      | some i =>
          match m.inmatch i with
          | none => some (m.assign i j)
          | some jn => augment n (m.assign i j) trail jn

/-- `_from.assign(_inputs, -1)`: the entries behind that are not part of the vector
any more, but are still where the unchecked indexing looks for them. -/
def resetTrail (trail : Trail inputs outputs) : Trail inputs outputs :=
  fun j => if j.val < inputs then none else trail j

/-- `_ShortestAugmenting` -/
def shortestAugmenting (s : MaxSizeMatch inputs outputs) :
    Option (Bool × MaxSizeMatch inputs outputs) :=
  let stack := (Scan.rotation s.prio).filter fun i => (s.matching.inmatch i).isNone
  match search s.request s.matching inputs stack (resetTrail s.trail) with
  | .ok trail => some (false, { s with trail := trail })
  | .error found => do
      let m ← augment inputs s.matching found.trail found.j
      return (true, { s with matching := m, trail := found.trail })

/-- `while( _ShortestAugmenting( ) )` -/
def augmentAll : Nat → MaxSizeMatch inputs outputs → Option (MaxSizeMatch inputs outputs)
  | 0, _ => none
  | n + 1, s => do
      let (more, s) ← s.shortestAugmenting
      if more then augmentAll n s else return s

/-- `Allocate` -/
def allocate [NeZero inputs] (s : MaxSizeMatch inputs outputs) :
    Option (MaxSizeMatch inputs outputs) := do
  let s ← augmentAll (inputs + 1) s
  return { s with prio := s.prio + 1 }

/-! ### The trail leads back to an unmatched input -/

section Trail

variable {request : Requests inputs outputs} {m : PartialMatching (Fin inputs) (Fin outputs)}
  {trail : Trail inputs outputs} {i : Fin inputs} {j : Fin outputs} {n : Nat}

/-- An output that the search has reached on a given level. -/
inductive Traced (request : Requests inputs outputs)
    (m : PartialMatching (Fin inputs) (Fin outputs)) (trail : Trail inputs outputs) :
    Nat → Fin outputs → Prop
  | root {i : Fin inputs} {j : Fin outputs} (htrail : trail j = some i) (hhas : request.Has i j)
      (hfree : m.inmatch i = none) : Traced request m trail 0 j
  | step {i : Fin inputs} {j jn : Fin outputs} {n : Nat} (htrail : trail j = some i)
      (hhas : request.Has i j) (hheld : m.inmatch i = some jn) (h : Traced request m trail n jn) :
      Traced request m trail (n + 1) j

theorem Traced.unique {n' : Nat} (h : Traced request m trail n j)
    (h' : Traced request m trail n' j) : n = n' := by
  induction h generalizing n' with
  | root htrail _ hfree =>
      cases h' with
      | root => rfl
      | step htrail' _ hheld' _ =>
          rw [htrail] at htrail'
          cases htrail'
          cases hfree.symm.trans hheld'
  | step htrail _ hheld _ ih =>
      cases h' with
      | root htrail' _ hfree' =>
          rw [htrail] at htrail'
          cases htrail'
          cases hfree'.symm.trans hheld
      | step htrail' _ hheld' h' =>
          rw [htrail] at htrail'
          cases htrail'
          cases hheld.symm.trans hheld'
          rw [ih h']

/-- What has been traced stays traced when the search gets to a new output. -/
theorem Traced.update {j' : Fin outputs} (hnew : trail j = none)
    (h : Traced request m trail n j') :
    Traced request m (Function.update trail j (some i)) n j' := by
  have hkeep {x : Fin outputs} {a : Fin inputs} (hx : trail x = some a) :
      Function.update trail j (some i) x = some a := by
    rw [Function.update_of_ne, hx]
    intro heq
    rw [heq, hnew] at hx
    cases hx
  induction h with
  | root htrail hhas hfree => exact .root (hkeep htrail) hhas hfree
  | step htrail hhas hheld _ ih => exact .step (hkeep htrail) hhas hheld ih

/-- Turning over one edge does not touch the rest of the path. -/
theorem Traced.assign {jn : Fin outputs} (hheld : m.inmatch i = some jn)
    (hjn : Traced request m trail n jn) {k : Nat} {x : Fin outputs}
    (h : Traced request m trail k x) (hk : k ≤ n) :
    Traced request (m.assign i j) trail k x := by
  induction h with
  | @root i' _ htrail hhas hfree =>
      have hne : i' ≠ i := by
        intro heq
        rw [heq, hheld] at hfree
        cases hfree
      exact .root htrail hhas ((assign_inmatch_of_ne hne).trans hfree)
  | @step i' _ y k' htrail hhas hheld' hy ih =>
      have hne : i' ≠ i := by
        intro heq
        rw [heq, hheld] at hheld'
        cases hheld'
        have := hjn.unique hy
        omega
      exact .step htrail hhas ((assign_inmatch_of_ne hne).trans hheld') (ih (by omega))

/-- An input from which the search goes on, on a given level. -/
def Level (request : Requests inputs outputs) (m : PartialMatching (Fin inputs) (Fin outputs))
    (trail : Trail inputs outputs) : Nat → Fin inputs → Prop
  | 0, i => m.inmatch i = none
  | n + 1, i => ∃ j, m.inmatch i = some j ∧ Traced request m trail n j

theorem Level.traced (h : Level request m trail n i) (htrail : trail j = some i)
    (hhas : request.Has i j) : Traced request m trail n j := by
  cases n with
  | zero => exact .root htrail hhas h
  | succ n =>
      obtain ⟨jn, hheld, hjn⟩ := h
      exact .step htrail hhas hheld hjn

theorem Level.mono {trail' : Trail inputs outputs}
    (hmono : ∀ n j, Traced request m trail n j → Traced request m trail' n j)
    (h : Level request m trail n i) : Level request m trail' n i := by
  cases n with
  | zero => exact h
  | succ n =>
      obtain ⟨jn, hheld, hjn⟩ := h
      exact ⟨jn, hheld, hmono n jn hjn⟩

end Trail

/-! ### The search -/

section Search

variable {request : Requests inputs outputs} {m : PartialMatching (Fin inputs) (Fin outputs)}
  {n : Nat}

/-- How a loop with a `goto` ends: it runs through, or it jumps. -/
def Ends {ε α : Type} (through : α → Prop) (jumps : ε → Prop) : Except ε α → Prop
  | .ok a => through a
  | .error e => jumps e

theorem Ends.foldlM {ε α β : Type} {through : α → Prop} {jumps : ε → Prop}
    {f : α → β → Except ε α} {l : List β} {a : α}
    (hstep : ∀ a, through a → ∀ x ∈ l, Ends through jumps (f a x)) (ha : through a) :
    Ends through jumps (l.foldlM f a) := by
  induction l generalizing a with
  | nil => exact ha
  | cons x rest ih =>
      rw [List.foldlM_cons]
      have hx := hstep a ha x List.mem_cons_self
      cases hf : f a x with
      | error e =>
          rw [hf] at hx
          exact hx
      | ok a' =>
          rw [hf] at hx
          exact ih (fun a ha y hy => hstep a ha y (List.mem_cons_of_mem x hy)) hx

/-- The end of a path: an unmatched output on a level. -/
def Found.Valid (request : Requests inputs outputs)
    (m : PartialMatching (Fin inputs) (Fin outputs)) (n : Nat) (found : Found inputs outputs) :
    Prop :=
  m.outmatch found.j = none ∧ Traced request m found.trail n found.j

/-- The search of one level so far: what was traced before still is, and the new
stack is one level on. -/
structure Search.Valid (request : Requests inputs outputs)
    (m : PartialMatching (Fin inputs) (Fin outputs)) (start : Trail inputs outputs) (n : Nat)
    (st : Search inputs outputs) : Prop where
  mono : ∀ k j, Traced request m start k j → Traced request m st.trail k j
  ns : ∀ i ∈ st.ns, Level request m st.trail (n + 1) i

variable {start : Trail inputs outputs}

theorem ends_edge (hm : m.Consistent) {i : Fin inputs} (hi : Level request m start n i)
    {st : Search inputs outputs} (hst : st.Valid request m start n) (j : Fin outputs) :
    Ends (Search.Valid request m start n) (Found.Valid request m n) (edge request m i st j) := by
  unfold edge
  split
  next htest =>
    rw [Bool.and_eq_true, Bool.and_eq_true, Option.isNone_iff_eq_none] at htest
    have hmono (k : Nat) (x : Fin outputs) (h : Traced request m start k x) :
        Traced request m (Function.update st.trail j (some i)) k x :=
      (hst.mono k x h).update htest.2
    have hj : Traced request m (Function.update st.trail j (some i)) n j :=
      (hi.mono hmono).traced (Function.update_self ..) htest.1.1
    split
    next hout => exact ⟨hout, hj⟩
    next held hout =>
      constructor
      case mono => exact hmono
      case ns =>
        intro i' hi'
        rw [List.mem_append, List.mem_singleton] at hi'
        cases hi' with
        | inl hold => exact (hst.ns i' hold).mono fun k x h => h.update htest.2
        | inr hnew =>
            subst hnew
            exact ⟨j, (hm i' j).mpr hout, hj⟩
  next => exact hst

theorem ends_expand (hm : m.Consistent) {i : Fin inputs} (hi : Level request m start n i)
    {st : Search inputs outputs} (hst : st.Valid request m start n) :
    Ends (Search.Valid request m start n) (Found.Valid request m n) (expand request m st i) :=
  Ends.foldlM (fun _ hst j _ => ends_edge hm hi hst j) hst

/-- A search that starts on one level ends at most as many levels on as it may. -/
theorem ends_search (hm : m.Consistent) {stack : List (Fin inputs)}
    (hstack : ∀ i ∈ stack, Level request m start n i) (fuel : Nat) :
    Ends (fun _ => True) (fun found => ∃ k < n + fuel, Found.Valid request m k found)
      (search request m fuel stack start) := by
  induction fuel generalizing n stack start with
  | zero => trivial
  | succ fuel ih =>
      have hlevel : Ends (Search.Valid request m start n) (Found.Valid request m n)
          (stack.foldlM (expand request m) ⟨start, []⟩) := by
        apply Ends.foldlM
        · intro st hst i hi
          exact ends_expand hm (hstack i hi) hst
        · exact ⟨fun _ _ h => h, fun i hi => nomatch hi⟩
      rw [search]
      cases hrun : stack.foldlM (expand request m) ⟨start, []⟩ with
      | error found =>
          rw [hrun] at hlevel
          exact ⟨n, by omega, hlevel⟩
      | ok st =>
          rw [hrun] at hlevel
          have hnext := ih hlevel.ns
          rw [show n + 1 + fuel = n + (fuel + 1) by omega] at hnext
          exact hnext

end Search

/-! ### The augmentation -/

section Augment

variable {request : Requests inputs outputs} {m : PartialMatching (Fin inputs) (Fin outputs)}
  {trail : Trail inputs outputs}

/-- What an augmentation achieves: another matching, in which every matched input
is matched still, and one more. -/
structure Augments (request : Requests inputs outputs)
    (m m' : PartialMatching (Fin inputs) (Fin outputs)) : Prop where
  consistent : m'.Consistent
  within : m'.Within request.Has
  keeps : ∀ i, m.inmatch i ≠ none → m'.inmatch i ≠ none
  gains : ∃ i, m.inmatch i = none ∧ m'.inmatch i ≠ none

theorem exists_augment {n : Nat} {j : Fin outputs} (hm : m.ConsistentBut j)
    (hwithin : m.Within request.Has) (hj : Traced request m trail n j) {fuel : Nat}
    (hfuel : n < fuel) : ∃ m', augment fuel m trail j = some m' ∧ Augments request m m' := by
  obtain ⟨fuel, rfl⟩ := Nat.exists_eq_succ_of_ne_zero (Nat.ne_zero_of_lt hfuel)
  rw [augment]
  induction n generalizing m j fuel with
  | zero =>
      cases hj with
      | @root i _ htrail hhas hfree =>
          rw [htrail]
          dsimp only
          rw [hfree]
          refine ⟨_, rfl, hm.assign_free hfree, hwithin.assign hhas, ?_, i, hfree, ?_⟩
          · intro i' hi'
            have hne : i' ≠ i := fun heq => hi' (heq ▸ hfree)
            rwa [assign_inmatch_of_ne hne]
          · rw [assign_inmatch_self]
            exact Option.some_ne_none j
  | succ n ih =>
      cases hj with
      | @step i _ jn _ htrail hhas hheld hjn =>
          rw [htrail]
          dsimp only
          rw [hheld]
          obtain ⟨fuel, rfl⟩ := Nat.exists_eq_succ_of_ne_zero (show fuel ≠ 0 by omega)
          obtain ⟨m', hm', haugments⟩ := ih (hm.assign_held hheld) (hwithin.assign hhas)
            (hjn.assign hheld hjn le_rfl) fuel (by omega)
          dsimp only
          rw [augment]
          have hsame (i' : Fin inputs) : (m.assign i j).inmatch i' = none ↔ m.inmatch i' = none := by
            by_cases hi' : i' = i
            · subst hi'
              rw [assign_inmatch_self, hheld]
              exact iff_of_false (Option.some_ne_none j) (Option.some_ne_none jn)
            · rw [assign_inmatch_of_ne hi']
          refine ⟨m', hm', haugments.consistent, haugments.within, ?_, ?_⟩
          · intro i' hi'
            exact haugments.keeps i' (mt (hsame i').mp hi')
          · obtain ⟨i', hfree, hgain⟩ := haugments.gains
            exact ⟨i', (hsame i').mp hfree, hgain⟩

/-- The inputs that are not matched. -/
def unmatched (m : PartialMatching (Fin inputs) (Fin outputs)) : Finset (Fin inputs) :=
  Finset.univ.filter fun i => m.inmatch i = none

theorem Augments.card_lt {m' : PartialMatching (Fin inputs) (Fin outputs)}
    (h : Augments request m m') : (unmatched m').card < (unmatched m).card := by
  apply Finset.card_lt_card
  rw [Finset.ssubset_iff_of_subset]
  · obtain ⟨i, hfree, hgain⟩ := h.gains
    exact ⟨i, by simp [unmatched, hfree], by simp [unmatched, hgain]⟩
  · intro i hi
    simp only [unmatched, Finset.mem_filter, Finset.mem_univ, true_and] at hi ⊢
    by_contra hne
    exact h.keeps i hne hi

end Augment

/-! ### The allocation -/

variable {s s' : MaxSizeMatch inputs outputs}

/-- The matching is one of requested pairs. -/
def Sound (s : MaxSizeMatch inputs outputs) : Prop := s.toAllocator.ReturnsMatching

/-- An augmenting step returns; if it found a path the matching has grown, and
otherwise it is the same. -/
theorem exists_shortestAugmenting (h : s.Sound) :
    ∃ more s', s.shortestAugmenting = some (more, s') ∧ s'.request = s.request ∧
      s'.dirty = s.dirty ∧
      (if more then Augments s.request s.matching s'.matching else s'.matching = s.matching) := by
  have hends : Ends (fun _ => True) (fun found => ∃ k < 0 + inputs,
      Found.Valid s.request s.matching k found)
      (search s.request s.matching inputs
        ((Scan.rotation s.prio).filter fun i => (s.matching.inmatch i).isNone)
        (resetTrail s.trail)) := by
    apply ends_search h.1
    intro i hi
    have hfree := (List.mem_filter.mp hi).2
    exact Option.isNone_iff_eq_none.mp hfree
  unfold shortestAugmenting
  dsimp only
  split
  next trail _ => exact ⟨false, { s with trail := trail }, rfl, rfl, rfl, rfl⟩
  next found hfound =>
    rw [hfound] at hends
    obtain ⟨k, hk, hout, htraced⟩ := hends
    obtain ⟨m', hm', haugments⟩ :=
      exists_augment (h.1.consistentBut hout) h.2 htraced (show k < inputs by omega)
    rw [hm']
    exact ⟨true, _, rfl, rfl, rfl, haugments⟩

/-- The loop ends: every round but the last matches one more input. -/
theorem exists_augmentAll (h : s.Sound) {fuel : Nat} (hfuel : (unmatched s.matching).card < fuel) :
    ∃ s', augmentAll fuel s = some s' ∧ s'.request = s.request ∧ s'.dirty = s.dirty ∧ s'.Sound := by
  induction fuel generalizing s with
  | zero => exact absurd hfuel (Nat.not_lt_zero _)
  | succ fuel ih =>
      obtain ⟨more, s', hs', hrequest, hdirty, hmatching⟩ := exists_shortestAugmenting h
      rw [augmentAll, hs']
      cases more with
      | false =>
          refine ⟨s', rfl, hrequest, hdirty, ?_⟩
          rw [if_neg Bool.false_ne_true] at hmatching
          unfold Sound Allocator.ReturnsMatching
          rw [hmatching, hrequest]
          exact h
      | true =>
          rw [if_pos rfl] at hmatching
          have hsound : s'.Sound := ⟨hmatching.consistent, hrequest ▸ hmatching.within⟩
          have hcard := hmatching.card_lt
          obtain ⟨s'', hs'', hrequest', hdirty', hsound'⟩ := ih hsound (by omega)
          exact ⟨s'', hs'', hrequest'.trans hrequest, hdirty'.trans hdirty, hsound'⟩

/-- The allocation returns a matching of requested pairs. -/
theorem exists_allocate [NeZero inputs] (hready : s.toAllocator.Ready) :
    ∃ s', s.allocate = some s' ∧ s'.request = s.request ∧ s'.dirty = s.dirty ∧ s'.Sound := by
  have hsound : s.Sound := by
    unfold Sound Allocator.ReturnsMatching
    rw [hready.matching]
    exact ⟨consistent_empty, within_empty⟩
  have hcard : (unmatched s.matching).card < inputs + 1 := by
    have := Finset.card_le_univ (unmatched s.matching)
    rw [Fintype.card_fin] at this
    omega
  obtain ⟨s', hs', hrequest, hdirty, hsound'⟩ := exists_augmentAll hsound hcard
  rw [allocate, hs']
  exact ⟨_, rfl, hrequest, hdirty, hsound'⟩

end MaxSizeMatch

end Flyover
