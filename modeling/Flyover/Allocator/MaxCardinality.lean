import Flyover.Allocator.Types
import Flyover.Matching.Cover

/-!
# The matchings of `MaxSizeMatch` are maximum

The search is stated once more with its accesses to `_from` and to the stacks
checked. It runs through only if no path is left, and then the inputs that it
has been at are closed under the requests.
-/

namespace Flyover.MaxSizeMatch

open PartialMatching

variable {inputs outputs : Nat}

/-- How the search is left: by the `goto`, or by an access out of range. -/
inductive Exit (inputs outputs : Nat) where
  | found (found : Found inputs outputs)
  | outOfRange

section Search

variable (request : Requests inputs outputs) (m : PartialMatching (Fin inputs) (Fin outputs))

/-- The innermost loop's body. `_from` has as many entries as there are inputs, and
so have the stacks. -/
def edgeInRange (i : Fin inputs) (st : Search inputs outputs) (j : Fin outputs) :
    Except (Exit inputs outputs) (Search inputs outputs) :=
  if (request i j).isSome && m.inmatch i != some j then
    if j.val < inputs then
      if (st.trail j).isNone then
        match m.outmatch j with
        | none => .error (.found ⟨j, Function.update st.trail j (some i)⟩)
        | some held =>
            if st.ns.length < inputs then
              .ok ⟨Function.update st.trail j (some i), st.ns ++ [held]⟩
            else .error .outOfRange
      else .ok st
    else .error .outOfRange
  else .ok st

/-- The edges of one input. -/
def expandInRange (st : Search inputs outputs) (i : Fin inputs) :
    Except (Exit inputs outputs) (Search inputs outputs) :=
  (List.finRange outputs).foldlM (edgeInRange request m i) st

/-- The search, as many levels deep as it may get. -/
def searchInRange : Nat → List (Fin inputs) → Trail inputs outputs →
    Except (Exit inputs outputs) (Trail inputs outputs)
  | 0, _, trail => .ok trail
  | n + 1, stack, trail => do
      let st ← stack.foldlM (expandInRange request m) ⟨trail, []⟩
      searchInRange n st.ns st.trail

end Search

/-- From the end of the path back. -/
def augmentInRange : Nat → PartialMatching (Fin inputs) (Fin outputs) → Trail inputs outputs →
    Fin outputs → Option (PartialMatching (Fin inputs) (Fin outputs))
  | 0, _, _, _ => none
  | n + 1, m, trail, j =>
      if j.val < inputs then
        match trail j with
        | none => none
        | some i =>
            match m.inmatch i with
            | none => some (m.assign i j)
            | some jn => augmentInRange n (m.assign i j) trail jn
      else none

/-- `_ShortestAugmenting` -/
def shortestAugmentingInRange (s : MaxSizeMatch inputs outputs) :
    Option (Bool × MaxSizeMatch inputs outputs) :=
  let stack := (Scan.rotation s.prio).filter fun i => (s.matching.inmatch i).isNone
  match searchInRange s.request s.matching inputs stack (resetTrail s.trail) with
  | .ok trail => some (false, { s with trail := trail })
  | .error .outOfRange => none
  | .error (.found found) => do
      let m ← augmentInRange inputs s.matching found.trail found.j
      return (true, { s with matching := m, trail := found.trail })

/-- `while( _ShortestAugmenting( ) )` -/
def augmentAllInRange : Nat → MaxSizeMatch inputs outputs → Option (MaxSizeMatch inputs outputs)
  | 0, _ => none
  | n + 1, s => do
      let (more, s) ← s.shortestAugmentingInRange
      if more then augmentAllInRange n s else return s

/-- `Allocate` -/
def allocateInRange [NeZero inputs] (s : MaxSizeMatch inputs outputs) :
    Option (MaxSizeMatch inputs outputs) := do
  let s ← augmentAllInRange (inputs + 1) s
  return { s with prio := s.prio + 1 }

/-! ### What the search has been at -/

section Explored

variable {request : Requests inputs outputs} {m : PartialMatching (Fin inputs) (Fin outputs)}

/-- No request is for an output that `_from` has no entry for. -/
def InRange (request : Requests inputs outputs) : Prop := ∀ i j, request.Has i j → j.val < inputs

/-- The inputs that are done with, those of this level's stack that are left, and the new
stack: every free input is among them, each of them is there once, and an output has
been reached if and only if it belongs to one of them. -/
structure Explored (request : Requests inputs outputs)
    (m : PartialMatching (Fin inputs) (Fin outputs)) (done pending ns : List (Fin inputs))
    (trail : Trail inputs outputs) : Prop where
  nodup : (done ++ pending ++ ns).Nodup
  free : ∀ i, m.inmatch i = none → i ∈ done ++ pending
  held : ∀ i ∈ done ++ pending ++ ns, ∀ j, m.inmatch i = some j → trail j ≠ none
  reached : ∀ j, j.val < inputs → trail j ≠ none →
    ∃ i ∈ done ++ pending ++ ns, m.outmatch j = some i
  closed : ∀ i ∈ done, ∀ j, request.Has i j → m.inmatch i ≠ some j → trail j ≠ none

/-- The same in the middle of an input's edges. -/
structure Expanding (request : Requests inputs outputs)
    (m : PartialMatching (Fin inputs) (Fin outputs)) (done : List (Fin inputs)) (i : Fin inputs)
    (rest : List (Fin inputs)) (tried : List (Fin outputs)) (st : Search inputs outputs) : Prop where
  explored : Explored request m done (i :: rest) st.ns st.trail
  tried : ∀ j ∈ tried, request.Has i j → m.inmatch i ≠ some j → st.trail j ≠ none

variable {done pending ns rest : List (Fin inputs)} {trail : Trail inputs outputs} {i held : Fin inputs}
  {j : Fin outputs}

theorem update_ne_none {x : Fin outputs} (h : trail x ≠ none) :
    Function.update trail j (some i) x ≠ none := by
  by_cases hx : x = j
  · rw [hx, Function.update_self]
    exact Option.some_ne_none i
  · rwa [Function.update_of_ne hx]

/-- An output that has not been reached belongs to an input that is not on the stacks. -/
theorem Explored.not_mem (h : Explored request m done pending ns trail) (hm : m.Consistent)
    (hnew : trail j = none) (hout : m.outmatch j = some held) : held ∉ done ++ pending ++ ns :=
  fun hmem => h.held held hmem j ((hm held j).mpr hout) hnew

/-- The search gets to a matched output. -/
theorem Explored.push (h : Explored request m done pending ns trail) (hm : m.Consistent)
    (hnew : trail j = none) (hout : m.outmatch j = some held) :
    Explored request m done pending (ns ++ [held]) (Function.update trail j (some i)) := by
  have hassoc : done ++ pending ++ (ns ++ [held]) = done ++ pending ++ ns ++ [held] :=
    (List.append_assoc ..).symm
  constructor
  case nodup =>
    rw [hassoc, List.nodup_append]
    refine ⟨h.nodup, List.nodup_singleton held, ?_⟩
    intro x hx y hy heq
    rw [List.mem_singleton] at hy
    exact h.not_mem hm hnew hout (hy ▸ heq ▸ hx)
  case free => exact h.free
  case held =>
    intro x hx jx hjx
    rw [hassoc, List.mem_append, List.mem_singleton] at hx
    cases hx with
    | inl hold => exact update_ne_none (h.held x hold jx hjx)
    | inr hlast =>
        have hjx' : jx = j := by
          rw [hlast, (hm held j).mpr hout] at hjx
          exact (Option.some.inj hjx).symm
        rw [hjx', Function.update_self]
        exact Option.some_ne_none i
  case reached =>
    intro x hx htrail
    rw [hassoc]
    by_cases hxj : x = j
    · subst hxj
      exact ⟨held, by simp, hout⟩
    · rw [Function.update_of_ne hxj] at htrail
      obtain ⟨a, ha, hxa⟩ := h.reached x hx htrail
      exact ⟨a, List.mem_append_left _ ha, hxa⟩
  case closed =>
    intro x hx jx hhas hne
    exact update_ne_none (h.closed x hx jx hhas hne)

/-- The new stack never gets longer than its array. -/
theorem Explored.length_lt (h : Explored request m done pending ns trail) (hm : m.Consistent)
    (hnew : trail j = none) (hout : m.outmatch j = some held) : ns.length < inputs := by
  have hnodup := (h.push (i := held) hm hnew hout).nodup
  have hlength := hnodup.length_le_card
  rw [Fintype.card_fin] at hlength
  simp only [List.length_append, List.length_singleton] at hlength
  omega

/-- All edges of an input have been tried. -/
theorem Expanding.finish {st : Search inputs outputs}
    (h : Expanding request m done i rest (List.finRange outputs) st) :
    Explored request m (done ++ [i]) rest st.ns st.trail := by
  have hsame : done ++ [i] ++ rest = done ++ i :: rest := by simp
  constructor
  case nodup =>
    rw [hsame]
    exact h.explored.nodup
  case free =>
    rw [hsame]
    exact h.explored.free
  case held =>
    rw [hsame]
    exact h.explored.held
  case reached =>
    rw [hsame]
    exact h.explored.reached
  case closed =>
    intro x hx j hhas hne
    rw [List.mem_append, List.mem_singleton] at hx
    cases hx with
    | inl hdone => exact h.explored.closed x hdone j hhas hne
    | inr hlast =>
        subst hlast
        exact h.tried j (List.mem_finRange j) hhas hne

/-- The stack is empty; the new one takes its place. -/
theorem Explored.swap (h : Explored request m done [] ns trail) :
    Explored request m done ns [] trail where
  nodup := by simpa using h.nodup
  free i hi := List.mem_append_left ns (by simpa using h.free i hi)
  held := by simpa using h.held
  reached := by simpa using h.reached
  closed := h.closed

end Explored

/-! ### The search -/

section Ends

variable {ε α β : Type} {jumps : ε → Prop}

theorem Ends.mono {through through' : α → Prop} {x : Except ε α} (h : Ends through jumps x)
    (hmono : ∀ a, through a → through' a) : Ends through' jumps x := by
  cases x with
  | ok a => exact hmono a h
  | error e => exact h

/-- A loop whose invariant knows what it has been through and what is left. -/
theorem Ends.foldlM_split (through : List β → List β → α → Prop) {f : α → β → Except ε α}
    {l : List β} {a : α} (ha : through [] l a)
    (hstep : ∀ before x after a, through before (x :: after) a →
      Ends (through (before ++ [x]) after) jumps (f a x)) :
    Ends (through l []) jumps (l.foldlM f a) := by
  have hrest : ∀ before, through before l a →
      Ends (through (before ++ l) []) jumps (l.foldlM f a) := by
    clear ha
    induction l generalizing a with
    | nil =>
        intro before ha
        rw [List.append_nil]
        exact ha
    | cons x rest ih =>
        intro before ha
        rw [List.foldlM_cons]
        have hx := hstep before x rest a ha
        cases hf : f a x with
        | error e =>
            rw [hf] at hx
            exact hx
        | ok a' =>
            rw [hf] at hx
            rw [List.append_cons]
            exact ih (before ++ [x]) hx
  exact hrest [] ha

end Ends

section Search

variable {request : Requests inputs outputs} {m : PartialMatching (Fin inputs) (Fin outputs)}
  {done rest : List (Fin inputs)} {trail : Trail inputs outputs} {i : Fin inputs}

theorem ends_edgeInRange (hm : m.Consistent) (hrange : InRange request) {tried : List (Fin outputs)}
    {st : Search inputs outputs} (h : Expanding request m done i rest tried st) (j : Fin outputs) :
    Ends (Expanding request m done i rest (tried ++ [j])) (· ≠ .outOfRange)
      (edgeInRange request m i st j) := by
  have hsame (hj : request.Has i j → m.inmatch i ≠ some j → st.trail j ≠ none) :
      Expanding request m done i rest (tried ++ [j]) st := by
    refine ⟨h.explored, fun x hx => ?_⟩
    rw [List.mem_append, List.mem_singleton] at hx
    cases hx with
    | inl hold => exact h.tried x hold
    | inr hlast => exact hlast ▸ hj
  unfold edgeInRange
  split
  next htest =>
    rw [Bool.and_eq_true] at htest
    rw [if_pos (hrange i j htest.1)]
    split
    next hnew =>
      rw [Option.isNone_iff_eq_none] at hnew
      split
      next => exact fun h : Exit.found _ = Exit.outOfRange => nomatch h
      next held hout =>
        rw [if_pos (h.explored.length_lt hm hnew hout)]
        refine ⟨h.explored.push hm hnew hout, fun x hx hhas hne => ?_⟩
        rw [List.mem_append, List.mem_singleton] at hx
        cases hx with
        | inl hold => exact update_ne_none (h.tried x hold hhas hne)
        | inr hlast =>
            subst hlast
            dsimp only
            rw [Function.update_self]
            exact Option.some_ne_none i
    next hold =>
      rw [Option.isNone_iff_eq_none] at hold
      exact hsame fun _ _ => hold
  next htest =>
    apply hsame
    intro hhas hne
    rw [Bool.and_eq_true, not_and] at htest
    exact absurd (bne_iff_ne.mpr hne) (htest hhas)

theorem ends_expandInRange (hm : m.Consistent) (hrange : InRange request)
    {st : Search inputs outputs} (h : Explored request m done (i :: rest) st.ns st.trail) :
    Ends (fun st => Explored request m (done ++ [i]) rest st.ns st.trail) (· ≠ .outOfRange)
      (expandInRange request m st i) := by
  have hedges : Ends (Expanding request m done i rest (List.finRange outputs)) (· ≠ .outOfRange)
      (expandInRange request m st i) := by
    apply Ends.foldlM_split fun tried _ => Expanding request m done i rest tried
    · exact ⟨h, fun _ hx => nomatch hx⟩
    · intro tried j _ st hst
      exact ends_edgeInRange hm hrange hst j
  exact hedges.mono fun _ hst => hst.finish

/-- One level of the search. -/
theorem ends_level (hm : m.Consistent) (hrange : InRange request) {stack : List (Fin inputs)}
    (h : Explored request m done stack [] trail) :
    Ends (fun st => Explored request m (done ++ stack) st.ns [] st.trail) (· ≠ .outOfRange)
      (stack.foldlM (expandInRange request m) ⟨trail, []⟩) := by
  have hlevel : Ends (fun st => Explored request m (done ++ stack) [] st.ns st.trail)
      (· ≠ .outOfRange) (stack.foldlM (expandInRange request m) ⟨trail, []⟩) := by
    apply Ends.foldlM_split fun before after (st : Search inputs outputs) =>
      Explored request m (done ++ before) after st.ns st.trail
    · rw [List.append_nil]
      exact h
    · intro before x after st hst
      rw [← List.append_assoc]
      exact ends_expandInRange hm hrange hst
  exact hlevel.mono fun _ hst => hst.swap

/-- With nothing left to go on from, the matching is maximum. -/
theorem Explored.maximum (h : Explored request m done [] [] trail) (hm : m.Consistent)
    (hwithin : m.Within request.Has) (hrange : InRange request) : m.Maximum request.Has := by
  have hall : done ++ [] ++ [] = done := by rw [List.append_nil, List.append_nil]
  apply maximum_of_closed hm hwithin done.toFinset
  · intro i hi
    simpa using h.free i hi
  · intro i hi j hhas
    rw [List.mem_toFinset] at hi
    by_cases hheld : m.inmatch i = some j
    · exact ⟨i, List.mem_toFinset.mpr hi, (hm i j).mp hheld⟩
    · obtain ⟨a, ha, hout⟩ := h.reached j (hrange i j hhas) (h.closed i hi j hhas hheld)
      rw [hall] at ha
      exact ⟨a, List.mem_toFinset.mpr ha, hout⟩

/-- A search that runs through has found the matching to be maximum: as long as there is
something to go on from, every level is done with another input. -/
theorem ends_searchInRange (hm : m.Consistent) (hwithin : m.Within request.Has)
    (hrange : InRange request) {stack : List (Fin inputs)}
    (h : Explored request m done stack [] trail) {fuel : Nat}
    (hfuel : stack = [] ∨ inputs ≤ done.length + fuel) :
    Ends (fun _ => m.Maximum request.Has) (· ≠ .outOfRange)
      (searchInRange request m fuel stack trail) := by
  induction fuel generalizing done stack trail with
  | zero =>
      cases stack with
      | nil => exact h.maximum hm hwithin hrange
      | cons i rest =>
          have hlength := h.nodup.length_le_card
          rw [Fintype.card_fin] at hlength
          simp only [List.length_append, List.length_cons, List.length_nil] at hlength
          have hdone := hfuel.resolve_left (List.cons_ne_nil i rest)
          omega
  | succ fuel ih =>
      have hlevel := ends_level hm hrange h
      rw [searchInRange]
      cases hrun : stack.foldlM (expandInRange request m) ⟨trail, []⟩ with
      | error e =>
          rw [hrun] at hlevel
          exact hlevel
      | ok st =>
          rw [hrun] at hlevel
          apply ih hlevel
          cases stack with
          | nil =>
              cases hrun
              exact .inl rfl
          | cons i rest =>
              have hdone := hfuel.resolve_left (List.cons_ne_nil i rest)
              refine .inr ?_
              rw [List.length_append, List.length_cons]
              omega

end Search

/-! ### The checked allocation is the allocation -/

/-- A computation that does the same as another unless it accesses out of range. -/
def Mirrors {α : Type} (x : Except (Exit inputs outputs) α) (y : Except (Found inputs outputs) α) :
    Prop :=
  match x with
  | .ok a => y = .ok a
  | .error (.found found) => y = .error found
  | .error .outOfRange => True

theorem Mirrors.foldlM {α β : Type} {f : α → β → Except (Exit inputs outputs) α}
    {g : α → β → Except (Found inputs outputs) α} (h : ∀ a x, Mirrors (f a x) (g a x)) (l : List β)
    (a : α) : Mirrors (l.foldlM f a) (l.foldlM g a) := by
  induction l generalizing a with
  | nil => rfl
  | cons x rest ih =>
      rw [List.foldlM_cons, List.foldlM_cons]
      have hx := h a x
      cases hf : f a x with
      | ok a' =>
          rw [hf] at hx
          rw [show g a x = .ok a' from hx]
          exact ih a'
      | error e =>
          rw [hf] at hx
          cases e with
          | found found =>
              rw [show g a x = .error found from hx]
              rfl
          | outOfRange => trivial

section Mirror

variable {request : Requests inputs outputs} {m : PartialMatching (Fin inputs) (Fin outputs)}

theorem mirrors_edge (i : Fin inputs) (st : Search inputs outputs) (j : Fin outputs) :
    Mirrors (edgeInRange request m i st j) (edge request m i st j) := by
  unfold edgeInRange edge
  by_cases htest : ((request i j).isSome && m.inmatch i != some j) = true
  · rw [if_pos htest, htest, Bool.true_and]
    split
    · split
      · cases m.outmatch j with
        | none => rfl
        | some held =>
            dsimp only
            split
            · rfl
            · trivial
      · rfl
    · trivial
  · rw [if_neg htest, Bool.eq_false_of_not_eq_true htest, Bool.false_and, if_neg Bool.false_ne_true]
    rfl

theorem mirrors_search (request : Requests inputs outputs)
    (m : PartialMatching (Fin inputs) (Fin outputs)) (fuel : Nat) (stack : List (Fin inputs)) (trail : Trail inputs outputs) :
    Mirrors (searchInRange request m fuel stack trail) (search request m fuel stack trail) := by
  induction fuel generalizing stack trail with
  | zero => rfl
  | succ fuel ih =>
      have hlevel : Mirrors (stack.foldlM (expandInRange request m) ⟨trail, []⟩)
          (stack.foldlM (expand request m) ⟨trail, []⟩) :=
        Mirrors.foldlM (fun st i => Mirrors.foldlM (mirrors_edge i) _ st) stack _
      rw [searchInRange, search]
      cases hrun : stack.foldlM (expandInRange request m) ⟨trail, []⟩ with
      | ok st =>
          rw [hrun] at hlevel
          rw [show stack.foldlM (expand request m) ⟨trail, []⟩ = .ok st from hlevel]
          exact ih st.ns st.trail
      | error e =>
          rw [hrun] at hlevel
          cases e with
          | found found =>
              rw [show stack.foldlM (expand request m) ⟨trail, []⟩ = .error found from hlevel]
              rfl
          | outOfRange => trivial

/-- The way back only passes outputs that have been requested. -/
theorem augmentInRange_eq (hrange : InRange request) {trail : Trail inputs outputs} {n : Nat}
    {j : Fin outputs} (hj : Traced request m trail n j) (fuel : Nat) :
    augmentInRange fuel m trail j = augment fuel m trail j := by
  induction fuel generalizing n m j with
  | zero => rfl
  | succ fuel ih =>
      rw [augmentInRange, augment]
      cases hj with
      | @root i _ htrail hhas hfree =>
          rw [if_pos (hrange i j hhas), htrail]
          dsimp only
          rw [hfree]
      | @step i _ jn k htrail hhas hheld hjn =>
          rw [if_pos (hrange i j hhas), htrail]
          dsimp only
          rw [hheld]
          exact ih (hjn.assign hheld hjn le_rfl)

end Mirror

/-! ### The allocation -/

variable {s : MaxSizeMatch inputs outputs}

/-- Before a search every entry of `_from` in range is -1. -/
theorem explored_start (s : MaxSizeMatch inputs outputs) :
    Explored s.request s.matching []
      ((Scan.rotation s.prio).filter fun i => (s.matching.inmatch i).isNone) []
      (resetTrail s.trail) := by
  constructor
  case nodup =>
    rw [List.nil_append, List.append_nil]
    exact (Scan.nodup_rotation s.prio).filter _
  case free =>
    intro i hi
    simpa [hi] using Scan.mem_rotation s.prio i
  case held =>
    intro i hi j hj
    simp [hj] at hi
  case reached =>
    intro j hj htrail
    exact absurd (if_pos hj) htrail
  case closed => exact fun _ hi => nomatch hi

theorem ends_shortestAugmenting (h : s.Sound) (hrange : InRange s.request) :
    Ends (fun _ => s.matching.Maximum s.request.Has) (· ≠ .outOfRange)
      (searchInRange s.request s.matching inputs
        ((Scan.rotation s.prio).filter fun i => (s.matching.inmatch i).isNone)
        (resetTrail s.trail)) :=
  ends_searchInRange h.1 h.2 hrange (explored_start s) (.inr (Nat.le_add_left ..))

theorem traced_found (h : s.Sound) {found : Found inputs outputs}
    (hfound : search s.request s.matching inputs
      ((Scan.rotation s.prio).filter fun i => (s.matching.inmatch i).isNone)
      (resetTrail s.trail) = .error found) :
    ∃ n, Traced s.request s.matching found.trail n found.j := by
  have hends : Ends (fun _ => True) (fun found => ∃ k < 0 + inputs,
      Found.Valid s.request s.matching k found)
      (search s.request s.matching inputs
        ((Scan.rotation s.prio).filter fun i => (s.matching.inmatch i).isNone)
        (resetTrail s.trail)) := by
    apply ends_search h.1
    intro i hi
    exact Option.isNone_iff_eq_none.mp (List.mem_filter.mp hi).2
  rw [hfound] at hends
  obtain ⟨n, -, -, htraced⟩ := hends
  exact ⟨n, htraced⟩

/-- In range the check makes no difference, and the last search has found nothing to gain. -/
theorem shortestAugmentingInRange_eq (h : s.Sound) (hrange : InRange s.request) :
    s.shortestAugmentingInRange = s.shortestAugmenting ∧
      ∀ s', s.shortestAugmenting = some (false, s') → s.matching.Maximum s.request.Has := by
  have hends := ends_shortestAugmenting h hrange
  have hmirrors := mirrors_search s.request s.matching inputs
    ((Scan.rotation s.prio).filter fun i => (s.matching.inmatch i).isNone) (resetTrail s.trail)
  unfold shortestAugmentingInRange shortestAugmenting
  dsimp only
  split
  next trail hrun =>
    rw [hrun] at hmirrors hends
    rw [show search s.request s.matching inputs _ _ = .ok trail from hmirrors]
    exact ⟨rfl, fun _ _ => hends⟩
  next hrun =>
    rw [hrun] at hends
    exact absurd rfl hends
  next found hrun =>
    rw [hrun] at hmirrors
    have hfound : search s.request s.matching inputs _ _ = .error found := hmirrors
    obtain ⟨n, htraced⟩ := traced_found h hfound
    rw [hfound, augmentInRange_eq hrange htraced]
    refine ⟨rfl, fun s' hs' => ?_⟩
    obtain ⟨m', -, hs'⟩ := Option.bind_eq_some_iff.mp hs'
    cases hs'

theorem exists_augmentAllInRange (h : s.Sound) (hrange : InRange s.request) {fuel : Nat}
    (hfuel : (unmatched s.matching).card < fuel) :
    ∃ s', augmentAllInRange fuel s = some s' ∧ augmentAll fuel s = some s' ∧
      s'.matching.Maximum s.request.Has := by
  induction fuel generalizing s with
  | zero => exact absurd hfuel (Nat.not_lt_zero _)
  | succ fuel ih =>
      obtain ⟨hsame, hlast⟩ := shortestAugmentingInRange_eq h hrange
      obtain ⟨more, s', hs', hrequest, -, hmatching⟩ := exists_shortestAugmenting h
      rw [augmentAllInRange, augmentAll, hsame, hs']
      cases more with
      | false =>
          rw [if_neg Bool.false_ne_true] at hmatching
          exact ⟨s', rfl, rfl, hmatching ▸ hlast s' hs'⟩
      | true =>
          rw [if_pos rfl] at hmatching
          have hsound : s'.Sound := ⟨hmatching.consistent, hrequest ▸ hmatching.within⟩
          have hcard := hmatching.card_lt
          rw [← hrequest]
          exact ih hsound (hrequest ▸ hrange) (by omega)

/-- An allocation ends, accesses nothing out of range, and matches as many requested
pairs as possible. -/
def AllocatesMaximum [NeZero inputs] (s : MaxSizeMatch inputs outputs) : Prop :=
  ∃ s', s.allocateInRange = some s' ∧ s.allocate = some s' ∧ s'.matching.Maximum s.request.Has

theorem allocatesMaximum_of_inRange [NeZero inputs] (hready : s.toAllocator.Ready)
    (hrange : InRange s.request) : s.AllocatesMaximum := by
  have hsound : s.Sound := by
    unfold Sound Allocator.ReturnsMatching
    rw [hready.matching]
    exact ⟨consistent_empty, within_empty⟩
  have hcard : (unmatched s.matching).card < inputs + 1 := by
    have := Finset.card_le_univ (unmatched s.matching)
    rw [Fintype.card_fin] at this
    omega
  obtain ⟨s', hchecked, hs', hmaximum⟩ := exists_augmentAllInRange hsound hrange hcard
  rw [AllocatesMaximum, allocateInRange, allocate, hchecked, hs']
  exact ⟨_, rfl, rfl, hmaximum⟩

/-! ### Requests out of range -/

theorem foldlM_eq_error {ε α β : Type} {f : α → β → Except ε α} {e : ε} {l : List β} {x : β}
    (hx : x ∈ l) (hother : ∀ a y, y ≠ x → f a y = .ok a) (herror : ∀ a, f a x = .error e) (a : α) :
    l.foldlM f a = .error e := by
  induction l with
  | nil => cases hx
  | cons y rest ih =>
      rw [List.foldlM_cons]
      by_cases hy : y = x
      · rw [hy, herror]
        rfl
      · rw [hother a y hy]
        exact ih ((List.mem_cons.mp hx).resolve_left (Ne.symm hy))

/-- A single request for an output that `_from` has no entry for. -/
theorem allocateInRange_eq_none [NeZero inputs] {i : Fin inputs} {j : Fin outputs}
    (hempty : s.matching = .empty) (hj : inputs ≤ j.val)
    (hhas : ∀ i' j', s.request.Has i' j' ↔ i' = i ∧ j' = j) : s.allocateInRange = none := by
  have hnot {i' : Fin inputs} {j' : Fin outputs} (hne : ¬ (i' = i ∧ j' = j)) :
      (s.request i' j').isSome = false :=
    Bool.eq_false_of_not_eq_true (mt (hhas i' j').mp hne)
  have hpass (st : Search inputs outputs) {i' : Fin inputs} {j' : Fin outputs}
      (hne : ¬ (i' = i ∧ j' = j)) : edgeInRange s.request s.matching i' st j' = .ok st := by
    rw [edgeInRange, hnot hne, Bool.false_and, if_neg Bool.false_ne_true]
  have hedge (st : Search inputs outputs) :
      edgeInRange s.request s.matching i st j = .error .outOfRange := by
    have htest : ((s.request i j).isSome && s.matching.inmatch i != some j) = true := by
      rw [hempty, show (s.request i j).isSome = true from (hhas i j).mpr ⟨rfl, rfl⟩]
      rfl
    rw [edgeInRange, if_pos htest, if_neg (Nat.not_lt.mpr hj)]
  have hexpand (st : Search inputs outputs) :
      expandInRange s.request s.matching st i = .error .outOfRange :=
    foldlM_eq_error (List.mem_finRange j) (fun st j' hne => hpass st fun h => hne h.2) hedge st
  have hskip (st : Search inputs outputs) (i' : Fin inputs) (hne : i' ≠ i) :
      expandInRange s.request s.matching st i' = .ok st := by
    unfold expandInRange
    induction List.finRange outputs with
    | nil => rfl
    | cons j' rest ih =>
        rw [List.foldlM_cons, hpass st fun h => hne h.1]
        exact ih
  have hstack : i ∈ (Scan.rotation s.prio).filter fun i => (s.matching.inmatch i).isNone := by
    rw [hempty]
    exact List.mem_filter.mpr ⟨Scan.mem_rotation s.prio i, rfl⟩
  have hsearch (fuel : Nat) (trail : Trail inputs outputs) :
      searchInRange s.request s.matching (fuel + 1)
        ((Scan.rotation s.prio).filter fun i => (s.matching.inmatch i).isNone) trail =
          .error .outOfRange := by
    rw [searchInRange, foldlM_eq_error hstack hskip hexpand]
    rfl
  obtain ⟨n, hn⟩ := Nat.exists_eq_succ_of_ne_zero (NeZero.ne inputs)
  have hshortest : s.shortestAugmentingInRange = none := by
    unfold shortestAugmentingInRange
    dsimp only
    rw [show searchInRange s.request s.matching inputs _ _ = .error .outOfRange from
      hn ▸ hsearch n (resetTrail s.trail)]
  rw [allocateInRange, augmentAllInRange, hshortest]
  rfl

end Flyover.MaxSizeMatch

namespace Flyover.AnyAllocator

variable {inputs outputs : Nat} {a a' : AnyAllocator inputs outputs}

theorem base_addRequest {i : Fin inputs} {o : Fin outputs} {r : Request}
    (hadd : a.addRequest i o r = some a') : a.base.addRequest i o r = some a'.base := by
  cases a with
  | wavefront s =>
      obtain ⟨s', hs', rfl⟩ := Option.map_eq_some_iff.mp hadd
      obtain ⟨b, hb, hs'⟩ := Option.bind_eq_some_iff.mp hs'
      cases hs'
      exact hb
  | _ =>
      obtain ⟨b, hb, rfl⟩ := Option.map_eq_some_iff.mp hadd
      exact hb

/-- Only what is requested is new. -/
theorem exists_mem_of_addRequests {requests : List (Fin inputs × Fin outputs × Request)}
    {i : Fin inputs} {o : Fin outputs} (hadd : a.addRequests requests = some a')
    (hhas : a'.base.request.Has i o) :
    a.base.request.Has i o ∨ ∃ r, (i, o, r) ∈ requests := by
  induction requests generalizing a with
  | nil =>
      cases hadd
      exact .inl hhas
  | cons first rest ih =>
      obtain ⟨i', o', r'⟩ := first
      obtain ⟨b, hb, hrest⟩ := Option.bind_eq_some_iff.mp hadd
      rcases ih hrest with hold | ⟨r, hr⟩
      · rw [(Allocator.addRequest_eq_some (base_addRequest hb)).2, Allocator.has_update] at hold
        rcases hold with ⟨rfl, rfl⟩ | hold
        · exact .inr ⟨r', List.mem_cons_self⟩
        · exact .inl hold
      · exact .inr ⟨r, List.mem_cons_of_mem _ hr⟩

variable [NeZero inputs] [NeZero outputs]

end Flyover.AnyAllocator
