import Flyover.Allocator.Arbiter
import Mathlib.Data.List.Basic

/-!
# `TreeArbiter`

The inputs fall into groups of one size. Each group with a request chooses one,
and the global arbiter chooses among these.
-/

namespace Flyover

/-- `TreeArbiter`, over another kind of arbiter. -/
structure TreeArbiter (σ : Type) extends Arbiter where
  groupSize : Nat
  groupArbiters : Nat → σ
  globalArbiter : σ
  groupReqs : Nat → Nat := fun _ => 0

namespace TreeArbiter

variable {σ : Type}

section Operations

variable (groups : Nat) (sub : ArbiterOps σ)

/-- The constructor asserts that the groups divide the size. -/
def new (size : Nat) : Option (TreeArbiter σ) :=
  if groups ≠ 0 ∧ size % groups = 0 then do
    let group ← sub.new (size / groups)
    let globalArbiter ← sub.new groups
    return { size := size, groupSize := size / groups, groupArbiters := fun _ => group,
             globalArbiter := globalArbiter }
  else none

/-- `AddRequest` -/
def addRequest (s : TreeArbiter σ) (input : Nat) (e : Entry) : Option (TreeArbiter σ) := do
  let a ← s.toArbiter.addRequest input e
  let group := input / s.groupSize
  let arbiter ← sub.addRequest (s.groupArbiters group) (input % s.groupSize) e
  return { s with
    toArbiter := a
    groupArbiters := Function.update s.groupArbiters group arbiter
    groupReqs := Function.update s.groupReqs group (s.groupReqs group + 1) }

/-- One round of the loop over the groups: what the group chooses is requested
from the global arbiter. -/
def collect (s : TreeArbiter σ) (i : Nat) : Option (TreeArbiter σ) :=
  if s.groupReqs i = 0 then some s
  else do
    let (arbiter, winner) ← sub.arbitrate (s.groupArbiters i)
    let (_, e) ← winner
    let globalArbiter ← sub.addRequest s.globalArbiter i e
    return { s with
      groupArbiters := Function.update s.groupArbiters i arbiter
      globalArbiter := globalArbiter }

/-- `Arbitrate`, with its assertions on what was selected. -/
def arbitrate (s : TreeArbiter σ) : Option (TreeArbiter σ × Option (Nat × Entry)) :=
  if s.numReqs = 0 then some (s, none)
  else do
    let s ← (List.range groups).foldlM (collect sub) s
    let (globalArbiter, winner) ← sub.arbitrate s.globalArbiter
    let (group, _) ← winner
    let groupSel ← sub.lastWinner (s.groupArbiters group)
    let s := { s with
      globalArbiter := globalArbiter
      selected := some (group * s.groupSize + groupSel) }
    if group < groups ∧ groupSel < s.groupSize ∧ group * s.groupSize + groupSel < s.size then do
      let winner ← s.toArbiter.arbitrate
      return (s, winner)
    else none

/-- `UpdateState` -/
def updateState (s : TreeArbiter σ) : Option (TreeArbiter σ) :=
  match s.selected with
  | none => some s
  | some _ => do
      let last ← sub.lastWinner s.globalArbiter
      if last < groups then do
        let arbiter ← sub.updateState (s.groupArbiters last)
        let globalArbiter ← sub.updateState s.globalArbiter
        return { s with
          groupArbiters := Function.update s.groupArbiters last arbiter
          globalArbiter := globalArbiter }
      else none

/-- `Clear` -/
def clear (s : TreeArbiter σ) : TreeArbiter σ :=
  if s.numReqs = 0 then s
  else
    { s with
      toArbiter := s.toArbiter.clear
      groupArbiters := fun i => sub.clear (s.groupArbiters i)
      groupReqs := fun _ => 0
      globalArbiter := sub.clear s.globalArbiter }

def ops : ArbiterOps (TreeArbiter σ) where
  new := new groups sub
  addRequest := addRequest sub
  arbitrate := arbitrate groups sub
  updateState := updateState groups sub
  clear := clear sub
  numReqs s := s.numReqs
  lastWinner s := s.selected

end Operations

/-- The requests of one group. -/
def slice (req : Nat → Option Entry) (groupSize group : Nat) : Nat → Option Entry :=
  fun j => if j < groupSize then req (group * groupSize + j) else none

/-- The part of the state that does not change between clearings, but for the requests. -/
structure Shape (groups : Nat) (s : TreeArbiter σ) (n : Nat) (req : Nat → Option Entry) : Prop where
  pending : s.toArbiter.Pending n req
  groups_pos : 0 < groups
  size : n = groups * s.groupSize
  groupReqs : ∀ g < groups, s.groupReqs g = 0 ↔ slice req s.groupSize g = fun _ => none

section Law

variable {groups : Nat} {sub : ArbiterOps σ} (law : ArbiterLaw sub)

/-- Every group has its part of the requests, and the global arbiter none. -/
structure Filling (groups : Nat) (s : TreeArbiter σ) (n : Nat) (req : Nat → Option Entry) : Prop where
  shape : Shape groups s n req
  selected : s.selected = none
  group : ∀ g < groups, law.Filling (s.groupArbiters g) s.groupSize (slice req s.groupSize g)
  global : law.Filling s.globalArbiter groups fun _ => none

/-- The global arbiter has chosen a group, and that group an input; the other
groups have chosen or have no requests. -/
structure Chosen (groups : Nat) (s : TreeArbiter σ) (n : Nat) (winner : Nat × Entry) : Prop where
  shape : ∃ req, Shape groups s n req
  busy : s.numReqs ≠ 0
  selected : s.selected = some winner.1
  group : ∀ g < groups, (∃ req, law.Filling (s.groupArbiters g) s.groupSize req) ∨
    ∃ w, law.Decided (s.groupArbiters g) s.groupSize w
  global : ∃ g < groups, (∃ e, law.Decided s.globalArbiter groups (some (g, e))) ∧
    ∃ w, law.Decided (s.groupArbiters g) s.groupSize w

variable {law} {s s' : TreeArbiter σ} {n i : Nat} {req : Nat → Option Entry} {e : Entry}

theorem index_lt {groups groupSize g j : Nat} (hg : g < groups) (hj : j < groupSize) :
    g * groupSize + j < groups * groupSize := by
  calc g * groupSize + j < g * groupSize + groupSize := Nat.add_lt_add_left hj _
    _ = (g + 1) * groupSize := (Nat.succ_mul g groupSize).symm
    _ ≤ groups * groupSize := Nat.mul_le_mul_right groupSize hg

/-- A new request goes to the slice of its group and to no other. -/
theorem slice_update {groupSize g : Nat} (hi : 0 < groupSize) :
    slice (Function.update req i (some e)) groupSize g =
      if g = i / groupSize then
        Function.update (slice req groupSize g) (i % groupSize) (some e)
      else slice req groupSize g := by
  have hdiv := Nat.div_add_mod' i groupSize
  have hmod := Nat.mod_lt i hi
  split
  next hg =>
    subst hg
    funext j
    unfold slice
    by_cases hj : j = i % groupSize
    · subst hj
      rw [if_pos hmod, hdiv, Function.update_self, Function.update_self]
    · rw [Function.update_of_ne hj, Function.update_of_ne]
      omega
  next hg =>
    funext j
    unfold slice
    split
    next hj =>
      rw [Function.update_of_ne]
      intro heq
      apply hg
      rw [← heq, Nat.mul_comm, Nat.mul_add_div hi, Nat.div_eq_of_lt hj, Nat.add_zero]
    next => rfl

/-- A request goes to the arbiter of its group. -/
structure Adds (groups : Nat) (sub : ArbiterOps σ) (s s' : TreeArbiter σ) (n : Nat)
    (req : Nat → Option Entry) (i : Nat) (e : Entry) : Prop where
  lt : i < n
  free : req i = none
  groupSize_pos : 0 < s.groupSize
  group_lt : i / s.groupSize < groups
  shape : Shape groups s' n (Function.update req i (some e))
  selected : s'.selected = s.selected
  groupSize : s'.groupSize = s.groupSize
  global : s'.globalArbiter = s.globalArbiter
  group : ∃ arbiter, sub.addRequest (s.groupArbiters (i / s.groupSize)) (i % s.groupSize) e =
      some arbiter ∧
    s'.groupArbiters = Function.update s.groupArbiters (i / s.groupSize) arbiter

theorem Shape.adds (h : Shape groups s n req) (hadd : addRequest sub s i e = some s') :
    Adds groups sub s s' n req i e := by
  unfold addRequest at hadd
  obtain ⟨a, ha, hadd⟩ := Option.bind_eq_some_iff.mp hadd
  obtain ⟨arbiter, harbiter, hadd⟩ := Option.bind_eq_some_iff.mp hadd
  cases hadd
  obtain ⟨⟨hi, hfree⟩, -⟩ := Option.ite_none_right_eq_some.mp ha
  rw [h.pending.size] at hi
  rw [h.pending.request] at hfree
  obtain ⟨a', ha', hpending, hselected⟩ := h.pending.exists_addRequest (e := e) hi hfree
  cases ha.symm.trans ha'
  have hpos : 0 < s.groupSize := by
    by_contra hzero
    rw [h.size, Nat.eq_zero_of_not_pos hzero] at hi
    exact Nat.not_lt_zero i hi
  have hgroup : i / s.groupSize < groups := by
    rw [Nat.div_lt_iff_lt_mul hpos, ← h.size]
    exact hi
  refine ⟨hi, hfree, hpos, hgroup, ⟨hpending, h.groups_pos, h.size, ?_⟩, hselected, rfl, rfl, arbiter,
    harbiter, rfl⟩
  intro g hg
  dsimp only
  rw [slice_update hpos]
  by_cases heq : g = i / s.groupSize
  · subst heq
    rw [Function.update_self, if_pos rfl]
    apply iff_of_false (Nat.succ_ne_zero _)
    intro hnone
    have hsome := congrFun hnone (i % s.groupSize)
    rw [Function.update_self] at hsome
    cases hsome
  · rw [Function.update_of_ne heq, if_neg heq]
    exact h.groupReqs g hg

/-- What holds of every group with its part of the requests holds after the request is added. -/
theorem Adds.everyGroup {P : σ → Nat → (Nat → Option Entry) → Prop} (h : Adds groups sub s s' n req i e)
    (hgroups : ∀ g < groups, P (s.groupArbiters g) s.groupSize (slice req s.groupSize g))
    (hstep : ∀ arbiter, sub.addRequest (s.groupArbiters (i / s.groupSize)) (i % s.groupSize) e =
        some arbiter →
      P arbiter s.groupSize (Function.update (slice req s.groupSize (i / s.groupSize))
        (i % s.groupSize) (some e))) :
    ∀ g < groups,
      P (s'.groupArbiters g) s'.groupSize
        (slice (Function.update req i (some e)) s'.groupSize g) := by
  intro g hg
  obtain ⟨arbiter, harbiter, hupdate⟩ := h.group
  rw [hupdate, h.groupSize, slice_update h.groupSize_pos]
  by_cases heq : g = i / s.groupSize
  · subst heq
    rw [Function.update_self, if_pos rfl]
    exact hstep arbiter harbiter
  · rw [Function.update_of_ne heq, if_neg heq]
    exact hgroups g hg

theorem Filling.exists_addRequest (h : Filling law groups s n req) (e : Entry) (hi : i < n)
    (hfree : req i = none) :
    ∃ s', addRequest sub s i e = some s' ∧
      Filling law groups s' n (Function.update req i (some e)) := by
  have hpos : 0 < s.groupSize := by
    by_contra hzero
    rw [h.shape.size, Nat.eq_zero_of_not_pos hzero] at hi
    exact Nat.not_lt_zero i hi
  have hdiv := Nat.div_add_mod' i s.groupSize
  have hmod := Nat.mod_lt i hpos
  have hgroup : i / s.groupSize < groups := by
    rw [Nat.div_lt_iff_lt_mul hpos, ← h.shape.size]
    exact hi
  have hslice : slice req s.groupSize (i / s.groupSize) (i % s.groupSize) = none := by
    rw [slice, if_pos hmod, hdiv, hfree]
  obtain ⟨a, ha, -⟩ := h.shape.pending.exists_addRequest (e := e) hi hfree
  obtain ⟨arbiter, harbiter, hfilling⟩ :=
    law.filling_addRequest e (h.group _ hgroup) hmod hslice
  have hadd : ∃ s', addRequest sub s i e = some s' := by
    unfold addRequest
    rw [ha]
    simp only [Option.bind_eq_bind, Option.bind_some, harbiter]
    exact ⟨_, rfl⟩
  obtain ⟨s', hs'⟩ := hadd
  have hadds := h.shape.adds hs'
  refine ⟨s', hs', hadds.shape, hadds.selected.trans h.selected, ?_, hadds.global ▸ h.global⟩
  refine hadds.everyGroup h.group fun arbiter' harbiter' => ?_
  cases harbiter.symm.trans harbiter'
  exact hfilling

/-- The groups below `k` have been asked: each has no request, or has chosen one
of its own, which the global arbiter now has. -/
structure Collected (law : ArbiterLaw sub) (groups : Nat) (start : TreeArbiter σ)
    (req : Nat → Option Entry) (k : Nat) (s : TreeArbiter σ) (chosen : Nat → Option Entry) :
    Prop where
  base : s.toArbiter = start.toArbiter
  groupSize : s.groupSize = start.groupSize
  groupReqs : s.groupReqs = start.groupReqs
  asked : ∀ g < k, g < groups →
    (chosen g = none ∧ slice req start.groupSize g = (fun _ => none) ∧
      ∃ r, law.Filling (s.groupArbiters g) start.groupSize r) ∨
    ∃ j e, chosen g = some e ∧ slice req start.groupSize g j = some e ∧
      law.Decided (s.groupArbiters g) start.groupSize (some (j, e))
  rest : ∀ g < groups, k ≤ g →
    law.Filling (s.groupArbiters g) start.groupSize (slice req start.groupSize g)
  global : law.Filling s.globalArbiter groups chosen
  fresh : ∀ g, k ≤ g → chosen g = none

variable {start : TreeArbiter σ} {k : Nat} {chosen : Nat → Option Entry}

theorem Collected.exists_collect (h : Collected law groups start req k s chosen)
    (hshape : Shape groups start n req) (hk : k < groups) :
    ∃ s' chosen', collect sub s k = some s' ∧
      Collected law groups start req (k + 1) s' chosen' := by
  have hold {g : Nat} (hg : g < k + 1) (hne : g ≠ k) : g < k := by omega
  unfold collect
  split
  next hzero =>
    refine ⟨s, chosen, rfl, h.base, h.groupSize, h.groupReqs, ?_,
      fun g hg hle => h.rest g hg (by omega), h.global, fun g hle => h.fresh g (by omega)⟩
    intro g hg hgroups
    by_cases hgk : g = k
    · subst hgk
      rw [h.groupReqs] at hzero
      exact .inl ⟨h.fresh g le_rfl, (hshape.groupReqs g hgroups).mp hzero, _,
        h.rest g hgroups le_rfl⟩
    · exact h.asked g (hold hg hgk) hgroups
  next hbusy =>
    obtain ⟨arbiter, winner, harbiter, hdecided, hwinner, hnone⟩ :=
      law.decided_arbitrate (h.rest k hk le_rfl)
    rw [harbiter]
    cases winner with
    | none =>
        rw [h.groupReqs, hshape.groupReqs k hk] at hbusy
        exact absurd (funext (hnone rfl)) hbusy
    | some w =>
        obtain ⟨j, e⟩ := w
        obtain ⟨globalArbiter, hglobal, hfilling⟩ :=
          law.filling_addRequest e h.global hk (h.fresh k le_rfl)
        simp only [Option.bind_eq_bind, Option.bind_some, hglobal]
        refine ⟨_, Function.update chosen k (some e), rfl, h.base, h.groupSize, h.groupReqs, ?_, ?_,
          hfilling, ?_⟩
        · intro g hg hgroups
          dsimp only
          by_cases hgk : g = k
          · subst hgk
            rw [Function.update_self, Function.update_self]
            exact .inr ⟨j, e, rfl, hwinner j e rfl, hdecided⟩
          · rw [Function.update_of_ne hgk, Function.update_of_ne hgk]
            exact h.asked g (hold hg hgk) hgroups
        · intro g hg hle
          dsimp only
          rw [Function.update_of_ne (by omega)]
          exact h.rest g hg (by omega)
        · intro g hle
          rw [Function.update_of_ne (by omega)]
          exact h.fresh g (by omega)

theorem Filling.collected (h : Filling law groups start n req) :
    Collected law groups start req 0 start (fun _ => none) where
  base := rfl
  groupSize := rfl
  groupReqs := rfl
  asked _ hlt := absurd hlt (Nat.not_lt_zero _)
  rest g hg _ := h.group g hg
  global := h.global
  fresh _ _ := rfl

theorem exists_collectAll (h : Filling law groups start n req) (hk : k ≤ groups) :
    ∃ s chosen, (List.range k).foldlM (collect sub) start = some s ∧
      Collected law groups start req k s chosen := by
  induction k with
  | zero => exact ⟨start, _, rfl, h.collected⟩
  | succ k ih =>
      obtain ⟨s, chosen, hs, hcollected⟩ := ih (by omega)
      obtain ⟨s', chosen', hs', hcollected'⟩ := hcollected.exists_collect h.shape hk
      refine ⟨s', chosen', ?_, hcollected'⟩
      rw [List.range_succ, List.foldlM_append, hs]
      simp [hs']

/-- A tree with requests chooses one of them. -/
theorem Filling.exists_arbitrate (h : Filling law groups start n req) (hbusy : start.numReqs ≠ 0) :
    ∃ s i e, arbitrate groups sub start = some (s, some (i, e)) ∧ req i = some e ∧
      Chosen law groups s n (i, e) := by
  obtain ⟨s, chosen, hs, hcollected⟩ := exists_collectAll h le_rfl
  obtain ⟨globalArbiter, winner, hglobal, hdecided, hwinner, hnone⟩ :=
    law.decided_arbitrate hcollected.global
  cases winner with
  | none =>
      -- some slice is not empty, so its group has chosen
      exfalso
      rw [ne_eq, h.shape.pending.idle] at hbusy
      apply hbusy
      funext i
      cases hi : req i with
      | none => rfl
      | some e =>
          have hlt := h.shape.pending.lt i e hi
          rw [h.shape.size] at hlt
          have hpos : 0 < start.groupSize := by
            by_contra hzero
            rw [Nat.eq_zero_of_not_pos hzero] at hlt
            exact Nat.not_lt_zero i hlt
          have hg : i / start.groupSize < groups := (Nat.div_lt_iff_lt_mul hpos).mpr hlt
          obtain ⟨-, hempty, -⟩ | ⟨j, e', hchosen, -⟩ := hcollected.asked _ hg hg
          · have hslice := congrFun hempty (i % start.groupSize)
            rw [slice, if_pos (Nat.mod_lt i hpos), Nat.div_add_mod', hi] at hslice
            cases hslice
          · rw [hnone rfl] at hchosen
            cases hchosen
  | some w =>
      obtain ⟨g, e⟩ := w
      have hg := law.filling_lt hcollected.global (hwinner g e rfl)
      obtain ⟨hfresh, -⟩ | ⟨j, e', hchosen, hslice, hgroup⟩ := hcollected.asked g hg hg
      · rw [hwinner g e rfl] at hfresh
        cases hfresh
      · rw [hwinner g e rfl] at hchosen
        cases hchosen
        have hj : j < start.groupSize := by
          by_contra hge
          rw [slice, if_neg hge] at hslice
          cases hslice
        rw [slice, if_pos hj] at hslice
        have hlt : g * start.groupSize + j < start.size := by
          rw [h.shape.pending.size, h.shape.size]
          exact index_lt hg hj
        have hlast := law.lastWinner hgroup
        have hbase := hcollected.base
        have hsize := hcollected.groupSize
        have hreqs := hcollected.groupReqs
        have hasked := hcollected.asked
        obtain ⟨a, groupSize, groupArbiters, global, groupReqs⟩ := s
        dsimp only at hbase hsize hreqs hasked hgroup hlast hglobal
        subst hbase hsize hreqs
        let s' : TreeArbiter σ :=
          { start with
            selected := some (g * start.groupSize + j)
            groupArbiters := groupArbiters
            globalArbiter := globalArbiter }
        refine ⟨s', g * start.groupSize + j, e, ?_, hslice, ?_⟩
        · unfold arbitrate
          rw [if_neg hbusy, hs]
          simp only [Option.bind_eq_bind, Option.bind_some, hglobal, hlast, Option.map_some]
          rw [if_pos ⟨hg, hj, hlt⟩]
          simp [Arbiter.arbitrate, h.shape.pending.request, hslice, s']
        · refine ⟨⟨req, ⟨⟨h.shape.pending.size, h.shape.pending.request, h.shape.pending.lt,
            h.shape.pending.idle⟩, h.shape.groups_pos, h.shape.size, h.shape.groupReqs⟩⟩, hbusy, rfl,
            ?_, g, hg, ⟨e, hdecided⟩, _, hgroup⟩
          intro g' hg'
          obtain ⟨-, -, hfilling⟩ | ⟨j', e', -, -, hdecided'⟩ := hasked g' hg' hg'
          · exact .inl hfilling
          · exact .inr ⟨_, hdecided'⟩

theorem Chosen.exists_updateState {winner : Nat × Entry} (h : Chosen law groups s n winner) :
    ∃ s', updateState groups sub s = some s' ∧ Chosen law groups s' n winner := by
  obtain ⟨g, hg, ⟨e, hglobal⟩, w, hgroup⟩ := h.global
  obtain ⟨globalArbiter, hglobal', hdecided⟩ := law.decided_updateState hglobal
  obtain ⟨arbiter, hgroup', hdecided'⟩ := law.decided_updateState hgroup
  have hlast : sub.lastWinner s.globalArbiter = some g := law.lastWinner hglobal
  unfold updateState
  rw [h.selected]
  simp only [Option.bind_eq_bind, Option.bind_some, hlast]
  rw [if_pos hg, hgroup', hglobal']
  obtain ⟨req, hshape⟩ := h.shape
  refine ⟨_, rfl, ⟨req, hshape.pending, hshape.groups_pos, hshape.size, hshape.groupReqs⟩, h.busy,
    h.selected, ?_, g, hg, ⟨e, hdecided⟩, w, ?_⟩
  · intro g' hg'
    dsimp only
    by_cases heq : g' = g
    · rw [heq, Function.update_self]
      exact .inr ⟨w, hdecided'⟩
    · rw [Function.update_of_ne heq]
      exact h.group g' hg'
  · dsimp only
    rw [Function.update_self]
    exact hdecided'

theorem slice_none (groupSize g : Nat) : slice (fun _ => none) groupSize g = fun _ => none := by
  funext j
  unfold slice
  split <;> rfl

/-- Clearing a tree with requests clears its nodes, whether they have chosen or not. -/
theorem filling_clear (hshape : Shape groups s n req) (hbusy : s.numReqs ≠ 0)
    (hgroup : ∀ g < groups, (∃ req, law.Filling (s.groupArbiters g) s.groupSize req) ∨
      ∃ w, law.Decided (s.groupArbiters g) s.groupSize w)
    (hglobal : (∃ req, law.Filling s.globalArbiter groups req) ∨
      ∃ w, law.Decided s.globalArbiter groups w) :
    Filling law groups (clear sub s) n fun _ => none := by
  have hclear {a : σ} {m : Nat} (h : (∃ req, law.Filling a m req) ∨ ∃ w, law.Decided a m w) :
      law.Filling (sub.clear a) m fun _ => none := by
    obtain ⟨req, h⟩ | ⟨w, h⟩ := h
    · exact law.filling_clear h
    · exact law.decided_clear h
  unfold clear
  rw [if_neg hbusy]
  refine ⟨⟨hshape.pending.clear, hshape.groups_pos, hshape.size, ?_⟩, ?_, ?_, hclear hglobal⟩
  · intro g _
    rw [slice_none]
    exact iff_of_true rfl rfl
  · show s.toArbiter.clear.selected = none
    rw [Arbiter.clear, if_neg hbusy]
  · intro g hg
    rw [slice_none]
    exact hclear (hgroup g hg)

/-- The state after an arbitration: nothing was requested, or something has been chosen. -/
def Decided (law : ArbiterLaw sub) (groups : Nat) (s : TreeArbiter σ) (n : Nat) :
    Option (Nat × Entry) → Prop
  | none => s.numReqs = 0 ∧ Filling law groups s n fun _ => none
  | some winner => Chosen law groups s n winner

theorem filling_new (h : new groups sub n = some s) : Filling law groups s n fun _ => none := by
  unfold new at h
  split at h
  next hgroups =>
    obtain ⟨group, hgroup, h⟩ := Option.bind_eq_some_iff.mp h
    obtain ⟨globalArbiter, hglobal, h⟩ := Option.bind_eq_some_iff.mp h
    cases h
    refine ⟨⟨Arbiter.pending_new n, Nat.pos_of_ne_zero hgroups.1, ?_, ?_⟩, rfl, ?_,
      law.filling_new hglobal⟩
    · exact (Nat.mul_div_cancel' (Nat.dvd_of_mod_eq_zero hgroups.2)).symm
    · intro g _
      rw [slice_none]
      exact iff_of_true rfl rfl
    · intro g _
      rw [slice_none]
      exact law.filling_new hgroup
  next => cases h

theorem Filling.clear (h : Filling law groups s n req) :
    Filling law groups (clear sub s) n fun _ => none := by
  by_cases hidle : s.numReqs = 0
  · rw [TreeArbiter.clear, if_pos hidle]
    exact h.shape.pending.idle.mp hidle ▸ h
  · exact filling_clear h.shape hidle (fun g hg => .inl ⟨_, h.group g hg⟩) (.inl ⟨_, h.global⟩)

/-- A tree of lawful arbiters is lawful. -/
def treeLaw (law : ArbiterLaw sub) (groups : Nat) : ArbiterLaw (ops groups sub) where
  Filling := Filling law groups
  Decided := Decided law groups
  filling_lt h hi := h.shape.pending.lt _ _ hi
  filling_new h := filling_new h
  filling_addRequest e h hi hfree := h.exists_addRequest e hi hfree
  decided_arbitrate := by
    intro s n req h
    by_cases hidle : s.numReqs = 0
    · have hreq := h.shape.pending.idle.mp hidle
      refine ⟨s, none, if_pos hidle, ⟨hidle, hreq ▸ h⟩, fun _ _ hw => (nomatch hw), ?_⟩
      intro _ i
      rw [hreq]
    · obtain ⟨s', i, e, hs', hi, hchosen⟩ := h.exists_arbitrate hidle
      refine ⟨s', some (i, e), hs', hchosen, ?_, fun hw => (nomatch hw)⟩
      intro i' e' hw
      cases hw
      exact hi
  decided_updateState := by
    intro s n winner h
    cases winner with
    | none =>
        refine ⟨s, ?_, h⟩
        show updateState groups sub s = some s
        rw [updateState, h.2.selected]
    | some w => exact h.exists_updateState
  filling_clear h := h.clear
  decided_clear := by
    intro s n winner h
    cases winner with
    | none => exact h.2.clear
    | some w =>
        obtain ⟨req, hshape⟩ := h.shape
        obtain ⟨g, -, ⟨e, hglobal⟩, -⟩ := h.global
        exact filling_clear hshape h.busy h.group (.inr ⟨_, hglobal⟩)
  filling_idle h hidle := h.shape.pending.idle.mp hidle
  decided_idle := by
    intro s n winner h hidle
    cases winner with
    | none => exact h.2
    | some w => exact absurd hidle h.busy
  lastWinner := by
    intro s n winner h
    cases winner with
    | none => exact h.2.selected
    | some w => exact h.selected

end Law

end TreeArbiter

/-! ### The kinds of arbiters -/

/-- The values of `arb_type`. -/
inductive ArbType where
  | roundRobin
  | matrix
  | tree (groups : Nat) (sub : ArbType)

namespace ArbType

/-- The state of an arbiter. -/
def State : ArbType → Type
  | roundRobin => RoundRobinArbiter
  | matrix => MatrixArbiter
  | tree _ sub => TreeArbiter sub.State

/-- `NewArbiter` and the operations of what it makes. -/
def ops : (type : ArbType) → ArbiterOps type.State
  | roundRobin => RoundRobinArbiter.ops
  | matrix => MatrixArbiter.ops
  | tree groups sub => TreeArbiter.ops groups sub.ops

/-- All of them are lawful. -/
def law : (type : ArbType) → ArbiterLaw type.ops
  | roundRobin => RoundRobinArbiter.flatLaw.law
  | matrix => MatrixArbiter.flatLaw.law
  | tree groups sub => TreeArbiter.treeLaw sub.law groups

end ArbType

end Flyover
