import Mathlib.Data.Finset.Max
import Mathlib.Data.Int.Order.Basic
import Mathlib.Logic.Function.Basic
import Mathlib.Order.Interval.Finset.Nat

/-!
# Arbiters

An arbiter is filled with requests, chooses one of them, is told to remember
its choice if it was taken, and is cleared. `round_robin`, `matrix` and `tree`
differ in the choice; a tree has arbiters of another kind in its nodes.

The law of arbiters says what an allocator relies on: an arbiter with requests
chooses one of them. A tree of lawful arbiters is lawful.
-/

namespace Flyover

/-- `entry_t`, of a valid entry. -/
structure Entry where
  id : Nat
  pri : Int

/-- What all arbiters have. -/
structure Arbiter where
  size : Nat
  request : Nat → Option Entry := fun _ => none
  selected : Option Nat := none
  numReqs : Nat := 0

namespace Arbiter

/-- `AddRequest` -/
def addRequest (a : Arbiter) (input : Nat) (e : Entry) : Option Arbiter :=
  if input < a.size ∧ a.request input = none then
    some { a with
      request := Function.update a.request input (some e)
      numReqs := a.numReqs + 1 }
  else none

/-- `Arbitrate`, once `_selected` has been set: it asserts that one of the
requests, if there are any, has been selected. -/
def arbitrate (a : Arbiter) : Option (Option (Nat × Entry)) :=
  match a.selected with
  | none => if a.numReqs = 0 then some none else none
  | some i => (a.request i).map fun e => some (i, e)

/-- `Clear` -/
def clear (a : Arbiter) : Arbiter :=
  if a.numReqs = 0 then a else { a with request := fun _ => none, numReqs := 0, selected := none }

/-- The arbiter has these requests. -/
structure Pending (a : Arbiter) (n : Nat) (req : Nat → Option Entry) : Prop where
  size : a.size = n
  request : a.request = req
  lt : ∀ i e, req i = some e → i < n
  idle : a.numReqs = 0 ↔ req = fun _ => none

variable {a a' : Arbiter} {n i : Nat} {req : Nat → Option Entry} {e : Entry}

theorem pending_new (n : Nat) : Pending { size := n } n fun _ => none where
  size := rfl
  request := rfl
  lt _ _ h := nomatch h
  idle := iff_of_true rfl rfl

theorem Pending.exists_addRequest (h : a.Pending n req) (hi : i < n) (hfree : req i = none) :
    ∃ a', a.addRequest i e = some a' ∧ a'.Pending n (Function.update req i (some e)) ∧
      a'.selected = a.selected := by
  refine ⟨_, if_pos ⟨h.size.symm ▸ hi, h.request.symm ▸ hfree⟩, ⟨h.size, ?_, ?_, ?_⟩, rfl⟩
  · exact congrArg (fun f => Function.update f i (some e)) h.request
  · intro j e' hj
    by_cases hji : j = i
    · exact hji ▸ hi
    · rw [Function.update_of_ne hji] at hj
      exact h.lt j e' hj
  · apply iff_of_false (Nat.succ_ne_zero _)
    intro hnone
    have hi' := congrFun hnone i
    rw [Function.update_self] at hi'
    cases hi'

theorem Pending.clear (h : a.Pending n req) : a.clear.Pending n fun _ => none := by
  unfold Arbiter.clear
  split
  next hzero => exact h.idle.mp hzero ▸ h
  next => exact ⟨h.size, rfl, fun _ _ h => (nomatch h), iff_of_true rfl rfl⟩

end Arbiter

/-- The operations of a kind of arbiter. -/
structure ArbiterOps (σ : Type) where
  /-- the constructor, with the size -/
  new : Nat → Option σ
  addRequest : σ → Nat → Entry → Option σ
  arbitrate : σ → Option (σ × Option (Nat × Entry))
  updateState : σ → Option σ
  clear : σ → σ
  numReqs : σ → Nat
  lastWinner : σ → Option Nat

/-- What an allocator relies on. An arbiter is filled until it has decided. -/
structure ArbiterLaw {σ : Type} (ops : ArbiterOps σ) where
  /-- the arbiter has these requests -/
  Filling : σ → Nat → (Nat → Option Entry) → Prop
  /-- the arbiter has chosen -/
  Decided : σ → Nat → Option (Nat × Entry) → Prop
  filling_lt : ∀ {s n req i e}, Filling s n req → req i = some e → i < n
  filling_new : ∀ {s n}, ops.new n = some s → Filling s n fun _ => none
  filling_addRequest : ∀ {s n req i} (e : Entry), Filling s n req → i < n → req i = none →
    ∃ s', ops.addRequest s i e = some s' ∧ Filling s' n (Function.update req i (some e))
  decided_arbitrate : ∀ {s n req}, Filling s n req → ∃ s' winner,
    ops.arbitrate s = some (s', winner) ∧ Decided s' n winner ∧
      (∀ i e, winner = some (i, e) → req i = some e) ∧ (winner = none → ∀ i, req i = none)
  decided_updateState : ∀ {s n winner}, Decided s n winner →
    ∃ s', ops.updateState s = some s' ∧ Decided s' n winner
  filling_clear : ∀ {s n req}, Filling s n req → Filling (ops.clear s) n fun _ => none
  decided_clear : ∀ {s n winner}, Decided s n winner → Filling (ops.clear s) n fun _ => none
  filling_idle : ∀ {s n req}, Filling s n req → ops.numReqs s = 0 → req = fun _ => none
  decided_idle : ∀ {s n winner}, Decided s n winner → ops.numReqs s = 0 →
    Filling s n fun _ => none
  lastWinner : ∀ {s n winner}, Decided s n winner → ops.lastWinner s = winner.map Prod.fst

/-! ### Arbiters that choose among their own requests -/

/-- The law of an arbiter that keeps its requests until it is cleared: one
predicate for the requests is kept by every operation. -/
structure FlatLaw {σ : Type} (ops : ArbiterOps σ) (base : σ → Arbiter)
    (Holds : σ → Nat → (Nat → Option Entry) → Prop) : Prop where
  numReqs : ∀ s, ops.numReqs s = (base s).numReqs
  lastWinner : ∀ s, ops.lastWinner s = (base s).selected
  pending : ∀ {s n req}, Holds s n req → (base s).Pending n req
  new : ∀ {s n}, ops.new n = some s → Holds s n (fun _ => none) ∧ (base s).selected = none
  addRequest : ∀ {s n req i} (e : Entry), Holds s n req → i < n → req i = none →
    ∃ s', ops.addRequest s i e = some s' ∧ Holds s' n (Function.update req i (some e)) ∧
      (base s').selected = (base s).selected
  arbitrate : ∀ {s n req}, Holds s n req → ∃ s' winner, ops.arbitrate s = some (s', winner) ∧
    Holds s' n req ∧ (base s').selected = winner.map Prod.fst ∧
      (∀ i e, winner = some (i, e) → req i = some e) ∧ (winner = none → req = fun _ => none)
  updateState : ∀ {s n req}, Holds s n req → (∀ i, (base s).selected = some i → i < n) →
    ∃ s', ops.updateState s = some s' ∧ Holds s' n req ∧ base s' = base s
  clear : ∀ {s n req}, Holds s n req → Holds (ops.clear s) n (fun _ => none) ∧
    base (ops.clear s) = (base s).clear

section Flat

variable {σ : Type} {ops : ArbiterOps σ} {base : σ → Arbiter}
  {Holds : σ → Nat → (Nat → Option Entry) → Prop}

/-- The arbiter has requests, and `_selected` is one of them if it is set. -/
structure Chose (base : σ → Arbiter) (Holds : σ → Nat → (Nat → Option Entry) → Prop) (s : σ)
    (n : Nat) (winner : Option (Nat × Entry)) : Prop where
  holds : ∃ req, Holds s n req ∧ ∀ i e, winner = some (i, e) → req i = some e
  selected : (base s).selected = winner.map Prod.fst

theorem FlatLaw.selected_idle (law : FlatLaw ops base Holds) {s : σ} {n : Nat}
    {winner : Option (Nat × Entry)} (h : Chose base Holds s n winner)
    (hidle : (base s).numReqs = 0) : (base s).selected = none := by
  obtain ⟨⟨req, hholds, hwinner⟩, hselected⟩ := h
  cases winner with
  | none => exact hselected
  | some w =>
      have hw := hwinner w.1 w.2 rfl
      rw [(law.pending hholds).idle.mp hidle] at hw
      cases hw

theorem FlatLaw.selected_clear (law : FlatLaw ops base Holds) {s : σ} {n : Nat}
    {req : Nat → Option Entry} (h : Holds s n req)
    (hidle : (base s).numReqs = 0 → (base s).selected = none) :
    (base (ops.clear s)).selected = none := by
  rw [(law.clear h).2]
  unfold Arbiter.clear
  split
  next hzero => exact hidle hzero
  next => rfl

/-- Such an arbiter is lawful. -/
def FlatLaw.law (law : FlatLaw ops base Holds) : ArbiterLaw ops where
  Filling s n req := Holds s n req ∧ (base s).selected = none
  Decided := Chose base Holds
  filling_lt h hi := (law.pending h.1).lt _ _ hi
  filling_new h := law.new h
  filling_addRequest := by
    intro s n req i e h hi hfree
    obtain ⟨s', hs', hholds, hselected⟩ := law.addRequest e h.1 hi hfree
    exact ⟨s', hs', hholds, hselected.trans h.2⟩
  decided_arbitrate := by
    intro s n req h
    obtain ⟨s', winner, hs', hholds, hselected, hwinner, hnone⟩ := law.arbitrate h.1
    exact ⟨s', winner, hs', ⟨⟨req, hholds, hwinner⟩, hselected⟩, hwinner,
      fun hw i => congrFun (hnone hw) i⟩
  decided_updateState := by
    intro s n winner h
    obtain ⟨⟨req, hholds, hwinner⟩, hselected⟩ := h
    obtain ⟨s', hs', hholds', hbase⟩ := law.updateState hholds (by
      intro i hi
      rw [hselected] at hi
      obtain ⟨w, hw, rfl⟩ := Option.map_eq_some_iff.mp hi
      exact (law.pending hholds).lt w.1 w.2 (hwinner w.1 w.2 hw))
    exact ⟨s', hs', ⟨req, hholds', hwinner⟩, hbase ▸ hselected⟩
  filling_clear h := ⟨(law.clear h.1).1, law.selected_clear h.1 fun _ => h.2⟩
  decided_clear := by
    intro s n winner h
    obtain ⟨req, hholds, -⟩ := h.holds
    exact ⟨(law.clear hholds).1, law.selected_clear hholds (law.selected_idle h)⟩
  filling_idle := by
    intro s n req h hidle
    rw [law.numReqs] at hidle
    exact (law.pending h.1).idle.mp hidle
  decided_idle := by
    intro s n winner h hidle
    rw [law.numReqs] at hidle
    obtain ⟨req, hholds, -⟩ := h.holds
    rw [(law.pending hholds).idle.mp hidle] at hholds
    exact ⟨hholds, law.selected_idle h hidle⟩
  lastWinner h := (law.lastWinner _).trans h.selected

end Flat

/-! ### Round robin -/

/-- `RoundRobinArbiter` -/
structure RoundRobinArbiter extends Arbiter where
  pointer : Nat := 0
  highestPri : Int := -2147483648
  bestInput : Option Nat := none

namespace RoundRobinArbiter

/-- `Supersedes` -/
def supersedes (input1 : Nat) (pri1 : Int) (input2 : Nat) (pri2 : Int) (offset size : Nat) : Bool :=
  decide (pri2 < pri1) ||
    (decide (pri1 = pri2) &&
      decide ((input1 + size - offset) % size < (input2 + size - offset) % size))

/-- `AddRequest`; without a request there is no best input. -/
def addRequest (s : RoundRobinArbiter) (input : Nat) (e : Entry) : Option RoundRobinArbiter := do
  let better := (s.request input).all (fun old => decide (old.pri < e.pri)) &&
    (s.numReqs == 0 ||
      s.bestInput.all fun best =>
        supersedes input e.pri best s.highestPri s.pointer s.size)
  let a ← s.toArbiter.addRequest input e
  return if better then { s with toArbiter := a, highestPri := e.pri, bestInput := some input }
    else { s with toArbiter := a }

/-- `Arbitrate` -/
def arbitrate (s : RoundRobinArbiter) : Option (RoundRobinArbiter × Option (Nat × Entry)) := do
  let s := { s with selected := s.bestInput }
  let winner ← s.toArbiter.arbitrate
  return (s, winner)

/-- `UpdateState` -/
def updateState (s : RoundRobinArbiter) : RoundRobinArbiter :=
  match s.selected with
  | some i => { s with pointer := (i + 1) % s.size }
  | none => s

/-- `Clear` -/
def clear (s : RoundRobinArbiter) : RoundRobinArbiter where
  toArbiter := s.toArbiter.clear
  pointer := s.pointer

def ops : ArbiterOps RoundRobinArbiter where
  new size := some { size := size }
  addRequest := addRequest
  arbitrate := arbitrate
  updateState s := some s.updateState
  clear := clear
  numReqs s := s.numReqs
  lastWinner s := s.selected

/-- There is a best input as soon as there is a request, and it is one of them. -/
structure Holds (s : RoundRobinArbiter) (n : Nat) (req : Nat → Option Entry) : Prop where
  pending : s.toArbiter.Pending n req
  best : ∀ b, s.bestInput = some b → ∃ e, req b = some e
  none : s.bestInput = none → req = fun _ => none

variable {s s' : RoundRobinArbiter} {n i : Nat} {req : Nat → Option Entry}

theorem Holds.exists_addRequest (h : s.Holds n req) (e : Entry) (hi : i < n)
    (hfree : req i = Option.none) :
    ∃ s', s.addRequest i e = some s' ∧ s'.Holds n (Function.update req i (some e)) ∧
      s'.selected = s.selected := by
  obtain ⟨a, ha, hpending, hselected⟩ := h.pending.exists_addRequest hi hfree
  have hsome {b : Nat} (hb : ∃ e', req b = some e') :
      ∃ e', Function.update req i (some e) b = some e' := by
    by_cases hbi : b = i
    · exact ⟨e, by rw [hbi, Function.update_self]⟩
    · rwa [Function.update_of_ne hbi]
  unfold addRequest
  rw [ha]
  refine ⟨_, rfl, ?_⟩
  split
  next =>
    refine ⟨⟨hpending, ?_, fun hnone => nomatch hnone⟩, hselected⟩
    intro b hb
    cases hb
    exact ⟨e, Function.update_self ..⟩
  next hworse =>
    refine ⟨⟨hpending, fun b hb => hsome (h.best b hb), ?_⟩, hselected⟩
    intro hnone
    have hnone : s.bestInput = Option.none := hnone
    simp [h.pending.request, hfree, hnone] at hworse

/-- The arbiter chooses its best input. -/
theorem Holds.arbitrate_eq (h : s.Holds n req) :
    ∃ winner, s.arbitrate = some ({ s with selected := s.bestInput }, winner) ∧
      s.bestInput = winner.map Prod.fst ∧ (∀ i e, winner = some (i, e) → req i = some e) ∧
      (winner = Option.none → req = fun _ => Option.none) := by
  unfold arbitrate Arbiter.arbitrate
  cases hbest : s.bestInput with
  | none =>
      have hreq := h.none hbest
      refine ⟨Option.none, ?_, rfl, fun _ _ h => (nomatch h), fun _ => hreq⟩
      simp [h.pending.idle.mpr hreq]
  | some b =>
      obtain ⟨e, he⟩ := h.best b hbest
      refine ⟨some (b, e), ?_, rfl, ?_, fun h => nomatch h⟩
      · simp [h.pending.request, he]
      · intro i e' heq
        cases heq
        exact he

theorem Holds.clear (h : s.Holds n req) : s.clear.Holds n fun _ => Option.none where
  pending := h.pending.clear
  best _ hb := nomatch hb
  none _ := rfl

theorem flatLaw : FlatLaw ops toArbiter Holds where
  numReqs _ := rfl
  lastWinner _ := rfl
  pending h := h.pending
  new h := by
    cases h
    exact ⟨⟨Arbiter.pending_new _, fun b hb => (nomatch hb), fun _ => rfl⟩, rfl⟩
  addRequest e h := h.exists_addRequest e
  arbitrate := by
    intro s n req h
    obtain ⟨winner, hs', hselected, hwinner, hnone⟩ := h.arbitrate_eq
    exact ⟨_, winner, hs', ⟨⟨h.pending.size, h.pending.request, h.pending.lt, h.pending.idle⟩,
      h.best, h.none⟩, hselected, hwinner, hnone⟩
  updateState := by
    intro s n req h _
    refine ⟨_, rfl, ?_⟩
    unfold updateState
    split
    next => exact ⟨⟨h.pending, h.best, h.none⟩, rfl⟩
    next => exact ⟨h, rfl⟩
  clear h := ⟨h.clear, rfl⟩

end RoundRobinArbiter

/-! ### Matrix -/

/-- `MatrixArbiter` -/
structure MatrixArbiter extends Arbiter where
  matrix : Nat → Nat → Bool
  lastReq : Option Nat := none

namespace MatrixArbiter

/-- The constructor: an input comes before those of lower number. -/
def new (size : Nat) : MatrixArbiter where
  size := size
  matrix i j := decide (j < i)

/-- `AddRequest` -/
def addRequest (s : MatrixArbiter) (input : Nat) (e : Entry) : Option MatrixArbiter := do
  let a ← s.toArbiter.addRequest input e
  return { s with toArbiter := a, lastReq := some input }

/-- A request that keeps another from being granted. -/
def blocks (s : MatrixArbiter) (input : Nat) (e : Entry) (i : Nat) : Bool :=
  (s.request i).any fun e' =>
    (decide (e'.pri = e.pri) && s.matrix i input) || decide (e.pri < e'.pri)

/-- The first request that no other one blocks. -/
def grant (s : MatrixArbiter) : Option Nat :=
  (List.range s.size).find? fun input =>
    (s.request input).any fun e => (List.range s.size).all fun i => !s.blocks input e i

/-- `Arbitrate`; with fewer than two requests the last one is granted. -/
def arbitrate (s : MatrixArbiter) : Option (MatrixArbiter × Option (Nat × Entry)) := do
  let s := { s with selected := if s.numReqs < 2 then s.lastReq else s.grant }
  let winner ← s.toArbiter.arbitrate
  return (s, winner)

/-- `UpdateState`: what was selected comes behind all others. -/
def updateState (s : MatrixArbiter) : MatrixArbiter :=
  match s.selected with
  | some w =>
      { s with
        matrix := fun i j =>
          if i = w ∧ j ≠ w then false else if j = w ∧ i ≠ w then true else s.matrix i j }
  | none => s

/-- `Clear` -/
def clear (s : MatrixArbiter) : MatrixArbiter where
  toArbiter := s.toArbiter.clear
  matrix := s.matrix

def ops : ArbiterOps MatrixArbiter where
  new size := some (new size)
  addRequest := addRequest
  arbitrate := arbitrate
  updateState s := some s.updateState
  clear := clear
  numReqs s := s.numReqs
  lastWinner s := s.selected

/-- The matrix ranks the inputs, and the last request is one of those there are. -/
structure Holds (s : MatrixArbiter) (n : Nat) (req : Nat → Option Entry) : Prop where
  pending : s.toArbiter.Pending n req
  last : ∀ b, s.lastReq = some b → ∃ e, req b = some e
  none : s.lastReq = none → req = fun _ => none
  ranked : ∃ rank : Nat → Nat, ∀ i < n, ∀ j < n, s.matrix i j = decide (rank i < rank j)

variable {s : MatrixArbiter} {n i : Nat} {req : Nat → Option Entry}

theorem Holds.exists_addRequest (h : s.Holds n req) (e : Entry) (hi : i < n)
    (hfree : req i = Option.none) :
    ∃ s', s.addRequest i e = some s' ∧ s'.Holds n (Function.update req i (some e)) ∧
      s'.selected = s.selected := by
  obtain ⟨a, ha, hpending, hselected⟩ := h.pending.exists_addRequest hi hfree
  unfold addRequest
  rw [ha]
  refine ⟨_, rfl, ⟨hpending, ?_, fun hnone => (nomatch hnone), h.ranked⟩, hselected⟩
  intro b hb
  cases hb
  exact ⟨e, Function.update_self ..⟩

/-- Among requests of highest priority, nothing blocks the one of lowest rank. -/
theorem Holds.exists_grant (h : s.Holds n req) (hbusy : req ≠ fun _ => Option.none) :
    ∃ w, s.grant = some w := by
  obtain ⟨rank, hrank⟩ := h.ranked
  let pri (i : Nat) : Int := ((req i).map Entry.pri).getD 0
  let valid : Finset Nat := (Finset.range n).filter fun i => (req i).isSome
  have hvalid {i : Nat} : i ∈ valid ↔ ∃ e, req i = some e := by
    simp only [valid, Finset.mem_filter, Finset.mem_range, Option.isSome_iff_exists]
    exact and_iff_right_of_imp fun ⟨e, he⟩ => h.pending.lt i e he
  have hne : valid.Nonempty := by
    by_contra hempty
    apply hbusy
    funext i
    cases he : req i with
    | none => rfl
    | some e => exact (hempty ⟨i, hvalid.mpr ⟨e, he⟩⟩).elim
  obtain ⟨top, htop, hmax⟩ := valid.exists_max_image pri hne
  have hne' : (valid.filter fun i => pri i = pri top).Nonempty :=
    ⟨top, Finset.mem_filter.mpr ⟨htop, rfl⟩⟩
  obtain ⟨w, hw, hmin⟩ := (valid.filter fun i => pri i = pri top).exists_min_image rank hne'
  obtain ⟨hw, hpri⟩ := Finset.mem_filter.mp hw
  obtain ⟨e, he⟩ := hvalid.mp hw
  have hwn := h.pending.lt w e he
  have hfound : (s.grant).isSome := by
    rw [grant, List.find?_isSome, h.pending.size]
    refine ⟨w, List.mem_range.mpr hwn, ?_⟩
    rw [h.pending.request, he, Option.any_some, List.all_eq_true]
    intro i hi
    rw [Bool.not_eq_true', blocks, h.pending.request]
    cases he' : req i with
    | none => rfl
    | some e' =>
        have hi' : i ∈ valid := hvalid.mpr ⟨e', he'⟩
        have hle : e'.pri ≤ e.pri := by
          have hi'' : pri i ≤ pri w := hpri ▸ hmax i hi'
          simpa [pri, he', he] using hi''
        rw [Option.any_some, Bool.or_eq_false_iff, decide_eq_false_iff_not]
        refine ⟨?_, not_lt.mpr hle⟩
        by_cases heq : e'.pri = e.pri
        · have htie : i ∈ valid.filter fun i => pri i = pri top := by
            rw [Finset.mem_filter, ← hpri]
            exact ⟨hi', by simpa [pri, he', he] using heq⟩
          have hrest := hmin i htie
          rw [hrank i (h.pending.lt i e' he') w hwn]
          simp [not_lt.mpr hrest]
        · simp [heq]
  exact Option.isSome_iff_exists.mp hfound

/-- The arbiter chooses one of its requests. -/
theorem Holds.exists_select (h : s.Holds n req) (hbusy : req ≠ fun _ => Option.none) :
    ∃ w e, (if s.numReqs < 2 then s.lastReq else s.grant) = some w ∧ req w = some e := by
  split
  next =>
    obtain ⟨w, hw⟩ := Option.ne_none_iff_exists'.mp (mt h.none hbusy)
    obtain ⟨e, he⟩ := h.last w hw
    exact ⟨w, e, hw, he⟩
  next =>
    obtain ⟨w, hw⟩ := h.exists_grant hbusy
    have hvalid := List.find?_some hw
    rw [h.pending.request] at hvalid
    cases he : req w with
    | none => simp [he] at hvalid
    | some e => exact ⟨w, e, hw, he⟩

theorem Holds.exists_arbitrate (h : s.Holds n req) : ∃ s' winner, s.arbitrate = some (s', winner) ∧
    s'.Holds n req ∧ s'.selected = winner.map Prod.fst ∧
      (∀ i e, winner = some (i, e) → req i = some e) ∧
      (winner = Option.none → req = fun _ => Option.none) := by
  have hsame (sel : Option Nat) : ({ s with selected := sel } : MatrixArbiter).Holds n req :=
    ⟨⟨h.pending.size, h.pending.request, h.pending.lt, h.pending.idle⟩, h.last, h.none, h.ranked⟩
  unfold arbitrate Arbiter.arbitrate
  by_cases hidle : req = fun _ => Option.none
  · have hzero := h.pending.idle.mpr hidle
    have hlast : s.lastReq = Option.none := by
      cases hlast : s.lastReq with
      | none => rfl
      | some b =>
          obtain ⟨e, he⟩ := h.last b hlast
          rw [hidle] at he
          cases he
    refine ⟨{ s with selected := Option.none }, Option.none, ?_, hsame _, rfl,
      fun _ _ hw => (nomatch hw), fun _ => hidle⟩
    simp [hzero, hlast]
  · obtain ⟨w, e, hselect, he⟩ := h.exists_select hidle
    refine ⟨{ s with selected := some w }, some (w, e), ?_, hsame _, rfl, ?_, fun hw => (nomatch hw)⟩
    · simp only [hselect, h.pending.request, he]
      rfl
    · intro i e' hw
      cases hw
      exact he

/-- Moving what was selected behind all others gives a ranking again. -/
theorem Holds.updateState (h : s.Holds n req) (hlt : ∀ i, s.selected = some i → i < n) :
    s.updateState.Holds n req := by
  unfold MatrixArbiter.updateState
  split
  next w hw =>
    refine ⟨h.pending, h.last, h.none, ?_⟩
    obtain ⟨rank, hrank⟩ := h.ranked
    have hwn := hlt w hw
    let top := (Finset.range n).sup rank
    have hle (i : Nat) (hi : i < n) : rank i ≤ top :=
      Finset.le_sup (f := rank) (Finset.mem_range.mpr hi)
    refine ⟨Function.update rank w (top + 1), ?_⟩
    intro i hi j hj
    dsimp only
    by_cases hiw : i = w
    · by_cases hjw : j = w
      · simp [hiw, hjw, hrank w hwn w hwn]
      · subst hiw
        have hjle := hle j hj
        rw [if_pos ⟨rfl, hjw⟩, Function.update_self, Function.update_of_ne hjw]
        symm
        rw [decide_eq_false_iff_not]
        omega
    · rw [if_neg (fun h => hiw h.1), Function.update_of_ne hiw]
      by_cases hjw : j = w
      · have hile := hle i hi
        rw [if_pos ⟨hjw, hiw⟩, hjw, Function.update_self]
        symm
        rw [decide_eq_true_eq]
        omega
      · rw [if_neg (fun h => hjw h.1), Function.update_of_ne hjw]
        exact hrank i hi j hj
  next => exact h

theorem updateState_toArbiter (s : MatrixArbiter) : s.updateState.toArbiter = s.toArbiter := by
  unfold MatrixArbiter.updateState
  split <;> rfl

theorem Holds.clear (h : s.Holds n req) : s.clear.Holds n fun _ => Option.none where
  pending := h.pending.clear
  last _ hb := nomatch hb
  none _ := rfl
  ranked := h.ranked

theorem holds_new (n : Nat) : (new n).Holds n fun _ => Option.none where
  pending := Arbiter.pending_new n
  last _ hb := nomatch hb
  none _ := rfl
  ranked := by
    refine ⟨fun i => n - i, ?_⟩
    intro i hi j hj
    show decide (j < i) = decide (n - i < n - j)
    rw [decide_eq_decide]
    omega

theorem flatLaw : FlatLaw ops toArbiter Holds where
  numReqs _ := rfl
  lastWinner _ := rfl
  pending h := h.pending
  new h := by
    cases h
    exact ⟨holds_new _, rfl⟩
  addRequest e h := h.exists_addRequest e
  arbitrate h := h.exists_arbitrate
  updateState h hlt := ⟨_, rfl, h.updateState hlt, updateState_toArbiter _⟩
  clear h := ⟨h.clear, rfl⟩

end MatrixArbiter

end Flyover
