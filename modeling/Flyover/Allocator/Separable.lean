import Flyover.Allocator.Base
import Flyover.Allocator.TreeArbiter

/-!
# `SeparableInputFirstAllocator` and `SeparableOutputFirstAllocator`

Every port of one side has an arbiter that chooses one of its requests, and
forwards it to the arbiter of the port on the other side, which chooses among
what has been forwarded. The two allocators differ in the side that begins.
-/

namespace Flyover

open PartialMatching

/-! ### Two stages of arbiters -/

/-- A request as the two arbiters see it. -/
structure StageRequest where
  label : Nat
  firstPri : Int
  secondPri : Int

/-- The arbiters of both sides, and the matching as seen from the side that begins. -/
structure Stages (σ : Type) (m n : Nat) where
  first : Fin m → σ
  second : Fin n → σ
  matching : PartialMatching (Fin m) (Fin n)

namespace Stages

variable {σ : Type} {m n : Nat}

section Operations

variable (ops : ArbiterOps σ) (req : Fin m → Fin n → Option StageRequest)

/-- Add the requests of one port to its arbiter. -/
def fill (i : Fin m) (a : σ) (o : Fin n) : Option σ :=
  match req i o with
  | none => some a
  | some r => ops.addRequest a o.val ⟨r.label, r.firstPri⟩

/-- "Execute the input arbiters and propagate the grants to the output arbiters."
The grant is looked up among the requests of the other side, and has to be there. -/
def ask (st : Stages σ m n) (i : Fin m) : Option (Stages σ m n) := do
  let a ← (List.finRange n).foldlM (fill ops req i) (st.first i)
  let (a, winner) ← ops.arbitrate a
  let (o, e) ← winner
  if h : o < n then do
    let r ← req i ⟨o, h⟩
    if r.label = e.id then do
      let b ← ops.addRequest (st.second ⟨o, h⟩) i.val ⟨r.label, r.secondPri⟩
      return { st with
        first := Function.update st.first i a
        second := Function.update st.second ⟨o, h⟩ b }
    else none
  else none

/-- "Execute the output arbiters." What is chosen has to be free. -/
def settle (st : Stages σ m n) (o : Fin n) : Option (Stages σ m n) := do
  let (b, winner) ← ops.arbitrate (st.second o)
  match winner with
  | none => return { st with second := Function.update st.second o b }
  | some (i, _) =>
      if h : i < m then
        if (st.matching.inmatch ⟨i, h⟩).isNone && (st.matching.outmatch o).isNone then do
          let a ← ops.updateState (st.first ⟨i, h⟩)
          let b ← ops.updateState b
          return {
            first := Function.update st.first ⟨i, h⟩ a
            second := Function.update st.second o b
            matching := st.matching.assign ⟨i, h⟩ o }
        else none
      else none

/-- `Allocate`: the ports with requests, first those of the side that begins. -/
def allocate (st : Stages σ m n) : Option (Stages σ m n) := do
  let st ← ((List.finRange m).filter fun i => (List.finRange n).any fun o => (req i o).isSome).foldlM
    (ask ops req) st
  ((List.finRange n).filter fun o => (List.finRange m).any fun i => (req i o).isSome).foldlM
    (settle ops) st

end Operations

variable {ops : ArbiterOps σ} (law : ArbiterLaw ops) {req : Fin m → Fin n → Option StageRequest}

/-- An arbiter that may be cleared: it is being filled, or has chosen. -/
def Usable (a : σ) (k : Nat) : Prop :=
  (∃ r, law.Filling a k r) ∨ ∃ w, law.Decided a k w

variable {law}

/-- Clearing an arbiter if it has requests leaves one without. -/
theorem Usable.clear {a : σ} {k : Nat} (h : Usable law a k) :
    law.Filling (if ops.numReqs a ≠ 0 then ops.clear a else a) k fun _ => none := by
  by_cases hidle : ops.numReqs a = 0
  · rw [if_neg (not_not.mpr hidle)]
    obtain ⟨r, h⟩ | ⟨w, h⟩ := h
    · exact law.filling_idle h hidle ▸ h
    · exact law.decided_idle h hidle
  · rw [if_pos hidle]
    obtain ⟨r, h⟩ | ⟨w, h⟩ := h
    · exact law.filling_clear h
    · exact law.decided_clear h

/-- The requests of a port can all be added to its arbiter. -/
theorem exists_fill (req : Fin m → Fin n → Option StageRequest) {i : Fin m} {l : List (Fin n)}
    (hnodup : l.Nodup) {a : σ} {r : Nat → Option Entry} (h : law.Filling a n r)
    (hfree : ∀ o ∈ l, r o.val = none) :
    ∃ a' r', l.foldlM (fill ops req i) a = some a' ∧ law.Filling a' n r' ∧
      (∀ j e, r' j = some e → r j = some e ∨
        ∃ o rq, o.val = j ∧ req i o = some rq ∧ rq.label = e.id) ∧
      (∀ j, r j ≠ none → r' j ≠ none) ∧
      ∀ o ∈ l, (req i o).isSome → r' o.val ≠ none := by
  induction l generalizing a r with
  | nil => exact ⟨a, r, rfl, h, fun _ _ => .inl, fun _ => id, fun o ho => (nomatch ho)⟩
  | cons o rest ih =>
      obtain ⟨ho, hrest⟩ := List.nodup_cons.mp hnodup
      rw [List.foldlM_cons]
      cases hreq : req i o with
      | none =>
          obtain ⟨a', r', ha', hfilling, hsource, hkeep, hall⟩ :=
            ih hrest h fun o' ho' => hfree o' (List.mem_cons_of_mem o ho')
          refine ⟨a', r', ?_, hfilling, hsource, hkeep, ?_⟩
          · simp [fill, hreq, ha']
          · intro o' ho' hsome
            obtain rfl | ho' := List.mem_cons.mp ho'
            · rw [hreq] at hsome
              cases hsome
            · exact hall o' ho' hsome
      | some rq =>
          obtain ⟨a₁, ha₁, hfilling₁⟩ := law.filling_addRequest ⟨rq.label, rq.firstPri⟩ h o.isLt
            (hfree o List.mem_cons_self)
          have hfree₁ : ∀ o' ∈ rest,
              Function.update r o.val (some ⟨rq.label, rq.firstPri⟩) o'.val = none := by
            intro o' ho'
            rw [Function.update_of_ne]
            · exact hfree o' (List.mem_cons_of_mem o ho')
            · intro heq
              exact ho (Fin.ext heq ▸ ho')
          obtain ⟨a', r', ha', hfilling, hsource, hkeep, hall⟩ := ih hrest hfilling₁ hfree₁
          have hhere : r' o.val ≠ none := by
            apply hkeep
            rw [Function.update_self]
            exact Option.some_ne_none _
          refine ⟨a', r', ?_, hfilling, ?_, ?_, ?_⟩
          · simp [fill, hreq, ha₁, ha']
          · intro j e hj
            obtain hj | hj := hsource j e hj
            · by_cases hjo : j = o.val
              · subst hjo
                rw [Function.update_self] at hj
                cases hj
                exact .inr ⟨o, rq, rfl, hreq, rfl⟩
              · rw [Function.update_of_ne hjo] at hj
                exact .inl hj
            · exact .inr hj
          · intro j hj
            by_cases hjo : j = o.val
            · exact hjo ▸ hhere
            · apply hkeep
              rwa [Function.update_of_ne hjo]
          · intro o' ho' hsome
            obtain rfl | ho' := List.mem_cons.mp ho'
            · exact hhere
            · exact hall o' ho' hsome

/-! ### The first stage -/

/-- What has been forwarded: the ports that have been asked have chosen, the
others have not been touched, and the second arbiters have what was forwarded. -/
structure Asked (law : ArbiterLaw ops) (req : Fin m → Fin n → Option StageRequest)
    (st : Stages σ m n) (forward : Fin m → Option (Fin n)) : Prop where
  requested : ∀ i o, forward i = some o → (req i o).isSome
  decided : ∀ i, forward i ≠ none → ∃ w, law.Decided (st.first i) n w
  idle : ∀ i, forward i = none → law.Filling (st.first i) n fun _ => none
  second : ∀ o, ∃ r, law.Filling (st.second o) m r ∧
    ∀ i : Fin m, r i.val ≠ none ↔ forward i = some o

variable {st : Stages σ m n} {forward : Fin m → Option (Fin n)}

theorem Asked.exists_ask (h : Asked law req st forward) {i : Fin m} (hfresh : forward i = none)
    (hsome : ∃ o, (req i o).isSome) :
    ∃ st' o, ask ops req st i = some st' ∧ st'.matching = st.matching ∧
      Asked law req st' (Function.update forward i (some o)) := by
  obtain ⟨a, r, ha, hfilling, hsource, -, hall⟩ :=
    exists_fill req (i := i) (List.nodup_finRange n) (h.idle i hfresh) fun _ _ => rfl
  obtain ⟨a', winner, ha', hdecided, hwinner, hnone⟩ := law.decided_arbitrate hfilling
  cases winner with
  | none =>
      obtain ⟨o, ho⟩ := hsome
      exact absurd (hnone rfl o.val) (hall o (List.mem_finRange o) ho)
  | some w =>
      obtain ⟨j, e⟩ := w
      have hj := hwinner j e rfl
      obtain hj | ⟨o, rq, hval, hrq, hlabel⟩ := hsource j e hj
      · cases hj
      · subst hval
        obtain ⟨r₂, hfilling₂, hforward⟩ := h.second o
        have hr₂ : r₂ i.val = none := by
          by_contra hne
          rw [← ne_eq, hforward i, hfresh] at hne
          cases hne
        obtain ⟨b, hb, hfilling₂'⟩ := law.filling_addRequest ⟨rq.label, rq.secondPri⟩ hfilling₂ i.isLt hr₂
        unfold ask
        simp only [ha, Option.bind_eq_bind, Option.bind_some, ha', Fin.eta, hrq, hb]
        rw [dif_pos o.isLt, if_pos hlabel]
        refine ⟨_, o, rfl, rfl, ?_, ?_, ?_, ?_⟩
        · intro i' o' hi'
          by_cases hii : i' = i
          · subst hii
            rw [Function.update_self] at hi'
            cases hi'
            rw [hrq]
            rfl
          · rw [Function.update_of_ne hii] at hi'
            exact h.requested i' o' hi'
        · intro i' hi'
          dsimp only
          by_cases hii : i' = i
          · subst hii
            rw [Function.update_self]
            exact ⟨_, hdecided⟩
          · rw [Function.update_of_ne hii] at hi' ⊢
            exact h.decided i' hi'
        · intro i' hi'
          dsimp only
          by_cases hii : i' = i
          · subst hii
            rw [Function.update_self] at hi'
            cases hi'
          · rw [Function.update_of_ne hii] at hi' ⊢
            exact h.idle i' hi'
        · intro o'
          dsimp only
          by_cases hoo : o' = o
          · subst hoo
            rw [Function.update_self]
            refine ⟨_, hfilling₂', ?_⟩
            intro i'
            by_cases hii : i' = i
            · subst hii
              rw [Function.update_self, Function.update_self]
              exact iff_of_true (Option.some_ne_none _) rfl
            · rw [Function.update_of_ne hii, Function.update_of_ne fun heq => hii (Fin.ext heq)]
              exact hforward i'
          · rw [Function.update_of_ne hoo]
            obtain ⟨r', hr', hforward'⟩ := h.second o'
            refine ⟨r', hr', ?_⟩
            intro i'
            by_cases hii : i' = i
            · subst hii
              rw [Function.update_self, hforward' i', hfresh]
              exact iff_of_false (fun heq => nomatch heq) fun heq => hoo (Option.some.inj heq).symm
            · rw [Function.update_of_ne hii]
              exact hforward' i'

theorem exists_askAll {l : List (Fin m)} (hnodup : l.Nodup) (h : Asked law req st forward)
    (hfresh : ∀ i ∈ l, forward i = none) (hsome : ∀ i ∈ l, ∃ o, (req i o).isSome) :
    ∃ st' forward', l.foldlM (ask ops req) st = some st' ∧ st'.matching = st.matching ∧
      Asked law req st' forward' := by
  induction l generalizing st forward with
  | nil => exact ⟨st, forward, rfl, rfl, h⟩
  | cons i rest ih =>
      obtain ⟨hi, hrest⟩ := List.nodup_cons.mp hnodup
      obtain ⟨st₁, o, hst₁, hmatching₁, hasked₁⟩ :=
        h.exists_ask (hfresh i List.mem_cons_self) (hsome i List.mem_cons_self)
      have hfresh₁ : ∀ i' ∈ rest, Function.update forward i (some o) i' = none := by
        intro i' hi'
        rw [Function.update_of_ne]
        · exact hfresh i' (List.mem_cons_of_mem i hi')
        · intro heq
          exact hi (heq ▸ hi')
      obtain ⟨st', forward', hst', hmatching', hasked'⟩ :=
        ih hrest hasked₁ hfresh₁ fun i' hi' => hsome i' (List.mem_cons_of_mem i hi')
      refine ⟨st', forward', ?_, hmatching'.trans hmatching₁, hasked'⟩
      simp [List.foldlM_cons, hst₁, hst']

/-! ### The second stage -/

/-- The second arbiters still to be executed have what was forwarded to them, and
the pairs that they can choose are free. -/
structure Settling (law : ArbiterLaw ops) (forward : Fin m → Option (Fin n)) (l : List (Fin n))
    (st : Stages σ m n) : Prop where
  first : ∀ i, Usable law (st.first i) n
  second : ∀ o, Usable law (st.second o) m
  decided : ∀ i, forward i ≠ none → ∃ w, law.Decided (st.first i) n w
  forwarded : ∀ o ∈ l, ∃ r, law.Filling (st.second o) m r ∧
    ∀ i : Fin m, r i.val ≠ none → forward i = some o
  free : ∀ o ∈ l, ∀ i, forward i = some o → st.matching.Free i o

theorem Asked.settling (h : Asked law req st forward) (hempty : st.matching = .empty)
    (l : List (Fin n)) : Settling law forward l st where
  first i := by
    cases hi : forward i with
    | none => exact .inl ⟨_, h.idle i hi⟩
    | some o =>
        right
        apply h.decided i
        rw [hi]
        exact Option.some_ne_none o
  second o := by
    obtain ⟨r, hr, -⟩ := h.second o
    exact .inl ⟨r, hr⟩
  decided := h.decided
  forwarded o _ := by
    obtain ⟨r, hr, hforward⟩ := h.second o
    exact ⟨r, hr, fun i => (hforward i).mp⟩
  free o _ i _ := by
    rw [hempty]
    exact free_empty

theorem Settling.exists_settle {o : Fin n} {rest : List (Fin n)} (ho : o ∉ rest)
    (h : Settling law forward (o :: rest) st) :
    ∃ st', settle ops st o = some st' ∧ Settling law forward rest st' ∧
      (st'.matching = st.matching ∨
        ∃ i, forward i = some o ∧ st'.matching = st.matching.assign i o) := by
  have hne {o' : Fin n} (ho' : o' ∈ rest) : o' ≠ o := fun heq => ho (heq ▸ ho')
  obtain ⟨r, hfilling, hforward⟩ := h.forwarded o List.mem_cons_self
  obtain ⟨b, winner, hb, hdecided, hwinner, -⟩ := law.decided_arbitrate hfilling
  have hsecond {b' : σ} (hb' : Usable law b' m) (o' : Fin n) :
      Usable law (Function.update st.second o b' o') m := by
    by_cases hoo : o' = o
    · rw [hoo, Function.update_self]
      exact hb'
    · rw [Function.update_of_ne hoo]
      exact h.second o'
  have hforwarded {b' : σ} (o' : Fin n) (ho' : o' ∈ rest) :
      ∃ r, law.Filling (Function.update st.second o b' o') m r ∧
        ∀ i : Fin m, r i.val ≠ none → forward i = some o' := by
    rw [Function.update_of_ne (hne ho')]
    exact h.forwarded o' (List.mem_cons_of_mem o ho')
  unfold settle
  rw [hb]
  cases winner with
  | none =>
      refine ⟨_, rfl, ⟨h.first, hsecond (.inr ⟨_, hdecided⟩), h.decided, hforwarded, ?_⟩, .inl rfl⟩
      exact fun o' ho' => h.free o' (List.mem_cons_of_mem o ho')
  | some w =>
      obtain ⟨j, e⟩ := w
      have hj := hwinner j e rfl
      have hjm := law.filling_lt hfilling hj
      have hi : forward ⟨j, hjm⟩ = some o := by
        apply hforward ⟨j, hjm⟩
        rw [hj]
        exact Option.some_ne_none e
      have hfree := h.free o List.mem_cons_self ⟨j, hjm⟩ hi
      obtain ⟨w, hfirst⟩ := h.decided ⟨j, hjm⟩ (by rw [hi]; exact Option.some_ne_none o)
      obtain ⟨a, ha, hdecided₁⟩ := law.decided_updateState hfirst
      obtain ⟨b', hb', hdecided₂⟩ := law.decided_updateState hdecided
      have htest : ((st.matching.inmatch ⟨j, hjm⟩).isNone && (st.matching.outmatch o).isNone) = true := by
        rw [hfree.1, hfree.2]
        rfl
      simp only [Option.bind_eq_bind, Option.bind_some]
      rw [dif_pos hjm, if_pos htest, ha]
      simp only [Option.bind_some, hb']
      refine ⟨_, rfl, ⟨?_, hsecond (.inr ⟨_, hdecided₂⟩), ?_, hforwarded, ?_⟩,
        .inr ⟨⟨j, hjm⟩, hi, rfl⟩⟩
      · intro i'
        dsimp only
        by_cases hii : i' = ⟨j, hjm⟩
        · rw [hii, Function.update_self]
          exact .inr ⟨_, hdecided₁⟩
        · rw [Function.update_of_ne hii]
          exact h.first i'
      · intro i' hi'
        dsimp only
        by_cases hii : i' = ⟨j, hjm⟩
        · rw [hii, Function.update_self]
          exact ⟨_, hdecided₁⟩
        · rw [Function.update_of_ne hii]
          exact h.decided i' hi'
      · intro o' ho' i' hi'
        apply (h.free o' (List.mem_cons_of_mem o ho') i' hi').assign
        · intro hii
          rw [hii, hi] at hi'
          exact hne ho' (Option.some.inj hi').symm
        · exact hne ho'

/-- The pairs that may be matched. -/
def Has (req : Fin m → Fin n → Option StageRequest) (i : Fin m) (o : Fin n) : Prop :=
  (req i o).isSome = true

theorem Settling.exists_settleAll {l : List (Fin n)} (hnodup : l.Nodup)
    (h : Settling law forward l st) (hreq : ∀ i o, forward i = some o → Has req i o) :
    ∃ st', l.foldlM (settle ops) st = some st' ∧ Settling law forward [] st' ∧
      Extends (Has req) st.matching st'.matching := by
  induction l generalizing st with
  | nil => exact ⟨st, rfl, h, .refl⟩
  | cons o rest ih =>
      obtain ⟨ho, hrest⟩ := List.nodup_cons.mp hnodup
      obtain ⟨st₁, hst₁, hsettling₁, hmatching₁⟩ := h.exists_settle ho
      obtain ⟨st', hst', hsettling', hextends⟩ := ih hrest hsettling₁
      refine ⟨st', ?_, hsettling', ?_⟩
      · simp [List.foldlM_cons, hst₁, hst']
      · apply Extends.trans _ hextends
        obtain hsame | ⟨i, hi, hassign⟩ := hmatching₁
        · rw [hsame]
          exact .refl
        · rw [hassign]
          exact Extends.refl.assign (h.free o List.mem_cons_self i hi) (hreq i o hi)

/-- With cleared arbiters and an empty matching, the two stages run through,
enter free requested pairs, and leave arbiters that may be cleared. -/
theorem exists_allocate (req : Fin m → Fin n → Option StageRequest) (st : Stages σ m n)
    (hfirst : ∀ i, law.Filling (st.first i) n fun _ => none)
    (hsecond : ∀ o, law.Filling (st.second o) m fun _ => none) (hempty : st.matching = .empty) :
    ∃ st', allocate ops req st = some st' ∧ Extends (Has req) st.matching st'.matching ∧
      (∀ i, Usable law (st'.first i) n) ∧ ∀ o, Usable law (st'.second o) m := by
  have hstart : Asked law req st fun _ => none :=
    ⟨fun _ _ h => (nomatch h), fun _ h => (h rfl).elim, fun i _ => hfirst i,
      fun o => ⟨_, hsecond o, fun _ => iff_of_false (fun h => h rfl) fun h => nomatch h⟩⟩
  obtain ⟨st₁, forward, hst₁, hmatching₁, hasked⟩ :=
    exists_askAll ((List.nodup_finRange m).filter _) hstart (fun _ _ => rfl) (by
      intro i hi
      obtain ⟨o, -, ho⟩ := List.any_eq_true.mp (List.mem_filter.mp hi).2
      exact ⟨o, ho⟩)
  have hempty₁ : st₁.matching = .empty := hmatching₁.trans hempty
  obtain ⟨st', hst', hsettling, hextends⟩ :=
    (hasked.settling hempty₁ ((List.finRange n).filter fun o =>
      (List.finRange m).any fun i => (req i o).isSome)).exists_settleAll
      ((List.nodup_finRange n).filter _) hasked.requested
  refine ⟨st', ?_, hmatching₁ ▸ hextends, hsettling.first, hsettling.second⟩
  unfold allocate
  rw [hst₁]
  exact hst'

end Stages

/-! ### The two allocators -/

variable {inputs outputs : Nat}

/-- `SeparableAllocator` -/
structure SeparableAllocator (σ : Type) (inputs outputs : Nat) extends Allocator inputs outputs where
  inputArb : Fin inputs → σ
  outputArb : Fin outputs → σ

namespace SeparableAllocator

variable {σ : Type} {ops : ArbiterOps σ}

/-- The constructor makes an arbiter for each port. -/
def new (ops : ArbiterOps σ) : Option (SeparableAllocator σ inputs outputs) := do
  let inputArb ← ops.new outputs
  let outputArb ← ops.new inputs
  return { inputArb := fun _ => inputArb, outputArb := fun _ => outputArb }

/-- `Clear` -/
def clear (ops : ArbiterOps σ) (s : SeparableAllocator σ inputs outputs) :
    SeparableAllocator σ inputs outputs where
  toAllocator := s.toAllocator.clear
  inputArb i := if ops.numReqs (s.inputArb i) ≠ 0 then ops.clear (s.inputArb i) else s.inputArb i
  outputArb o :=
    if ops.numReqs (s.outputArb o) ≠ 0 then ops.clear (s.outputArb o) else s.outputArb o

/-- `SeparableInputFirstAllocator::Allocate` -/
def allocateInputFirst (ops : ArbiterOps σ) (s : SeparableAllocator σ inputs outputs) :
    Option (SeparableAllocator σ inputs outputs) := do
  let st ← Stages.allocate ops
    (fun i o => (s.request i o).map fun r => ⟨r.label, r.inPri, r.outPri⟩)
    ⟨s.inputArb, s.outputArb, s.matching⟩
  return { s with
    matching := st.matching
    inputArb := st.first
    outputArb := st.second }

/-- `SeparableOutputFirstAllocator::Allocate` -/
def allocateOutputFirst (ops : ArbiterOps σ) (s : SeparableAllocator σ inputs outputs) :
    Option (SeparableAllocator σ inputs outputs) := do
  let st ← Stages.allocate ops
    (fun o i => (s.request i o).map fun r => ⟨r.label, r.outPri, r.inPri⟩)
    ⟨s.outputArb, s.inputArb, s.matching.swap⟩
  return { s with
    matching := st.matching.swap
    inputArb := st.second
    outputArb := st.first }

/-- The arbiters may be cleared. -/
structure Idle (law : ArbiterLaw ops) (s : SeparableAllocator σ inputs outputs) : Prop where
  inputArb : ∀ i, Stages.Usable law (s.inputArb i) outputs
  outputArb : ∀ o, Stages.Usable law (s.outputArb o) inputs

/-- The arbiters have been cleared. -/
structure Cleared (law : ArbiterLaw ops) (s : SeparableAllocator σ inputs outputs) : Prop where
  inputArb : ∀ i, law.Filling (s.inputArb i) outputs fun _ => none
  outputArb : ∀ o, law.Filling (s.outputArb o) inputs fun _ => none

variable {law : ArbiterLaw ops} {s s' : SeparableAllocator σ inputs outputs}

theorem idle_new (law : ArbiterLaw ops) (h : new ops = some s) : s.Idle law := by
  obtain ⟨a, ha, h⟩ := Option.bind_eq_some_iff.mp h
  obtain ⟨b, hb, h⟩ := Option.bind_eq_some_iff.mp h
  cases h
  exact ⟨fun _ => .inl ⟨_, law.filling_new ha⟩, fun _ => .inl ⟨_, law.filling_new hb⟩⟩

theorem Idle.clear (h : s.Idle law) : (s.clear ops).Cleared law where
  inputArb i := (h.inputArb i).clear
  outputArb o := (h.outputArb o).clear

theorem exists_allocateInputFirst (hcleared : s.Cleared law) (hready : s.toAllocator.Ready) :
    ∃ s', s.allocateInputFirst ops = some s' ∧ s'.request = s.request ∧ s'.dirty = s.dirty ∧
      Extends s.request.Has s.matching s'.matching ∧ s'.Idle law := by
  obtain ⟨st, hst, hextends, hfirst, hsecond⟩ := Stages.exists_allocate
    (fun i o => (s.request i o).map fun r => ⟨r.label, r.inPri, r.outPri⟩)
    ⟨s.inputArb, s.outputArb, s.matching⟩ hcleared.inputArb hcleared.outputArb hready.matching
  unfold allocateInputFirst
  rw [hst]
  refine ⟨_, rfl, rfl, rfl, hextends.mono ?_, hfirst, hsecond⟩
  intro i o h
  simpa [Stages.Has, Requests.Has] using h

theorem exists_allocateOutputFirst (hcleared : s.Cleared law) (hready : s.toAllocator.Ready) :
    ∃ s', s.allocateOutputFirst ops = some s' ∧ s'.request = s.request ∧ s'.dirty = s.dirty ∧
      Extends s.request.Has s.matching s'.matching ∧ s'.Idle law := by
  have hempty : s.matching.swap = .empty := by
    rw [hready.matching]
    rfl
  obtain ⟨st, hst, hextends, hfirst, hsecond⟩ := Stages.exists_allocate
    (fun o i => (s.request i o).map fun r => ⟨r.label, r.outPri, r.inPri⟩)
    ⟨s.outputArb, s.inputArb, s.matching.swap⟩ hcleared.outputArb hcleared.inputArb hempty
  unfold allocateOutputFirst
  rw [hst]
  refine ⟨_, rfl, rfl, rfl, hextends.swap.mono ?_, hsecond, hfirst⟩
  intro i o h
  simpa [Stages.Has, Requests.Has] using h

end SeparableAllocator

end Flyover
