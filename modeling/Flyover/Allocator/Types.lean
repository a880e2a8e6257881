import Flyover.Allocator.MaxSize
import Flyover.Allocator.Select
import Flyover.Allocator.Separable
import Flyover.Allocator.Wavefront

/-!
# All allocators

`NewAllocator` makes one of eight allocators. They are used in rounds: `Clear`,
the requests, `Allocate`. What an allocator remembers from one round to the next
are its pointers, the state of its arbiters, and a priority diagonal.
-/

namespace Flyover

open PartialMatching

/-- The values of `alloc_type`, with their parameters. -/
inductive AllocType where
  | maxSize
  | pim (iters : Nat)
  | islip (iters : Nat)
  | loa
  | wavefront (skipDiags : Bool)
  | select (iters : Nat)
  | separableInputFirst (arbType : ArbType)
  | separableOutputFirst (arbType : ArbType)

/-- An allocator of one of the types. -/
inductive AnyAllocator (inputs outputs : Nat) where
  | maxSize (s : MaxSizeMatch inputs outputs)
  | pim (s : PIM inputs outputs)
  | islip (s : ISLIP inputs outputs)
  | loa (s : LOA inputs outputs)
  | wavefront (s : Wavefront inputs outputs)
  | select (s : SelAlloc inputs outputs)
  | separableInputFirst (arbType : ArbType) (s : SeparableAllocator arbType.State inputs outputs)
  | separableOutputFirst (arbType : ArbType) (s : SeparableAllocator arbType.State inputs outputs)

variable {inputs outputs : Nat}

namespace AnyAllocator

/-- The match arrays and the requests. -/
def base : AnyAllocator inputs outputs → Allocator inputs outputs
  | maxSize s => s.toAllocator
  | pim s => s.toAllocator
  | islip s => s.toAllocator
  | loa s => s.toAllocator
  | wavefront s => s.toAllocator
  | select s => s.toAllocator
  | separableInputFirst _ s => s.toAllocator
  | separableOutputFirst _ s => s.toAllocator

/-- `Clear`; only the separable allocators do more than all do. -/
def clear : AnyAllocator inputs outputs → AnyAllocator inputs outputs
  | maxSize s => maxSize { s with toAllocator := s.toAllocator.clear }
  | pim s => pim { s with toAllocator := s.toAllocator.clear }
  | islip s => islip { s with toAllocator := s.toAllocator.clear }
  | loa s => loa { s with toAllocator := s.toAllocator.clear }
  | wavefront s => wavefront { s with toAllocator := s.toAllocator.clear }
  | select s => select { s with toAllocator := s.toAllocator.clear }
  | separableInputFirst arbType s => separableInputFirst arbType (s.clear arbType.ops)
  | separableOutputFirst arbType s => separableOutputFirst arbType (s.clear arbType.ops)

/-- `AddRequest`; only the wavefront allocator does more than all do. -/
def addRequest (i : Fin inputs) (o : Fin outputs) (r : Request) :
    AnyAllocator inputs outputs → Option (AnyAllocator inputs outputs)
  | maxSize s => (s.toAllocator.addRequest i o r).map fun a => maxSize { s with toAllocator := a }
  | pim s => (s.toAllocator.addRequest i o r).map fun a => pim { s with toAllocator := a }
  | islip s => (s.toAllocator.addRequest i o r).map fun a => islip { s with toAllocator := a }
  | loa s => (s.toAllocator.addRequest i o r).map fun a => loa { s with toAllocator := a }
  | wavefront s => (s.addRequest i o r).map wavefront
  | select s => (s.toAllocator.addRequest i o r).map fun a => select { s with toAllocator := a }
  | separableInputFirst arbType s =>
      (s.toAllocator.addRequest i o r).map fun a =>
        separableInputFirst arbType { s with toAllocator := a }
  | separableOutputFirst arbType s =>
      (s.toAllocator.addRequest i o r).map fun a =>
        separableOutputFirst arbType { s with toAllocator := a }

/-- A number of requests. -/
def addRequests (requests : List (Fin inputs × Fin outputs × Request))
    (a : AnyAllocator inputs outputs) : Option (AnyAllocator inputs outputs) :=
  requests.foldlM (fun a r => a.addRequest r.1 r.2.1 r.2.2) a

variable [NeZero inputs] [NeZero outputs]

/-- `NewAllocator`; `_from` is made of zeros. -/
def new : AllocType → Option (AnyAllocator inputs outputs)
  | .maxSize => some (maxSize { trail := fun _ => some 0, prio := 0 })
  | .pim iters => some (pim { iter := iters })
  | .islip iters => some (islip { iter := iters, gptrs := fun _ => 0, aptrs := fun _ => 0 })
  | .loa => some (loa { rptr := fun _ => 0, gptr := fun _ => 0 })
  | .wavefront skipDiags =>
      some (wavefront
        { last := none, skipDiags := skipDiags, pri := 0, numRequests := 0, priorities := [] })
  | .select iters =>
      some (select
        { iter := iters, gptrs := fun _ => 0, aptrs := fun _ => 0, outmask := fun _ => 0 })
  | .separableInputFirst arbType =>
      (SeparableAllocator.new arbType.ops).map (separableInputFirst arbType)
  | .separableOutputFirst arbType =>
      (SeparableAllocator.new arbType.ops).map (separableOutputFirst arbType)

/-- `Allocate`, with the random numbers that `PIM` draws. -/
def allocate (draws : Nat → Draw inputs outputs) :
    AnyAllocator inputs outputs → Option (AnyAllocator inputs outputs)
  | maxSize s => s.allocate.map maxSize
  | pim s => some (pim (s.allocate draws))
  | islip s => some (islip s.allocate)
  | loa s => some (loa s.allocate)
  | wavefront s => s.allocate.map wavefront
  | select s => some (select s.allocate)
  | separableInputFirst arbType s =>
      (s.allocateInputFirst arbType.ops).map (separableInputFirst arbType)
  | separableOutputFirst arbType s =>
      (s.allocateOutputFirst arbType.ops).map (separableOutputFirst arbType)

/-- The allocators after any history of rounds, and of calls of `MaskOutput`. -/
inductive Reached : AnyAllocator inputs outputs → Prop
  | new (type : AllocType) {a : AnyAllocator inputs outputs} (h : new type = some a) : Reached a
  | round {a a' a'' : AnyAllocator inputs outputs} (h : Reached a)
      (requests : List (Fin inputs × Fin outputs × Request)) (draws : Nat → Draw inputs outputs)
      (hrequests : a.clear.addRequests requests = some a') (hallocate : a'.allocate draws = some a'') :
      Reached a''
  | maskOutput {s : SelAlloc inputs outputs} (h : Reached (select s)) (out : Fin outputs)
      (mask : Int) : Reached (select { s with outmask := Function.update s.outmask out mask })

/-! ### Between the rounds -/

/-- What holds between two rounds: nothing is matched without a request, the
wavefront allocator counts no requests, and the arbiters may be cleared. -/
def Between (a : AnyAllocator inputs outputs) : Prop :=
  a.base.Tidy ∧
    match a with
    | wavefront s => s.numRequests = 0
    | separableInputFirst arbType s => s.Idle arbType.law
    | separableOutputFirst arbType s => s.Idle arbType.law
    | _ => True

/-- What holds while requests are added: nothing is matched yet, the wavefront
allocator knows the requests, and the arbiters have been cleared. -/
def Filling (a : AnyAllocator inputs outputs) : Prop :=
  a.base.Ready ∧
    match a with
    | wavefront s => s.Counts
    | separableInputFirst arbType s => s.Cleared arbType.law
    | separableOutputFirst arbType s => s.Cleared arbType.law
    | _ => True

variable {a a' : AnyAllocator inputs outputs}

omit [NeZero inputs] [NeZero outputs] in
theorem base_clear (a : AnyAllocator inputs outputs) : a.clear.base = a.base.clear := by
  cases a <;> rfl

omit [NeZero inputs] [NeZero outputs] in
theorem Between.clear (h : a.Between) : a.clear.Filling := by
  obtain ⟨htidy, hown⟩ := h
  refine ⟨base_clear a ▸ htidy.ready_clear, ?_⟩
  cases a with
  | wavefront s =>
      have hnone : ∀ i o, ¬ s.toAllocator.clear.request.Has i o := htidy.ready_clear.requests rfl
      refine ⟨fun _ => hnone, fun hsome => absurd hown hsome, ?_⟩
      intro i o r hr
      cases hr
  | separableInputFirst arbType s => exact hown.clear
  | separableOutputFirst arbType s => exact hown.clear
  | _ => trivial

omit [NeZero inputs] [NeZero outputs] in
theorem Filling.addRequest (h : a.Filling) {i : Fin inputs} {o : Fin outputs} {r : Request}
    (hadd : a.addRequest i o r = some a') : a'.Filling := by
  obtain ⟨hready, hown⟩ := h
  cases a with
  | wavefront s =>
      obtain ⟨s', hs', rfl⟩ := Option.map_eq_some_iff.mp hadd
      refine ⟨?_, hown.addRequest hs'⟩
      obtain ⟨b, hb, hs'⟩ := Option.bind_eq_some_iff.mp hs'
      cases hs'
      exact hready.addRequest hb
  | _ =>
      obtain ⟨b, hb, rfl⟩ := Option.map_eq_some_iff.mp hadd
      exact ⟨hready.addRequest hb, by first | trivial | exact ⟨hown.1, hown.2⟩⟩

omit [NeZero inputs] [NeZero outputs] in
theorem Filling.addRequests (h : a.Filling) {requests : List (Fin inputs × Fin outputs × Request)}
    (hadd : a.addRequests requests = some a') : a'.Filling := by
  induction requests generalizing a with
  | nil =>
      cases hadd
      exact h
  | cons r rest ih =>
      obtain ⟨b, hb, hrest⟩ := Option.bind_eq_some_iff.mp hadd
      exact ih (h.addRequest hb) hrest

/-! ### One allocation -/

/-- The kinds that return a matching in any case: all but `SelAlloc`. -/
def Reliable : AnyAllocator inputs outputs → Prop
  | select _ => False
  | _ => True

/-- An allocation returns a matching of requested pairs. -/
theorem Filling.exists_allocate (h : a.Filling) (hreliable : a.Reliable)
    (draws : Nat → Draw inputs outputs) :
    ∃ a', a.allocate draws = some a' ∧ a'.base.ReturnsMatching ∧ a'.Between := by
  obtain ⟨hready, hown⟩ := h
  cases a with
  | maxSize s =>
      obtain ⟨s', hs', hrequest, hdirty, hsound⟩ := MaxSizeMatch.exists_allocate hready
      refine ⟨maxSize s', ?_, hsound, hready.tidy hrequest hdirty hsound, trivial⟩
      rw [allocate, hs', Option.map_some]
  | pim s =>
      have hmatching : (s.allocate draws).toAllocator.ReturnsMatching :=
        hready.returnsMatching rfl (s.allocate_extends draws)
      exact ⟨_, rfl, hmatching, hready.tidy rfl rfl hmatching, trivial⟩
  | islip s =>
      have hmatching : s.allocate.toAllocator.ReturnsMatching :=
        hready.returnsMatching rfl s.allocate_extends
      exact ⟨_, rfl, hmatching, hready.tidy rfl rfl hmatching, trivial⟩
  | loa s =>
      obtain ⟨hrequest, hdirty⟩ := s.allocate_request
      have hmatching : s.allocate.toAllocator.ReturnsMatching :=
        hready.returnsMatching hrequest (LOA.allocate_extends hready.matching)
      exact ⟨_, rfl, hmatching, hready.tidy hrequest hdirty hmatching, trivial⟩
  | wavefront s =>
      obtain ⟨s', hs', hrequest, hdirty, hextends, hidle⟩ := Wavefront.exists_allocate hown hready
      have hmatching : s'.toAllocator.ReturnsMatching := hready.returnsMatching hrequest hextends
      refine ⟨wavefront s', ?_, hmatching, hready.tidy hrequest hdirty hmatching, hidle⟩
      rw [allocate, hs', Option.map_some]
  | select s => exact hreliable.elim
  | separableInputFirst arbType s =>
      obtain ⟨s', hs', hrequest, hdirty, hextends, hidle⟩ :=
        SeparableAllocator.exists_allocateInputFirst hown hready
      have hmatching : s'.toAllocator.ReturnsMatching := hready.returnsMatching hrequest hextends
      refine ⟨separableInputFirst arbType s', ?_, hmatching,
        hready.tidy hrequest hdirty hmatching, hidle⟩
      rw [allocate, hs', Option.map_some]
  | separableOutputFirst arbType s =>
      obtain ⟨s', hs', hrequest, hdirty, hextends, hidle⟩ :=
        SeparableAllocator.exists_allocateOutputFirst hown hready
      have hmatching : s'.toAllocator.ReturnsMatching := hready.returnsMatching hrequest hextends
      refine ⟨separableOutputFirst arbType s', ?_, hmatching,
        hready.tidy hrequest hdirty hmatching, hidle⟩
      rw [allocate, hs', Option.map_some]

theorem Filling.between_allocate (h : a.Filling) {draws : Nat → Draw inputs outputs}
    (hallocate : a.allocate draws = some a') : a'.Between := by
  by_cases hreliable : a.Reliable
  · obtain ⟨a'', ha'', -, hbetween⟩ := h.exists_allocate hreliable draws
    rw [hallocate] at ha''
    cases ha''
    exact hbetween
  · cases a with
    | select s =>
        cases hallocate
        exact ⟨SelAlloc.allocate_tidy h.1, trivial⟩
    | _ => exact absurd trivial hreliable

theorem between_new {type : AllocType} (h : new type = some a) : a.Between := by
  cases type with
  | separableInputFirst arbType =>
      obtain ⟨s, hs, rfl⟩ := Option.map_eq_some_iff.mp h
      refine ⟨?_, SeparableAllocator.idle_new arbType.law hs⟩
      obtain ⟨x, -, hs⟩ := Option.bind_eq_some_iff.mp hs
      obtain ⟨y, -, hs⟩ := Option.bind_eq_some_iff.mp hs
      cases hs
      exact Allocator.tidy_new
  | separableOutputFirst arbType =>
      obtain ⟨s, hs, rfl⟩ := Option.map_eq_some_iff.mp h
      refine ⟨?_, SeparableAllocator.idle_new arbType.law hs⟩
      obtain ⟨x, -, hs⟩ := Option.bind_eq_some_iff.mp hs
      obtain ⟨y, -, hs⟩ := Option.bind_eq_some_iff.mp hs
      cases hs
      exact Allocator.tidy_new
  | _ =>
      cases h
      exact ⟨Allocator.tidy_new, by trivial⟩

theorem Reached.between (h : Reached a) : a.Between := by
  induction h with
  | new type h => exact between_new h
  | round _ requests draws hrequests hallocate ih =>
      exact (ih.clear.addRequests hrequests).between_allocate hallocate
  | maskOutput _ out mask ih => exact ⟨⟨ih.1.requests, ih.1.matching⟩, trivial⟩

/-- After an allocation the match arrays are inverse to each other and have
only requested pairs. -/
def AllocatesMatching (a : AnyAllocator inputs outputs) (draws : Nat → Draw inputs outputs) : Prop :=
  ∃ a', a.allocate draws = some a' ∧ a'.base.ReturnsMatching

/-- Another type than `select`, one iteration, or no double grant. -/
def GrantsOnce : AnyAllocator inputs outputs → Prop
  | select s => s.iter ≤ 1 ∨ ¬ s.DoubleGrant
  | _ => True

/-- After any history, and for any requests, this is when a matching is returned. -/
theorem allocatesMatching_iff (hreached : Reached a)
    (requests : List (Fin inputs × Fin outputs × Request))
    (hrequests : a.clear.addRequests requests = some a') (draws : Nat → Draw inputs outputs) :
    a'.AllocatesMatching draws ↔ a'.GrantsOnce := by
  have hfilling := hreached.between.clear.addRequests hrequests
  by_cases hreliable : a'.Reliable
  · obtain ⟨a'', ha'', hmatching, -⟩ := hfilling.exists_allocate hreliable draws
    refine iff_of_true ⟨a'', ha'', hmatching⟩ ?_
    cases a' with
    | select s => exact hreliable.elim
    | _ => trivial
  · cases a' with
    | select s =>
        rw [GrantsOnce, ← SelAlloc.allocate_returnsMatching hfilling.1]
        constructor
        · rintro ⟨a'', ha'', hmatching⟩
          cases ha''
          exact hmatching
        · exact fun h => ⟨_, rfl, h⟩
    | _ => exact absurd trivial hreliable

/-! ### One input with two grants -/

/-- A request without priority. -/
def plain : Request where
  label := 0
  inPri := 0
  outPri := 0

/-- A new `SelAlloc` for one input and two outputs. -/
def oneInput (iters : Nat) : AnyAllocator 1 2 :=
  select { iter := iters, gptrs := fun _ => 0, aptrs := fun _ => 0, outmask := fun _ => 0 }

/-- The same draw in every iteration. -/
def noDraws : Nat → Draw 1 2 := fun _ => ⟨fun _ => 0, fun _ => 0⟩

/-- With one iteration the input is matched with one of the two outputs it asks for. -/
theorem allocatesMatching_oneIteration :
    ∃ a, (oneInput 1).clear.addRequests [(0, 0, plain), (0, 1, plain)] = some a ∧
      a.AllocatesMatching noDraws := by
  have hreached : Reached (oneInput 1) := .new (.select 1) rfl
  refine ⟨_, rfl, ?_⟩
  apply (allocatesMatching_iff hreached [(0, 0, plain), (0, 1, plain)] rfl noDraws).mpr
  exact .inl le_rfl

/-- With two iterations it is matched with both. -/
theorem not_allocatesMatching_twoIterations :
    ∃ a, (oneInput 2).clear.addRequests [(0, 0, plain), (0, 1, plain)] = some a ∧
      ¬ a.AllocatesMatching noDraws := by
  refine ⟨_, rfl, ?_⟩
  rintro ⟨a, hallocate, hconsistent, -⟩
  cases hallocate
  have hfirst := (hconsistent 0 0).mpr rfl
  have hsecond := (hconsistent 0 1).mpr rfl
  cases hfirst.symm.trans hsecond

end AnyAllocator

end Flyover
