import Flyover.Pipeline.Orderly

/-!
# A head flit that does not get away

A cycle of a packet that waits for the allocators and does not get the switch. It may go
back to routing, because it has no way left or because it has waited for too long, and
the two can be told apart by its route, which is deleted in the first case only.
-/

namespace Flyover

namespace Pipeline

variable {k vcs : Nat}

/-- A head flit in front waits for the allocators. -/
structure HeadWaits (s : Pipeline k vcs) (input : Fin 5) (vc : Fin vcs) (f : Flit k vcs) : Prop where
  front : (s.buf input vc).buffer.head? = some f
  head : f.head = true
  state : (s.buf input vc).state = .vcAlloc ∨ (s.buf input vc).state = .active

/-! ### What is decided in a cycle -/

section Definitions

variable (scheme : Scheme) (o : Outside k vcs) (s : Pipeline k vcs) (input : Fin 5) (vc : Fin vcs)

/-- A request of the channel is decided in this cycle. -/
def dueIn {α : Type} (now : Int) (queue : List (Entry vcs α)) (input : Fin 5) (vc : Fin vcs) :
    Bool :=
  queue.any fun e => e.isFor input vc && e.due now

/-- It is a request for a virtual channel. -/
def vcDue : Bool := dueIn s.now s.vcAllocVCs input vc

/-- It is a request for the switch. -/
def swDue : Bool := dueIn s.now s.swAllocVCs input vc

/-- It is a request for the connection that is held. -/
def holdDue : Bool := dueIn s.now s.swHoldVCs input vc

/-- The output that the packet has when the switch is allocated. -/
def outBy : Option (Fin 5 × Fin vcs) :=
  (s.buf input vc).out.or (if s.vcDue input vc then o.vcAssigned input vc else none)

/-- A request fails that the time-out looks at. -/
def Scheme.retries : Bool :=
  s.vcDue input vc && (o.vcAssigned input vc).isNone ||
    s.swDue input vc && scheme.sparesNot (s.outBy o input vc)

/-- The channel does not get the switch. -/
structure Refused : Prop where
  hold : s.holdDue input vc = true → (o.swHeld input vc).filter o.outputBufferRoom = none
  sw : s.swDue input vc = true → o.swAssigned input vc = none

end Definitions

/-! ### Before the stages end -/

section Begun

variable {cfg : PipelineConfig k} {o : Outside k vcs} {s t : Pipeline k vcs} {input : Fin 5}
  {vc : Fin vcs} {f : Flit k vcs}

/-- The requests that are decided have what the allocators say. -/
structure Decided (o : Outside k vcs) (t : Pipeline k vcs) : Prop where
  vcAlloc : ∀ e ∈ t.vcAllocVCs, e.due t.now = true → e.result = o.vcAssigned e.input e.vc
  swHold : ∀ e ∈ t.swHoldVCs, e.due t.now = true → e.result = o.swHeld e.input e.vc
  swAlloc : ∀ e ∈ t.swAllocVCs, e.due t.now = true → e.result = o.swAssigned e.input e.vc

theorem result_of_due {α : Type} {now : Int} {result : Fin 5 → Fin vcs → Option α}
    {queue : List (Entry vcs α)} {e : Entry vcs α} (he : e ∈ Entry.decideBy now result queue)
    (hdue : e.due now = true) : e.result = result e.input e.vc := by
  obtain ⟨x, -, rfl⟩ := List.mem_map.mp he
  by_cases hx : x.due now = true
  · rw [if_pos hx]
  · rw [if_neg hx] at hdue
    exact absurd hdue hx

theorem begun_decided : Yields (s.begun cfg o) (Decided o) := by
  apply Yields.bind_any; intro t
  exact .pure ⟨fun _ he => result_of_due he, fun _ he => result_of_due he,
    fun _ he => result_of_due he⟩

/-- A flit is put behind others in a channel that waits for the allocators. -/
theorem takeIn_waits
    (hstate : (s.buf input f.vc).state = .vcAlloc ∨ (s.buf input f.vc).state = .active)
    (hlength : (s.buf input f.vc).buffer.length ≠ 1) : s.takeIn cfg o input f = some s := by
  unfold takeIn
  rcases hstate with hstate | hstate
  · simp only [hstate]
    rfl
  · simp only [hstate, hlength, if_false]
    rfl

/-- The packet waits as it did. -/
structure HeadWaits.Still (s t : Pipeline k vcs) (input : Fin 5) (vc : Fin vcs) (f : Flit k vcs) :
    Prop extends HeadWaits t input vc f where
  out : (t.buf input vc).out = (s.buf input vc).out
  now : t.now = s.now

namespace HeadWaits

theorem queueFlit {i : Fin 5} (h : HeadWaits s input vc f) :
    Yields (s.queueFlit cfg o i) fun t => Still s t input vc f := by
  by_cases hown : i = input ∧ ∃ arrived ∈ o.inQueueFlits i, arrived.vc = vc
  · obtain ⟨rfl, arrived, harrived, rfl⟩ := hown
    unfold Pipeline.queueFlit
    rw [harrived]
    apply Yields.bind_any; intro _
    apply Yields.bind_eq; intro c hc
    obtain ⟨pid, rfl⟩ := InputVC.addFlit_eq hc
    obtain ⟨rest, hbuffer⟩ := List.head?_eq_some_iff.mp h.front
    let c : InputVC k vcs := { s.buf i arrived.vc with
      buffer := (s.buf i arrived.vc).buffer ++ [{ arrived with rtime := s.now }]
      expectedPid := pid }
    have hc : (s.modifyVC i arrived.vc fun _ => c).buf i arrived.vc = c := modifyVC_self ..
    have hwaits : (s.modifyVC i arrived.vc fun _ => c).takeIn cfg o i
        { arrived with rtime := s.now } = some (s.modifyVC i arrived.vc fun _ => c) := by
      apply takeIn_waits
      · dsimp only
        rw [hc]
        exact h.state
      · dsimp only
        rw [hc]
        simp [c, hbuffer]
    rw [hwaits]
    apply Yields.some
    refine ⟨⟨?_, h.head, ?_⟩, ?_, rfl⟩
    · rw [hc]
      simp [c, hbuffer]
    · rw [hc]
      exact h.state
    · rw [hc]
  · intro t ht
    rcases Touches.queueFlit t ht with rfl | ⟨arrived, harrived, htouches⟩
    · exact ⟨h, rfl, rfl⟩
    · have hbuf : t.buf input vc = s.buf input vc := by
        apply htouches.buf
        rintro ⟨rfl, rfl⟩
        exact hown ⟨rfl, arrived, harrived, rfl⟩
      exact ⟨⟨hbuf ▸ h.front, h.head, hbuf ▸ h.state⟩, by rw [hbuf], htouches.now⟩

theorem begun (h : HeadWaits s input vc f) : Yields (s.begun cfg o) fun t =>
    HeadWaits t input vc f ∧ (t.buf input vc).out = (s.buf input vc).out ∧ t.now = o.now := by
  have hqueued : Yields ((s.readInputs o).inputQueuing cfg o) fun t =>
      Still (s.readInputs o) t input vc f := by
    intro t ht
    apply Worklist.foldlM_induction ht
    · exact ⟨⟨h.front, h.head, h.state⟩, rfl, rfl⟩
    · intro i _ u u' hu hround
      have hu' := hu.toHeadWaits.queueFlit u' hround
      exact ⟨hu'.toHeadWaits, hu'.out.trans hu.out, hu'.now.trans hu.now⟩
  exact hqueued.bind fun t ht => .pure ⟨⟨ht.front, ht.head, ht.state⟩, ht.out, ht.now⟩

end HeadWaits

end Begun

/-! ### Rounds for the channel -/

section Rounds

variable {cfg : PipelineConfig k} {o : Outside k vcs} {scheme : Scheme} {s t : Pipeline k vcs}
  {f : Flit k vcs}

/-- What a round makes of the request for a virtual channel. -/
inductive VCRound (e : Entry vcs (Fin 5 × Fin vcs)) (f : Flit k vcs) (s t : Pipeline k vcs) : Prop
  | dropped : RouteDeleted (t.buf e.input e.vc) → VCRound e f s t
  | timedOut : e.result = none → s.now - f.rtime = 300 →
      (t.buf e.input e.vc).state = .routing → VCRound e f s t
  | granted (out : Fin 5 × Fin vcs) : e.result = some out →
      t.buf e.input e.vc = ((s.buf e.input e.vc).setOutput out.1 out.2).setState .active →
      s.swAllocVCs <+: t.swAllocVCs → VCRound e f s t
  | refused : e.result = none → s.now - f.rtime ≠ 300 →
      t.buf e.input e.vc = s.buf e.input e.vc → t.swAllocVCs = s.swAllocVCs → VCRound e f s t

theorem vcDecided_round {e : Entry vcs (Fin 5 × Fin vcs)} :
    Yields (scheme.vcDecided cfg o e f s) (VCRound e f s) := by
  have hdropped := Rerouting.dropRoute_deleted s e.input e.vc
  unfold Scheme.vcDecided
  split
  · rename_i out outVC hresult
    apply Yields.ite
    · intro _
      apply Yields.some
      apply VCRound.dropped
      split <;> exact hdropped
    · intro _
      apply Yields.bind_any; intro dest
      have hactive := modifyVC_self { s with nextBuf := Function.update s.nextBuf out dest }
        e.input e.vc fun c => (c.setOutput out outVC).setState .active
      apply Yields.pure
      apply VCRound.granted (out, outVC) hresult
      · split <;> exact hactive
      · split
        · exact List.prefix_rfl
        · exact List.prefix_append _ _
  · rename_i hresult
    apply Yields.bind_any; intro _
    apply Yields.ite
    · intro _
      apply Yields.pure
      apply VCRound.dropped
      split <;> exact hdropped
    · intro _
      apply Yields.ite
      · intro htime
        have hrouting : ((s.enterRouting e.input e.vc).buf e.input e.vc).state = .routing := by
          rw [enterRouting_self]
          rfl
        apply Yields.pure
        apply VCRound.timedOut hresult htime
        split <;> exact hrouting
      · exact fun htime => .pure (.refused hresult htime rfl rfl)

/-- The request fails and is made again. -/
theorem vcAllocOne_again {e : Entry vcs (Fin 5 × Fin vcs)} (hwait : HeadWaits s e.input e.vc f)
    (hstate : (s.buf e.input e.vc).state = .vcAlloc) (hvc : f.vc = e.vc)
    (htime : e.time = some s.now) (hresult : e.result = none)
    (hway : scheme.noWay cfg o s e.input e.vc = some false) (hage : s.now - f.rtime ≠ 300) :
    scheme.vcAllocOne cfg o e s = some { s with
      vcAllocVCs := (s.vcAllocVCs ++ [({ input := e.input, vc := e.vc } : Entry vcs _)]).tail } := by
  simp [Scheme.vcAllocOne, Scheme.vcDecided, Scheme.vcFailed, hwait.front, hwait.head, hstate, hvc,
    htime, hresult, hway, hage]

theorem vcAllocOne_round {e : Entry vcs (Fin 5 × Fin vcs)}
    (hfront : (s.buf e.input e.vc).buffer.head? = some f) :
    Yields (scheme.vcAllocOne cfg o e s) fun t =>
      (s.buf e.input e.vc).state = .vcAlloc ∧ VCRound e f s t := by
  apply Yields.bind_any; intro _
  apply Yields.bind_eq; intro g hg
  rw [hfront] at hg
  cases hg
  apply Yields.guarded; intro hstate
  apply Yields.bind_any; intro _
  refine Yields.bind vcDecided_round fun t ht => .pure ⟨hstate, ?_⟩
  cases ht with
  | dropped h => exact .dropped h
  | timedOut hresult htime h => exact .timedOut hresult htime h
  | granted out hresult h hqueue => exact .granted out hresult h hqueue
  | refused hresult htime h hqueue => exact .refused hresult htime h hqueue

/-- What a round makes of a request for the switch that is not granted. -/
inductive SWRound (scheme : Scheme) (e : Entry vcs Nat) (f : Flit k vcs) (s t : Pipeline k vcs) :
    Prop
  | dropped : RouteDeleted (t.buf e.input e.vc) → SWRound scheme e f s t
  | timedOut : s.now - f.rtime = 300 → scheme.sparesNot (s.buf e.input e.vc).out = true →
      (t.buf e.input e.vc).state = .routing → SWRound scheme e f s t
  | refused : ¬ (s.now - f.rtime = 300 ∧ scheme.sparesNot (s.buf e.input e.vc).out = true) →
      t.buf e.input e.vc = s.buf e.input e.vc → SWRound scheme e f s t

theorem swFailed_round {e : Entry vcs Nat} (hhead : f.head = true) :
    Yields (scheme.swFailed cfg o e f s) (SWRound scheme e f s) := by
  have hlost : Yields (scheme.swLostRoute cfg o e f s) fun dropped =>
      ∀ u ∈ dropped, RouteDeleted (u.buf e.input e.vc) := by
    apply Yields.ite
    · exact fun _ => .some nofun
    · intro _
      apply Yields.ite
      · intro _
        apply Yields.bind_any; intro _
        apply Yields.bind_any; intro _
        apply Yields.pure
        split
        · intro u hu
          cases hu
          exact Rerouting.dropRoute_deleted _ e.input e.vc
        · exact nofun
      · intro _
        apply Yields.bind_any; intro out
        apply Yields.ite
        · intro _
          apply Yields.bind_any; intro _
          apply Yields.pure
          intro u hu
          cases hu
          exact Rerouting.dropRoute_deleted _ e.input e.vc
        · exact fun _ => .pure nofun
  have htimedOut : Yields (scheme.swTimedOut e s) fun t =>
      (t.buf e.input e.vc).state = .routing := by
    have hrouting (u : Pipeline k vcs) :
        ((u.enterRouting e.input e.vc).buf e.input e.vc).state = .routing := by
      rw [enterRouting_self]
      rfl
    apply Yields.ite
    · intro _
      apply Yields.bind_any; intro _
      apply Yields.bind_any; intro _
      exact .pure (hrouting _)
    · intro _
      apply Yields.bind_any; intro _
      exact .pure (hrouting _)
  refine Yields.bind hlost fun dropped hdropped => ?_
  cases dropped with
  | some u => exact .pure (.dropped (hdropped u rfl))
  | none =>
      apply Yields.ite
      · intro hout
        exact htimedOut.mono fun t ht => .timedOut hout.1 hout.2.2 ht
      · exact fun hwaits => .pure (.refused (fun hout => hwaits ⟨hout.1, hhead, hout.2⟩) rfl)

/-- The request fails and is made again. -/
theorem swAllocOne_again {e : Entry vcs Nat} {output : Fin 5} {outVC : Fin vcs}
    (hwait : HeadWaits s e.input e.vc f) (hstate : (s.buf e.input e.vc).state = .active)
    (hout : (s.buf e.input e.vc).out = some (output, outVC)) (hvc : f.vc = e.vc)
    (htime : e.time = some s.now) (hresult : e.result = none)
    (hway : scheme.deserted cfg o s output = false) (hage : s.now - f.rtime ≠ 300) :
    scheme.swAllocOne cfg o e s = some { s with
      swAllocVCs := (s.swAllocVCs ++ [({ input := e.input, vc := e.vc } : Entry vcs _)]).tail } := by
  have hlost : scheme.swLostRoute cfg o e f s = some none := by
    unfold Scheme.swLostRoute
    simp [hwait.head, hstate, hout, hway]
  simp [Scheme.swAllocOne, Scheme.swDecided, Scheme.swFailed, hlost, hwait.front, hstate, hvc,
    htime, hresult, hage]

theorem swAllocOne_round {e : Entry vcs Nat}
    (hfront : (s.buf e.input e.vc).buffer.head? = some f) (hhead : f.head = true)
    (hresult : e.result = none) :
    Yields (scheme.swAllocOne cfg o e s) fun t =>
      (s.buf e.input e.vc).state ≠ .routing ∧ SWRound scheme e f s t := by
  apply Yields.bind_any; intro _
  apply Yields.bind_eq; intro g hg
  rw [hfront] at hg
  cases hg
  apply Yields.guarded; intro hstate
  apply Yields.bind_any; intro _
  have hround : Yields (scheme.swDecided cfg o e f s) (SWRound scheme e f s) := by
    unfold Scheme.swDecided
    rw [hresult]
    exact swFailed_round hhead
  refine Yields.bind hround fun t ht => .pure ⟨?_, ?_⟩
  · rintro hrouting
    rw [hrouting] at hstate
    simp at hstate
  · cases ht with
    | dropped h => exact .dropped h
    | timedOut htime hspares h => exact .timedOut htime hspares h
    | refused hwaits h => exact .refused hwaits h

end Rounds

/-! ### Within a cycle -/

section Within

variable {cfg : PipelineConfig k} {o : Outside k vcs} {s t u : Pipeline k vcs} {input : Fin 5}
  {vc : Fin vcs}

/-- Some rounds later in the cycle: nothing is due that was not due before. -/
structure Within (s t : Pipeline k vcs) : Prop where
  now : t.now = s.now
  vcAlloc : ∀ e ∈ t.vcAllocVCs, e.time ≠ none → e ∈ s.vcAllocVCs
  swHold : ∀ e ∈ t.swHoldVCs, e.time ≠ none → e ∈ s.swHoldVCs
  swAlloc : ∀ e ∈ t.swAllocVCs, e.time ≠ none → e ∈ s.swAllocVCs
  orderly : Orderly t

theorem Spared.mem_of_time {α : Type} {queue queue' : List (Entry vcs α)}
    (h : Spared input vc queue queue') {e : Entry vcs α} (he : e ∈ queue') (htime : e.time ≠ none) :
    e ∈ queue := by
  obtain ⟨old, fresh, hsub, -, rfl, hfresh⟩ := h
  rcases List.mem_append.mp he with hold | hnew
  · exact hsub.subset hold
  · exact absurd (hfresh e hnew).1 htime

theorem dueIn_iff {α : Type} {now : Int} {queue : List (Entry vcs α)} :
    dueIn now queue input vc = true ↔
      ∃ e ∈ queue, e.isFor input vc = true ∧ e.due now = true := by
  simp only [dueIn, List.any_eq_true, Bool.and_eq_true]

theorem time_of_due {α : Type} {e : Entry vcs α} {now : Int} (h : e.due now = true) :
    e.time ≠ none := by
  obtain ⟨time, htime, -⟩ := due_iff.mp h
  rw [htime]
  exact nofun

theorem isFor_self {α : Type} (e : Entry vcs α) : e.isFor e.input e.vc = true :=
  decide_eq_true ⟨rfl, rfl⟩

namespace Within

theorem refl (h : Orderly s) : Within s s :=
  ⟨rfl, fun _ he _ => he, fun _ he _ => he, fun _ he _ => he, h⟩

theorem touches {i : Fin 5} {v : Fin vcs} (h : Within s t) (h' : Touches i v t u) :
    Within s u where
  now := h'.now.trans h.now
  vcAlloc e he htime := h.vcAlloc e (h'.vcAlloc.mem_of_time he htime) htime
  swHold e he htime := h.swHold e (h'.swHold e he htime) htime
  swAlloc e he htime := h.swAlloc e (h'.swAlloc.mem_of_time he htime) htime
  orderly := h.orderly.touches h'

theorem vcAlloc_due (h : Within s t) (hdecided : Decided o s)
    {e : Entry vcs (Fin 5 × Fin vcs)} (he : e ∈ t.vcAllocVCs) (hdue : e.due t.now = true) :
    s.vcDue e.input e.vc = true ∧ e.result = o.vcAssigned e.input e.vc := by
  have hmem := h.vcAlloc e he (time_of_due hdue)
  rw [h.now] at hdue
  exact ⟨dueIn_iff.mpr ⟨e, hmem, isFor_self e, hdue⟩, hdecided.vcAlloc e hmem hdue⟩

theorem swHold_due (h : Within s t) (hdecided : Decided o s) {e : Entry vcs Nat}
    (he : e ∈ t.swHoldVCs) (hdue : e.due t.now = true) :
    s.holdDue e.input e.vc = true ∧ e.result = o.swHeld e.input e.vc := by
  have hmem := h.swHold e he (time_of_due hdue)
  rw [h.now] at hdue
  exact ⟨dueIn_iff.mpr ⟨e, hmem, isFor_self e, hdue⟩, hdecided.swHold e hmem hdue⟩

theorem swAlloc_due (h : Within s t) (hdecided : Decided o s) {e : Entry vcs Nat}
    (he : e ∈ t.swAllocVCs) (hdue : e.due t.now = true) :
    s.swDue e.input e.vc = true ∧ e.result = o.swAssigned e.input e.vc := by
  have hmem := h.swAlloc e he (time_of_due hdue)
  rw [h.now] at hdue
  exact ⟨dueIn_iff.mpr ⟨e, hmem, isFor_self e, hdue⟩, hdecided.swAlloc e hmem hdue⟩

end Within

/-- The rounds were for other channels. -/
structure Kept (input : Fin 5) (vc : Fin vcs) (s t : Pipeline k vcs) : Prop where
  buf : t.buf input vc = s.buf input vc
  vcAlloc : ∀ e ∈ s.vcAllocVCs, e.isFor input vc = true → e ∈ t.vcAllocVCs
  swAlloc : ∀ e ∈ s.swAllocVCs, e.isFor input vc = true → e ∈ t.swAllocVCs

theorem Spared.mem_of_other {α : Type} {i : Fin 5} {v : Fin vcs} {queue queue' : List (Entry vcs α)}
    (h : Spared i v queue queue') (hother : ¬ (input = i ∧ vc = v)) {e : Entry vcs α}
    (he : e ∈ queue) (hself : e.isFor input vc = true) : e ∈ queue' := by
  obtain ⟨old, fresh, -, hkept, rfl, -⟩ := h
  apply List.mem_append_left
  apply hkept e he
  obtain ⟨rfl, rfl⟩ := of_decide_eq_true hself
  exact decide_eq_false hother

theorem Kept.touches {i : Fin 5} {v : Fin vcs} (h : Kept input vc s t) (h' : Touches i v t u)
    (hother : ¬ (input = i ∧ vc = v)) : Kept input vc s u where
  buf := (h'.buf input vc hother).trans h.buf
  vcAlloc e he hself := h'.vcAlloc.mem_of_other hother (h.vcAlloc e he hself) hself
  swAlloc e he hself := h'.swAlloc.mem_of_other hother (h.swAlloc e he hself) hself

end Within

/-! ### The stages -/

section Stages

variable {cfg : PipelineConfig k} {o : Outside k vcs} {scheme : Scheme} {t u w : Pipeline k vcs}
  {input : Fin 5} {vc : Fin vcs} {f : Flit k vcs}

theorem routeUpdate_kept (ht : Orderly t) (hstate : (t.buf input vc).state ≠ .routing) :
    Yields (scheme.routeUpdate cfg o t) fun u => Within t u ∧ Kept input vc t u := by
  apply Yields.bind_any; intro _
  apply Yields.loop (motive := fun u => Within t u ∧ Kept input vc t u)
  · exact ⟨.refl ht, rfl, fun _ he _ => he, fun _ he _ => he⟩
  · intro e u hu
    by_cases hown : input = e.input ∧ vc = e.vc
    · obtain ⟨rfl, rfl⟩ := hown
      -- a channel that is routed is in routing
      apply Yields.bind_any; intro _
      apply Yields.bind_any; intro _
      apply Yields.guarded; intro hrouting
      rw [hu.2.buf] at hrouting
      exact absurd hrouting hstate
    · exact Touches.routeOne.mono fun w hw => ⟨hu.1.touches hw, hu.2.touches hw hown⟩

/-- A packet is back in routing: its route was deleted, or it was timed out. -/
inductive BackIn (timedOut : Prop) (c : InputVC k vcs) : Prop
  | dropped : RouteDeleted c → BackIn timedOut c
  | timedOut : timedOut → c.state = .routing → BackIn timedOut c

theorem BackIn.state {timedOut : Prop} {c : InputVC k vcs} (h : BackIn timedOut c) :
    c.state = .routing := by
  cases h with
  | dropped h => exact h.2
  | timedOut _ h => exact h

theorem BackIn.mono {p q : Prop} {c : InputVC k vcs} (h : BackIn p c) (hpq : p → q) :
    BackIn q c := by
  cases h with
  | dropped h => exact .dropped h
  | timedOut hp h => exact .timedOut (hpq hp) h

/-- The packet waits for the switch, with the output that it has by then. -/
structure Asks (o : Outside k vcs) (t u : Pipeline k vcs) (input : Fin 5) (vc : Fin vcs)
    (f : Flit k vcs) : Prop extends HeadWaits u input vc f where
  out : (u.buf input vc).out = t.outBy o input vc

/-- The request for a virtual channel fails when the packet has waited for 300 cycles. -/
def VCTimesOut (o : Outside k vcs) (t : Pipeline k vcs) (input : Fin 5) (vc : Fin vcs)
    (f : Flit k vcs) : Prop :=
  t.now - f.rtime = 300 ∧ t.vcDue input vc = true ∧ o.vcAssigned input vc = none

/-- A stage, from `u` on, has not done anything to the channel yet. -/
structure Idles (t u w : Pipeline k vcs) (input : Fin 5) (vc : Fin vcs) : Prop where
  within : Within t w
  buf : w.buf input vc = u.buf input vc
  swAlloc : ∀ e ∈ u.swAllocVCs, e.isFor input vc = true → e ∈ w.swAllocVCs

theorem Idles.touches {v : Pipeline k vcs} {i : Fin 5} {j : Fin vcs} (h : Idles t u v input vc)
    (hround : Touches i j v w) (hother : ¬ (input = i ∧ vc = j)) : Idles t u w input vc where
  within := h.within.touches hround
  buf := (hround.buf input vc hother).trans h.buf
  swAlloc x hx hself := hround.swAlloc.mem_of_other hother (h.swAlloc x hx hself) hself

/-- `_VCAllocUpdate` is through with the channel. -/
inductive VCSettled (o : Outside k vcs) (t u : Pipeline k vcs) (input : Fin 5) (vc : Fin vcs)
    (f : Flit k vcs) : Prop
  | back : Within t u → BackIn (VCTimesOut o t input vc f) (u.buf input vc) →
      VCSettled o t u input vc f
  | granted : Within t u → Asks o t u input vc f → (u.buf input vc).state = .active →
      (o.vcAssigned input vc).isSome = true →
      (∀ e ∈ t.swAllocVCs, e.isFor input vc = true → e ∈ u.swAllocVCs) →
      VCSettled o t u input vc f

theorem Idles.vcAllocOne {e : Entry vcs (Fin 5 × Fin vcs)} (h : Idles t t u e.input e.vc)
    (hwait : HeadWaits t e.input e.vc f) (ht : Orderly t) (hdecided : Decided o t)
    (hfront : Scheme.vcAllocFront u = some e) :
    Yields (scheme.vcAllocOne cfg o e u) fun w => VCSettled o t w e.input e.vc f ∨
      Idles t t w e.input e.vc ∧ o.vcAssigned e.input e.vc = none ∧ t.now - f.rtime ≠ 300 := by
  obtain ⟨hhead, hdue⟩ := Option.filter_eq_some_iff.mp hfront
  obtain ⟨hvcDue, hresult⟩ := h.within.vcAlloc_due hdecided (List.mem_of_mem_head? hhead) hdue
  have hbuffer : (u.buf e.input e.vc).buffer.head? = some f := by
    rw [h.buf]
    exact hwait.front
  intro w hw
  have hwithin : Within t w := h.within.touches (vcAllocOne_effect hhead w hw).1
  obtain ⟨hstate, hround⟩ := vcAllocOne_round hbuffer w hw
  rw [h.buf] at hstate
  cases hround with
  | dropped hdropped => exact .inl (.back hwithin (.dropped hdropped))
  | timedOut hnone htime hrouting =>
      rw [h.within.now] at htime
      exact .inl (.back hwithin (.timedOut ⟨htime, hvcDue, hresult.symm.trans hnone⟩ hrouting))
  | granted out hsome hbuf hqueue =>
      have hassigned := hresult.symm.trans hsome
      have hout : t.outBy o e.input e.vc = some out := by
        rw [outBy, ht.unassigned e.input e.vc hstate, if_pos hvcDue, hassigned]
        rfl
      apply Or.inl
      apply VCSettled.granted hwithin
      · refine ⟨⟨?_, hwait.head, ?_⟩, ?_⟩
        · rw [hbuf]
          exact hbuffer
        · rw [hbuf]
          exact .inr rfl
        · rw [hbuf, hout]
          rfl
      · rw [hbuf]
        rfl
      · rw [hassigned]
        rfl
      · exact fun x hx hself => hqueue.subset (h.swAlloc x hx hself)
  | refused hnone htime hbuf hqueue =>
      rw [h.within.now] at htime
      refine .inr ⟨⟨hwithin, hbuf.trans h.buf, fun x hx hself => ?_⟩, hresult.symm.trans hnone, htime⟩
      rw [hqueue]
      exact h.swAlloc x hx hself

theorem Asks.of_buf (h : Asks o t u input vc f) (hbuf : w.buf input vc = u.buf input vc) :
    Asks o t w input vc f where
  front := hbuf ▸ h.front
  head := h.head
  state := hbuf ▸ h.state
  out := hbuf ▸ h.out

theorem VCSettled.round {e : Entry vcs (Fin 5 × Fin vcs)} (h : VCSettled o t u input vc f)
    (hfront : Scheme.vcAllocFront u = some e) :
    Yields (scheme.vcAllocOne cfg o e u) fun w => VCSettled o t w input vc f := by
  by_cases hown : input = e.input ∧ vc = e.vc
  · obtain ⟨rfl, rfl⟩ := hown
    have hstate : (u.buf e.input e.vc).state ≠ .vcAlloc := by
      cases h with
      | back _ hback =>
          rw [hback.state]
          exact nofun
      | granted _ _ hactive _ _ =>
          rw [hactive]
          exact nofun
    apply Yields.bind_any; intro _
    apply Yields.bind_any; intro _
    apply Yields.guarded; intro hvcAlloc
    exact absurd hvcAlloc hstate
  · have hhead := (Option.filter_eq_some_iff.mp hfront).1
    refine (vcAllocOne_effect hhead).mono fun w ⟨hw, _⟩ => ?_
    have hbuf := hw.buf input vc hown
    cases h with
    | back hwithin hback =>
        rw [← hbuf] at hback
        exact .back (hwithin.touches hw) hback
    | granted hwithin hasks hactive hsome hqueue =>
        rw [← hbuf] at hactive
        exact .granted (hwithin.touches hw) (hasks.of_buf hbuf) hactive hsome
          fun x hx hself => hw.swAlloc.mem_of_other hown (hqueue x hx hself) hself

/-- `_VCAllocUpdate` sends the packet back, or it goes on to ask for the switch. -/
theorem vcAllocUpdate_asks (ht : Orderly t) (hdecided : Decided o t)
    (hwait : HeadWaits t input vc f) (hu : Within t u) (hkept : Kept input vc t u) :
    Yields (scheme.vcAllocUpdate cfg o u) fun w => Within t w ∧
      (BackIn (VCTimesOut o t input vc f) (w.buf input vc) ∨
        Asks o t w input vc f ∧ ¬ VCTimesOut o t input vc f ∧
          ∀ e ∈ t.swAllocVCs, e.isFor input vc = true → e ∈ w.swAllocVCs) := by
  have hstart : Idles t t u input vc := ⟨hu, hkept.buf, hkept.swAlloc⟩
  have hthrough (w : Pipeline k vcs) (hw : VCSettled o t w input vc f) : Within t w ∧
      (BackIn (VCTimesOut o t input vc f) (w.buf input vc) ∨
        Asks o t w input vc f ∧ ¬ VCTimesOut o t input vc f ∧
          ∀ e ∈ t.swAllocVCs, e.isFor input vc = true → e ∈ w.swAllocVCs) := by
    cases hw with
    | back hwithin hback => exact ⟨hwithin, .inl hback⟩
    | granted hwithin hasks _ hsome hqueue =>
        refine ⟨hwithin, .inr ⟨hasks, fun htimesOut => ?_, hqueue⟩⟩
        rw [htimesOut.2.2] at hsome
        exact nomatch hsome
  apply Yields.bind_any; intro _
  by_cases hdecides : t.vcDue input vc = true ∧
      (o.vcAssigned input vc = none → t.now - f.rtime = 300)
  · -- the first request of the channel settles what becomes of it
    obtain ⟨e, he, hself, hdue⟩ := dueIn_iff.mp hdecides.1
    rw [← hu.now] at hdue
    obtain ⟨before, first, after, hqueue, ⟨hfirst, hfirstDue⟩, hbefore⟩ :=
      hu.orderly.vcAlloc.exists_first (hkept.vcAlloc e he hself) hself hdue
    refine Yields.mono ?_ hthrough
    apply vcAlloc_drains.settles (Idles t t · input vc) (VCSettled o t · input vc f) hqueue _ _ hstart
    · intro x hx v hfront hv
      have hother : ¬ (input = x.input ∧ vc = x.vc) := by
        rintro ⟨rfl, rfl⟩
        exact absurd ((isFor_self x).symm.trans (hbefore x hx).1) nofun
      have hhead := (Option.filter_eq_some_iff.mp hfront).1
      exact (vcAllocOne_effect hhead).mono fun w hw => hv.touches hw.1 hother
    · intro v hfront hv
      obtain ⟨rfl, rfl⟩ := of_decide_eq_true hfirst
      refine (hv.vcAllocOne hwait ht hdecided hfront).mono fun w hw => ?_
      rcases hw with hsettled | ⟨-, hnone, htime⟩
      · exact hsettled
      · exact absurd (hdecides.2 hnone) htime
    · exact fun x v hfront hv => hv.round hfront
    · intro x hx
      rcases List.mem_append.mp hx with hx | hx
      · exact (hbefore x hx).2
      · rw [List.mem_singleton.mp hx]
        exact hfirstDue
    · rw [hqueue]
      simp
  · have hloop : Yields (Worklist.loop Scheme.vcAllocFront (scheme.vcAllocOne cfg o)
        u.vcAllocVCs.length u) fun w => VCSettled o t w input vc f ∨ Idles t t w input vc := by
      apply Yields.loop_front (motive := fun w => VCSettled o t w input vc f ∨ Idles t t w input vc)
      · exact .inr hstart
      · intro e v hfront hv
        rcases hv with hsettled | hwaits
        · exact (hsettled.round hfront).mono fun w hw => .inl hw
        · by_cases hown : input = e.input ∧ vc = e.vc
          · obtain ⟨rfl, rfl⟩ := hown
            refine (hwaits.vcAllocOne hwait ht hdecided hfront).mono fun w hw => ?_
            exact hw.imp id And.left
          · have hhead := (Option.filter_eq_some_iff.mp hfront).1
            exact (vcAllocOne_effect hhead).mono fun w hw => .inr (hwaits.touches hw.1 hown)
    refine hloop.mono fun w hw => ?_
    rcases hw with hsettled | hwaits
    · exact hthrough w hsettled
    · refine ⟨hwaits.within, .inr ⟨⟨⟨?_, hwait.head, ?_⟩, ?_⟩, ?_, hwaits.swAlloc⟩⟩
      · rw [hwaits.buf]
        exact hwait.front
      · rw [hwaits.buf]
        exact hwait.state
      · rw [hwaits.buf, outBy]
        split
        · rename_i hvcDue
          have hnone : o.vcAssigned input vc = none := by
            by_contra hsome
            exact hdecides ⟨hvcDue, fun hnone => absurd hnone hsome⟩
          rw [hnone, Option.or_none]
        · rw [Option.or_none]
      · exact fun htimesOut => hdecides ⟨htimesOut.2.1, fun _ => htimesOut.1⟩

theorem swHoldOne_refused {e : Entry vcs Nat}
    (hrefused : e.due u.now = true → e.result.filter o.outputBufferRoom = none) :
    Yields (swHoldOne cfg o e u) fun w =>
      w.buf e.input e.vc = u.buf e.input e.vc ∧ u.swAllocVCs <+: w.swAllocVCs := by
  apply Yields.guarded; intro htime
  apply Yields.bind_any; intro f
  apply Yields.bind_any; intro _
  apply Yields.bind_any; intro _
  apply Yields.bind_any; intro _
  have hfailed : Yields (u.holdDecided cfg o e f) fun w =>
      w.buf e.input e.vc = u.buf e.input e.vc ∧ u.swAllocVCs <+: w.swAllocVCs := by
    unfold holdDecided
    rw [hrefused (due_iff.mpr ⟨u.now, htime, le_refl _⟩)]
    apply Yields.bind_any; intro _
    exact .pure ⟨rfl, List.prefix_append _ _⟩
  exact hfailed.bind fun w hw => .pure hw

/-- `_SWHoldUpdate` does not do anything to the channel. -/
theorem swHoldUpdate_refused (hdecided : Decided o t) (href : Refused o t input vc)
    (hu : Within t u) : Yields (u.swHoldUpdate cfg o) fun w => Idles t u w input vc := by
  have hstart : Idles t u u input vc := ⟨hu, rfl, fun _ he _ => he⟩
  apply Yields.ite
  · intro _
    apply Yields.loop_front (motive := fun w => Idles t u w input vc) hstart
    intro e v hfront hv w hw
    have htouches : Touches e.input e.vc v w := Touches.swHoldOne w hw
    by_cases hown : input = e.input ∧ vc = e.vc
    · obtain ⟨rfl, rfl⟩ := hown
      have hmem := List.mem_of_mem_head? (Option.filter_eq_some_iff.mp hfront).1
      have hrefused (hdue : e.due v.now = true) : e.result.filter o.outputBufferRoom = none := by
        obtain ⟨hhold, hresult⟩ := hv.within.swHold_due hdecided hmem hdue
        rw [hresult]
        exact href.hold hhold
      obtain ⟨hsame, hgrows⟩ := swHoldOne_refused hrefused w hw
      exact ⟨hv.within.touches htouches, hsame.trans hv.buf,
        fun x hx hself => hgrows.subset (hv.swAlloc x hx hself)⟩
    · exact hv.touches htouches hown
  · exact fun _ => .some hstart

/-- The request for the switch fails when the packet has waited for 300 cycles. -/
def SWTimesOut (scheme : Scheme) (o : Outside k vcs) (t : Pipeline k vcs) (input : Fin 5)
    (vc : Fin vcs) (f : Flit k vcs) : Prop :=
  t.now - f.rtime = 300 ∧ t.swDue input vc = true ∧
    scheme.sparesNot (t.outBy o input vc) = true

/-- A packet that is back in routing stays there. -/
theorem swAllocOne_routing {e : Entry vcs Nat} (hstate : (u.buf input vc).state = .routing)
    (hfront : swAllocFront u = some e) :
    Yields (scheme.swAllocOne cfg o e u) fun w => w.buf input vc = u.buf input vc := by
  by_cases hown : input = e.input ∧ vc = e.vc
  · obtain ⟨rfl, rfl⟩ := hown
    apply Yields.bind_any; intro _
    apply Yields.bind_any; intro _
    apply Yields.guarded; intro hasks
    rw [hstate] at hasks
    simp at hasks
  · have hhead := (Option.filter_eq_some_iff.mp hfront).1
    exact (swAllocOne_effect hhead).mono fun w hw => hw.1.buf input vc hown

theorem swAllocUpdate_routing (hstate : (u.buf input vc).state = .routing) :
    Yields (scheme.swAllocUpdate cfg o u) fun w => w.buf input vc = u.buf input vc := by
  apply Yields.loop_front (motive := fun w : Pipeline k vcs => w.buf input vc = u.buf input vc) rfl
  intro e v hfront hv
  rw [← hv] at hstate ⊢
  exact swAllocOne_routing hstate hfront

/-- A round for the packet, which does not get the switch. -/
theorem Asks.swAllocOne_own {e : Entry vcs Nat} (h : Asks o t u e.input e.vc f) (hu : Within t u)
    (hdecided : Decided o t) (href : Refused o t e.input e.vc) (hfront : swAllocFront u = some e) :
    Yields (scheme.swAllocOne cfg o e u) fun w =>
      BackIn (SWTimesOut scheme o t e.input e.vc f) (w.buf e.input e.vc) ∨
        Asks o t w e.input e.vc f ∧ ¬ SWTimesOut scheme o t e.input e.vc f := by
  obtain ⟨hhead, hdue⟩ := Option.filter_eq_some_iff.mp hfront
  obtain ⟨hswDue, hresult⟩ := hu.swAlloc_due hdecided (List.mem_of_mem_head? hhead) hdue
  rw [href.sw hswDue] at hresult
  refine (swAllocOne_round h.front h.head hresult).mono fun w ⟨_, hround⟩ => ?_
  cases hround with
  | dropped hdropped => exact .inl (.dropped hdropped)
  | timedOut htime hspares hrouting =>
      rw [hu.now] at htime
      rw [h.out] at hspares
      exact .inl (.timedOut ⟨htime, hswDue, hspares⟩ hrouting)
  | refused hwaits hbuf =>
      rw [hu.now, h.out] at hwaits
      exact .inr ⟨h.of_buf hbuf, fun htimesOut => hwaits ⟨htimesOut.1, htimesOut.2.2⟩⟩

theorem Asks.swAllocOne_other {e : Entry vcs Nat} (h : Asks o t u input vc f)
    (hfront : swAllocFront u = some e) (hother : ¬ (input = e.input ∧ vc = e.vc)) :
    Yields (scheme.swAllocOne cfg o e u) fun w => Asks o t w input vc f := by
  have hhead := (Option.filter_eq_some_iff.mp hfront).1
  exact (swAllocOne_effect hhead).mono fun w hw => h.of_buf (hw.1.buf input vc hother)

/-- `_SWAllocUpdate` sends the packet back, or it goes on to wait. -/
theorem swAllocUpdate_asks (hdecided : Decided o t) (href : Refused o t input vc)
    (hu : Within t u) (hasks : Asks o t u input vc f)
    (hqueue : ∀ e ∈ t.swAllocVCs, e.isFor input vc = true → e ∈ u.swAllocVCs) :
    Yields (scheme.swAllocUpdate cfg o u) fun w =>
      BackIn (SWTimesOut scheme o t input vc f) (w.buf input vc) ∨
        Asks o t w input vc f ∧ ¬ SWTimesOut scheme o t input vc f := by
  by_cases htimesOut : SWTimesOut scheme o t input vc f
  · -- the first request of the channel settles what becomes of it
    obtain ⟨e, he, hself, hdue⟩ := dueIn_iff.mp htimesOut.2.1
    rw [← hu.now] at hdue
    obtain ⟨before, first, after, hsplit, ⟨hfirst, hfirstDue⟩, hbefore⟩ :=
      hu.orderly.swAlloc.exists_first (hqueue e he hself) hself hdue
    refine Yields.mono ?_ fun w => Or.inl
    apply swAlloc_drains.settles (fun v => Within t v ∧ Asks o t v input vc f)
      (fun v => BackIn (SWTimesOut scheme o t input vc f) (v.buf input vc)) hsplit _ _ ⟨hu, hasks⟩
    · intro x hx v hfront ⟨hv, hasks⟩ w hw
      have hother : ¬ (input = x.input ∧ vc = x.vc) := by
        rintro ⟨rfl, rfl⟩
        exact absurd ((isFor_self x).symm.trans (hbefore x hx).1) nofun
      have hhead := (Option.filter_eq_some_iff.mp hfront).1
      exact ⟨hv.touches (swAllocOne_effect hhead w hw).1, hasks.swAllocOne_other hfront hother w hw⟩
    · intro v hfront ⟨hv, hasks⟩
      obtain ⟨rfl, rfl⟩ := of_decide_eq_true hfirst
      refine (hasks.swAllocOne_own hv hdecided href hfront).mono fun w hw => ?_
      exact hw.resolve_right fun hwaits => hwaits.2 htimesOut
    · intro x v hfront hv
      refine (swAllocOne_routing hv.state hfront).mono fun w hw => ?_
      rw [hw]
      exact hv
    · intro x hx
      rcases List.mem_append.mp hx with hx | hx
      · exact (hbefore x hx).2
      · rw [List.mem_singleton.mp hx]
        exact hfirstDue
    · rw [hsplit]
      simp
  · have hloop : Yields (scheme.swAllocUpdate cfg o u) fun w => Within t w ∧
        (BackIn (SWTimesOut scheme o t input vc f) (w.buf input vc) ∨ Asks o t w input vc f) := by
      apply Yields.loop_front (motive := fun w => Within t w ∧
        (BackIn (SWTimesOut scheme o t input vc f) (w.buf input vc) ∨ Asks o t w input vc f))
      · exact ⟨hu, .inr hasks⟩
      · intro e v hfront ⟨hv, hchannel⟩ w hw
        have hhead := (Option.filter_eq_some_iff.mp hfront).1
        refine ⟨hv.touches (swAllocOne_effect hhead w hw).1, ?_⟩
        rcases hchannel with hback | hasks
        · rw [swAllocOne_routing hback.state hfront w hw]
          exact .inl hback
        · by_cases hown : input = e.input ∧ vc = e.vc
          · obtain ⟨rfl, rfl⟩ := hown
            exact (hasks.swAllocOne_own hv hdecided href hfront w hw).imp id And.left
          · exact .inr (hasks.swAllocOne_other hfront hown w hw)
    exact hloop.mono fun w hw => hw.2.imp id fun hasks => ⟨hasks, htimesOut⟩

/-! ### The cycle -/

/-- The packet has waited for 300 cycles, and a request fails that the time-out looks at. -/
def TimesOut (scheme : Scheme) (o : Outside k vcs) (t : Pipeline k vcs) (input : Fin 5)
    (vc : Fin vcs) (f : Flit k vcs) : Prop :=
  t.now - f.rtime = 300 ∧ scheme.retries o t input vc = true

theorem timesOut_iff : TimesOut scheme o t input vc f ↔
    VCTimesOut o t input vc f ∨ SWTimesOut scheme o t input vc f := by
  simp only [TimesOut, VCTimesOut, SWTimesOut, Scheme.retries, Bool.or_eq_true, Bool.and_eq_true,
    Option.isNone_iff_eq_none]
  exact and_or_left

/-- A packet that does not get the switch is sent back or waits. With its route left, it is
sent back only by the time-out, and it does not wait any longer when it is timed out. -/
theorem HeadWaits.ended (ht : Orderly t) (hdecided : Decided o t) (hwait : HeadWaits t input vc f)
    (href : Refused o t input vc) : Yields (scheme.ended cfg o t) fun u =>
      BackIn (TimesOut scheme o t input vc f) (u.buf input vc) ∨
        Asks o t u input vc f ∧ ¬ TimesOut scheme o t input vc f := by
  have hstate : (t.buf input vc).state ≠ .routing := by
    intro hrouting
    have hwaits := hwait.state
    rw [hrouting] at hwaits
    simp at hwaits
  refine Yields.bind (routeUpdate_kept ht hstate) fun u ⟨hu, hkept⟩ => ?_
  refine Yields.bind (vcAllocUpdate_asks ht hdecided hwait hu hkept) fun v ⟨hv, hchannel⟩ => ?_
  refine Yields.bind (swHoldUpdate_refused hdecided href hv) fun w hw => ?_
  rw [← hw.buf] at hchannel
  rcases hchannel with hback | ⟨hasks, hvc, hqueue⟩
  · refine (swAllocUpdate_routing hback.state).mono fun x hx => ?_
    rw [hx]
    exact .inl (hback.mono fun hvc => timesOut_iff.mpr (.inl hvc))
  · have hqueue' : ∀ e ∈ t.swAllocVCs, e.isFor input vc = true → e ∈ w.swAllocVCs :=
      fun e he hself => hw.swAlloc e (hqueue e he hself) hself
    refine (swAllocUpdate_asks hdecided href hw.within (hasks.of_buf hw.buf) hqueue').mono ?_
    rintro x (hback | ⟨hasks, hsw⟩)
    · exact .inl (hback.mono fun hsw => timesOut_iff.mpr (.inr hsw))
    · exact .inr ⟨hasks, fun htimesOut => (timesOut_iff.mp htimesOut).elim hvc hsw⟩

end Stages

end Pipeline

end Flyover
