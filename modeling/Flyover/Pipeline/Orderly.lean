import Flyover.Pipeline.Touches

/-!
# The order of the queues

The entries of a queue get their time together, and those that come later have to wait
until these are through. So the entries with a time stand in front, the earlier ones
first, and a request that is due in a cycle is decided in this cycle.
-/

namespace Flyover

namespace Pipeline

variable {k vcs : Nat} {cfg : PipelineConfig k} {o : Outside k vcs} {scheme : Scheme}

/-! ### What a round puts into its own queue -/

section Rounds

variable {s t : Pipeline k vcs} {f : Flit k vcs}

theorem enterAllocation_swAlloc (s : Pipeline k vcs) (input : Fin 5) (vc : Fin vcs) :
    s.swAllocVCs <+: (s.enterAllocation cfg input vc).swAllocVCs := by
  unfold enterAllocation
  dsimp only
  split
  · exact List.prefix_append _ _
  · exact List.prefix_rfl

theorem useLookahead_swAlloc {input : Fin 5} {vc : Fin vcs} :
    Yields (s.useLookahead cfg o input vc f) fun t => s.swAllocVCs <+: t.swAllocVCs := by
  have hbegun : s.swAllocVCs <+: ((s.modifyVC input vc fun c =>
      (c.setRouteSet f.laRouteSet).setState .vcAlloc).enterAllocation cfg input vc).swAllocVCs :=
    enterAllocation_swAlloc _ input vc
  apply Yields.ite
  · intro _
    exact updateNOQ_eq.mono fun u ⟨noq, hu⟩ => hu ▸ hbegun
  · exact fun _ => .some hbegun

theorem vcDecided_vcAlloc {e : Entry vcs (Fin 5 × Fin vcs)} :
    Yields (scheme.vcDecided cfg o e f s) fun t => s.vcAllocVCs <+: t.vcAllocVCs := by
  unfold Scheme.vcDecided
  split
  · apply Yields.ite
    · intro _
      apply Yields.some
      split <;> exact List.prefix_rfl
    · intro _
      apply Yields.bind_any; intro dest
      apply Yields.pure
      split <;> exact List.prefix_rfl
  · apply Yields.bind_any; intro _
    apply Yields.ite
    · intro _
      apply Yields.pure
      split <;> exact List.prefix_rfl
    · intro _
      apply Yields.ite
      · intro _
        apply Yields.pure
        split <;> exact List.prefix_rfl
      · exact fun _ => .pure (List.prefix_append _ _)

variable {e : Entry vcs Nat}

theorem swSent_swAlloc {output : Fin 5} {outVC : Fin vcs} {expandedOutput : Nat} :
    Yields (s.swSent cfg o e f output outVC expandedOutput) fun t =>
      s.swAllocVCs <+: t.swAllocVCs := by
  have hsend : Yields (s.sendFlit cfg o e f output outVC expandedOutput) fun u =>
      u.swAllocVCs = s.swAllocVCs := by
    apply Yields.bind_any; intro _
    apply Yields.bind_any; intro _
    exact .pure rfl
  refine Yields.bind hsend ?_
  intro u hu
  rw [← hu]
  split
  · apply Yields.pure
    split <;> exact List.prefix_rfl
  · apply Yields.bind_any; intro _
    apply Yields.ite
    · intro _
      apply Yields.bind_any; intro _
      apply Yields.ite
      · exact fun _ => .pure List.prefix_rfl
      · exact fun _ => useLookahead_swAlloc
    · intro _
      apply Yields.ite
      · exact fun _ => .pure List.prefix_rfl
      · exact fun _ => .pure (List.prefix_append _ _)

theorem swGranted_swAlloc {expandedOutput : Nat} :
    Yields (scheme.swGranted cfg o e f expandedOutput s) fun t =>
      s.swAllocVCs <+: t.swAllocVCs := by
  have hpiggyback (output : Fin 5) : Yields (s.piggybackVC cfg e f output) fun out =>
      out.1.swAllocVCs = s.swAllocVCs := by
    apply Yields.bind_any; intro _
    apply Yields.bind_any; intro _
    apply Yields.bind_any; intro _
    exact .pure rfl
  have hturned (output : Fin 5) (outVC : Fin vcs) : Yields (s.swTurnedBack e output outVC) fun t =>
      s.swAllocVCs <+: t.swAllocVCs := by
    apply Yields.ite
    · exact fun _ => .some List.prefix_rfl
    · intro _
      apply Yields.bind_any; intro _
      exact .pure List.prefix_rfl
  apply Yields.bind_any; intro _
  apply Yields.bind_any; intro output
  apply Yields.ite
  · intro _
    refine Yields.bind (hpiggyback output) ?_
    intro out hout
    rw [← hout]
    exact swSent_swAlloc
  · intro _
    apply Yields.bind_any; intro out
    apply Yields.bind_any; intro _
    apply Yields.ite
    · exact fun _ => hturned output out.2
    · exact fun _ => swSent_swAlloc

theorem swFailed_swAlloc :
    Yields (scheme.swFailed cfg o e f s) fun t => s.swAllocVCs <+: t.swAllocVCs := by
  have hlost : Yields (scheme.swLostRoute cfg o e f s) fun dropped =>
      ∀ u ∈ dropped, u.swAllocVCs = s.swAllocVCs := by
    apply Yields.ite
    · exact fun _ => .some nofun
    · intro _
      apply Yields.ite
      · intro _
        apply Yields.bind_any; intro _
        apply Yields.bind_any; intro _
        apply Yields.pure
        split
        · intro u hu
          cases hu
          rfl
        · exact nofun
      · intro _
        apply Yields.bind_any; intro out
        apply Yields.ite
        · intro _
          apply Yields.bind_any; intro _
          apply Yields.pure
          intro u hu
          cases hu
          rfl
        · exact fun _ => .pure nofun
  have htimedOut : Yields (scheme.swTimedOut e s) fun t => s.swAllocVCs <+: t.swAllocVCs := by
    apply Yields.ite
    · intro _
      apply Yields.bind_any; intro _
      apply Yields.bind_any; intro _
      exact .pure List.prefix_rfl
    · intro _
      apply Yields.bind_any; intro _
      exact .pure List.prefix_rfl
  refine Yields.bind hlost ?_
  intro dropped hdropped
  cases dropped with
  | some u =>
      apply Yields.pure
      rw [hdropped u rfl]
  | none =>
      apply Yields.ite
      · exact fun _ => htimedOut
      · exact fun _ => .pure (List.prefix_append _ _)

theorem swDecided_swAlloc :
    Yields (scheme.swDecided cfg o e f s) fun t => s.swAllocVCs <+: t.swAllocVCs := by
  unfold Scheme.swDecided
  split
  · exact swGranted_swAlloc
  · exact swFailed_swAlloc

end Rounds

/-! ### The loops -/

section Loops

variable {s : Pipeline k vcs}

theorem head?_of_begins {α : Type} {queue queue' : List α} {e : α} (h : queue <+: queue')
    (hhead : queue.head? = some e) : queue'.head? = some e := by
  obtain ⟨fresh, rfl⟩ := h
  rw [List.head?_append, hhead]
  rfl

theorem tail_begins {α : Type} {queue queue' : List α} {e : α} (h : queue <+: queue')
    (hhead : queue.head? = some e) : queue.tail <+: queue'.tail := by
  obtain ⟨fresh, rfl⟩ := h
  obtain ⟨rest, rfl⟩ := List.head?_eq_some_iff.mp hhead
  exact List.prefix_append rest fresh

/-- A round of `_VCAllocUpdate` for the entry in front. -/
theorem vcAllocOne_effect {e : Entry vcs (Fin 5 × Fin vcs)} (hhead : s.vcAllocVCs.head? = some e) :
    Yields (scheme.vcAllocOne cfg o e s) fun t => Touches e.input e.vc s t ∧
      s.vcAllocVCs.tail <+: t.vcAllocVCs := by
  apply Yields.bind_any; intro _
  apply Yields.bind_any; intro f
  apply Yields.bind_any; intro _
  apply Yields.bind_any; intro _
  apply Yields.bind_eq
  intro t ht
  have htouches : Touches e.input e.vc s t := Touches.vcDecided t ht
  have hgrows : s.vcAllocVCs <+: t.vcAllocVCs := vcDecided_vcAlloc t ht
  have hpopped : Spared e.input e.vc t.vcAllocVCs t.vcAllocVCs.tail :=
    .tail (head?_of_begins hgrows hhead) (decide_eq_true ⟨rfl, rfl⟩)
  apply Yields.pure
  constructor
  · apply htouches.trans
    exact ⟨rfl, fun _ _ _ => rfl, id, hpopped, fun _ he _ => he, .refl _⟩
  · exact tail_begins hgrows hhead

/-- A round of `_SWAllocUpdate` for the entry in front. -/
theorem swAllocOne_effect {e : Entry vcs Nat} (hhead : s.swAllocVCs.head? = some e) :
    Yields (scheme.swAllocOne cfg o e s) fun t => Touches e.input e.vc s t ∧
      s.swAllocVCs.tail <+: t.swAllocVCs := by
  apply Yields.bind_any; intro _
  apply Yields.bind_any; intro f
  apply Yields.bind_any; intro _
  apply Yields.bind_any; intro _
  apply Yields.bind_eq
  intro t ht
  have htouches : Touches e.input e.vc s t := Touches.swDecided t ht
  have hgrows : s.swAllocVCs <+: t.swAllocVCs := swDecided_swAlloc t ht
  have hpopped : Spared e.input e.vc t.swAllocVCs t.swAllocVCs.tail :=
    .tail (head?_of_begins hgrows hhead) (decide_eq_true ⟨rfl, rfl⟩)
  apply Yields.pure
  constructor
  · apply htouches.trans
    exact ⟨rfl, fun _ _ _ => rfl, id, .refl _, fun _ he _ => he, hpopped⟩
  · exact tail_begins hgrows hhead

theorem vcAlloc_drains : Worklist.Drains (·.vcAllocVCs) (fun s : Pipeline k vcs => Entry.due s.now)
    Scheme.vcAllocFront (scheme.vcAllocOne cfg o) where
  front_eq _ := rfl
  pops e s hhead := by
    refine (vcAllocOne_effect hhead).mono fun t ⟨htouches, hgrows⟩ => ?_
    exact ⟨fun x => by rw [htouches.now], hgrows⟩

theorem swAlloc_drains : Worklist.Drains (·.swAllocVCs) (fun s : Pipeline k vcs => Entry.due s.now)
    swAllocFront (scheme.swAllocOne cfg o) where
  front_eq _ := rfl
  pops e s hhead := by
    refine (swAllocOne_effect hhead).mono fun t ⟨htouches, hgrows⟩ => ?_
    exact ⟨fun x => by rw [htouches.now], hgrows⟩

end Loops

/-! ### The times -/

section Times

variable {α : Type} {queue queue' : List (Entry vcs α)}

/-- What stands in front of an entry that has a time is through no later. -/
def Ordered (queue : List (Entry vcs α)) : Prop :=
  queue.Pairwise fun e later => ∀ time ∈ later.time, ∃ earlier ∈ e.time, earlier ≤ time

theorem due_iff {e : Entry vcs α} {now : Int} :
    e.due now = true ↔ ∃ time ∈ e.time, time ≤ now := by
  simp [Entry.due, Option.any_eq_true, Option.mem_def]

theorem time_of_mem_stamp {e : Entry vcs α} {time : Int} (huntimed : ∀ x ∈ queue, x.time = none)
    (he : e ∈ Entry.stamp time queue) : e.time = some time := by
  induction queue with
  | nil => exact absurd he List.not_mem_nil
  | cons x rest ih =>
      rw [Entry.stamp, huntimed x List.mem_cons_self] at he
      rcases List.mem_cons.mp he with rfl | hrest
      · rfl
      · exact ih (fun y hy => huntimed y (List.mem_cons_of_mem x hy)) hrest

namespace Ordered

theorem spared {input : Fin 5} {vc : Fin vcs} (h : Ordered queue)
    (hspared : Spared input vc queue queue') : Ordered queue' := by
  obtain ⟨old, fresh, hsub, -, rfl, hfresh⟩ := hspared
  -- nothing is said of what stands in front of an entry without a time
  have hwaits (e : Entry vcs α) {later : Entry vcs α} (hlater : later ∈ fresh) :
      ∀ time ∈ later.time, ∃ earlier ∈ e.time, earlier ≤ time := by
    rw [(hfresh later hlater).1]
    exact nofun
  apply List.pairwise_append.mpr
  refine ⟨List.Pairwise.sublist hsub h, ?_, fun e _ later => hwaits e⟩
  exact List.pairwise_of_forall_mem_list fun e _ later => hwaits e

theorem stamp (h : Ordered queue) (time : Int) : Ordered (Entry.stamp time queue) := by
  induction queue with
  | nil => exact List.Pairwise.nil
  | cons e rest ih =>
      obtain ⟨hfront, hrest⟩ := List.pairwise_cons.mp h
      cases htime : e.time with
      | some earlier =>
          rw [Entry.stamp, htime]
          exact h
      | none =>
          -- then all entries get the same time
          have huntimed : ∀ x ∈ rest, x.time = none := by
            intro x hx
            apply Option.eq_none_iff_forall_ne_some.mpr
            intro later hlater
            obtain ⟨earlier, hearlier, -⟩ := hfront x hx later hlater
            rw [htime] at hearlier
            exact nomatch hearlier
          rw [Entry.stamp, htime]
          refine List.pairwise_cons.mpr ⟨fun later hlater last hlast => ?_, ih hrest⟩
          rw [time_of_mem_stamp huntimed hlater] at hlast
          exact ⟨time, rfl, (Option.some.inj hlast).le⟩

theorem decideBy (h : Ordered queue) (now : Int) (result : Fin 5 → Fin vcs → Option α) :
    Ordered (Entry.decideBy now result queue) := by
  apply List.pairwise_map.mpr
  refine List.Pairwise.imp ?_ h
  intro e later hle
  have htime (x : Entry vcs α) :
      (if x.due now then { x with result := result x.input x.vc } else x).time = x.time := by
    split <;> rfl
  rw [htime, htime]
  exact hle

/-- What stands in front of an entry that is due is due. -/
theorem due_of_before {before after : List (Entry vcs α)} {e x : Entry vcs α} {now : Int}
    (h : Ordered (before ++ e :: after)) (hdue : e.due now = true) (hx : x ∈ before) :
    x.due now = true := by
  obtain ⟨time, htime, hle⟩ := due_iff.mp hdue
  obtain ⟨earlier, hearlier, hfirst⟩ :=
    (List.pairwise_append.mp h).2.2 x hx e List.mem_cons_self time htime
  exact due_iff.mpr ⟨earlier, hearlier, hfirst.trans hle⟩

/-- The first entry of a channel that is due has only due entries in front, none of them of
the channel. -/
theorem exists_first {e : Entry vcs α} {input : Fin 5} {vc : Fin vcs} {now : Int}
    (h : Ordered queue) (he : e ∈ queue) (hself : e.isFor input vc = true)
    (hdue : e.due now = true) :
    ∃ before first after, queue = before ++ first :: after ∧
      (first.isFor input vc = true ∧ first.due now = true) ∧
      ∀ x ∈ before, x.isFor input vc = false ∧ x.due now = true := by
  let mine : Entry vcs α → Bool := fun x => x.isFor input vc && x.due now
  have hfind : (queue.find? mine).isSome = true := by
    rw [List.find?_isSome]
    exact ⟨e, he, by simp [mine, hself, hdue]⟩
  obtain ⟨first, hfirst⟩ := Option.isSome_iff_exists.mp hfind
  obtain ⟨hmine, before, after, rfl, hbefore⟩ := List.find?_eq_some_iff_append.mp hfirst
  obtain ⟨hself', hdue'⟩ := Bool.and_eq_true_iff.mp hmine
  refine ⟨before, first, after, rfl, ⟨hself', hdue'⟩, fun x hx => ?_⟩
  have hxdue : x.due now = true := due_of_before h hdue' hx
  have hother : mine x = false := by simpa using hbefore x hx
  exact ⟨by simpa [mine, hxdue] using hother, hxdue⟩

end Ordered

end Times

/-! ### A cycle -/

/-- The queues are in order, and a packet that waits for a virtual channel has none. -/
structure Orderly (s : Pipeline k vcs) : Prop where
  vcAlloc : Ordered s.vcAllocVCs
  swAlloc : Ordered s.swAllocVCs
  unassigned : ∀ i v, (s.buf i v).Unassigned

/-- A cycle up to the functions that end the stages. -/
def begun (cfg : PipelineConfig k) (o : Outside k vcs) (s : Pipeline k vcs) :
    Option (Pipeline k vcs) := do
  let s ← (s.readInputs o).inputQueuing cfg o
  pure (s.evaluate cfg o)

/-- The rest of the cycle: the stages end. -/
def Scheme.ended (scheme : Scheme) (cfg : PipelineConfig k) (o : Outside k vcs)
    (s : Pipeline k vcs) : Option (Pipeline k vcs) := do
  let s ← scheme.routeUpdate cfg o s
  let s ← scheme.vcAllocUpdate cfg o s
  let s ← s.swHoldUpdate cfg o
  scheme.swAllocUpdate cfg o s

theorem Scheme.cycle_eq (s : Pipeline k vcs) :
    scheme.cycle cfg o s = s.begun cfg o >>= scheme.ended cfg o := by
  unfold Scheme.cycle begun
  rw [bind_assoc]
  rfl

namespace Orderly

variable {s t : Pipeline k vcs}

theorem initial (nextBuf : Fin 5 → BufferState vcs) :
    Orderly (Pipeline.initial (k := k) nextBuf) :=
  ⟨List.Pairwise.nil, List.Pairwise.nil, fun _ _ => nofun⟩

theorem touches {input : Fin 5} {vc : Fin vcs} (hs : Orderly s) (h : Touches input vc s t) :
    Orderly t where
  vcAlloc := hs.vcAlloc.spared h.vcAlloc
  swAlloc := hs.swAlloc.spared h.swAlloc
  unassigned i v := by
    by_cases hself : i = input ∧ v = vc
    · obtain ⟨rfl, rfl⟩ := hself
      exact h.unassigned (hs.unassigned i v)
    · rw [h.buf i v hself]
      exact hs.unassigned i v

theorem begun (hs : Orderly s) : Yields (s.begun cfg o) Orderly := by
  have hqueued : Yields ((s.readInputs o).inputQueuing cfg o) Orderly := by
    intro t ht
    apply Worklist.foldlM_induction ht
    · exact ⟨hs.vcAlloc, hs.swAlloc, hs.unassigned⟩
    · intro input _ u u' hu hround
      rcases Touches.queueFlit u' hround with rfl | ⟨f, -, htouches⟩
      · exact hu
      · exact hu.touches htouches
  exact hqueued.bind fun t ht => .pure
    ⟨(ht.vcAlloc.stamp _).decideBy _ _, (ht.swAlloc.stamp _).decideBy _ _, ht.unassigned⟩

theorem ended (hs : Orderly s) : Yields (scheme.ended cfg o s) Orderly := by
  have hroute : Yields (scheme.routeUpdate cfg o s) Orderly := by
    apply Yields.bind_any; intro _
    apply Yields.loop hs
    exact fun e t ht => Touches.routeOne.mono fun u hu => ht.touches hu
  refine Yields.bind hroute fun t ht => ?_
  have hvcAlloc : Yields (scheme.vcAllocUpdate cfg o t) Orderly := by
    apply Yields.bind_any; intro _
    apply Yields.loop_front ht
    intro e u hfront hu
    have hhead := (Option.filter_eq_some_iff.mp hfront).1
    exact (vcAllocOne_effect hhead).mono fun u' hu' => hu.touches hu'.1
  refine Yields.bind hvcAlloc fun u hu => ?_
  have hhold : Yields (u.swHoldUpdate cfg o) Orderly := by
    apply Yields.ite
    · intro _
      apply Yields.loop hu
      exact fun e t ht => Touches.swHoldOne.mono fun u hu => ht.touches hu
    · exact fun _ => .some hu
  refine Yields.bind hhold fun v hv => ?_
  apply Yields.loop_front hv
  intro e w hfront hw
  have hhead := (Option.filter_eq_some_iff.mp hfront).1
  exact (swAllocOne_effect hhead).mono fun u' hu' => hw.touches hu'.1

theorem cycle (hs : Orderly s) : Yields (scheme.cycle cfg o s) Orderly := by
  rw [Scheme.cycle_eq]
  exact hs.begun.bind fun _ => ended

end Orderly

end Pipeline

end Flyover
