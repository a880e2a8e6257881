import Flyover.Pipeline.Ages
import Flyover.Pipeline.Dispatch

/-!
# The packet behind a tail flit

When the last flit of a packet leaves, the next packet of the channel is routed. A
routing function of the family looks at how long a packet has been waiting, and
`_SWHoldUpdate` starts that time anew for a packet that has come to the front.
`_SWAllocUpdate` does not: there the time since the head flit came in counts, all
of which it may have spent behind the packet before it.
-/

namespace Flyover

namespace Pipeline

variable {k vcs : Nat} {cfg : PipelineConfig k} {o : Outside k vcs}

/-! ### Arrivals -/

/-- The flit that comes in for a channel, with the time at which it does. -/
def arrival (o : Outside k vcs) (now : Int) (input : Fin 5) (vc : Fin vcs) : Option (Flit k vcs) :=
  ((o.inQueueFlits input).filter fun f => decide (f.vc = vc)).map fun f => { f with rtime := now }

section Arrivals

variable {s t : Pipeline k vcs} {now : Int} {input : Fin 5} {vc : Fin vcs} {f : Flit k vcs}

theorem arrival_rtime (h : arrival o now input vc = some f) : f.rtime = now := by
  obtain ⟨g, -, rfl⟩ := Option.map_eq_some_iff.mp h
  rfl

theorem arrival_isSome : (arrival o now input vc).isSome = true ↔
    ∃ f, o.inQueueFlits input = some f ∧ f.vc = vc := by
  unfold arrival
  cases o.inQueueFlits input with
  | none => simp
  | some f => by_cases hvc : f.vc = vc <;> simp [Option.filter, hvc]

theorem InputVC.addFlit_buffer {c c' : InputVC k vcs} (h : c.addFlit f = some c') :
    c'.buffer = c.buffer ++ [f] := by
  obtain ⟨pid, rfl⟩ := addFlit_eq h
  rfl

/-- What has come in at some of the inputs. -/
structure Queued (o : Outside k vcs) (inputs : List (Fin 5)) (s t : Pipeline k vcs) : Prop where
  now : t.now = s.now
  buffer : ∀ i v, (t.buf i v).buffer =
    (s.buf i v).buffer ++ if i ∈ inputs then (arrival o s.now i v).toList else []

theorem queueFlit_queued : Yields (s.queueFlit cfg o input) (Queued o [input] s) := by
  unfold queueFlit
  split
  next hnone =>
    apply Yields.some
    refine ⟨rfl, fun i v => ?_⟩
    split
    next hi =>
      obtain rfl := List.mem_singleton.mp hi
      simp [arrival, hnone]
    next => exact (List.append_nil _).symm
  next f hf =>
    apply Yields.bind_any; intro _
    apply Yields.bind_eq; intro c hc
    refine Untouched.takeIn.mono fun t ht => ⟨ht.now, fun i v => ?_⟩
    rw [ht.buffer]
    by_cases hself : i = input ∧ v = f.vc
    · obtain ⟨rfl, rfl⟩ := hself
      rw [modifyVC_self, InputVC.addFlit_buffer hc]
      simp [arrival, hf, Option.filter]
    · rw [modifyVC_of_ne _ _ hself]
      split
      next hi =>
        obtain rfl := List.mem_singleton.mp hi
        have hvc : ¬ f.vc = v := fun hvc => hself ⟨rfl, hvc.symm⟩
        simp [arrival, hf, Option.filter, hvc]
      next => exact (List.append_nil _).symm

theorem queueFlits_queued {inputs : List (Fin 5)} (hnodup : inputs.Nodup) :
    Yields (inputs.foldlM (queueFlit cfg o) s) (Queued o inputs s) := by
  induction inputs generalizing s with
  | nil => exact .pure ⟨rfl, fun _ _ => (List.append_nil _).symm⟩
  | cons input rest ih =>
      obtain ⟨hnot, hrest⟩ := List.nodup_cons.mp hnodup
      rw [List.foldlM_cons]
      refine Yields.bind queueFlit_queued ?_
      intro t ht
      refine (ih hrest).mono fun u hu => ⟨hu.now.trans ht.now, fun i v => ?_⟩
      rw [hu.buffer, ht.buffer, ht.now, List.append_assoc]
      congr 1
      by_cases hi : i = input
      · subst hi
        simp [hnot]
      · simp [hi]

/-- `_InputQueuing` -/
theorem inputQueuing_queued {t : Pipeline k vcs} (h : s.inputQueuing cfg o = some t) (i : Fin 5)
    (v : Fin vcs) : t.now = s.now ∧
      (t.buf i v).buffer = (s.buf i v).buffer ++ (arrival o s.now i v).toList := by
  have hqueued := queueFlits_queued (List.nodup_finRange 5) t h
  refine ⟨hqueued.now, ?_⟩
  rw [hqueued.buffer, if_pos (List.mem_finRange i)]

end Arrivals

/-! ### Cycles -/

/-- `_InternalStep` up to `_VCAllocUpdate` -/
def beforeSWHold (cfg : PipelineConfig k) (o : Outside k vcs) (s : Pipeline k vcs) :
    Option (Pipeline k vcs) := do
  let s ← (s.readInputs o).inputQueuing cfg o
  let s ← (s.evaluate cfg o).routeUpdate cfg o
  s.vcAllocUpdate cfg

/-- The next entry for `_SWHoldUpdate`. -/
def swHoldFront (s : Pipeline k vcs) : Option (Entry vcs Nat) :=
  s.swHoldVCs.head?.filter fun e => e.time.isSome

theorem beforeSWAlloc_eq (cfg : PipelineConfig k) (o : Outside k vcs) (s : Pipeline k vcs) :
    s.beforeSWAlloc cfg o = (do
      let t ← s.beforeSWHold cfg o
      t.swHoldUpdate cfg o) := by
  simp only [beforeSWAlloc, beforeSWHold, bind_assoc]

section Cycle

variable {s t : Pipeline k vcs}

theorem Ages.swHoldUpdate (h : Ages s t) : Yields (t.swHoldUpdate cfg o) (Ages s) := by
  apply Yields.ite
  · intro _
    exact Yields.loop h fun e u hu => hu.swHoldOne
  · exact fun _ => .some h

theorem beforeSWHold_ages {queued : Pipeline k vcs}
    (hqueued : (s.readInputs o).inputQueuing cfg o = some queued) :
    Yields (s.beforeSWHold cfg o) (Ages queued) := by
  apply Yields.bind_eq
  intro t ht
  obtain rfl := Option.some.inj (hqueued.symm.trans ht)
  have hevaluated : Ages queued (queued.evaluate cfg o) := (Ages.refl queued).of_buf rfl rfl
  have hrouted : Yields ((queued.evaluate cfg o).routeUpdate cfg o) (Ages queued) := by
    apply Yields.bind_any; intro _
    exact Yields.loop hevaluated fun e u hu => hu.routeOne
  refine Yields.bind hrouted ?_
  intro u hu
  apply Yields.bind_any; intro _
  exact Yields.loop hu fun e w hw => hw.vcAllocOne

theorem beforeSWAlloc_ages {queued : Pipeline k vcs}
    (hqueued : (s.readInputs o).inputQueuing cfg o = some queued) :
    Yields (s.beforeSWAlloc cfg o) (Ages queued) := by
  rw [beforeSWAlloc_eq]
  exact Yields.bind (beforeSWHold_ages hqueued) fun t ht => ht.swHoldUpdate

theorem exists_queued (h : s.beforeSWHold cfg o = some t) :
    ∃ queued, (s.readInputs o).inputQueuing cfg o = some queued ∧ Ages queued t := by
  obtain ⟨queued, hqueued, -⟩ := Option.bind_eq_some_iff.mp h
  exact ⟨queued, hqueued, beforeSWHold_ages hqueued t h⟩

/-- A cycle, on the flits. -/
theorem cycle_ages (h : s.cycle cfg o = some t) :
    ∃ queued, (s.readInputs o).inputQueuing cfg o = some queued ∧ Ages queued t := by
  obtain ⟨u, hu, h⟩ := Option.bind_eq_some_iff.mp h
  obtain ⟨queued, hqueued, -⟩ := Option.bind_eq_some_iff.mp hu
  have hages : Ages queued u := beforeSWAlloc_ages hqueued u hu
  exact ⟨queued, hqueued, Yields.loop hages (fun e w hw => hw.swAllocOne) t h⟩

end Cycle

/-- The states of the runs in which time goes on. -/
inductive Timed (cfg : PipelineConfig k) : Pipeline k vcs → Prop
  | start (nextBuf : Fin 5 → BufferState vcs) : Timed cfg (initial nextBuf)
  | cycle {s s' : Pipeline k vcs} {o : Outside k vcs} :
      Timed cfg s → s.now < o.now → s.cycle cfg o = some s' → Timed cfg s'

/-- No flit has come in or was routed in the future. -/
theorem Timed.rtime_le {s : Pipeline k vcs} (h : Timed cfg s) (i : Fin 5) (v : Fin vcs) :
    ∀ f ∈ (s.buf i v).buffer, f.rtime ≤ s.now := by
  induction h with
  | start nextBuf => exact nofun
  | @cycle s s' o _ hnow hcycle ih =>
      obtain ⟨queued, hqueued, hages⟩ := cycle_ages hcycle
      obtain ⟨htime, hbuffer⟩ := inputQueuing_queued hqueued i v
      intro f hf
      rw [hages.now]
      rcases (hages.buffer i v).rtime f hf with hold | hnew
      · rw [hbuffer] at hold
        rcases List.mem_append.mp hold with hold | harrived
        · rw [htime]
          exact (ih f hold).trans hnow.le
        · rw [htime, arrival_rtime (Option.mem_toList.mp harrived)]
      · exact hnew.le

/-! ### The next packet -/

/-- The two updates in which a flit leaves for the crossbar. -/
inductive Departure where
  | hold
  | alloc
  deriving DecidableEq, Repr

namespace Departure

/-- One round of the update. -/
def round (cfg : PipelineConfig k) (o : Outside k vcs) :
    Departure → Entry vcs Nat → Pipeline k vcs → Option (Pipeline k vcs)
  | .hold => swHoldOne cfg o
  | .alloc => swAllocOne cfg o

/-- A cycle comes to a round. -/
def Comes (cfg : PipelineConfig k) (o : Outside k vcs) (s : Pipeline k vcs) (e : Entry vcs Nat)
    (u : Pipeline k vcs) : Departure → Prop
  | .hold => cfg.holdSwitchForPacket = true ∧ ∃ t, s.beforeSWHold cfg o = some t ∧
      Worklist.Visits swHoldFront (swHoldOne cfg o) t e u
  | .alloc => ∃ t, s.beforeSWAlloc cfg o = some t ∧
      Worklist.Visits swAllocFront (swAllocOne cfg o) t e u

end Departure

/-- If the next packet of a channel enters routing, it does so as one that has just
come to the front. -/
def EntersAfresh (now : Int) (c : InputVC k vcs) : Prop :=
  c.state = .routing → ∀ f ∈ c.buffer.head?, f.rtime = now

section Next

variable {s s' u u' : Pipeline k vcs} {e : Entry vcs Nat} {f nf : Flit k vcs}
  {rest : List (Flit k vcs)} {path : Departure}

/-- The first element of the end of a queue is the last in the queue or an older one. -/
theorem head_of_suffix_concat {α : Type} {x last : α} {xs old : List α}
    (h : x :: xs <:+ old ++ [last]) : xs = [] ∧ x = last ∨ xs ≠ [] ∧ x ∈ old := by
  obtain ⟨gone, hall⟩ := h
  rcases List.eq_nil_or_concat xs with rfl | ⟨init, final, rfl⟩
  · exact .inl ⟨rfl, List.append_singleton_inj.mp hall |>.2⟩
  · right
    rw [List.concat_eq_append, ← List.cons_append, ← List.append_assoc,
      List.append_singleton_inj] at hall
    refine ⟨by simp, ?_⟩
    rw [← hall.1]
    exact List.mem_append_right gone List.mem_cons_self

theorem Departure.Comes.ages (h : path.Comes cfg o s e u) :
    ∃ queued, (s.readInputs o).inputQueuing cfg o = some queued ∧ Ages queued u := by
  cases path with
  | hold =>
      obtain ⟨-, t, ht, hvisits⟩ := h
      obtain ⟨queued, hqueued, hages⟩ := exists_queued ht
      exact ⟨queued, hqueued, Yields.visits hvisits hages fun e w hw => hw.swHoldOne⟩
  | alloc =>
      obtain ⟨t, ht, hvisits⟩ := h
      obtain ⟨queued, hqueued, -⟩ := Option.bind_eq_some_iff.mp ht
      exact ⟨queued, hqueued, Yields.visits hvisits (beforeSWAlloc_ages hqueued t ht)
        fun e w hw => hw.swAllocOne⟩

/-- Behind the flit in front, only the one that has just come in has the current time. -/
theorem Departure.Comes.rtime_eq_now (h : path.Comes cfg o s e u) (hs : Timed cfg s)
    (hnow : s.now < o.now) (hbuf : (u.buf e.input e.vc).buffer = f :: nf :: rest) :
    nf.rtime = o.now ↔ rest = [] ∧ ∃ g, o.inQueueFlits e.input = some g ∧ g.vc = e.vc := by
  obtain ⟨queued, hqueued, hages⟩ := h.ages
  obtain ⟨-, hbuffer⟩ := inputQueuing_queued hqueued e.input e.vc
  have hsuffix : nf :: rest <:+ (s.buf e.input e.vc).buffer ++
      (arrival o o.now e.input e.vc).toList := by
    have hbehind := (hages.buffer e.input e.vc).behind
    rw [hbuf] at hbehind
    have hall := hbehind.trans (List.tail_suffix _)
    rw [hbuffer] at hall
    exact hall
  have hpast : ∀ g ∈ (s.buf e.input e.vc).buffer, g.rtime ≠ o.now := fun g hg =>
    (lt_of_le_of_lt (hs.rtime_le _ _ g hg) hnow).ne
  have harrived : (arrival o o.now e.input e.vc).isSome = true ↔
      ∃ f, o.inQueueFlits e.input = some f ∧ f.vc = e.vc := arrival_isSome
  rw [← harrived]
  cases harrival : arrival o o.now e.input e.vc with
  | none =>
      rw [harrival, Option.toList_none, List.append_nil] at hsuffix
      have hold : nf ∈ (s.buf e.input e.vc).buffer := hsuffix.subset List.mem_cons_self
      exact ⟨fun hrtime => absurd hrtime (hpast nf hold), fun hsome => nomatch hsome.2⟩
  | some g =>
      have hg : g.rtime = o.now := arrival_rtime harrival
      rw [harrival, Option.toList_some] at hsuffix
      rcases head_of_suffix_concat hsuffix with ⟨hrest, hnf⟩ | ⟨hrest, hold⟩
      · rw [hnf]
        exact ⟨fun _ => ⟨hrest, rfl⟩, fun _ => hg⟩
      · exact ⟨fun hrtime => absurd hrtime (hpast nf hold), fun hlast => absurd hlast.1 hrest⟩

theorem useLookahead_state {input : Fin 5} {vc : Fin vcs} (h : u.useLookahead cfg o input vc f = some u') :
    (u'.buf input vc).state = .vcAlloc := by
  have hset : ((u.modifyVC input vc fun c =>
      (c.setRouteSet f.laRouteSet).setState .vcAlloc).buf input vc).state = .vcAlloc := by
    rw [modifyVC_self]
    rfl
  have hnoq : Yields (u.useLookahead cfg o input vc f)
      fun w => (w.buf input vc).state = .vcAlloc := by
    apply Yields.ite
    · intro _
      refine updateNOQ_eq.mono fun w ⟨noq, hw⟩ => ?_
      rw [hw]
      exact hset
    · exact fun _ => .some hset
  exact hnoq u' h

/-- What is in front of the channel once the tail of the packet before has left. -/
structure Follows (cfg : PipelineConfig k) (c : InputVC k vcs) (rtime : Int) : Prop where
  routing : cfg.routingDelay ≠ 0 → c.state = .routing ∧ ∃ f, c.buffer.head? = some f ∧ f.rtime = rtime
  lookahead : cfg.routingDelay = 0 → c.state = .vcAlloc

theorem Follows.afresh_iff {c : InputVC k vcs} {rtime now : Int} (h : Follows cfg c rtime) :
    EntersAfresh now c ↔ cfg.routingDelay = 0 ∨ rtime = now := by
  by_cases hdelay : cfg.routingDelay = 0
  · refine ⟨fun _ => .inl hdelay, fun _ hstate => ?_⟩
    rw [h.lookahead hdelay] at hstate
    exact nomatch hstate
  · obtain ⟨hstate, g, hg, hrtime⟩ := h.routing hdelay
    constructor
    · intro hafresh
      exact .inr (hrtime.symm.trans (hafresh hstate g hg))
    · rintro hnow _ g' hg'
      rw [hg] at hg'
      cases hg'
      exact hrtime.trans (hnow.resolve_left hdelay)

theorem holdSent_follows {expandedOutput : Nat} (hbuf : (u.buf e.input e.vc).buffer = f :: nf :: rest)
    (htail : f.tail = true) (h : u.holdSent cfg o e f expandedOutput = some u') :
    Follows cfg (u'.buf e.input e.vc) u.now := by
  unfold holdSent at h
  obtain ⟨-, h⟩ := guard_bind.mp h
  obtain ⟨-, h⟩ := guard_bind.mp h
  obtain ⟨output, -, h⟩ := Option.bind_eq_some_iff.mp h
  obtain ⟨⟨port, outVC⟩, -, h⟩ := Option.bind_eq_some_iff.mp h
  obtain ⟨-, h⟩ := guard_bind.mp h
  obtain ⟨t, ht, h⟩ := Option.bind_eq_some_iff.mp h
  have hnow : t.now = u.now := ((Ages.refl u).sendFlit t ht).now
  have hsent := (sendFlit_view ht).1
  rw [hbuf, List.tail_cons] at hsent
  simp only [hsent, htail, if_true] at h
  obtain ⟨-, h⟩ := guard_bind.mp h
  obtain ⟨-, h⟩ := guard_bind.mp h
  split at h
  next hdelay =>
    cases h
    refine ⟨fun _ => ?_, fun hzero => absurd hzero hdelay⟩
    rw [modifyVC_self]
    have hrouting := enterRouting_self (t.cancelHold (cfg.expandedInput e.input e.vc) expandedOutput)
      e.input e.vc
    rw [hrouting]
    refine ⟨rfl, { nf with rtime := t.now }, ?_, hnow⟩
    change (((t.buf e.input e.vc).setState .routing).setRtime t.now).buffer.head? = _
    simp [InputVC.setRtime, InputVC.setState, hsent]
  next hdelay =>
    rw [not_not] at hdelay
    exact ⟨fun hne => absurd hdelay hne, fun _ => useLookahead_state h⟩

theorem swSent_follows {output : Fin 5} {outVC : Fin vcs} {expandedOutput : Nat}
    (hbuf : (u.buf e.input e.vc).buffer = f :: nf :: rest) (htail : f.tail = true)
    (h : u.swSent cfg o e f output outVC expandedOutput = some u') :
    Follows cfg (u'.buf e.input e.vc) nf.rtime := by
  unfold swSent at h
  obtain ⟨t, ht, h⟩ := Option.bind_eq_some_iff.mp h
  have hsent := (sendFlit_view ht).1
  rw [hbuf, List.tail_cons] at hsent
  simp only [hsent, htail, if_true] at h
  obtain ⟨-, h⟩ := guard_bind.mp h
  obtain ⟨-, h⟩ := guard_bind.mp h
  split at h
  next hdelay =>
    cases h
    refine ⟨fun _ => ?_, fun hzero => absurd hzero hdelay⟩
    rw [enterRouting_self]
    refine ⟨rfl, nf, ?_, rfl⟩
    change (t.buf e.input e.vc).buffer.head? = _
    rw [hsent]
    rfl
  next hdelay =>
    rw [not_not] at hdelay
    exact ⟨fun hne => absurd hdelay hne, fun _ => useLookahead_state h⟩

/-- No flit has left if the view is the same. -/
theorem length_eq_of_view (h : u'.view = u.view) (i : Fin 5) (v : Fin vcs) :
    (u'.buf i v).buffer.length = (u.buf i v).buffer.length := by
  have hends : (u'.buf i v).ends = (u.buf i v).ends := congrFun (congrFun (congrArg View.ends h) i) v
  have hlength := congrArg List.length hends
  rwa [InputVC.ends, InputVC.ends, List.length_map, List.length_map] at hlength

theorem swHoldOne_follows (hbuf : (u.buf e.input e.vc).buffer = f :: nf :: rest)
    (htail : f.tail = true) (hleaves : (u'.buf e.input e.vc).buffer.length = rest.length + 1)
    (h : swHoldOne cfg o e u = some u') : Follows cfg (u'.buf e.input e.vc) u.now := by
  unfold swHoldOne at h
  obtain ⟨-, h⟩ := guard_bind.mp h
  obtain ⟨front, hfront, h⟩ := Option.bind_eq_some_iff.mp h
  rw [hbuf] at hfront
  obtain rfl := Option.some.inj hfront
  obtain ⟨-, h⟩ := guard_bind.mp h
  obtain ⟨-, h⟩ := guard_bind.mp h
  obtain ⟨-, h⟩ := guard_bind.mp h
  obtain ⟨t, ht, h⟩ := Option.bind_eq_some_iff.mp h
  cases h
  change Follows cfg (t.buf e.input e.vc) u.now
  unfold holdDecided at ht
  split at ht
  next => exact holdSent_follows hbuf htail ht
  next =>
    obtain ⟨_, -, ht⟩ := Option.bind_eq_some_iff.mp ht
    cases ht
    have hkept : (u.buf e.input e.vc).buffer.length = rest.length + 1 := hleaves
    rw [hbuf] at hkept
    simp at hkept

theorem swGranted_follows {expandedOutput : Nat}
    (hbuf : (u.buf e.input e.vc).buffer = f :: nf :: rest) (htail : f.tail = true)
    (hleaves : (u'.buf e.input e.vc).buffer.length ≠ (u.buf e.input e.vc).buffer.length)
    (h : u.swGranted cfg o e f expandedOutput = some u') :
    Follows cfg (u'.buf e.input e.vc) nf.rtime := by
  unfold swGranted at h
  obtain ⟨-, h⟩ := guard_bind.mp h
  obtain ⟨output, -, h⟩ := Option.bind_eq_some_iff.mp h
  split at h
  next =>
    obtain ⟨⟨t, outVC⟩, ht, h⟩ := Option.bind_eq_some_iff.mp h
    have hsame := (piggybackVC_view ht).2
    exact swSent_follows (hsame.trans hbuf) htail h
  next =>
    obtain ⟨⟨port, outVC⟩, -, h⟩ := Option.bind_eq_some_iff.mp h
    obtain ⟨-, h⟩ := guard_bind.mp h
    split at h
    next => exact absurd (length_eq_of_view (view_swTurnedBack h) _ _) hleaves
    next => exact swSent_follows hbuf htail h

theorem swAllocOne_follows (hbuf : (u.buf e.input e.vc).buffer = f :: nf :: rest)
    (htail : f.tail = true) (hleaves : (u'.buf e.input e.vc).buffer.length = rest.length + 1)
    (h : swAllocOne cfg o e u = some u') : Follows cfg (u'.buf e.input e.vc) nf.rtime := by
  unfold swAllocOne at h
  obtain ⟨-, h⟩ := guard_bind.mp h
  obtain ⟨front, hfront, h⟩ := Option.bind_eq_some_iff.mp h
  rw [hbuf] at hfront
  obtain rfl := Option.some.inj hfront
  obtain ⟨-, h⟩ := guard_bind.mp h
  obtain ⟨-, h⟩ := guard_bind.mp h
  obtain ⟨t, ht, h⟩ := Option.bind_eq_some_iff.mp h
  cases h
  have hless : (t.buf e.input e.vc).buffer.length ≠ (u.buf e.input e.vc).buffer.length := by
    have hshort : (t.buf e.input e.vc).buffer.length = rest.length + 1 := hleaves
    rw [hshort, hbuf]
    simp
  change Follows cfg (t.buf e.input e.vc) nf.rtime
  unfold swDecided at ht
  split at ht
  next => exact swGranted_follows hbuf htail hless ht
  next => exact absurd (length_eq_of_view (view_swFailed ht) _ _) hless

/-- The packet behind a tail flit enters routing as one that has just come to the front
if the flit has left through a held connection, and otherwise only if the packet has just
come in; without a routing stage it enters none. -/
theorem entersAfresh_iff (hs : Timed cfg s) (hnow : s.now < o.now) (hcomes : path.Comes cfg o s e u)
    (hround : path.round cfg o e u = some u')
    (hbuf : (u.buf e.input e.vc).buffer = f :: nf :: rest) (htail : f.tail = true)
    (hleaves : (u'.buf e.input e.vc).buffer.length = rest.length + 1) :
    EntersAfresh o.now (u'.buf e.input e.vc) ↔
      cfg.routingDelay = 0 ∨ path = .hold ∨
        rest = [] ∧ ∃ g, o.inQueueFlits e.input = some g ∧ g.vc = e.vc := by
  rw [← hcomes.rtime_eq_now hs hnow hbuf]
  cases path with
  | hold =>
      obtain ⟨queued, hqueued, hages⟩ := hcomes.ages
      have hunow : u.now = o.now := hages.now.trans (inputQueuing_queued hqueued e.input e.vc).1
      rw [(swHoldOne_follows hbuf htail hleaves hround).afresh_iff, hunow]
      simp
  | alloc =>
      rw [(swAllocOne_follows hbuf htail hleaves hround).afresh_iff]
      simp

end Next

/-! ### Two packets of one flit -/

/-- A router whose inputs hold two flits. -/
def roomy : PipelineConfig 3 := { middle false with bufferSize := 2 }

/-- A packet arrives, and another one behind it. -/
def eastTwice : Option (Pipeline 3 1) := do
  let s ← (initial fun _ => emptyBuffer).cycle roomy (eastCycle 1 true .powerOn)
  s.cycle roomy (eastCycle 2 true .powerOn)

theorem timed_eastTwice {s : Pipeline 3 1} (h : eastTwice = some s) : Timed roomy s := by
  unfold eastTwice at h
  obtain ⟨first, hfirst, hsecond⟩ := Option.bind_eq_some_iff.mp h
  have hstart : Timed roomy (initial (k := 3) fun _ => emptyBuffer) := .start _
  have htimed : Timed roomy first := hstart.cycle (by decide) hfirst
  have hnow : first.now < 2 := by
    obtain ⟨queued, hqueued, hages⟩ := cycle_ages hfirst
    rw [hages.now, (inputQueuing_queued hqueued 0 0).1]
    decide
  exact htimed.cycle hnow hsecond

/-- In the third cycle the first packet leaves through the switch allocator. -/
theorem exists_departure : ∃ s u u' : Pipeline 3 1, ∃ e : Entry 1 Nat,
    Timed roomy s ∧ s.now < 3 ∧
      Departure.alloc.Comes roomy (eastCycle 3 false .powerOn) s e u ∧
      Departure.alloc.round roomy (eastCycle 3 false .powerOn) e u = some u' ∧
      (u.buf e.input e.vc).buffer = [{ eastbound with rtime := 1 }, { eastbound with rtime := 2 }] ∧
      (u'.buf e.input e.vc).buffer = [{ eastbound with rtime := 2 }] ∧
      (u'.buf e.input e.vc).state = .routing := by
  have hrun : (eastTwice.bind fun s =>
      (s.beforeSWAlloc roomy (eastCycle 3 false .powerOn)).bind fun u =>
        (swAllocFront u).bind fun e =>
          (swAllocOne roomy (eastCycle 3 false .powerOn) e u).map fun u' =>
            (s.now, (u.buf e.input e.vc).buffer, (u'.buf e.input e.vc).buffer,
              (u'.buf e.input e.vc).state)) =
      some (2, [{ eastbound with rtime := 1 }, { eastbound with rtime := 2 }],
        [{ eastbound with rtime := 2 }], .routing) := rfl
  obtain ⟨s, hs, hrun⟩ := Option.bind_eq_some_iff.mp hrun
  obtain ⟨u, hu, hrun⟩ := Option.bind_eq_some_iff.mp hrun
  obtain ⟨e, he, hrun⟩ := Option.bind_eq_some_iff.mp hrun
  obtain ⟨u', hu', hrun⟩ := Option.map_eq_some_iff.mp hrun
  obtain ⟨hnow, hrun⟩ := Prod.mk.inj hrun
  obtain ⟨hbefore, hrun⟩ := Prod.mk.inj hrun
  obtain ⟨hafter, hstate⟩ := Prod.mk.inj hrun
  refine ⟨s, u, u', e, timed_eastTwice hs, ?_, ⟨u, hu, .here he⟩, hu', hbefore, hafter, hstate⟩
  rw [hnow]
  decide

theorem entersAfresh_iff_alloc : ∃ (u' : Pipeline 3 1) (e : Entry 1 Nat),
    EntersAfresh 3 (u'.buf e.input e.vc) ↔
      roomy.routingDelay = 0 ∨ Departure.alloc = .hold ∨
        ([] : List (Flit 3 1)) = [] ∧
          ∃ g, (eastCycle 3 false .powerOn).inQueueFlits e.input = some g ∧ g.vc = e.vc := by
  obtain ⟨s, u, u', e, hs, hnow, hcomes, hround, hbefore, hafter, -⟩ := exists_departure
  refine ⟨u', e, entersAfresh_iff hs hnow hcomes hround hbefore rfl ?_⟩
  rw [hafter]
  rfl

/-- The second packet has come in a cycle earlier and keeps that time. -/
theorem not_entersAfresh_alloc : ∃ (s u u' : Pipeline 3 1) (e : Entry 1 Nat) (f nf : Flit 3 1),
    Timed roomy s ∧ s.now < 3 ∧
      Departure.alloc.Comes roomy (eastCycle 3 false .powerOn) s e u ∧
      Departure.alloc.round roomy (eastCycle 3 false .powerOn) e u = some u' ∧
      (u.buf e.input e.vc).buffer = [f, nf] ∧ f.tail = true ∧ nf.head = true ∧
      (u'.buf e.input e.vc).buffer.length = 1 ∧ ¬ EntersAfresh 3 (u'.buf e.input e.vc) := by
  obtain ⟨s, u, u', e, hs, hnow, hcomes, hround, hbefore, hafter, hstate⟩ := exists_departure
  refine ⟨s, u, u', e, _, _, hs, hnow, hcomes, hround, hbefore, rfl, rfl, ?_, ?_⟩
  · rw [hafter]
    rfl
  · intro hafresh
    have htime := hafresh hstate { eastbound with rtime := 2 } (by rw [hafter]; rfl)
    exact absurd htime (by decide)

end Pipeline

end Flyover
