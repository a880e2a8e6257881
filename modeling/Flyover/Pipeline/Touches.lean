import Flyover.Pipeline.Schemes
import Flyover.Pipeline.Ages

/-!
# What a round does to the other channels

A round of a stage is about one virtual channel. It leaves the others as they are and
their entries in the queues; what it puts into a queue comes last and has no time yet.
-/

namespace Flyover

namespace Pipeline

variable {k vcs : Nat} {cfg : PipelineConfig k} {o : Outside k vcs}

/-! ### Queues -/

section Queues

variable {α : Type} {input : Fin 5} {vc : Fin vcs} {queue queue' queue'' : List (Entry vcs α)}

/-- Entries of one channel are taken away, and entries without a time are added for it. -/
def Spared (input : Fin 5) (vc : Fin vcs) (queue queue' : List (Entry vcs α)) : Prop :=
  ∃ old fresh, old.Sublist queue ∧ (∀ e ∈ queue, e.isFor input vc = false → e ∈ old) ∧
    queue' = old ++ fresh ∧ ∀ e ∈ fresh, e.time = none ∧ e.isFor input vc = true

namespace Spared

theorem of_sublist (hsub : queue'.Sublist queue)
    (hkept : ∀ e ∈ queue, e.isFor input vc = false → e ∈ queue') :
    Spared input vc queue queue' :=
  ⟨queue', [], hsub, hkept, (List.append_nil _).symm, nofun⟩

theorem refl (queue : List (Entry vcs α)) : Spared input vc queue queue :=
  of_sublist (List.Sublist.refl _) fun _ he _ => he

theorem trans (h : Spared input vc queue queue') (h' : Spared input vc queue' queue'') :
    Spared input vc queue queue'' := by
  obtain ⟨old, fresh, hsub, hkept, rfl, hfresh⟩ := h
  obtain ⟨old', fresh', hsub', hkept', rfl, hfresh'⟩ := h'
  obtain ⟨first, second, rfl, hfirst, hsecond⟩ := List.sublist_append_iff.mp hsub'
  refine ⟨first, second ++ fresh', hfirst.trans hsub, fun e he hother => ?_,
    List.append_assoc _ _ _, fun e he => ?_⟩
  · have hmem := hkept' e (List.mem_append_left fresh (hkept e he hother)) hother
    rcases List.mem_append.mp hmem with hmem | hmem
    · exact hmem
    · rw [(hfresh e (hsecond.subset hmem)).2] at hother
      exact nomatch hother
  · rcases List.mem_append.mp he with he | he
    · exact hfresh e (hsecond.subset he)
    · exact hfresh' e he

theorem append (queue : List (Entry vcs α)) :
    Spared input vc queue (queue ++ [{ input := input, vc := vc }]) := by
  refine ⟨queue, _, List.Sublist.refl _, fun _ he _ => he, rfl, fun x hx => ?_⟩
  rw [List.mem_singleton.mp hx]
  exact ⟨rfl, decide_eq_true ⟨rfl, rfl⟩⟩

theorem eraseP (queue : List (Entry vcs α)) :
    Spared input vc queue (queue.eraseP (Entry.isFor input vc)) := by
  apply of_sublist List.eraseP_sublist
  intro e he hother
  exact (List.mem_eraseP_of_neg (by simp [hother])).mpr he

theorem eraseSkipping (queue : List (Entry vcs α)) :
    Spared input vc queue (Pipeline.eraseSkipping (Entry.isFor input vc) queue) := by
  have hboth : (Pipeline.eraseSkipping (Entry.isFor input vc) queue).Sublist queue ∧
      ∀ e ∈ queue, e.isFor input vc = false →
        e ∈ Pipeline.eraseSkipping (Entry.isFor input vc) queue := by
    induction queue using eraseSkipping.induct (p := Entry.isFor input vc) with
    | case1 => exact ⟨List.Sublist.refl _, fun _ he _ => he⟩
    | case2 e hself => simp [Pipeline.eraseSkipping, hself]
    | case3 e hself y rest ih =>
        rw [Pipeline.eraseSkipping, if_pos hself]
        refine ⟨(ih.1.cons_cons y).cons e, fun x hx hother => ?_⟩
        rcases List.mem_cons.mp hx with rfl | hx
        · rw [hself] at hother
          exact nomatch hother
        · rcases List.mem_cons.mp hx with rfl | hrest
          · exact List.mem_cons_self
          · exact List.mem_cons_of_mem y (ih.2 x hrest hother)
    | case4 e rest hother ih =>
        have hstep : Pipeline.eraseSkipping (Entry.isFor input vc) (e :: rest) =
            e :: Pipeline.eraseSkipping (Entry.isFor input vc) rest := by
          rw [Pipeline.eraseSkipping.eq_def]
          exact if_neg hother
        rw [hstep]
        refine ⟨ih.1.cons_cons e, fun x hx hx' => ?_⟩
        rcases List.mem_cons.mp hx with rfl | hrest
        · exact List.mem_cons_self
        · exact List.mem_cons_of_mem e (ih.2 x hrest hx')
  exact of_sublist hboth.1 hboth.2

/-- The entry in front is taken away. -/
theorem tail {e : Entry vcs α} (hhead : queue.head? = some e) (hself : e.isFor input vc = true) :
    Spared input vc queue queue.tail := by
  apply of_sublist (List.tail_sublist _)
  intro x hx hother
  obtain ⟨rest, rfl⟩ := List.head?_eq_some_iff.mp hhead
  rcases List.mem_cons.mp hx with rfl | hrest
  · rw [hself] at hother
    exact nomatch hother
  · exact hrest

end Spared

end Queues

/-- A channel that waits for an output virtual channel has none. -/
def InputVC.Unassigned (c : InputVC k vcs) : Prop := c.state = .vcAlloc → c.out = none

/-- A round for one channel. -/
structure Touches (input : Fin 5) (vc : Fin vcs) (s s' : Pipeline k vcs) : Prop where
  now : s'.now = s.now
  buf : ∀ i v, ¬ (i = input ∧ v = vc) → s'.buf i v = s.buf i v
  unassigned : (s.buf input vc).Unassigned → (s'.buf input vc).Unassigned
  vcAlloc : Spared input vc s.vcAllocVCs s'.vcAllocVCs
  swHold : ∀ e ∈ s'.swHoldVCs, e.time ≠ none → e ∈ s.swHoldVCs
  swAlloc : Spared input vc s.swAllocVCs s'.swAllocVCs

namespace Touches

variable {input : Fin 5} {vc : Fin vcs} {s t u : Pipeline k vcs}

theorem refl (s : Pipeline k vcs) : Touches input vc s s :=
  ⟨rfl, fun _ _ _ => rfl, id, .refl _, fun _ he _ => he, .refl _⟩

theorem trans (h : Touches input vc s t) (h' : Touches input vc t u) : Touches input vc s u where
  now := h'.now.trans h.now
  buf := fun i v hother => (h'.buf i v hother).trans (h.buf i v hother)
  unassigned := h'.unassigned ∘ h.unassigned
  vcAlloc := h.vcAlloc.trans h'.vcAlloc
  swHold := fun e he htime => h.swHold e (h'.swHold e he htime) htime
  swAlloc := h.swAlloc.trans h'.swAlloc

/-- The queues change, and what a packet does not wait for. -/
theorem queues (h : Touches input vc s t) (hnow : u.now = t.now) (hbuf : u.buf = t.buf)
    (hvc : Spared input vc t.vcAllocVCs u.vcAllocVCs)
    (hhold : ∀ e ∈ u.swHoldVCs, e.time ≠ none → e ∈ t.swHoldVCs)
    (hsw : Spared input vc t.swAllocVCs u.swAllocVCs) : Touches input vc s u :=
  h.trans ⟨hnow, fun _ _ _ => by rw [hbuf], by rw [hbuf]; exact id, hvc, hhold, hsw⟩

theorem aside (h : Touches input vc s t) (hnow : u.now = t.now) (hbuf : u.buf = t.buf)
    (hvc : u.vcAllocVCs = t.vcAllocVCs) (hhold : u.swHoldVCs = t.swHoldVCs)
    (hsw : u.swAllocVCs = t.swAllocVCs) : Touches input vc s u :=
  h.queues hnow hbuf (hvc ▸ .refl _) (fun _ he _ => hhold ▸ he) (hsw ▸ .refl _)

theorem withVCAlloc (h : Touches input vc s t) (hnow : u.now = t.now) (hbuf : u.buf = t.buf)
    (hvc : Spared input vc t.vcAllocVCs u.vcAllocVCs) (hhold : u.swHoldVCs = t.swHoldVCs)
    (hsw : u.swAllocVCs = t.swAllocVCs) : Touches input vc s u :=
  h.queues hnow hbuf hvc (fun _ he _ => hhold ▸ he) (hsw ▸ .refl _)

theorem withSWAlloc (h : Touches input vc s t) (hnow : u.now = t.now) (hbuf : u.buf = t.buf)
    (hvc : u.vcAllocVCs = t.vcAllocVCs) (hhold : u.swHoldVCs = t.swHoldVCs)
    (hsw : Spared input vc t.swAllocVCs u.swAllocVCs) : Touches input vc s u :=
  h.queues hnow hbuf (hvc ▸ .refl _) (fun _ he _ => hhold ▸ he) hsw

/-- The channel is put behind the queue of the held connections. -/
theorem waitToHold (h : Touches input vc s t) (hnow : u.now = t.now) (hbuf : u.buf = t.buf)
    (hvc : u.vcAllocVCs = t.vcAllocVCs)
    (hhold : u.swHoldVCs = t.swHoldVCs ++ [{ input := input, vc := vc }])
    (hsw : u.swAllocVCs = t.swAllocVCs) : Touches input vc s u := by
  refine h.queues hnow hbuf (hvc ▸ .refl _) (fun e he htime => ?_) (hsw ▸ .refl _)
  rw [hhold] at he
  rcases List.mem_append.mp he with hold | hnew
  · exact hold
  · rw [List.mem_singleton.mp hnew] at htime
    exact absurd rfl htime

theorem modifyVC (h : Touches input vc s t) {g : InputVC k vcs → InputVC k vcs}
    (hg : (t.buf input vc).Unassigned → (g (t.buf input vc)).Unassigned) :
    Touches input vc s (t.modifyVC input vc g) := by
  apply h.trans
  refine ⟨rfl, fun _ _ hother => modifyVC_of_ne t g hother, fun hc => ?_, .refl _,
    fun _ he _ => he, .refl _⟩
  rw [modifyVC_self]
  exact hg hc

theorem enterRouting (h : Touches input vc s t) : Touches input vc s (t.enterRouting input vc) := by
  have hset : Touches input vc s (t.modifyVC input vc (·.setState .routing)) :=
    h.modifyVC fun _ => nofun
  exact hset.aside rfl rfl rfl rfl rfl

theorem dropRoute (h : Touches input vc s t) : Touches input vc s (t.dropRoute input vc) := by
  have hcleared : Touches input vc s (t.modifyVC input vc (·.clearRouteSet)) := h.modifyVC id
  exact hcleared.enterRouting

theorem enterAllocation (h : Touches input vc s t) :
    Touches input vc s (t.enterAllocation cfg input vc) := by
  apply queues h
  · rfl
  · rfl
  · unfold Pipeline.enterAllocation
    dsimp only
    split
    · exact .refl _
    · exact .append _
  · exact fun _ he _ => he
  · unfold Pipeline.enterAllocation
    dsimp only
    split
    · exact .append _
    · exact .refl _

theorem useLookahead (h : Touches input vc s t) {f : Flit k vcs} :
    Yields (t.useLookahead cfg o input vc f) (Touches input vc s) := by
  have hbegun : Touches input vc s ((t.modifyVC input vc fun c =>
      (c.setRouteSet f.laRouteSet).setState .vcAlloc).enterAllocation cfg input vc) :=
    (h.modifyVC fun _ _ => rfl).enterAllocation
  apply Yields.ite
  · intro _
    exact updateNOQ_eq.mono fun u ⟨noq, hu⟩ => hu ▸ hbegun.aside rfl rfl rfl rfl rfl
  · exact fun _ => .some hbegun

theorem takeIn (h : Touches input vc s t) {f : Flit k vcs} (hvc : f.vc = vc) :
    Yields (t.takeIn cfg o input f) (Touches input vc s) := by
  subst hvc
  unfold Pipeline.takeIn
  dsimp only
  split
  · apply Yields.bind_any; intro _
    apply Yields.bind_any; intro _
    apply Yields.bind_any; intro _
    apply Yields.ite
    · exact fun _ => .pure h.enterRouting
    · exact fun _ => h.useLookahead
  · apply Yields.ite
    · intro _
      apply Yields.ite
      · exact fun _ => .pure (h.waitToHold rfl rfl rfl rfl rfl)
      · exact fun _ => .pure (h.withSWAlloc rfl rfl rfl rfl (.append _))
    · exact fun _ => .pure h
  · exact .pure h
  · exact .pure h

theorem queueFlit :
    Yields (s.queueFlit cfg o input) fun t =>
      t = s ∨ ∃ f ∈ o.inQueueFlits input, Touches input f.vc s t := by
  unfold Pipeline.queueFlit
  split
  · exact .some (.inl rfl)
  · rename_i f hflit
    apply Yields.bind_any; intro _
    apply Yields.bind_eq; intro c hc
    have hadded : Touches input f.vc s (s.modifyVC input f.vc fun _ => c) := by
      apply (refl s).modifyVC
      obtain ⟨pid, rfl⟩ := InputVC.addFlit_eq hc
      exact id
    intro t ht
    exact .inr ⟨f, hflit, hadded.takeIn (f := { f with rtime := s.now }) rfl t ht⟩

theorem sendFlit (h : Touches input vc s t) {α : Type} {e : Entry vcs α}
    (hinput : e.input = input) (hvc : e.vc = vc) {f : Flit k vcs} {output : Fin 5}
    {outVC : Fin vcs} {expandedOutput : Nat} :
    Yields (t.sendFlit cfg o e f output outVC expandedOutput) (Touches input vc s) := by
  subst hinput hvc
  apply Yields.bind_any; intro _
  apply Yields.bind_any; intro _
  have hremoved : Touches e.input e.vc s (t.modifyVC e.input e.vc (·.removeFlit)) := h.modifyVC id
  exact .pure (hremoved.aside rfl rfl rfl rfl rfl)

/-! ### Rounds -/

variable {e : Entry vcs Nat} {f : Flit k vcs}

theorem holdSent {expandedOutput : Nat} :
    Yields (t.holdSent cfg o e f expandedOutput) (Touches e.input e.vc t) := by
  apply Yields.bind_any; intro _
  apply Yields.bind_any; intro _
  apply Yields.bind_any; intro _
  apply Yields.bind_any; intro out
  apply Yields.bind_any; intro _
  refine Yields.bind ((refl t).sendFlit rfl rfl) ?_
  intro u hu
  have hcancelled : Touches e.input e.vc t
      (u.cancelHold (cfg.expandedInput e.input e.vc) expandedOutput) := hu.aside rfl rfl rfl rfl rfl
  split
  · apply Yields.pure
    split
    · exact hcancelled.modifyVC fun _ => nofun
    · exact hcancelled
  · apply Yields.bind_any; intro _
    apply Yields.ite
    · intro _
      apply Yields.bind_any; intro _
      apply Yields.ite
      · exact fun _ => .pure (hcancelled.enterRouting.modifyVC id)
      · exact fun _ => hcancelled.useLookahead
    · exact fun _ => .pure (hu.waitToHold rfl rfl rfl rfl rfl)

theorem holdFailed : Yields (t.holdFailed cfg e) (Touches e.input e.vc t) := by
  apply Yields.bind_any; intro _
  exact .pure ((refl t).withSWAlloc rfl rfl rfl rfl (.append _))

theorem swHoldOne : Yields (Pipeline.swHoldOne cfg o e t) (Touches e.input e.vc t) := by
  apply Yields.bind_any; intro _
  apply Yields.bind_any; intro f
  apply Yields.bind_any; intro _
  apply Yields.bind_any; intro _
  apply Yields.bind_any; intro _
  have hdecided : Yields (t.holdDecided cfg o e f) (Touches e.input e.vc t) := by
    unfold Pipeline.holdDecided
    split
    · exact holdSent
    · exact holdFailed
  refine hdecided.bind fun u hu => .pure ?_
  apply queues hu
  · rfl
  · rfl
  · exact .refl _
  · exact fun _ he _ => List.mem_of_mem_tail he
  · exact .refl _

theorem swSent (h : Touches e.input e.vc s t) {output : Fin 5} {outVC : Fin vcs}
    {expandedOutput : Nat} :
    Yields (t.swSent cfg o e f output outVC expandedOutput) (Touches e.input e.vc s) := by
  refine Yields.bind (h.sendFlit rfl rfl) ?_
  intro u hu
  split
  · apply Yields.pure
    split
    · exact hu.modifyVC fun _ => nofun
    · exact hu
  · apply Yields.bind_any; intro _
    apply Yields.ite
    · intro _
      apply Yields.bind_any; intro _
      apply Yields.ite
      · exact fun _ => .pure hu.enterRouting
      · exact fun _ => hu.useLookahead
    · intro _
      apply Yields.ite
      · exact fun _ => .pure (hu.waitToHold rfl rfl rfl rfl rfl)
      · exact fun _ => .pure (hu.withSWAlloc rfl rfl rfl rfl (.append _))

theorem piggybackVC {output : Fin 5} :
    Yields (t.piggybackVC cfg e f output) fun out => Touches e.input e.vc t out.1 := by
  apply Yields.bind_any; intro _
  apply Yields.bind_any; intro outVC
  apply Yields.bind_any; intro _
  have hactive : Touches e.input e.vc t (t.modifyVC e.input e.vc fun c =>
      (c.setState .active).setOutput output outVC) := (refl t).modifyVC fun _ => nofun
  exact .pure (hactive.aside rfl rfl rfl rfl rfl)

theorem swTurnedBack {output : Fin 5} {outVC : Fin vcs} :
    Yields (t.swTurnedBack e output outVC) (Touches e.input e.vc t) := by
  apply Yields.ite
  · intro _
    apply Yields.some
    apply dropRoute
    exact (refl t).withVCAlloc rfl rfl (.eraseP _) rfl rfl
  · intro _
    apply Yields.bind_any; intro _
    apply Yields.pure
    apply dropRoute
    exact (refl t).aside rfl rfl rfl rfl rfl

variable {scheme : Scheme}

theorem routeOne {e : Entry vcs Unit} :
    Yields (scheme.routeOne cfg o e t) (Touches e.input e.vc t) := by
  apply Yields.bind_any; intro _
  apply Yields.bind_any; intro f
  apply Yields.bind_any; intro _
  apply Yields.bind_any; intro _
  apply Yields.bind_any; intro _
  have hrouted : Touches e.input e.vc t ((t.modifyVC e.input e.vc fun c =>
      ((c.setRouteSet (o.route e.input f)).setState .vcAlloc).setRtime t.now).enterAllocation cfg
        e.input e.vc) := ((refl t).modifyVC fun _ _ => rfl).enterAllocation
  exact .pure (hrouted.aside rfl rfl rfl rfl rfl)

theorem vcGranted {e : Entry vcs (Fin 5 × Fin vcs)} {out : Fin 5} {outVC : Fin vcs} :
    Yields (scheme.vcGranted cfg o e out outVC t) (Touches e.input e.vc t) := by
  apply Yields.ite
  · intro _
    apply Yields.some
    split
    · exact (refl t).dropRoute.withSWAlloc rfl rfl rfl rfl (.eraseSkipping _)
    · exact (refl t).dropRoute
  · intro _
    apply Yields.bind_any; intro dest
    have hactive : Touches e.input e.vc t (({ t with nextBuf := Function.update t.nextBuf out dest } :
        Pipeline k vcs).modifyVC e.input e.vc fun c => (c.setOutput out outVC).setState .active) := by
      refine modifyVC ?_ fun _ => nofun
      exact (refl t).aside rfl rfl rfl rfl rfl
    apply Yields.pure
    split
    · exact hactive
    · exact hactive.withSWAlloc rfl rfl rfl rfl (.append _)

theorem vcFailed {e : Entry vcs (Fin 5 × Fin vcs)} :
    Yields (scheme.vcFailed cfg o e f t) (Touches e.input e.vc t) := by
  apply Yields.bind_any; intro _
  apply Yields.ite
  · intro _
    apply Yields.pure
    split
    · exact (refl t).dropRoute.withSWAlloc rfl rfl rfl rfl (.eraseSkipping _)
    · exact (refl t).dropRoute
  · intro _
    apply Yields.ite
    · intro _
      apply Yields.pure
      split
      · exact (refl t).enterRouting.withSWAlloc rfl rfl rfl rfl (.eraseP _)
      · exact (refl t).enterRouting
    · exact fun _ => .pure ((refl t).withVCAlloc rfl rfl (.append _) rfl rfl)

theorem vcDecided {e : Entry vcs (Fin 5 × Fin vcs)} :
    Yields (scheme.vcDecided cfg o e f t) (Touches e.input e.vc t) := by
  unfold Scheme.vcDecided
  split
  · exact vcGranted
  · exact vcFailed

theorem swLostRoute :
    Yields (scheme.swLostRoute cfg o e f t) fun dropped =>
      ∀ u ∈ dropped, Touches e.input e.vc t u := by
  apply Yields.ite
  · exact fun _ => .some nofun
  · intro _
    apply Yields.ite
    · intro _
      apply Yields.bind_any; intro _
      apply Yields.bind_any; intro _
      apply Yields.pure
      split
      · intro u hu
        cases hu
        apply dropRoute
        exact (refl t).withVCAlloc rfl rfl (.eraseP _) rfl rfl
      · exact nofun
    · intro _
      apply Yields.bind_any; intro out
      apply Yields.ite
      · intro _
        apply Yields.bind_any; intro _
        apply Yields.pure
        intro u hu
        cases hu
        apply dropRoute
        exact (refl t).aside rfl rfl rfl rfl rfl
      · exact fun _ => .pure nofun

theorem withdraw (scheme : Scheme) {α : Type} (queue : List (Entry vcs α)) :
    Spared input vc queue (scheme.withdraw input vc queue) := by
  unfold Scheme.withdraw
  split
  · exact .eraseSkipping queue
  · exact .eraseP queue

theorem swTimedOut : Yields (scheme.swTimedOut e t) (Touches e.input e.vc t) := by
  apply Yields.ite
  · intro _
    apply Yields.bind_any; intro out
    apply Yields.bind_any; intro _
    apply Yields.pure
    apply enterRouting
    exact (refl t).aside rfl rfl rfl rfl rfl
  · intro _
    apply Yields.bind_any; intro _
    apply Yields.pure
    apply enterRouting
    exact (refl t).withVCAlloc rfl rfl (withdraw scheme _) rfl rfl

theorem swFailed : Yields (scheme.swFailed cfg o e f t) (Touches e.input e.vc t) := by
  refine Yields.bind swLostRoute ?_
  intro dropped hdropped
  cases dropped with
  | some u => exact .pure (hdropped u rfl)
  | none =>
      apply Yields.ite
      · exact fun _ => swTimedOut
      · exact fun _ => .pure ((refl t).withSWAlloc rfl rfl rfl rfl (.append _))

theorem swGranted {expandedOutput : Nat} :
    Yields (scheme.swGranted cfg o e f expandedOutput t) (Touches e.input e.vc t) := by
  apply Yields.bind_any; intro _
  apply Yields.bind_any; intro output
  apply Yields.ite
  · intro _
    refine Yields.bind piggybackVC ?_
    intro out hout
    exact hout.swSent
  · intro _
    apply Yields.bind_any; intro out
    apply Yields.bind_any; intro _
    apply Yields.ite
    · exact fun _ => swTurnedBack
    · exact fun _ => (refl t).swSent

theorem swDecided : Yields (scheme.swDecided cfg o e f t) (Touches e.input e.vc t) := by
  unfold Scheme.swDecided
  split
  · exact swGranted
  · exact swFailed

end Touches

end Pipeline

end Flyover
