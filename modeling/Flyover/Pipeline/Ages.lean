import Flyover.Pipeline.Updates
import Flyover.Progress.Yields

/-!
# How long flits have waited

A flit gets the time of its arrival, and again that of the cycle when it is routed
and, on one of two paths, when the packet before it leaves. Within a cycle the
flits behind the one in front are left alone, whatever the stages do.
-/

namespace Flyover

namespace Pipeline

variable {k vcs : Nat} {cfg : PipelineConfig k} {o : Outside k vcs}

/-- What may become of the flits of a channel within a cycle, after the new ones have
come in: flits leave in front, and the one in front gets the current time. -/
structure Aged (now : Int) (old new : List (Flit k vcs)) : Prop where
  behind : new.tail <:+ old.tail
  rtime : ∀ f ∈ new, f ∈ old ∨ f.rtime = now

namespace Aged

variable {now : Int} {old new newer : List (Flit k vcs)}

theorem refl (old : List (Flit k vcs)) : Aged now old old :=
  ⟨List.suffix_refl _, fun _ => Or.inl⟩

theorem trans (h : Aged now old new) (h' : Aged now new newer) : Aged now old newer where
  behind := h'.behind.trans h.behind
  rtime := by
    intro f hf
    rcases h'.rtime f hf with hnew | htime
    · exact h.rtime f hnew
    · exact .inr htime

/-- The flit in front leaves. -/
theorem tail (old : List (Flit k vcs)) : Aged now old old.tail :=
  ⟨List.tail_suffix _, fun _ hf => .inl (List.mem_of_mem_tail hf)⟩

/-- The flit in front gets the current time. -/
theorem setRtime (c : InputVC k vcs) : Aged now c.buffer (c.setRtime now).buffer := by
  unfold InputVC.setRtime
  cases c.buffer with
  | nil => exact refl []
  | cons f rest =>
      refine ⟨List.suffix_refl _, fun g hg => ?_⟩
      rcases List.mem_cons.mp hg with rfl | hrest
      · exact .inr rfl
      · exact .inl (List.mem_cons_of_mem f hrest)

end Aged

/-- A flit that comes in is put behind the others. -/
theorem InputVC.addFlit_eq {c c' : InputVC k vcs} {f : Flit k vcs} (h : c.addFlit f = some c') :
    ∃ pid, c' = { c with buffer := c.buffer ++ [f], expectedPid := pid } := by
  unfold InputVC.addFlit at h
  split at h
  · split at h
    · exact nomatch h
    · exact ⟨_, (Option.some.inj h).symm⟩
  · exact ⟨_, (Option.some.inj h).symm⟩

theorem enterRouting_self (s : Pipeline k vcs) (input : Fin 5) (vc : Fin vcs) :
    (s.enterRouting input vc).buf input vc = (s.buf input vc).setState .routing :=
  modifyVC_self s input vc (·.setState .routing)

/-- The ranges of NOQ are kept beside everything else. -/
theorem updateNOQ_eq {s : Pipeline k vcs} {input : Fin 5} {vc : Fin vcs} {f : Flit k vcs} :
    Yields (s.updateNOQ cfg o input vc f) fun t => ∃ noq, t = { s with noqNext := noq } := by
  unfold Pipeline.updateNOQ
  apply Yields.bind_any; intro _
  split
  · apply Yields.bind_any; intro _
    apply Yields.ite
    · exact fun _ => .pure ⟨s.noqNext, rfl⟩
    · intro _
      split
      · apply Yields.bind_any; intro _
        apply Yields.bind_any; intro _
        apply Yields.bind_any; intro _
        apply Yields.bind_any; intro _
        apply Yields.bind_any; intro _
        exact .pure ⟨_, rfl⟩
      · exact .none
  · exact .none

/-- Every channel has the flits that it had. -/
structure Untouched (s s' : Pipeline k vcs) : Prop where
  now : s'.now = s.now
  buffer : ∀ i v, (s'.buf i v).buffer = (s.buf i v).buffer

namespace Untouched

variable {s t u : Pipeline k vcs} {input : Fin 5} {vc : Fin vcs}

theorem refl (s : Pipeline k vcs) : Untouched s s := ⟨rfl, fun _ _ => rfl⟩

theorem trans (h : Untouched s t) (h' : Untouched t u) : Untouched s u where
  now := h'.now.trans h.now
  buffer := fun i v => (h'.buffer i v).trans (h.buffer i v)

theorem modifyVC {g : InputVC k vcs → InputVC k vcs} (s : Pipeline k vcs)
    (hg : (g (s.buf input vc)).buffer = (s.buf input vc).buffer) :
    Untouched s (s.modifyVC input vc g) := by
  refine ⟨rfl, fun i v => ?_⟩
  by_cases hself : i = input ∧ v = vc
  · obtain ⟨rfl, rfl⟩ := hself
    rw [modifyVC_self]
    exact hg
  · rw [modifyVC_of_ne s g hself]

theorem enterRouting (s : Pipeline k vcs) (input : Fin 5) (vc : Fin vcs) :
    Untouched s (s.enterRouting input vc) := by
  have hset : Untouched s (s.modifyVC input vc (·.setState .routing)) := modifyVC s rfl
  exact ⟨hset.now, hset.buffer⟩

theorem updateNOQ {f : Flit k vcs} : Yields (s.updateNOQ cfg o input vc f) (Untouched s) :=
  updateNOQ_eq.mono fun _ ⟨_, hu⟩ => hu ▸ ⟨rfl, fun _ _ => rfl⟩

theorem useLookahead {f : Flit k vcs} :
    Yields (s.useLookahead cfg o input vc f) (Untouched s) := by
  have hset : Untouched s (s.modifyVC input vc fun c =>
      (c.setRouteSet f.laRouteSet).setState .vcAlloc) := modifyVC s rfl
  have hbegun : Untouched s ((s.modifyVC input vc fun c =>
      (c.setRouteSet f.laRouteSet).setState .vcAlloc).enterAllocation cfg input vc) :=
    ⟨hset.now, hset.buffer⟩
  apply Yields.ite
  · exact fun _ => updateNOQ.mono fun _ hu => hbegun.trans hu
  · exact fun _ => .some hbegun

theorem takeIn {f : Flit k vcs} : Yields (s.takeIn cfg o input f) (Untouched s) := by
  unfold Pipeline.takeIn
  dsimp only
  split
  · apply Yields.bind_any; intro _
    apply Yields.bind_any; intro _
    apply Yields.bind_any; intro _
    apply Yields.ite
    · exact fun _ => .pure (enterRouting s input f.vc)
    · exact fun _ => useLookahead
  · apply Yields.ite
    · intro _
      apply Yields.ite
      · exact fun _ => .pure ⟨rfl, fun _ _ => rfl⟩
      · exact fun _ => .pure ⟨rfl, fun _ _ => rfl⟩
    · exact fun _ => .pure (refl s)
  · exact .pure (refl s)
  · exact .pure (refl s)

end Untouched

/-- What the stages do to the flits of a router. -/
structure Ages (s s' : Pipeline k vcs) : Prop where
  now : s'.now = s.now
  buffer : ∀ i v, Aged s.now (s.buf i v).buffer (s'.buf i v).buffer

namespace Ages

variable {s t u : Pipeline k vcs}

theorem refl (s : Pipeline k vcs) : Ages s s := ⟨rfl, fun _ _ => .refl _⟩

theorem trans (h : Ages s t) (h' : Ages t u) : Ages s u where
  now := h'.now.trans h.now
  buffer := fun i v => (h.buffer i v).trans (h.now ▸ h'.buffer i v)

theorem untouched (h : Ages s t) (h' : Untouched t u) : Ages s u :=
  h.trans ⟨h'.now, fun i v => h'.buffer i v ▸ .refl _⟩

/-- The channels are not touched at all. -/
theorem of_buf (h : Ages s t) (hnow : u.now = t.now) (hbuf : u.buf = t.buf) : Ages s u :=
  h.untouched ⟨hnow, fun _ _ => by rw [hbuf]⟩

theorem modifyVC (h : Ages s t) {input : Fin 5} {vc : Fin vcs} {g : InputVC k vcs → InputVC k vcs}
    (hg : Aged t.now (t.buf input vc).buffer (g (t.buf input vc)).buffer) :
    Ages s (t.modifyVC input vc g) := by
  refine h.trans ⟨rfl, fun i v => ?_⟩
  by_cases hself : i = input ∧ v = vc
  · obtain ⟨rfl, rfl⟩ := hself
    rw [modifyVC_self]
    exact hg
  · rw [modifyVC_of_ne t g hself]
    exact .refl _

theorem enterRouting (h : Ages s t) (input : Fin 5) (vc : Fin vcs) :
    Ages s (t.enterRouting input vc) := h.untouched (.enterRouting t input vc)

theorem dropRoute (h : Ages s t) (input : Fin 5) (vc : Fin vcs) : Ages s (t.dropRoute input vc) :=
  (h.modifyVC (.refl _)).enterRouting input vc

theorem useLookahead (h : Ages s t) {input : Fin 5} {vc : Fin vcs} {f : Flit k vcs} :
    Yields (t.useLookahead cfg o input vc f) (Ages s) :=
  Untouched.useLookahead.mono fun _ hu => h.untouched hu

/-! ### The stages -/

theorem routeOne (h : Ages s t) {e : Entry vcs Unit} :
    Yields (Pipeline.routeOne cfg o e t) (Ages s) := by
  apply Yields.bind_any; intro _
  apply Yields.bind_any; intro f
  apply Yields.bind_any; intro _
  apply Yields.bind_any; intro _
  apply Yields.bind_any; intro _
  have hrouted : Ages s (t.modifyVC e.input e.vc fun c =>
      ((c.setRouteSet (o.route e.input f)).setState .vcAlloc).setRtime t.now) :=
    h.modifyVC (.setRtime _)
  exact .pure (hrouted.of_buf rfl rfl)

theorem vcGranted (h : Ages s t) {e : Entry vcs (Fin 5 × Fin vcs)} {out : Fin 5}
    {outVC : Fin vcs} : Yields (t.vcGranted cfg e out outVC) (Ages s) := by
  apply Yields.ite
  · intro _
    apply Yields.some
    split
    · exact (h.dropRoute _ _).of_buf rfl rfl
    · exact h.dropRoute _ _
  · intro _
    apply Yields.bind_any; intro dest
    have hactive : Ages s (({ t with nextBuf := Function.update t.nextBuf out dest } :
        Pipeline k vcs).modifyVC e.input e.vc fun c => (c.setOutput out outVC).setState .active) := by
      apply modifyVC
      · exact h.of_buf rfl rfl
      · exact .refl _
    apply Yields.pure
    split
    · exact hactive
    · exact hactive.of_buf rfl rfl

theorem vcFailed (h : Ages s t) {e : Entry vcs (Fin 5 × Fin vcs)} {f : Flit k vcs} :
    Yields (t.vcFailed cfg e f) (Ages s) := by
  apply Yields.bind_any; intro _
  apply Yields.ite
  · intro _
    apply Yields.pure
    split
    · exact (h.dropRoute _ _).of_buf rfl rfl
    · exact h.dropRoute _ _
  · intro _
    apply Yields.ite
    · intro _
      apply Yields.pure
      split
      · exact (h.enterRouting _ _).of_buf rfl rfl
      · exact h.enterRouting _ _
    · exact fun _ => .pure (h.of_buf rfl rfl)

theorem vcAllocOne (h : Ages s t) {e : Entry vcs (Fin 5 × Fin vcs)} :
    Yields (Pipeline.vcAllocOne cfg e t) (Ages s) := by
  apply Yields.bind_any; intro _
  apply Yields.bind_any; intro f
  apply Yields.bind_any; intro _
  apply Yields.bind_any; intro _
  have hdecided : Yields (t.vcDecided cfg e f) (Ages s) := by
    unfold Pipeline.vcDecided
    split
    · exact h.vcGranted
    · exact h.vcFailed
  exact hdecided.bind fun u hu => .pure (hu.of_buf rfl rfl)

theorem sendFlit (h : Ages s t) {α : Type} {e : Entry vcs α} {f : Flit k vcs} {output : Fin 5}
    {outVC : Fin vcs} {expandedOutput : Nat} :
    Yields (t.sendFlit cfg o e f output outVC expandedOutput) (Ages s) := by
  apply Yields.bind_any; intro _
  apply Yields.bind_any; intro _
  have hremoved : Ages s (t.modifyVC e.input e.vc (·.removeFlit)) := h.modifyVC (.tail _)
  exact .pure (hremoved.of_buf rfl rfl)

theorem setState (h : Ages s t) (input : Fin 5) (vc : Fin vcs) (state : VCState) :
    Ages s (t.modifyVC input vc (·.setState state)) := h.modifyVC (.refl _)

theorem holdSent (h : Ages s t) {e : Entry vcs Nat} {f : Flit k vcs} {expandedOutput : Nat} :
    Yields (t.holdSent cfg o e f expandedOutput) (Ages s) := by
  apply Yields.bind_any; intro _
  apply Yields.bind_any; intro _
  apply Yields.bind_any; intro _
  apply Yields.bind_any; intro out
  apply Yields.bind_any; intro _
  refine Yields.bind h.sendFlit ?_
  intro u hu
  have hcancelled : Ages s (u.cancelHold (cfg.expandedInput e.input e.vc) expandedOutput) :=
    hu.of_buf rfl rfl
  split
  · apply Yields.pure
    split
    · exact hcancelled.setState _ _ _
    · exact hcancelled
  · apply Yields.bind_any; intro _
    apply Yields.ite
    · intro _
      apply Yields.bind_any; intro _
      apply Yields.ite
      · exact fun _ => .pure ((hcancelled.enterRouting _ _).modifyVC (.setRtime _))
      · exact fun _ => hcancelled.useLookahead
    · exact fun _ => .pure (hu.of_buf rfl rfl)

theorem swHoldOne (h : Ages s t) {e : Entry vcs Nat} :
    Yields (Pipeline.swHoldOne cfg o e t) (Ages s) := by
  apply Yields.bind_any; intro _
  apply Yields.bind_any; intro f
  apply Yields.bind_any; intro _
  apply Yields.bind_any; intro _
  apply Yields.bind_any; intro _
  have hdecided : Yields (t.holdDecided cfg o e f) (Ages s) := by
    unfold Pipeline.holdDecided
    split
    · exact h.holdSent
    · apply Yields.bind_any; intro _
      exact .pure (h.of_buf rfl rfl)
  exact hdecided.bind fun u hu => .pure (hu.of_buf rfl rfl)

theorem swSent (h : Ages s t) {e : Entry vcs Nat} {f : Flit k vcs} {output : Fin 5}
    {outVC : Fin vcs} {expandedOutput : Nat} :
    Yields (t.swSent cfg o e f output outVC expandedOutput) (Ages s) := by
  refine Yields.bind h.sendFlit ?_
  intro u hu
  split
  · apply Yields.pure
    split
    · exact hu.setState _ _ _
    · exact hu
  · apply Yields.bind_any; intro _
    apply Yields.ite
    · intro _
      apply Yields.bind_any; intro _
      apply Yields.ite
      · exact fun _ => .pure (hu.enterRouting _ _)
      · exact fun _ => hu.useLookahead
    · intro _
      apply Yields.ite
      · exact fun _ => .pure (hu.of_buf rfl rfl)
      · exact fun _ => .pure (hu.of_buf rfl rfl)

theorem piggybackVC (h : Ages s t) {e : Entry vcs Nat} {f : Flit k vcs} {output : Fin 5} :
    Yields (t.piggybackVC cfg e f output) fun out => Ages s out.1 := by
  apply Yields.bind_any; intro _
  apply Yields.bind_any; intro outVC
  apply Yields.bind_any; intro _
  have hactive : Ages s (t.modifyVC e.input e.vc fun c =>
      (c.setState .active).setOutput output outVC) := h.modifyVC (.refl _)
  exact .pure (hactive.of_buf rfl rfl)

theorem swTurnedBack (h : Ages s t) {e : Entry vcs Nat} {output : Fin 5} {outVC : Fin vcs} :
    Yields (t.swTurnedBack e output outVC) (Ages s) := by
  apply Yields.ite
  · intro _
    apply Yields.some
    apply dropRoute
    exact h.of_buf rfl rfl
  · intro _
    apply Yields.bind_any; intro _
    apply Yields.pure
    apply dropRoute
    exact h.of_buf rfl rfl

theorem swGranted (h : Ages s t) {e : Entry vcs Nat} {f : Flit k vcs} {expandedOutput : Nat} :
    Yields (t.swGranted cfg o e f expandedOutput) (Ages s) := by
  apply Yields.bind_any; intro _
  apply Yields.bind_any; intro output
  apply Yields.ite
  · intro _
    refine Yields.bind h.piggybackVC ?_
    intro out hout
    exact hout.swSent
  · intro _
    apply Yields.bind_any; intro out
    apply Yields.bind_any; intro _
    apply Yields.ite
    · exact fun _ => h.swTurnedBack
    · exact fun _ => h.swSent

theorem swLostRoute (h : Ages s t) {e : Entry vcs Nat} {f : Flit k vcs} :
    Yields (t.swLostRoute cfg e f) fun dropped => ∀ u ∈ dropped, Ages s u := by
  apply Yields.ite
  · exact fun _ => .some nofun
  · intro _
    apply Yields.ite
    · intro _
      apply Yields.bind_any; intro _
      apply Yields.bind_any; intro _
      apply Yields.pure
      split
      · intro u hu
        cases hu
        apply dropRoute
        exact h.of_buf rfl rfl
      · exact nofun
    · intro _
      apply Yields.bind_any; intro out
      apply Yields.ite
      · intro _
        apply Yields.bind_any; intro _
        apply Yields.pure
        intro u hu
        cases hu
        apply dropRoute
        exact h.of_buf rfl rfl
      · exact fun _ => .pure nofun

theorem swTimedOut (h : Ages s t) {e : Entry vcs Nat} : Yields (t.swTimedOut e) (Ages s) := by
  apply Yields.ite
  · intro _
    apply Yields.bind_any; intro out
    apply Yields.bind_any; intro _
    apply Yields.pure
    apply enterRouting
    exact h.of_buf rfl rfl
  · intro _
    apply Yields.bind_any; intro _
    apply Yields.pure
    apply enterRouting
    exact h.of_buf rfl rfl

theorem swFailed (h : Ages s t) {e : Entry vcs Nat} {f : Flit k vcs} :
    Yields (t.swFailed cfg e f) (Ages s) := by
  refine Yields.bind h.swLostRoute ?_
  intro dropped hdropped
  cases dropped with
  | some u => exact .pure (hdropped u rfl)
  | none =>
      apply Yields.ite
      · exact fun _ => h.swTimedOut
      · exact fun _ => .pure (h.of_buf rfl rfl)

theorem swAllocOne (h : Ages s t) {e : Entry vcs Nat} :
    Yields (Pipeline.swAllocOne cfg o e t) (Ages s) := by
  apply Yields.bind_any; intro _
  apply Yields.bind_any; intro f
  apply Yields.bind_any; intro _
  apply Yields.bind_any; intro _
  have hdecided : Yields (t.swDecided cfg o e f) (Ages s) := by
    unfold Pipeline.swDecided
    split
    · exact h.swGranted
    · exact h.swFailed
  exact hdecided.bind fun u hu => .pure (hu.of_buf rfl rfl)

end Ages

end Pipeline

end Flyover
