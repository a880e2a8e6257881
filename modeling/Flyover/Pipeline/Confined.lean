import Flyover.Buffer.GivenBack
import Flyover.Pipeline.SwitchAllocation

/-!
# What a round does outside its channel

A round of a stage uses at most one output. Behind the others it leaves room where there
was room, and it leaves the requests of the other channels in their queues. Its own
channel is put into at most one queue, and only if there is a flit left that has to wait.
-/

namespace Flyover

namespace Pipeline

variable {k vcs : Nat} {cfg : PipelineConfig k} {o : Outside k vcs}

/-- The requests of a channel, in all queues but the one of the VC allocator. -/
def waits (s : Pipeline k vcs) (input : Fin 5) (vc : Fin vcs) : Nat :=
  s.routeVCs.countP (Entry.isFor input vc) + s.swHoldVCs.countP (Entry.isFor input vc) +
    s.swAllocVCs.countP (Entry.isFor input vc)

/-- There is a flit in the channel, and its packet is on its way through the stages. -/
def InputVC.Busy (c : InputVC k vcs) : Prop := c.buffer ≠ [] ∧ c.state ≠ .idle

/-- The bounds of the buffers behind the outputs are within their shares. -/
def FairShares (s : Pipeline k vcs) : Prop := ∀ out, (s.nextBuf out).WithinShare

/-- What is put behind a queue has no time yet. -/
def Lengthens {α : Type} (queue queue' : List (Entry vcs α)) : Prop :=
  ∃ fresh, queue' = queue ++ fresh ∧ ∀ e ∈ fresh, e.time = none

namespace Lengthens

variable {α : Type} {queue queue' queue'' : List (Entry vcs α)}

theorem refl (queue : List (Entry vcs α)) : Lengthens queue queue :=
  ⟨[], (List.append_nil queue).symm, nofun⟩

theorem of_eq (h : queue' = queue) : Lengthens queue queue' := h ▸ refl queue'

theorem append (queue : List (Entry vcs α)) (input : Fin 5) (vc : Fin vcs) :
    Lengthens queue (queue ++ [{ input := input, vc := vc }]) := by
  refine ⟨_, rfl, fun e he => ?_⟩
  rw [List.mem_singleton.mp he]

theorem trans (h : Lengthens queue queue') (h' : Lengthens queue' queue'') :
    Lengthens queue queue'' := by
  obtain ⟨fresh, rfl, hfresh⟩ := h
  obtain ⟨fresh', rfl, hfresh'⟩ := h'
  refine ⟨fresh ++ fresh', List.append_assoc _ _ _, fun e he => ?_⟩
  rcases List.mem_append.mp he with he | he
  · exact hfresh e he
  · exact hfresh' e he

theorem begins (h : Lengthens queue queue') : queue <+: queue' := by
  obtain ⟨fresh, rfl, -⟩ := h
  exact List.prefix_append queue fresh

/-- Behind a queue whose front is taken away. -/
theorem tail {e : Entry vcs α} (h : Lengthens queue queue') (hhead : queue.head? = some e) :
    Lengthens queue.tail queue'.tail := by
  obtain ⟨fresh, rfl, hfresh⟩ := h
  obtain ⟨rest, rfl⟩ := List.head?_eq_some_iff.mp hhead
  exact ⟨fresh, rfl, hfresh⟩

end Lengthens

/-- Requests are put behind the queues. -/
structure Appends (s s' : Pipeline k vcs) : Prop where
  route : Lengthens s.routeVCs s'.routeVCs
  hold : Lengthens s.swHoldVCs s'.swHoldVCs
  switch : Lengthens s.swAllocVCs s'.swAllocVCs

theorem Appends.refl (s : Pipeline k vcs) : Appends s s := ⟨.refl _, .refl _, .refl _⟩

theorem Appends.trans {s t u : Pipeline k vcs} (h : Appends s t) (h' : Appends t u) : Appends s u :=
  ⟨h.route.trans h'.route, h.hold.trans h'.hold, h.switch.trans h'.switch⟩

theorem ok_of_toOption {ε α : Type} {x : Except ε α} {a : α} (h : x.toOption = some a) :
    x = .ok a := by
  cases x with
  | error e => exact nomatch h
  | ok b => exact congrArg Except.ok (Option.some.inj h)

/-- A round for one channel, which uses some outputs and makes at most `n` requests. -/
structure Confined (input : Fin 5) (vc : Fin vcs) (used : Fin 5 → Prop) (n : Nat)
    (s s' : Pipeline k vcs) : Prop where
  noq : ∀ i v, ¬ (i = input ∧ v = vc) → s'.noqNext i v = s.noqNext i v
  others : ∀ i v, ¬ (i = input ∧ v = vc) → s'.waits i v = s.waits i v
  own : s'.waits input vc ≤ s.waits input vc + n
  appends : Appends s s'
  shares : s.FairShares → s'.FairShares
  room : s.FairShares → ∀ out, ¬ used out → ∀ v, s.hasRoom out v = true → s'.hasRoom out v = true

namespace Confined

variable {input : Fin 5} {vc : Fin vcs} {used : Fin 5 → Prop} {m n : Nat} {s t u : Pipeline k vcs}

theorem refl (s : Pipeline k vcs) : Confined input vc used 0 s s :=
  ⟨fun _ _ _ => rfl, fun _ _ _ => rfl, le_rfl, .refl s, id, fun _ _ _ _ => id⟩

theorem trans (h : Confined input vc used n s t) (h' : Confined input vc used m t u) :
    Confined input vc used (n + m) s u where
  noq := fun i v hother => (h'.noq i v hother).trans (h.noq i v hother)
  others := fun i v hother => (h'.others i v hother).trans (h.others i v hother)
  own := by have := h.own; have := h'.own; omega
  appends := h.appends.trans h'.appends
  shares := h'.shares ∘ h.shares
  room := fun hs out hout v hv => h'.room (h.shares hs) out hout v (h.room hs out hout v hv)

theorem mono {used' : Fin 5 → Prop} (h : Confined input vc used n s t) (hle : n ≤ m)
    (hused : ∀ out, used out → used' out) : Confined input vc used' m s t where
  noq := h.noq
  others := h.others
  own := h.own.trans (Nat.add_le_add_left hle _)
  appends := h.appends
  shares := h.shares
  room := fun hs out hout => h.room hs out fun hin => hout (hused out hin)

/-- The round makes requests, and nothing else that is seen from outside. -/
theorem requests (h : Confined input vc used n s t) (m : Nat) (hnow : u.now = t.now)
    (hnext : u.nextBuf = t.nextBuf) (hnoq : u.noqNext = t.noqNext)
    (hothers : ∀ i v, ¬ (i = input ∧ v = vc) → u.waits i v = t.waits i v)
    (hown : u.waits input vc ≤ t.waits input vc + m) (happends : Appends t u) :
    Confined input vc used (n + m) s u := by
  have hone : Confined input vc used m t u := by
    refine ⟨fun _ _ _ => by rw [hnoq], hothers, hown, happends, fun hs out => ?_, ?_⟩
    · rw [hnext]
      exact hs out
    · intro _ out _ v hv
      rw [hasRoom, hnext, hnow]
      exact hv
  exact h.trans hone

/-- The round changes what no one else sees. -/
theorem aside (h : Confined input vc used n s t) (hnow : u.now = t.now)
    (hnext : u.nextBuf = t.nextBuf) (hnoq : u.noqNext = t.noqNext)
    (hroute : u.routeVCs = t.routeVCs) (hhold : u.swHoldVCs = t.swHoldVCs)
    (hsw : u.swAllocVCs = t.swAllocVCs) : Confined input vc used n s u := by
  have hwaits (i : Fin 5) (v : Fin vcs) : u.waits i v = t.waits i v := by
    rw [waits, waits, hroute, hhold, hsw]
  exact h.requests 0 hnow hnext hnoq (fun i v _ => hwaits i v) (hwaits input vc).le
    ⟨.of_eq hroute, .of_eq hhold, .of_eq hsw⟩

theorem modifyVC (h : Confined input vc used n s t) (g : InputVC k vcs → InputVC k vcs) :
    Confined input vc used n s (t.modifyVC input vc g) :=
  h.aside rfl rfl rfl rfl rfl rfl

/-! ### Requests -/

theorem isFor_new {α : Type} {i : Fin 5} {v : Fin vcs} :
    Entry.isFor i v ({ input := input, vc := vc } : Entry vcs α) = decide (i = input ∧ v = vc) := by
  simp [Entry.isFor, eq_comm]

/-- Another request is put behind a queue. -/
theorem countP_append {α : Type} (queue : List (Entry vcs α)) (i : Fin 5) (v : Fin vcs) :
    (queue ++ [({ input := input, vc := vc } : Entry vcs α)]).countP (Entry.isFor i v) =
      queue.countP (Entry.isFor i v) + if i = input ∧ v = vc then 1 else 0 := by
  rw [List.countP_append, List.countP_singleton, isFor_new]
  simp only [decide_eq_true_eq]

theorem route (h : Confined input vc used 0 s t) (hnow : u.now = t.now)
    (hnext : u.nextBuf = t.nextBuf) (hnoq : u.noqNext = t.noqNext)
    (hroute : u.routeVCs = t.routeVCs ++ [{ input := input, vc := vc }])
    (hhold : u.swHoldVCs = t.swHoldVCs) (hsw : u.swAllocVCs = t.swAllocVCs) :
    Confined input vc used 1 s u := by
  refine h.requests 1 hnow hnext hnoq ?_ ?_ ?_
  · intro i v hother
    rw [waits, waits, hroute, hhold, hsw, countP_append, if_neg hother]
    rfl
  · rw [waits, waits, hroute, hhold, hsw, countP_append, if_pos ⟨rfl, rfl⟩]
    omega
  · exact ⟨hroute ▸ .append _ _ _, .of_eq hhold, .of_eq hsw⟩

theorem hold (h : Confined input vc used 0 s t) (hnow : u.now = t.now)
    (hnext : u.nextBuf = t.nextBuf) (hnoq : u.noqNext = t.noqNext)
    (hroute : u.routeVCs = t.routeVCs)
    (hhold : u.swHoldVCs = t.swHoldVCs ++ [{ input := input, vc := vc }])
    (hsw : u.swAllocVCs = t.swAllocVCs) : Confined input vc used 1 s u := by
  refine h.requests 1 hnow hnext hnoq ?_ ?_ ?_
  · intro i v hother
    rw [waits, waits, hroute, hhold, hsw, countP_append, if_neg hother]
    rfl
  · rw [waits, waits, hroute, hhold, hsw, countP_append, if_pos ⟨rfl, rfl⟩]
    omega
  · exact ⟨.of_eq hroute, hhold ▸ .append _ _ _, .of_eq hsw⟩

theorem switch (h : Confined input vc used 0 s t) (hnow : u.now = t.now)
    (hnext : u.nextBuf = t.nextBuf) (hnoq : u.noqNext = t.noqNext)
    (hroute : u.routeVCs = t.routeVCs) (hhold : u.swHoldVCs = t.swHoldVCs)
    (hsw : u.swAllocVCs = t.swAllocVCs ++ [{ input := input, vc := vc }]) :
    Confined input vc used 1 s u := by
  refine h.requests 1 hnow hnext hnoq ?_ ?_ ?_
  · intro i v hother
    rw [waits, waits, hroute, hhold, hsw, countP_append, if_neg hother]
    rfl
  · rw [waits, waits, hroute, hhold, hsw, countP_append, if_pos ⟨rfl, rfl⟩]
    omega
  · exact ⟨.of_eq hroute, .of_eq hhold, hsw ▸ .append _ _ _⟩

theorem enterRouting (h : Confined input vc used 0 s t) :
    Confined input vc used 1 s (t.enterRouting input vc) := by
  have hset := h.modifyVC (·.setState .routing)
  exact hset.route rfl rfl rfl rfl rfl rfl

theorem dropRoute (h : Confined input vc used 0 s t) :
    Confined input vc used 1 s (t.dropRoute input vc) :=
  (h.modifyVC (·.clearRouteSet)).enterRouting

theorem enterAllocation (h : Confined input vc used 0 s t) :
    Confined input vc used 1 s (t.enterAllocation cfg input vc) := by
  cases hspec : cfg.speculative with
  | true =>
      refine h.switch rfl rfl rfl rfl rfl ?_
      exact if_pos hspec
  | false =>
      have hsame : Confined input vc used 0 s (t.enterAllocation cfg input vc) := by
        refine h.aside rfl rfl rfl rfl rfl ?_
        exact if_neg (Bool.eq_false_iff.mp hspec)
      exact hsame.mono (Nat.zero_le 1) fun _ => id

theorem updateNOQ (h : Confined input vc used n s t) {f : Flit k vcs} :
    Yields (t.updateNOQ cfg o input vc f) (Confined input vc used n s) := by
  unfold Pipeline.updateNOQ
  apply Yields.bind_any; intro _
  split
  · apply Yields.bind_any; intro _
    apply Yields.ite
    · exact fun _ => .pure h
    · intro _
      split
      · apply Yields.bind_any; intro _
        apply Yields.bind_any; intro _
        apply Yields.bind_any; intro _
        apply Yields.bind_any; intro _
        apply Yields.bind_any; intro _
        apply Yields.pure
        refine ⟨fun i v hother => ?_, h.others, h.own,
          ⟨h.appends.route, h.appends.hold, h.appends.switch⟩, h.shares, h.room⟩
        rw [← h.noq i v hother]
        by_cases hi : i = input
        · subst hi
          have hv : v ≠ vc := fun hv => hother ⟨rfl, hv⟩
          simp [hv]
        · simp [hi]
      · exact .none
  · exact .none

theorem useLookahead (h : Confined input vc used 0 s t) {f : Flit k vcs} :
    Yields (t.useLookahead cfg o input vc f) (Confined input vc used 1 s) := by
  have hbegun : Confined input vc used 1 s ((t.modifyVC input vc fun c =>
      (c.setRouteSet f.laRouteSet).setState .vcAlloc).enterAllocation cfg input vc) :=
    (h.modifyVC _).enterAllocation
  apply Yields.ite
  · exact fun _ => hbegun.updateNOQ
  · exact fun _ => .some hbegun

/-! ### The buffers behind the outputs -/

/-- An operation on the buffer behind an output that is used. -/
theorem useOutput (h : Confined input vc used n s t) {output : Fin 5} (hused : used output)
    (dest : BufferState vcs) (hdest : t.FairShares → dest.WithinShare) (hnow : u.now = t.now)
    (hnext : u.nextBuf = Function.update t.nextBuf output dest)
    (hnoq : ∀ i v, ¬ (i = input ∧ v = vc) → u.noqNext i v = t.noqNext i v)
    (hroute : u.routeVCs = t.routeVCs) (hhold : u.swHoldVCs = t.swHoldVCs)
    (hsw : u.swAllocVCs = t.swAllocVCs) : Confined input vc used n s u := by
  have hone : Confined input vc used 0 t u := by
    refine ⟨hnoq, fun i v _ => ?_, ?_,
      ⟨.of_eq hroute, .of_eq hhold, .of_eq hsw⟩, ?_, ?_⟩
    · rw [waits, waits, hroute, hhold, hsw]
    · rw [waits, waits, hroute, hhold, hsw]
      exact le_rfl
    · intro hs out
      rw [hnext]
      by_cases hout : out = output
      · subst hout
        rw [Function.update_self]
        exact hdest hs
      · rw [Function.update_of_ne hout]
        exact hs out
    · intro _ out hout v hv
      have hne : out ≠ output := fun heq => hout (heq ▸ hused)
      rw [hasRoom, hnext, hnow, Function.update_of_ne hne]
      exact hv
  exact h.trans hone

/-- A virtual channel is given back. -/
theorem giveBack (h : Confined input vc used n s t) {output : Fin 5} {outVC : Fin vcs}
    {dest : BufferState vcs} (hdest : (t.nextBuf output).returnBuffer outVC = .ok dest) :
    Confined input vc used n s { t with nextBuf := Function.update t.nextBuf output dest } := by
  have hone : Confined input vc used 0 t
      { t with nextBuf := Function.update t.nextBuf output dest } := by
    refine ⟨fun _ _ _ => rfl, fun _ _ _ => rfl, le_rfl, ⟨.refl _, .refl _, .refl _⟩, ?_, ?_⟩
    · intro hs out
      by_cases hout : out = output
      · subst hout
        dsimp only
        rw [Function.update_self]
        exact BufferState.WithinShare.perform (.returnBuffer outVC) (hs out) hdest
      · dsimp only
        rw [Function.update_of_ne hout]
        exact hs out
    · intro hs out _ v hv
      by_cases hout : out = output
      · subst hout
        obtain ⟨havailable, hfull⟩ := Bool.and_eq_true_iff.mp hv
        rw [Bool.not_eq_true'] at hfull
        obtain ⟨havailable', hfull'⟩ :=
          BufferState.WithinShare.room_returnBuffer (hs out) hdest havailable hfull
        unfold hasRoom
        dsimp only
        rw [Function.update_self, havailable', hfull']
        rfl
      · unfold hasRoom at hv ⊢
        dsimp only
        rw [Function.update_of_ne hout]
        exact hv
  exact h.trans hone

theorem sendFlit (h : Confined input vc used n s t) {α : Type} {e : Entry vcs α}
    (hinput : e.input = input) (hvc : e.vc = vc) {f : Flit k vcs} {output : Fin 5}
    (hused : used output) {outVC : Fin vcs} {expandedOutput : Nat} :
    Yields (t.sendFlit cfg o e f output outVC expandedOutput) (Confined input vc used n s) := by
  subst hinput hvc
  apply Yields.bind_any; intro noq
  apply Yields.bind_eq; intro dest hdest
  apply Yields.pure
  have hremoved := h.modifyVC (·.removeFlit)
  refine hremoved.useOutput hused dest (fun hs => ?_) rfl rfl (fun i v hother => ?_) rfl rfl rfl
  · have hok := ok_of_toOption hdest
    exact BufferState.WithinShare.perform (.sendingFlit t.now outVC noq.1.tail) (hs output) hok
  · by_cases hi : i = e.input
    · subst hi
      have hv : v ≠ e.vc := fun hv => hother ⟨rfl, hv⟩
      simp [hv, Pipeline.modifyVC]
    · simp [hi, Pipeline.modifyVC]

end Confined

/-! ### Rounds -/

/-- The output of a grant. -/
def Entry.Uses (cfg : PipelineConfig k) (e : Entry vcs Nat) (out : Fin 5) : Prop :=
  ∃ expandedOutput ∈ e.result, cfg.output expandedOutput = some out

/-- The output of a connection that is held. -/
def Holds (cfg : PipelineConfig k) (s : Pipeline k vcs) (out : Fin 5) : Prop :=
  ∃ expandedOutput, cfg.output expandedOutput = some out ∧ s.switchHoldOut expandedOutput ≠ none

/-- After a round the channel has a request more only if there is something to wait for. -/
def Proceeds (input : Fin 5) (vc : Fin vcs) (used : Fin 5 → Prop) (s s' : Pipeline k vcs) : Prop :=
  Confined input vc used 0 s s' ∨ Confined input vc used 1 s s' ∧ (s'.buf input vc).Busy

namespace Proceeds

variable {input : Fin 5} {vc : Fin vcs} {used : Fin 5 → Prop} {s t u : Pipeline k vcs}
  {e : Entry vcs Nat} {f : Flit k vcs}

theorem appends (h : Proceeds input vc used s t) : Appends s t := by
  rcases h with h | ⟨h, -⟩
  · exact h.appends
  · exact h.appends

theorem mono {used' : Fin 5 → Prop} (h : Proceeds input vc used s t)
    (hused : ∀ out, used out → used' out) : Proceeds input vc used' s t := by
  rcases h with h | ⟨h, hbusy⟩
  · exact .inl (h.mono le_rfl hused)
  · exact .inr ⟨h.mono le_rfl hused, hbusy⟩

theorem busy_enterRouting (hfull : (t.buf input vc).buffer ≠ []) :
    ((t.enterRouting input vc).buf input vc).Busy := by
  rw [enterRouting_self]
  exact ⟨hfull, nofun⟩

theorem setRtime_busy {c : InputVC k vcs} {time : Int} (h : c.Busy) : (c.setRtime time).Busy := by
  refine ⟨?_, h.2⟩
  unfold InputVC.setRtime
  split
  next hbuffer => exact absurd hbuffer h.1
  next => exact List.cons_ne_nil _ _

theorem enterRouting (h : Confined input vc used 0 s t) (hfull : (t.buf input vc).buffer ≠ []) :
    Proceeds input vc used s (t.enterRouting input vc) :=
  .inr ⟨h.enterRouting, busy_enterRouting hfull⟩

theorem dropRoute (h : Confined input vc used 0 s t) (hfull : (t.buf input vc).buffer ≠ []) :
    Proceeds input vc used s (t.dropRoute input vc) := by
  refine .inr ⟨h.dropRoute, busy_enterRouting ?_⟩
  rw [modifyVC_self]
  exact hfull

theorem useLookahead (h : Confined input vc used 0 s t) (hfull : (t.buf input vc).buffer ≠ []) :
    Yields (t.useLookahead cfg o input vc f) (Proceeds input vc used s) := by
  have hbusy : (((t.modifyVC input vc fun c => (c.setRouteSet f.laRouteSet).setState
      .vcAlloc).enterAllocation cfg input vc).buf input vc).Busy := by
    unfold enterAllocation
    rw [modifyVC_self]
    exact ⟨hfull, nofun⟩
  have hkept : Yields (t.useLookahead cfg o input vc f) fun u => (u.buf input vc).Busy := by
    apply Yields.ite
    · exact fun _ => updateNOQ_eq.mono fun u ⟨noq, hu⟩ => hu ▸ hbusy
    · exact fun _ => .some hbusy
  exact fun u hu => .inr ⟨h.useLookahead u hu, hkept u hu⟩

/-- The flit in front has been sent; the state of the channel is as before. -/
theorem sendFlit_state {output : Fin 5} {outVC : Fin vcs} {expandedOutput : Nat} :
    Yields (t.sendFlit cfg o e f output outVC expandedOutput) fun u =>
      (u.buf e.input e.vc).state = (t.buf e.input e.vc).state := by
  apply Yields.bind_any; intro _
  apply Yields.bind_any; intro _
  apply Yields.pure
  dsimp only
  rw [modifyVC_self]
  rfl

theorem holdSent {expandedOutput : Nat} (hstage : (t.buf e.input e.vc).state ≠ .idle) :
    Yields (t.holdSent cfg o e f expandedOutput)
      (Proceeds e.input e.vc (Holds cfg t) t) := by
  apply Yields.bind_any; intro _
  apply Yields.guarded; intro hheld
  apply Yields.bind_eq; intro output houtput
  have hused : Holds cfg t output := ⟨expandedOutput, houtput, by rw [hheld]; exact nofun⟩
  apply Yields.bind_any; intro out
  apply Yields.bind_any; intro _
  have hsent : Yields (t.sendFlit cfg o e f output out.2 expandedOutput)
      (Confined e.input e.vc (Holds cfg t) 0 t) :=
    (Confined.refl t).sendFlit rfl rfl hused
  refine Yields.bind (hsent.both sendFlit_state) ?_
  intro u ⟨hu, hstate⟩
  have hcancelled : Confined e.input e.vc (Holds cfg t) 0 t
      (u.cancelHold (cfg.expandedInput e.input e.vc) expandedOutput) :=
    hu.aside rfl rfl rfl rfl rfl rfl
  split
  · apply Yields.pure
    split
    · exact .inl (hcancelled.modifyVC _)
    · exact .inl hcancelled
  next nf rest hbuffer =>
    have hfull : (u.buf e.input e.vc).buffer ≠ [] := hbuffer ▸ List.cons_ne_nil nf rest
    apply Yields.bind_any; intro _
    apply Yields.ite
    · intro _
      apply Yields.bind_any; intro _
      apply Yields.ite
      · intro _
        apply Yields.pure
        refine .inr ⟨hcancelled.enterRouting.modifyVC _, ?_⟩
        rw [modifyVC_self]
        exact setRtime_busy (busy_enterRouting hfull)
      · exact fun _ => useLookahead hcancelled hfull
    · intro _
      apply Yields.pure
      refine .inr ⟨hu.hold rfl rfl rfl rfl rfl rfl, hfull, ?_⟩
      exact fun hidle => hstage (hstate.symm.trans hidle)

theorem holdFailed (hbusy : (t.buf e.input e.vc).Busy) :
    Yields (t.holdFailed cfg e) (Proceeds e.input e.vc used t) := by
  apply Yields.bind_any; intro _
  exact .pure (.inr ⟨(Confined.refl t).switch rfl rfl rfl rfl rfl rfl, hbusy⟩)

theorem swSent {output : Fin 5} {outVC : Fin vcs} {expandedOutput : Nat}
    (h : Confined e.input e.vc used 0 s t) (hused : used output)
    (hstage : (t.buf e.input e.vc).state ≠ .idle) :
    Yields (t.swSent cfg o e f output outVC expandedOutput) (Proceeds e.input e.vc used s) := by
  refine Yields.bind (Yields.both (h.sendFlit rfl rfl hused) sendFlit_state) ?_
  intro u ⟨hu, hstate⟩
  split
  · apply Yields.pure
    split
    · exact .inl (hu.modifyVC _)
    · exact .inl hu
  next nf rest hbuffer =>
    have hfull : (u.buf e.input e.vc).buffer ≠ [] := hbuffer ▸ List.cons_ne_nil nf rest
    have hbusy : (u.buf e.input e.vc).Busy :=
      ⟨hfull, fun hidle => hstage (hstate.symm.trans hidle)⟩
    apply Yields.bind_any; intro _
    apply Yields.ite
    · intro _
      apply Yields.bind_any; intro _
      apply Yields.ite
      · exact fun _ => .pure (enterRouting hu hfull)
      · exact fun _ => useLookahead hu hfull
    · intro _
      apply Yields.ite
      · exact fun _ => .pure (.inr ⟨hu.hold rfl rfl rfl rfl rfl rfl, hbusy⟩)
      · exact fun _ => .pure (.inr ⟨hu.switch rfl rfl rfl rfl rfl rfl, hbusy⟩)

theorem piggybackVC {output : Fin 5} (hused : used output) :
    Yields (t.piggybackVC cfg e f output) fun out =>
      Confined e.input e.vc used 0 t out.1 ∧ (out.1.buf e.input e.vc).state ≠ .idle := by
  apply Yields.bind_any; intro _
  apply Yields.bind_any; intro outVC
  apply Yields.bind_eq; intro dest hdest
  apply Yields.pure
  constructor
  · have hset : Confined e.input e.vc used 0 t (t.modifyVC e.input e.vc fun c =>
        (c.setState .active).setOutput output outVC) := (Confined.refl t).modifyVC _
    refine hset.useOutput hused dest (fun hs => ?_) rfl rfl (fun _ _ _ => rfl) rfl rfl rfl
    exact BufferState.WithinShare.perform (.takeBuffer outVC (e.input * vcs + e.vc)) (hs output)
      (ok_of_toOption hdest)
  · dsimp only
    rw [modifyVC_self]
    exact nofun

theorem swTurnedBack {output : Fin 5} {outVC : Fin vcs}
    (hfull : (t.buf e.input e.vc).buffer ≠ []) :
    Yields (t.swTurnedBack e output outVC) (Proceeds e.input e.vc used t) := by
  apply Yields.ite
  · intro _
    apply Yields.some
    apply dropRoute
    · exact (Confined.refl t).aside rfl rfl rfl rfl rfl rfl
    · exact hfull
  · intro _
    apply Yields.bind_eq; intro dest hdest
    apply Yields.pure
    exact dropRoute ((Confined.refl t).giveBack (ok_of_toOption hdest)) hfull

variable {scheme : Scheme}

theorem swGranted {expandedOutput : Nat} (hbusy : (t.buf e.input e.vc).Busy) :
    Yields (scheme.swGranted cfg o e f expandedOutput t)
      (Proceeds e.input e.vc (fun out => cfg.output expandedOutput = some out) t) := by
  apply Yields.bind_any; intro _
  apply Yields.bind_eq; intro output houtput
  have hown : Confined e.input e.vc (fun out => cfg.output expandedOutput = some out) 0 t t :=
    .refl t
  apply Yields.ite
  · intro _
    have htakes : Yields (t.piggybackVC cfg e f output) fun out =>
        Confined e.input e.vc (fun out => cfg.output expandedOutput = some out) 0 t out.1 ∧
          (out.1.buf e.input e.vc).state ≠ .idle := piggybackVC houtput
    refine Yields.bind htakes ?_
    intro out ⟨hout, hstage⟩
    exact swSent hout houtput hstage
  · intro _
    apply Yields.bind_any; intro out
    apply Yields.bind_any; intro _
    apply Yields.ite
    · exact fun _ => swTurnedBack hbusy.1
    · exact fun _ => swSent hown houtput hbusy.2

theorem swLostRoute (hfull : (t.buf e.input e.vc).buffer ≠ []) :
    Yields (scheme.swLostRoute cfg o e f t) fun dropped =>
      ∀ u ∈ dropped, Proceeds e.input e.vc used t u := by
  apply Yields.ite
  · exact fun _ => .some nofun
  · intro _
    apply Yields.ite
    · intro _
      apply Yields.bind_any; intro _
      apply Yields.bind_any; intro _
      apply Yields.pure
      split
      · intro u hu
        cases hu
        apply dropRoute
        · exact (Confined.refl t).aside rfl rfl rfl rfl rfl rfl
        · exact hfull
      · exact nofun
    · intro _
      apply Yields.bind_any; intro out
      apply Yields.ite
      · intro _
        apply Yields.bind_eq; intro dest hdest
        apply Yields.pure
        intro u hu
        cases hu
        exact dropRoute ((Confined.refl t).giveBack (ok_of_toOption hdest)) hfull
      · exact fun _ => .pure nofun

theorem swTimedOut (hfull : (t.buf e.input e.vc).buffer ≠ []) :
    Yields (scheme.swTimedOut e t) (Proceeds e.input e.vc used t) := by
  apply Yields.ite
  · intro _
    apply Yields.bind_any; intro out
    apply Yields.bind_eq; intro dest hdest
    apply Yields.pure
    exact enterRouting ((Confined.refl t).giveBack (ok_of_toOption hdest)) hfull
  · intro _
    apply Yields.bind_any; intro _
    apply Yields.pure
    apply enterRouting
    · exact (Confined.refl t).aside rfl rfl rfl rfl rfl rfl
    · exact hfull

/-- The channel asks once more. -/
theorem again (hbusy : (t.buf e.input e.vc).Busy) :
    Proceeds e.input e.vc used t
      { t with swAllocVCs := t.swAllocVCs ++ [{ input := e.input, vc := e.vc }] } :=
  .inr ⟨(Confined.refl t).switch rfl rfl rfl rfl rfl rfl, hbusy⟩

theorem swFailed (hbusy : (t.buf e.input e.vc).Busy) :
    Yields (scheme.swFailed cfg o e f t) (Proceeds e.input e.vc used t) := by
  have hlost : Yields (scheme.swLostRoute cfg o e f t) fun dropped =>
      ∀ u ∈ dropped, Proceeds e.input e.vc used t u := swLostRoute hbusy.1
  refine Yields.bind hlost ?_
  intro dropped hdropped
  cases dropped with
  | some u => exact .pure (hdropped u rfl)
  | none =>
      apply Yields.ite
      · exact fun _ => swTimedOut hbusy.1
      · exact fun _ => .pure (again hbusy)

variable {design : Design}

theorem swDecided (hbusy : (t.buf e.input e.vc).Busy) :
    Yields (design.swDecided cfg o e f t) (Proceeds e.input e.vc (e.Uses cfg) t) := by
  unfold Design.swDecided
  split
  next expandedOutput hresult =>
    exact (swGranted hbusy).mono fun u hu => hu.mono fun out hout => ⟨expandedOutput, hresult, hout⟩
  next =>
    unfold Design.swFailed
    split
    · exact .some (again hbusy)
    · exact swFailed hbusy

theorem holdDecided (hbusy : (t.buf e.input e.vc).Busy) :
    Yields (t.holdDecided cfg o e f) (Proceeds e.input e.vc (Holds cfg t) t) := by
  unfold Pipeline.holdDecided
  split
  · exact holdSent hbusy.2
  · exact holdFailed hbusy

end Proceeds

end Pipeline

end Flyover
