import Flyover.Pipeline.Packets

/-!
# Head flits toward routers that are not on

A router that drains waits until its neighbours have nothing more for it, so they
must not send it the heads of new packets. In every run whose cycles do not make
the exception below, a head flit that is sent to the crossbar has a downstream
router that is recorded as on in that cycle, a router of the bottom row, or the
network interface before it.

The exception is a head flit that wins the switch before it has a virtual channel
and is given one there and then: on this path nobody looks at the downstream
router. A router with a virtual channel allocator of its own never takes it.
-/

namespace Flyover

/-- The router behind an output is recorded as on, or it is never gated, or there
is none. -/
def PipelineConfig.TowardAwake {k : Nat} (cfg : PipelineConfig k)
    (downstreamStates : Fin 5 → PowerState) (out : Fin 5) : Prop :=
  ∀ router, cfg.sink out = some router → Router.bottomRow router = false →
    downstreamStates out = .powerOn

namespace Pipeline

variable {k vcs : Nat} {cfg : PipelineConfig k} {o : Outside k vcs}

theorem backToRoute_eq_false {downstreamStates : Fin 5 → PowerState} {out : Fin 5} :
    cfg.backToRoute downstreamStates out = false ↔ cfg.TowardAwake downstreamStates out := by
  unfold PipelineConfig.backToRoute PipelineConfig.TowardAwake
  cases hsink : cfg.sink out with
  | none => simp
  | some router =>
      cases hrow : Router.bottomRow router with
      | true => simp [hrow]
      | false => cases downstreamStates out <;> simp [hrow]

/-- No head flit was sent toward a router that is not on. -/
def View.HeadsTowardAwake (cfg : PipelineConfig k) (v : View k vcs) : Prop :=
  ∀ c ∈ v.crossbarFlits, c.flit.head = true → cfg.TowardAwake v.downstreamStates c.output

/-- What every round of every stage preserves. -/
structure View.Sound (cfg : PipelineConfig k) (v : View k vcs) : Prop where
  packets : v.Packets cfg
  heads : v.HeadsTowardAwake cfg

/-! ### A flit is sent -/

section Send

variable {s s' : Pipeline k vcs} {f : Flit k vcs} {output : Fin 5} {outVC : Fin vcs}
  {expandedOutput : Nat}

theorem lookAhead_head {input : Fin 5} {vc : Fin vcs} {f' : Flit k vcs} {noq : Option NOQ}
    (h : s.lookAhead cfg o input vc output f = some (f', noq)) : f'.head = f.head := by
  unfold lookAhead at h
  dsimp only at h
  split at h
  next =>
    split at h
    next =>
      cases h
      rfl
    next =>
      split at h
      next =>
        obtain ⟨n, -, h⟩ := Option.bind_eq_some_iff.mp h
        cases h
        rfl
      next =>
        cases h
        rfl
  next =>
    cases h
    rfl

/-- What `sendFlit` does to the view. -/
theorem sendFlit_view {α : Type} {e : Entry vcs α}
    (h : s.sendFlit cfg o e f output outVC expandedOutput = some s') :
    (s'.buf e.input e.vc).buffer = (s.buf e.input e.vc).buffer.tail ∧
      ∃ c : Crossing k vcs, c.output = output ∧ c.flit.head = f.head ∧
        s'.view = { (s.modifyVC e.input e.vc (·.removeFlit)).view with
          crossbarFlits := s.crossbarFlits ++ [c] } := by
  unfold sendFlit at h
  obtain ⟨⟨f', noq⟩, hlook, h⟩ := Option.bind_eq_some_iff.mp h
  obtain ⟨dest, -, h⟩ := Option.bind_eq_some_iff.mp h
  have hhead := lookAhead_head hlook
  cases h
  refine ⟨?_, ⟨f', cfg.expandedInput e.input e.vc, output, expandedOutput⟩, rfl, hhead, rfl⟩
  exact congrArg InputVC.buffer (modifyVC_self s e.input e.vc _)

/-- The flit in front leaves, and the connections are held as given. -/
theorem View.Sound.sendFlit {α : Type} {e : Entry vcs α} {hold : Nat → Option (Fin vcs)}
    (h : s.view.Sound cfg) (hawake : f.head = true → cfg.TowardAwake s.downstreamStates output)
    (hsent : s.sendFlit cfg o e f output outVC expandedOutput = some s')
    (hheld : hold (cfg.expandedInput e.input e.vc) = some e.vc →
      ∃ next ∈ (s'.view.ends e.input e.vc).head?, next.1 = false)
    (hother : ∀ i w, ¬ (i = e.input ∧ w = e.vc) → hold (cfg.expandedInput i w) = some w →
      s.switchHoldVC (cfg.expandedInput i w) = some w) :
    { s'.view with switchHoldVC := hold }.Sound cfg := by
  obtain ⟨-, c, hout, hhead, hview⟩ := sendFlit_view hsent
  have hself := modifyVC_self s e.input e.vc (·.removeFlit)
  rw [hview] at hheld ⊢
  constructor
  case packets =>
    apply h.packets.send
    case hat =>
      have hat := onlyAt_modifyVC s e.input e.vc (·.removeFlit)
      exact ⟨hat.ends, hat.expectedPid⟩
    case hends => exact (congrArg InputVC.ends hself).trans InputVC.ends_removeFlit
    case hpid => exact (congrArg InputVC.expectedPid hself).trans rfl
    case hheld => exact hheld
    case hother => exact hother
  case heads =>
    intro c' hc'
    cases List.mem_append.mp hc' with
    | inl hold => exact h.heads c' hold
    | inr hnew =>
        obtain rfl := List.mem_singleton.mp hnew
        intro hc
        rw [hout]
        exact hawake (hhead.symm.trans hc)

/-- A flit that is no tail is followed by one that is no head. -/
theorem front_after {e : Entry vcs Nat} {nf : Flit k vcs} {rest : List (Flit k vcs)}
    (h : s.view.Packets cfg) (hfront : (s.buf e.input e.vc).buffer.head? = some f)
    (hbuf : (s'.buf e.input e.vc).buffer = (s.buf e.input e.vc).buffer.tail)
    (hrest : (s'.buf e.input e.vc).buffer = nf :: rest) (htail : f.tail = false) :
    ∃ next ∈ (s'.view.ends e.input e.vc).head?, next.1 = false := by
  have hall : (s.buf e.input e.vc).buffer = f :: nf :: rest := by
    rw [← hrest, hbuf, List.head?_eq_some_iff.mp hfront |>.choose_spec]
    rfl
  have hchain := h.chain e.input e.vc
  have hends : s.view.ends e.input e.vc = f.ends :: nf.ends :: rest.map Flit.ends := by
    simp only [view, InputVC.ends, hall, List.map_cons]
  rw [hends] at hchain
  refine ⟨nf.ends, ?_, (List.isChain_cons_cons.mp hchain).1 htail⟩
  simp [view, InputVC.ends, hrest]

/-- The flit in front has won the switch. -/
theorem View.Sound.swSent {e : Entry vcs Nat} (h : s.view.Sound cfg)
    (hfront : (s.buf e.input e.vc).buffer.head? = some f)
    (hfree : s.switchHoldVC (cfg.expandedInput e.input e.vc) = none)
    (hawake : f.head = true → cfg.TowardAwake s.downstreamStates output)
    (hsent : s.swSent cfg o e f output outVC expandedOutput = some s') :
    s'.view.Sound cfg := by
  unfold Pipeline.swSent at hsent
  obtain ⟨t, ht, hsent⟩ := Option.bind_eq_some_iff.mp hsent
  obtain ⟨hbuf, c, -, -, hview⟩ := sendFlit_view ht
  have hhold : t.switchHoldVC = s.switchHoldVC := congrArg View.switchHoldVC hview
  have htview : t.view.Sound cfg := by
    apply h.sendFlit hawake ht
    case hheld =>
      intro hheld
      rw [hhold, hfree] at hheld
      exact nomatch hheld
    case hother =>
      intro i w _ hheld
      rwa [hhold] at hheld
  split at hsent
  next =>
    cases hsent
    split
    next =>
      rw [view_setState]
      exact htview
    next => exact htview
  next nf rest hrest =>
    obtain ⟨-, hsent⟩ := guard_bind.mp hsent
    split at hsent
    next =>
      obtain ⟨-, hsent⟩ := guard_bind.mp hsent
      split at hsent
      next =>
        cases hsent
        rw [view_enterRouting]
        exact htview
      next =>
        rw [view_useLookahead hsent]
        exact htview
    next htail =>
      split at hsent
      next =>
        cases hsent
        apply h.sendFlit hawake ht
        case hheld =>
          intro _
          exact front_after h.packets hfront hbuf hrest (Bool.not_eq_true _ ▸ htail)
        case hother =>
          intro i w hne hheld
          dsimp only at hheld
          -- another channel of this input with this number would be the same one
          have hindex : cfg.expandedInput i w ≠ cfg.expandedInput e.input e.vc := by
            intro heq
            rw [heq, Function.update_self] at hheld
            cases hheld
            exact hne ⟨expandedInput_inj heq, rfl⟩
          rwa [Function.update_of_ne hindex, hhold] at hheld
      next =>
        cases hsent
        exact htview

/-! ### Held connections -/

/-- A connection is given up. -/
theorem View.Sound.cancelHold (h : s.view.Sound cfg) (expandedInput expandedOutput : Nat) :
    (s.cancelHold expandedInput expandedOutput).view.Sound cfg where
  packets := by
    apply View.Packets.release h.packets
    case hends => rfl
    case hpid => rfl
    intro i w hheld
    by_cases hindex : cfg.expandedInput i w = expandedInput
    · simp only [view, Pipeline.cancelHold, hindex, Function.update_self] at hheld
      exact nomatch hheld
    · simpa only [view, Pipeline.cancelHold, Function.update_of_ne hindex] using hheld
  heads := h.heads

/-- A held connection carries the flit in front, which is no head. -/
theorem View.Sound.holdSent {e : Entry vcs Nat} (h : s.view.Sound cfg)
    (hfront : (s.buf e.input e.vc).buffer.head? = some f)
    (hheld : s.switchHoldVC (cfg.expandedInput e.input e.vc) = some e.vc)
    (hsent : s.holdSent cfg o e f expandedOutput = some s') : s'.view.Sound cfg := by
  have hbody : f.head = false := by
    obtain ⟨front, hmem, hbody⟩ := h.packets.held e.input e.vc hheld
    have hends : (s.view.ends e.input e.vc).head? = some f.ends := by
      simp only [view, InputVC.ends, List.head?_map, hfront, Option.map_some]
    rw [hends] at hmem
    cases hmem
    exact hbody
  have hawake (output : Fin 5) : f.head = true → cfg.TowardAwake s.downstreamStates output := by
    exact fun hhead => absurd (hbody.symm.trans hhead) Bool.false_ne_true
  unfold Pipeline.holdSent at hsent
  obtain ⟨-, hsent⟩ := guard_bind.mp hsent
  obtain ⟨-, hsent⟩ := guard_bind.mp hsent
  obtain ⟨output, -, hsent⟩ := Option.bind_eq_some_iff.mp hsent
  obtain ⟨⟨port, outVC⟩, -, hsent⟩ := Option.bind_eq_some_iff.mp hsent
  obtain ⟨-, hsent⟩ := guard_bind.mp hsent
  obtain ⟨t, ht, hsent⟩ := Option.bind_eq_some_iff.mp hsent
  obtain ⟨hbuf, c, -, -, hview⟩ := sendFlit_view ht
  have hhold : t.switchHoldVC = s.switchHoldVC := congrArg View.switchHoldVC hview
  have hcancelled : (t.cancelHold (cfg.expandedInput e.input e.vc) expandedOutput).view.Sound
      cfg := by
    apply h.sendFlit (hawake output) ht
    case hheld =>
      intro hheld
      simp only [Pipeline.cancelHold, Function.update_self] at hheld
      cases hheld
    case hother =>
      intro i w _ hheld
      by_cases hindex : cfg.expandedInput i w = cfg.expandedInput e.input e.vc
      · simp only [Pipeline.cancelHold, hindex, Function.update_self] at hheld
        cases hheld
      · simpa only [Pipeline.cancelHold, Function.update_of_ne hindex, hhold] using hheld
  split at hsent
  next =>
    cases hsent
    split
    next =>
      rw [view_setState]
      exact hcancelled
    next => exact hcancelled
  next nf rest hrest =>
    obtain ⟨-, hsent⟩ := guard_bind.mp hsent
    split at hsent
    next =>
      obtain ⟨-, hsent⟩ := guard_bind.mp hsent
      dsimp only at hsent
      split at hsent
      next =>
        cases hsent
        rw [view_modifyVC (InputVC.ends_setRtime _) rfl, view_enterRouting]
        exact hcancelled
      next =>
        rw [view_useLookahead hsent]
        exact hcancelled
    next htail =>
      cases hsent
      apply h.sendFlit (hawake output) ht
      case hheld =>
        intro _
        exact front_after h.packets hfront hbuf hrest (Bool.not_eq_true _ ▸ htail)
      case hother =>
        intro i w _ hheld
        rwa [hhold] at hheld

theorem View.Sound.holdFailed {e : Entry vcs Nat} (h : s.view.Sound cfg)
    (hfailed : s.holdFailed cfg e = some s') : s'.view.Sound cfg := by
  obtain ⟨heldExpandedOutput, -, hfailed⟩ := Option.bind_eq_some_iff.mp hfailed
  cases hfailed
  exact h.cancelHold _ heldExpandedOutput

theorem View.Sound.swHoldOne {e : Entry vcs Nat} (h : s.view.Sound cfg)
    (hround : Pipeline.swHoldOne cfg o e s = some s') : s'.view.Sound cfg := by
  unfold Pipeline.swHoldOne at hround
  obtain ⟨-, hround⟩ := guard_bind.mp hround
  obtain ⟨f, hfront, hround⟩ := Option.bind_eq_some_iff.mp hround
  obtain ⟨-, hround⟩ := guard_bind.mp hround
  obtain ⟨-, hround⟩ := guard_bind.mp hround
  obtain ⟨hheld, hround⟩ := guard_bind.mp hround
  obtain ⟨t, ht, hround⟩ := Option.bind_eq_some_iff.mp hround
  have hdecided : t.view.Sound cfg := by
    unfold holdDecided at ht
    split at ht
    next => exact h.holdSent hfront hheld ht
    next => exact h.holdFailed ht
  cases hround
  exact hdecided

theorem View.Sound.swHoldUpdate (h : s.view.Sound cfg) (hrun : s.swHoldUpdate cfg o = some s') :
    s'.view.Sound cfg := by
  unfold Pipeline.swHoldUpdate at hrun
  split at hrun
  next =>
    apply Worklist.loop_induction (motive := fun t => t.view.Sound cfg) hrun h
    intro e t t' _ ht hround
    exact ht.swHoldOne hround
  next =>
    cases hrun
    exact h

/-! ### The switch -/

theorem piggybackVC_view {e : Entry vcs Nat} (h : s.piggybackVC cfg e f output = some (s', outVC)) :
    s'.view = s.view ∧ (s'.buf e.input e.vc).buffer = (s.buf e.input e.vc).buffer := by
  unfold piggybackVC at h
  obtain ⟨-, h⟩ := guard_bind.mp h
  obtain ⟨_, -, h⟩ := Option.bind_eq_some_iff.mp h
  obtain ⟨dest, -, h⟩ := Option.bind_eq_some_iff.mp h
  cases h
  constructor
  · have hactive : (s.modifyVC e.input e.vc fun c =>
        (c.setState .active).setOutput output outVC).view = s.view := view_modifyVC rfl rfl
    exact hactive
  · have hself := modifyVC_self s e.input e.vc
      fun c => (c.setState .active).setOutput output outVC
    exact (congrArg InputVC.buffer hself).trans rfl

/-- The switch is granted to a head flit that has no virtual channel and takes one
in passing, toward a router that is not on. -/
def BlindGrant (cfg : PipelineConfig k) (e : Entry vcs Nat) (s : Pipeline k vcs) : Prop :=
  cfg.piggyback = true ∧ (s.buf e.input e.vc).state = .vcAlloc ∧
    ∃ expandedOutput output, e.result = some expandedOutput ∧
      cfg.output expandedOutput = some output ∧ ¬ cfg.TowardAwake s.downstreamStates output

theorem View.Sound.swGranted {e : Entry vcs Nat} (h : s.view.Sound cfg)
    (hfront : (s.buf e.input e.vc).buffer.head? = some f)
    (hresult : e.result = some expandedOutput) (hclear : ¬ BlindGrant cfg e s)
    (hgranted : s.swGranted cfg o e f expandedOutput = some s') : s'.view.Sound cfg := by
  unfold Pipeline.swGranted at hgranted
  obtain ⟨⟨hfree, -⟩, hgranted⟩ := guard_bind.mp hgranted
  obtain ⟨output, hout, hgranted⟩ := Option.bind_eq_some_iff.mp hgranted
  split at hgranted
  next hpiggyback =>
    obtain ⟨⟨t, outVC⟩, ht, hgranted⟩ := Option.bind_eq_some_iff.mp hgranted
    obtain ⟨hview, hbuf⟩ := piggybackVC_view ht
    have hawake : cfg.TowardAwake s.downstreamStates output := by
      by_contra hasleep
      exact hclear ⟨hpiggyback.1, hpiggyback.2, expandedOutput, output, hresult, hout, hasleep⟩
    have hstates : t.downstreamStates = s.downstreamStates :=
      congrArg View.downstreamStates hview
    have hhold : t.switchHoldVC = s.switchHoldVC := congrArg View.switchHoldVC hview
    have htview : t.view.Sound cfg := by
      rw [hview]
      exact h
    apply htview.swSent
    case hfront =>
      rw [hbuf]
      exact hfront
    case hfree =>
      rw [hhold]
      exact hfree
    case hawake =>
      intro _
      rw [hstates]
      exact hawake
    case hsent => exact hgranted
  next =>
    obtain ⟨⟨port, outVC⟩, -, hgranted⟩ := Option.bind_eq_some_iff.mp hgranted
    obtain ⟨-, hgranted⟩ := guard_bind.mp hgranted
    split at hgranted
    next =>
      rw [view_swTurnedBack hgranted]
      exact h
    next hnot =>
      apply h.swSent hfront hfree _ hgranted
      intro hhead
      rw [← backToRoute_eq_false]
      exact Bool.eq_false_iff.mpr fun hback => hnot ⟨hhead, hback⟩

theorem View.Sound.swAllocOne {e : Entry vcs Nat} (h : s.view.Sound cfg)
    (hclear : ¬ BlindGrant cfg e s) (hround : Pipeline.swAllocOne cfg o e s = some s') :
    s'.view.Sound cfg := by
  unfold Pipeline.swAllocOne at hround
  obtain ⟨-, hround⟩ := guard_bind.mp hround
  obtain ⟨f, hfront, hround⟩ := Option.bind_eq_some_iff.mp hround
  obtain ⟨-, hround⟩ := guard_bind.mp hround
  obtain ⟨-, hround⟩ := guard_bind.mp hround
  obtain ⟨t, ht, hround⟩ := Option.bind_eq_some_iff.mp hround
  have hdecided : t.view.Sound cfg := by
    unfold swDecided at ht
    split at ht
    next hresult => exact h.swGranted hfront hresult hclear ht
    next =>
      rw [view_swFailed ht]
      exact h
  cases hround
  exact hdecided

/-! ### Flits arrive -/

theorem view_takeIn {input : Fin 5} (h : s.takeIn cfg o input f = some s') : s'.view = s.view := by
  unfold takeIn at h
  dsimp only at h
  split at h
  next =>
    obtain ⟨-, h⟩ := guard_bind.mp h
    obtain ⟨-, h⟩ := guard_bind.mp h
    obtain ⟨-, h⟩ := guard_bind.mp h
    split at h
    next =>
      cases h
      exact view_enterRouting s input f.vc
    next => exact view_useLookahead h
  next =>
    split at h
    next =>
      split at h <;>
      · cases h
        rfl
    next =>
      cases h
      rfl
  next =>
    cases h
    rfl
  next =>
    cases h
    rfl

/-- The link promises that a flit that arrives for a packet that is not complete is
not the head of another. -/
def Promised (s : Pipeline k vcs) (o : Outside k vcs) (input : Fin 5) : Prop :=
  ∀ f, o.inQueueFlits input = some f → (s.buf input f.vc).expectedPid ≠ none → f.head = false

theorem View.Sound.queueFlit {input : Fin 5} (h : s.view.Sound cfg) (hpromise : s.Promised o input)
    (hround : s.queueFlit cfg o input = some s') :
    s'.view.Sound cfg ∧
      ∀ i, i ≠ input → s'.view.expectedPid i = s.view.expectedPid i := by
  unfold Pipeline.queueFlit at hround
  split at hround
  next =>
    cases hround
    exact ⟨h, fun _ _ => rfl⟩
  next f hf =>
    obtain ⟨-, hround⟩ := guard_bind.mp hround
    obtain ⟨c, hc, hround⟩ := Option.bind_eq_some_iff.mp hround
    obtain ⟨hends, hopen⟩ := InputVC.addFlit_some hc
    have hself := modifyVC_self s input f.vc fun _ => c
    have hat := onlyAt_modifyVC s input f.vc fun _ => c
    rw [view_takeIn hround]
    refine ⟨⟨?_, h.heads⟩, ?_⟩
    · apply h.packets.arrive hat
      case hends => exact (congrArg InputVC.ends hself).trans hends
      case hhead => exact hpromise f hf
      case htail =>
        intro htail
        have hpid := congrArg InputVC.expectedPid hself
        exact fun hnone => hopen htail (hpid.symm.trans hnone)
      case hhold => rfl
    · intro i hi
      funext w
      exact hat.expectedPid i w fun heq => hi heq.1

theorem View.Sound.queueFlits {inputs : List (Fin 5)} (hnodup : inputs.Nodup)
    (h : s.view.Sound cfg) (hpromise : ∀ input ∈ inputs, s.Promised o input)
    (hrun : inputs.foldlM (Pipeline.queueFlit cfg o) s = some s') : s'.view.Sound cfg := by
  induction inputs generalizing s with
  | nil =>
      cases hrun
      exact h
  | cons input rest ih =>
      rw [List.foldlM_cons] at hrun
      obtain ⟨t, ht, hrest⟩ := Option.bind_eq_some_iff.mp hrun
      obtain ⟨hsound, hpid⟩ := h.queueFlit (hpromise input List.mem_cons_self) ht
      apply ih hnodup.of_cons hsound _ hrest
      intro i hi f hf hexpected
      have hne : i ≠ input := fun heq => (List.nodup_cons.mp hnodup).1 (heq ▸ hi)
      have hsame : (t.buf i f.vc).expectedPid = (s.buf i f.vc).expectedPid :=
        congrFun (hpid i hne) f.vc
      rw [hsame] at hexpected
      exact hpromise i (List.mem_cons_of_mem input hi) f hf hexpected

end Send

/-! ### Runs -/

section Run

variable {s s' : Pipeline k vcs}

/-- In no round of `_SWAllocUpdate` a blind grant is found. -/
def NoBlindGrant (cfg : PipelineConfig k) (s : Pipeline k vcs) (o : Outside k vcs) : Prop :=
  ∀ t, s.beforeSWAlloc cfg o = some t → ∀ e u,
    Worklist.Visits swAllocFront (swAllocOne cfg o) t e u → ¬ BlindGrant cfg e u

/-- The states reached by cycles that meet a condition. Cycles in which the router is
off or has nothing to do leave the stages alone. -/
inductive Reached (cfg : PipelineConfig k)
    (meets : Pipeline k vcs → Outside k vcs → Prop) : Pipeline k vcs → Prop
  | start (nextBuf : Fin 5 → BufferState vcs) : Reached cfg meets (initial nextBuf)
  | cycle {s s' : Pipeline k vcs} {o : Outside k vcs} :
      Reached cfg meets s → (∀ input, s.Promised o input) → meets s o →
      s.cycle cfg o = some s' → Reached cfg meets s'

/-- Cycles in which no flit arrives. -/
theorem Reached.run {meets : Pipeline k vcs → Outside k vcs → Prop} {os : List (Outside k vcs)}
    (h : Reached cfg meets s) (hsilent : ∀ o ∈ os, ∀ input, o.inQueueFlits input = none)
    (hmeets : ∀ s o, meets s o) (hrun : s.run cfg os = some s') : Reached cfg meets s' := by
  apply Worklist.foldlM_induction (motive := Reached cfg meets) hrun h
  intro o ho t t' ht hcycle
  apply ht.cycle _ (hmeets t o) hcycle
  intro input f hf
  rw [hsilent o ho input] at hf
  exact nomatch hf

theorem View.Sound.readInputs (h : s.view.Sound cfg) : (s.readInputs o).view.Sound cfg where
  packets := ⟨h.packets.chain, h.packets.last, h.packets.held⟩
  heads := nofun

theorem View.Sound.beforeSWAlloc (h : s.view.Sound cfg) (hpromise : ∀ input, s.Promised o input)
    (hrun : s.beforeSWAlloc cfg o = some s') : s'.view.Sound cfg := by
  unfold Pipeline.beforeSWAlloc at hrun
  obtain ⟨queued, hqueued, hrun⟩ := Option.bind_eq_some_iff.mp hrun
  obtain ⟨routed, hrouted, hrun⟩ := Option.bind_eq_some_iff.mp hrun
  obtain ⟨allocated, hallocated, hrun⟩ := Option.bind_eq_some_iff.mp hrun
  have hsound : queued.view.Sound cfg :=
    View.Sound.queueFlits (List.nodup_finRange 5) h.readInputs (fun input _ => hpromise input) hqueued
  have hview : allocated.view = queued.view :=
    (view_vcAllocUpdate hallocated).trans ((view_routeUpdate hrouted).trans (view_evaluate queued))
  rw [← hview] at hsound
  exact hsound.swHoldUpdate hrun

/-- What one cycle preserves. -/
theorem View.Sound.cycle (h : s.view.Sound cfg) (hpromise : ∀ input, s.Promised o input)
    (hclear : NoBlindGrant cfg s o) (hcycle : s.cycle cfg o = some s') : s'.view.Sound cfg := by
  obtain ⟨t, ht, hrun⟩ := Option.bind_eq_some_iff.mp hcycle
  apply Worklist.loop_induction (motive := fun u => u.view.Sound cfg) hrun
  · exact h.beforeSWAlloc hpromise ht
  · intro e u u' hvisits hu hround
    exact hu.swAllocOne (hclear t ht e u hvisits) hround

theorem sound_initial (nextBuf : Fin 5 → BufferState vcs) :
    (initial (k := k) nextBuf).view.Sound cfg where
  packets := by
    constructor
    case chain => exact fun _ _ => List.isChain_nil
    case last => exact fun _ _ => nofun
    case held => exact fun _ _ => nofun
  heads := nofun

/-- In a run without blind grants every head flit goes toward a router that is on. -/
theorem headsTowardAwake (h : Reached cfg (NoBlindGrant cfg) s) :
    s.view.HeadsTowardAwake cfg := by
  have hsound : s.view.Sound cfg := by
    induction h with
    | start nextBuf => exact sound_initial nextBuf
    | cycle _ hpromise hclear hcycle ih => exact ih.cycle hpromise hclear hcycle
  exact hsound.heads

/-- A router with a virtual channel allocator of its own makes no blind grants. -/
theorem noBlindGrant_of_allocator (hallocator : cfg.piggyback = false) (s : Pipeline k vcs)
    (o : Outside k vcs) : NoBlindGrant cfg s o := by
  intro t _ e u _ hblind
  exact Bool.false_ne_true (hallocator.symm.trans hblind.1)

end Run

/-! ### A packet of one flit -/

/-- The router in the middle of a 3x3 mesh, with the routers around it. -/
def middle (piggyback : Bool) : PipelineConfig 3 where
  id := 4
  sink out := [some 5, some 3, some 7, some 1, none].getD out none
  bufferSize := 1
  inputSpeedup := 1
  outputSpeedup := 1
  routingDelay := 1
  vcAllocDelay := 1
  swAllocDelay := 1
  speculative := piggyback
  piggyback := piggyback
  holdSwitchForPacket := false
  noq := false
  vcPrioritizeEmpty := false
  inputSpeedup_pos := by decide
  vcAllocDelay_pos := by decide
  swAllocDelay_pos := by decide
  speculative_of_piggyback := id
  lookahead_of_noq := nofun

/-- A packet on its way from router 3 to router 5. -/
def eastbound : Flit 3 1 where
  pid := 0
  head := true
  tail := true
  vc := 0
  cl := 0
  dest := 5
  rtime := 0
  laRouteSet := .clear

def oneFlitBuffer : BufferConfig 1 where
  vcBufSize := 1
  bufSize := -1
  waitForTailCredit := false

def emptyBuffer : BufferState 1 := .new oneFlitBuffer (.privateBuffer (by decide))

/-- A cycle in which the packet may come in from the west, is routed to the east and
is given whatever it asks for. -/
def eastCycle (now : Int) (arrives : Bool) (east : PowerState) : Outside 3 1 where
  now := now
  inQueueFlits input := if arrives && input == 1 then some eastbound else none
  creditUpdate := id
  downstreamStates out := if out = 0 then east else .powerOn
  neighborStates _ := .powerOn
  route _ _ := OutputSet.clear.addRange (.mesh .east) 0 0 0
  routeAhead _ _ := .clear
  vcAssigned _ _ := some (0, 0)
  swHeld _ _ := none
  swAssigned _ _ := some 0
  outputBufferRoom _ := true

/-- The packet arrives; then there are other cycles. -/
def eastRun (piggyback : Bool) (later : List (Outside 3 1)) : Option (Pipeline 3 1) := do
  let s ← (initial fun _ => emptyBuffer).cycle (middle piggyback) (eastCycle 1 true .powerOn)
  s.run (middle piggyback) later

theorem reached_eastRun {piggyback : Bool} {meets : Pipeline 3 1 → Outside 3 1 → Prop}
    {later : List (Outside 3 1)} {s : Pipeline 3 1} (hmeets : ∀ s o, meets s o)
    (hsilent : ∀ o ∈ later, ∀ input, o.inQueueFlits input = none)
    (hrun : eastRun piggyback later = some s) : Reached (middle piggyback) meets s := by
  obtain ⟨t, ht, hlater⟩ := Option.bind_eq_some_iff.mp hrun
  have hstart : Reached (middle piggyback) meets (initial fun _ => emptyBuffer) := .start _
  apply (hstart.cycle _ (hmeets _ _) ht).run hsilent hmeets hlater
  intro input f _ hopen
  exact absurd rfl hopen

/-- A router with an allocator of its own sends the packet to the router in the east,
which is on. -/
theorem headsTowardAwake_ownAllocator :
    ∃ s : Pipeline 3 1, s.crossbarFlits.length = 1 ∧ s.view.HeadsTowardAwake (middle false) := by
  have hrun : (eastRun false [eastCycle 2 false .powerOn, eastCycle 3 false .powerOn]).map
      (·.crossbarFlits.length) = some 1 := rfl
  obtain ⟨s, hs, hlength⟩ := Option.map_eq_some_iff.mp hrun
  refine ⟨s, hlength, headsTowardAwake (reached_eastRun ?_ ?_ hs)⟩
  · exact noBlindGrant_of_allocator rfl
  · simp [eastCycle]

/-- With piggybacked allocation the packet is sent there in the cycle in which the
router in the east begins to drain. -/
theorem not_headsTowardAwake_piggyback :
    ∃ s : Pipeline 3 1, Reached (middle true) (fun _ _ => True) s ∧
      ¬ s.view.HeadsTowardAwake (middle true) := by
  have hrun : (eastRun true [eastCycle 2 false .draining]).map (fun s =>
      (s.downstreamStates 0, s.crossbarFlits.map fun c => (c.flit.head, c.output))) =
      some (.draining, [(true, 0)]) := rfl
  obtain ⟨s, hs, hsent⟩ := Option.map_eq_some_iff.mp hrun
  obtain ⟨hstate, hcrossed⟩ := Prod.mk.inj hsent
  refine ⟨s, reached_eastRun (fun _ _ => trivial) (by simp [eastCycle]) hs, ?_⟩
  intro hheads
  obtain ⟨c, hc, hends⟩ := List.mem_map.mp (hcrossed ▸ List.mem_singleton_self (true, (0 : Fin 5)))
  obtain ⟨hhead, hout⟩ := Prod.mk.inj hends
  have hon := hheads c hc hhead
  rw [hout] at hon
  exact PowerState.noConfusion (hstate.symm.trans (hon 5 rfl (by decide)))

end Pipeline

end Flyover
