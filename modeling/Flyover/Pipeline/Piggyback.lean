import Flyover.Pipeline.Blocked
import Flyover.Pipeline.Dispatch
import Flyover.Pipeline.Grants

/-!
# A virtual channel in passing

With piggybacked allocation a head flit competes for the switch without a virtual channel,
and takes one when its grant is served. That there is one has been looked at before any
grant of the cycle was served. If another flit goes to the same port in the same cycle,
it may have taken the last one since, and the assertion that one is found fails. A port
with a single output of the crossbar carries one flit in a cycle, so there one is found.
-/

namespace Flyover

namespace Pipeline

variable {k vcs : Nat} {cfg : PipelineConfig k} {o : Outside k vcs}

/-! ### What is to be shown -/

/-- A virtual channel with room in the candidate ranges of a channel at a port. -/
def Offers (cfg : PipelineConfig k) (s : Pipeline k vcs) (input : Fin 5) (vc : Fin vcs)
    (output : Fin 5) : Prop :=
  ∃ c ∈ (s.buf input vc).routeSet.entries, c.outputPort.output = some output ∧
    ∃ outVCs, s.candidateVCs cfg input vc c = some outVCs ∧
      ∃ outVC ∈ outVCs, s.hasRoom output outVC = true

/-- `match_vc` with its priority after the loops of `_SWAllocUpdate`; the inner `none` is -1. -/
def matchVC (cfg : PipelineConfig k) (s : Pipeline k vcs) (input : Fin 5) (vc : Fin vcs)
    (output : Fin 5) (cl : Nat) : Option (Option (Fin vcs × Int)) :=
  (s.buf input vc).routeSet.entries.foldlM
    (betterCandidate cfg s input vc output (s.vcRROffset output cl)) none

/-- What `_SWAllocUpdate` does with the virtual channel that the loops have found. -/
theorem chooseVC_eq (s : Pipeline k vcs) (input : Fin 5) (vc : Fin vcs) (output : Fin 5)
    (cl : Nat) : s.chooseVC cfg input vc output cl = (do
      guard (cfg.noq = true → (s.buf input vc).routeSet.entries.length = 1)
      let best ← s.matchVC cfg input vc output cl
      best.map Prod.fst) := rfl

/-- A head flit without a virtual channel is granted a port in this cycle. -/
structure Takes (cfg : PipelineConfig k) (s : Pipeline k vcs) (e : Entry vcs Nat) (output : Fin 5) :
    Prop where
  piggyback : cfg.piggyback = true
  due : e.due s.now = true
  uses : e.Uses cfg output
  waiting : (s.buf e.input e.vc).state = .vcAlloc

/-- No head flit that takes a virtual channel in passing follows another flit of the cycle
to its port. -/
structure Uncontested (cfg : PipelineConfig k) (s : Pipeline k vcs) : Prop where
  grants : s.swAllocVCs.Pairwise fun first e => ∀ output, first.due s.now = true →
    first.Uses cfg output → ¬ Takes cfg s e output
  holds : ∀ e ∈ s.swAllocVCs, ∀ output, Takes cfg s e output → ¬ Holds cfg s output

namespace Design

/-- What a cycle finds is uncontested when its stages begin to end. -/
def UncontestedCycle (cfg : PipelineConfig k) (o : Outside k vcs) (a : SwitchAllocation cfg vcs)
    (s : Pipeline k vcs) : Prop := ∀ t, begun cfg o a s = some t → Uncontested cfg t

/-- Whenever `_SWAllocUpdate` comes to a head flit that has won a port without having a
virtual channel, there is one for it, and the loops find one. -/
def FindsVC (design : Design) (cfg : PipelineConfig k) (o : Outside k vcs)
    (a : SwitchAllocation cfg vcs) (s : Pipeline k vcs) : Prop :=
  ∀ t, (begun cfg o a s >>= design.beforeSWAlloc cfg o) = some t → ∀ e u,
    Worklist.Visits swAllocFront (design.swAllocOne cfg o) t e u → ∀ output, Takes cfg u e output →
      Offers cfg u e.input e.vc output ∧ ∀ cl, u.matchVC cfg e.input e.vc output cl ≠ some none

end Design

/-! ### The loops find what is offered -/

section Search

variable {s : Pipeline k vcs} {input : Fin 5} {vc : Fin vcs} {output : Fin 5} {offset : Int}

theorem offers_of_findsRoom {entries : List OutputEntry}
    (h : s.findsRoom cfg input vc output entries = some true) :
    ∃ c ∈ entries, c.outputPort.output = some output ∧
      ∃ outVCs, s.candidateVCs cfg input vc c = some outVCs ∧
        ∃ outVC ∈ outVCs, s.hasRoom output outVC = true := by
  induction entries with
  | nil => exact nomatch h
  | cons c rest ih =>
      have hrest (hfinds : s.findsRoom cfg input vc output rest = some true) :
          ∃ c' ∈ c :: rest, c'.outputPort.output = some output ∧
            ∃ outVCs, s.candidateVCs cfg input vc c' = some outVCs ∧
              ∃ outVC ∈ outVCs, s.hasRoom output outVC = true := by
        obtain ⟨c', hc', hfound⟩ := ih hfinds
        exact ⟨c', List.mem_cons_of_mem c hc', hfound⟩
      unfold findsRoom at h
      split at h
      next hport =>
        obtain ⟨outVCs, houtVCs, h⟩ := Option.bind_eq_some_iff.mp h
        split at h
        next hany =>
          exact ⟨c, List.mem_cons_self, hport, outVCs, houtVCs, List.any_eq_true.mp hany⟩
        next => exact hrest h
      next => exact hrest h

theorem betterCandidate_eq (best : Option (Fin vcs × Int)) (c : OutputEntry) :
    betterCandidate cfg s input vc output offset best c =
      if c.outputPort.output = some output then do
        let outVCs ← s.candidateVCs cfg input vc c
        outVCs.foldlM (betterVC cfg s.now (s.nextBuf output) offset c.pri) best
      else some best := by
  unfold betterCandidate candidateVCs
  cases if cfg.noq then s.noqNext input vc else none with
  | none => simp only [bind_assoc, pure_bind]
  | some n => simp only [bind_assoc, pure_bind]

/-- Once there is one, there is one. -/
theorem betterVC_some {dest : BufferState vcs} {now pri : Int} {best : Option (Fin vcs × Int)}
    {outVC : Fin vcs} (h : best ≠ none) :
    Yields (betterVC cfg now dest offset pri best outVC) (· ≠ none) := by
  apply Yields.bind_any; intro _
  apply Yields.pure
  intro hnone
  obtain ⟨-, hsome⟩ | ⟨-, hbest⟩ := ite_eq_iff.mp hnone
  · exact nomatch hsome
  · exact h hbest

/-- A virtual channel with room is taken if there is none yet. -/
theorem betterVC_room {pri : Int} {best : Option (Fin vcs × Int)} {outVC : Fin vcs}
    (h : s.hasRoom output outVC = true) :
    Yields (betterVC cfg s.now (s.nextBuf output) offset pri best outVC) (· ≠ none) := by
  cases best with
  | some b => exact betterVC_some (Option.some_ne_none b)
  | none =>
      apply Yields.bind_any; intro _
      apply Yields.pure
      obtain ⟨havailable, hfull⟩ := Bool.and_eq_true_iff.mp h
      rw [if_pos (by rw [havailable, hfull]; rfl)]
      exact Option.some_ne_none _

theorem betterCandidate_some {best : Option (Fin vcs × Int)} {c : OutputEntry} (h : best ≠ none) :
    Yields (betterCandidate cfg s input vc output offset best c) (· ≠ none) := by
  rw [betterCandidate_eq]
  apply Yields.ite
  · intro _
    apply Yields.bind_any; intro outVCs
    exact Yields.foldlM h fun _ _ hbest => betterVC_some hbest
  · exact fun _ => .some h

theorem betterCandidate_room {best : Option (Fin vcs × Int)} {c : OutputEntry}
    {outVCs : List (Fin vcs)} {outVC : Fin vcs} (hport : c.outputPort.output = some output)
    (houtVCs : s.candidateVCs cfg input vc c = some outVCs) (hmem : outVC ∈ outVCs)
    (hroom : s.hasRoom output outVC = true) :
    Yields (betterCandidate cfg s input vc output offset best c) (· ≠ none) := by
  rw [betterCandidate_eq, if_pos hport, houtVCs]
  exact Yields.foldlM_mem hmem (fun _ => betterVC_room hroom) fun _ _ hbest => betterVC_some hbest

/-- Where a virtual channel is offered one is matched. -/
theorem Offers.matchVC_ne (h : Offers cfg s input vc output) (cl : Nat) :
    s.matchVC cfg input vc output cl ≠ some none := by
  obtain ⟨c, hc, hport, outVCs, houtVCs, outVC, hmem, hroom⟩ := h
  have hfinds : Yields (s.matchVC cfg input vc output cl) (· ≠ none) :=
    Yields.foldlM_mem hc (fun _ => betterCandidate_room hport houtVCs hmem hroom)
      fun _ _ hbest => betterCandidate_some hbest
  exact fun hnone => hfinds none hnone rfl

end Search

/-! ### One port, one flit -/

section Single

variable {s : Pipeline k vcs}

theorem output_inj (hsingle : cfg.outputSpeedup = 1) {x y : Nat} {output : Fin 5}
    (hx : cfg.output x = some output) (hy : cfg.output y = some output) : x = y := by
  unfold PipelineConfig.output at hx hy
  rw [hsingle] at hx hy
  simp only [Nat.div_one] at hx hy
  obtain ⟨hx', hx⟩ := Option.dite_none_right_eq_some.mp hx
  obtain ⟨hy', hy⟩ := Option.dite_none_right_eq_some.mp hy
  exact congrArg Fin.val (Option.some.inj (hx.trans hy.symm))

/-- Two requests of a channel do not stand in one queue. -/
theorem Placed.not_both {e e' : Entry vcs Nat} (hs : Placed s)
    (hsub : [e, e'].Sublist s.swAllocVCs) : ¬ (e.input = e'.input ∧ e.vc = e'.vc) := by
  rintro ⟨hinput, hvc⟩
  have htwo : [e, e'].countP (Entry.isFor e.input e.vc) = 2 := by
    simp [Entry.isFor, hinput, hvc]
  have hle := hsub.countP_le (p := Entry.isFor e.input e.vc)
  have honce := hs.once e.input e.vc
  unfold waits at honce
  omega

theorem keepsGrant_free {e : Entry vcs Nat} {x : Nat} (h : s.keepsGrant cfg o e x = some true) :
    s.switchHoldOut x = none := by
  obtain ⟨output, -, h⟩ := Option.bind_eq_some_iff.mp h
  obtain ⟨-, -, h⟩ := Option.bind_eq_some_iff.mp h
  obtain ⟨-, -, h⟩ := Option.bind_eq_some_iff.mp h
  obtain ⟨f, -, h⟩ := Option.bind_eq_some_iff.mp h
  obtain ⟨-, -, h⟩ := Option.bind_eq_some_iff.mp h
  obtain ⟨-, -, h⟩ := Option.bind_eq_some_iff.mp h
  split at h
  next => exact nomatch h
  next hfree =>
    rw [not_or, Option.not_isSome_iff_eq_none, Option.not_isSome_iff_eq_none] at hfree
    exact hfree.2

/-- A router with one crossbar output for each port sends one flit to a port in a cycle. -/
theorem uncontested_of_single (hsingle : cfg.outputSpeedup = 1) (hs : Arranged s)
    (hlooked : cfg.speculative = true → Looked cfg o s) : Uncontested cfg s where
  grants := by
    apply List.pairwise_iff_forall_sublist.mpr
    rintro first e hsub output hdue ⟨x, hx, hxout⟩ htakes
    obtain ⟨y, hy, hyout⟩ := htakes.uses
    obtain rfl := output_inj hsingle hxout hyout
    have htime {e : Entry vcs Nat} (hdue : e.due s.now = true) : e.time ≠ none := by
      obtain ⟨time, htime, -⟩ := due_iff.mp hdue
      rw [htime]
      exact Option.some_ne_none time
    exact hs.placed.not_both hsub (hs.apart first (hsub.subset List.mem_cons_self) e
      (hsub.subset (List.mem_cons_of_mem _ (List.mem_singleton_self e))) (htime hdue)
      (htime htakes.due) x hx hy)
  holds := by
    rintro e he output htakes ⟨x, hxout, hheld⟩
    obtain ⟨y, hy, hyout⟩ := htakes.uses
    obtain rfl := output_inj hsingle hxout hyout
    have hspec := cfg.speculative_of_piggyback htakes.piggyback
    exact hheld (keepsGrant_free (hlooked hspec e he htakes.due x hy))

end Single

/-! ### The queue through a cycle -/

section Cycle

variable {input : Fin 5} {vc : Fin vcs} {used : Fin 5 → Prop} {s t : Pipeline k vcs}
  {design : Design} {a : SwitchAllocation cfg vcs}

namespace Arranged

theorem initial (nextBuf : Fin 5 → BufferState vcs) (hshares : ∀ out, (nextBuf out).WithinShare) :
    Arranged (Pipeline.initial (k := k) nextBuf) :=
  ⟨.initial nextBuf hshares, List.Pairwise.nil, .nil⟩

/-- What one round preserves. -/
theorem round {queue : List (Entry vcs Nat)} (hs : Arranged s) (h : Settled input vc used s t)
    (hsub : queue.Sublist s.swAllocVCs) (hqueue : Lengthens queue t.swAllocVCs) : Arranged t where
  placed := hs.placed.settled h
  ordered := Ordered.lengthens (List.Pairwise.sublist hsub hs.ordered) hqueue
  apart := (hs.apart.subset fun _ he => hsub.subset he).lengthens hqueue

theorem spared (hs : Arranged s) (hplaced : Placed t)
    (h : Spared input vc s.swAllocVCs t.swAllocVCs) : Arranged t where
  placed := hplaced
  ordered := hs.ordered.spared h
  apart := by
    obtain ⟨old, fresh, hsub, -, hqueue, hfresh⟩ := h
    exact (hs.apart.subset fun _ he => hsub.subset he).lengthens
      ⟨fresh, hqueue, fun e he => (hfresh e he).1⟩

theorem queueFlit (hs : Arranged s) : Yields (s.queueFlit cfg o input) Arranged := by
  refine (hs.placed.queueFlit.both Touches.queueFlit).mono ?_
  rintro t ⟨hplaced, rfl | ⟨f, -, htouches⟩⟩
  · exact hs
  · exact hs.spared hplaced htouches.swAlloc

theorem evaluate (hs : Arranged s) :
    Arranged ({ s.evaluate cfg o with swAllocVCs := s.swAllocVCs } : Pipeline k vcs) := by
  have hwaits (i : Fin 5) (v : Fin vcs) :
      ({ s.evaluate cfg o with swAllocVCs := s.swAllocVCs } : Pipeline k vcs).waits i v =
        s.waits i v := by
    simp only [waits, Pipeline.evaluate, countP_stamp, countP_decideBy]
  refine ⟨⟨fun i v => hwaits i v ▸ hs.placed.once i v, fun i v hpos => ?_, hs.placed.shares⟩,
    hs.ordered, hs.apart⟩
  exact hs.placed.busy i v (hwaits i v ▸ hpos)

/-- The stages begin. -/
theorem begun (hs : Arranged s) (hcredits : ∀ out, (o.creditUpdate s.nextBuf out).WithinShare) :
    Yields (Design.begun cfg o a s) fun t =>
      Arranged t ∧ (cfg.speculative = true → Looked cfg o t) := by
  have hread : Arranged (s.readInputs o) :=
    ⟨⟨hs.placed.once, hs.placed.busy, hcredits⟩, hs.ordered, hs.apart⟩
  have hqueued : Yields ((s.readInputs o).inputQueuing cfg o) Arranged :=
    Yields.foldlM hread fun _ _ ht => ht.queueFlit
  exact hqueued.bind fun t ht => swAllocEvaluate_spec ht.evaluate

theorem routeUpdate {scheme : Scheme} (hs : Arranged s) :
    Yields (scheme.routeUpdate cfg o s) Arranged := by
  apply Yields.bind_any; intro _
  apply Yields.loop_front hs
  intro e t hfront ht
  refine (routeOne_settled (Option.filter_eq_some_iff.mp hfront).1).mono ?_
  rintro u ⟨hsettled, hqueue⟩
  exact ht.round hsettled (List.Sublist.refl _) hqueue

theorem swHoldUpdate (hs : Arranged s) : Yields (s.swHoldUpdate cfg o) Arranged := by
  apply Yields.ite
  · intro _
    apply Yields.loop_front hs
    intro e t hfront ht
    refine (swHoldOne_settled (Option.filter_eq_some_iff.mp hfront).1).mono ?_
    rintro u ⟨hsettled, hqueue⟩
    exact ht.round hsettled (List.Sublist.refl _) hqueue
  · exact fun _ => .some hs

theorem swAllocUpdate (hs : Arranged s) : Yields (design.swAllocUpdate cfg o s) Arranged := by
  apply Yields.loop_front hs
  intro e t hfront ht
  refine (swAllocOne_settled (Option.filter_eq_some_iff.mp hfront).1).mono ?_
  rintro u ⟨hsettled, hqueue⟩
  exact ht.round hsettled (List.tail_sublist _) hqueue

end Arranged

/-- Without a VC allocator nothing waits for one. -/
theorem vcAllocUpdate_piggyback {scheme : Scheme} (hpiggyback : cfg.piggyback = true) :
    Yields (scheme.vcAllocUpdate cfg o s) (· = s) := by
  apply Yields.guarded
  intro hnone
  have hnil : s.vcAllocVCs = [] := by
    by_contra hsome
    exact Bool.false_ne_true ((hnone hsome).symm.trans hpiggyback)
  have hfront : Scheme.vcAllocFront s = none := by
    unfold Scheme.vcAllocFront
    rw [hnil]
    rfl
  rw [Worklist.loop_none hfront]
  exact .some rfl

end Cycle

/-! ### Held connections -/

section Held

variable {s t : Pipeline k vcs}

/-- Connections that are held were held before. -/
def Releases (s t : Pipeline k vcs) : Prop :=
  ∀ x, t.switchHoldOut x ≠ none → s.switchHoldOut x ≠ none

theorem Releases.of_eq (h : t.switchHoldOut = s.switchHoldOut) : Releases s t :=
  fun _ hx => h ▸ hx

theorem releases_cancelHold (h : Releases s t) (i x : Nat) : Releases s (t.cancelHold i x) := by
  intro y hy
  by_cases hyx : y = x
  · subst hyx
    exact absurd (Function.update_self ..) hy
  · unfold cancelHold at hy
    dsimp only at hy
    rw [Function.update_of_ne hyx] at hy
    exact h y hy

theorem releases_useLookahead {input : Fin 5} {vc : Fin vcs} {f : Flit k vcs} (h : Releases s t) :
    Yields (t.useLookahead cfg o input vc f) (Releases s) := by
  apply Yields.ite
  · exact fun _ => updateNOQ_eq.mono fun u ⟨noq, hu⟩ => hu ▸ h
  · exact fun _ => .some h

theorem releases_holdSent {e : Entry vcs Nat} {f : Flit k vcs} {expandedOutput : Nat} :
    Yields (s.holdSent cfg o e f expandedOutput) (Releases s) := by
  apply Yields.bind_any; intro _
  apply Yields.bind_any; intro _
  apply Yields.bind_any; intro output
  apply Yields.bind_any; intro out
  apply Yields.bind_any; intro _
  have hsent : Yields (s.sendFlit cfg o e f output out.2 expandedOutput) (Releases s) := by
    apply Yields.bind_any; intro _
    apply Yields.bind_any; intro _
    exact .pure (.of_eq rfl)
  refine Yields.bind hsent fun u hu => ?_
  split
  · apply Yields.pure
    split
    · exact releases_cancelHold hu (cfg.expandedInput e.input e.vc) _
    · exact releases_cancelHold hu (cfg.expandedInput e.input e.vc) _
  · apply Yields.bind_any; intro _
    apply Yields.ite
    · intro _
      apply Yields.bind_any; intro _
      apply Yields.ite
      · exact fun _ => .pure (releases_cancelHold hu (cfg.expandedInput e.input e.vc) _)
      · exact fun _ => releases_useLookahead (releases_cancelHold hu (cfg.expandedInput e.input e.vc) _)
    · exact fun _ => .pure hu

theorem swHoldOne_releases {e : Entry vcs Nat} : Yields (swHoldOne cfg o e s) (Releases s) := by
  apply Yields.bind_any; intro _
  apply Yields.bind_any; intro _
  apply Yields.bind_any; intro _
  apply Yields.bind_any; intro _
  apply Yields.bind_any; intro _
  have hdecided (f : Flit k vcs) : Yields (s.holdDecided cfg o e f) (Releases s) := by
    unfold Pipeline.holdDecided
    split
    · exact releases_holdSent
    · apply Yields.bind_any; intro _
      exact .pure (releases_cancelHold (.of_eq rfl) (cfg.expandedInput e.input e.vc) _)
  exact (hdecided _).bind fun t ht => .pure ht

end Held

/-! ### The grants that are not served yet -/

section Keeps

variable {s t u : Pipeline k vcs} {design : Design} {rest : List (Entry vcs Nat)}

/-- The grants in the rest of the queue are as good as they were at the last look. -/
structure Keeps (cfg : PipelineConfig k) (s : Pipeline k vcs) (rest : List (Entry vcs Nat))
    (t : Pipeline k vcs) : Prop where
  placed : Placed t
  now : t.now = s.now
  queue : Lengthens rest t.swAllocVCs
  same : ∀ e ∈ rest, t.buf e.input e.vc = s.buf e.input e.vc
  offers : ∀ e ∈ rest, ∀ output, Takes cfg s e output → Offers cfg t e.input e.vc output

/-- A round for another channel that does not use the port leaves what is offered. -/
theorem Offers.settled {input i : Fin 5} {vc v : Fin vcs} {output : Fin 5} {used : Fin 5 → Prop}
    (h : Offers cfg t i v output) (hround : Settled input vc used t u) (hshares : t.FairShares)
    (hother : ¬ (i = input ∧ v = vc)) (hunused : ¬ used output) : Offers cfg u i v output := by
  obtain ⟨c, hc, hport, outVCs, houtVCs, outVC, hmem, hroom⟩ := h
  refine ⟨c, ?_, hport, outVCs, ?_, outVC, hmem, hround.room hshares output hunused outVC hroom⟩
  · rw [hround.buf i v hother]
    exact hc
  · unfold candidateVCs at houtVCs ⊢
    rw [hround.noq i v hother]
    exact houtVCs

/-- What one round for a channel preserves that has no entry in the rest. -/
theorem Keeps.round {input : Fin 5} {vc : Fin vcs} {used : Fin 5 → Prop}
    {rest' : List (Entry vcs Nat)} (h : Keeps cfg s rest t) (hround : Settled input vc used t u)
    (hsub : ∀ e ∈ rest', e ∈ rest) (hqueue : Lengthens rest' u.swAllocVCs)
    (hother : ∀ e ∈ rest', ¬ (e.input = input ∧ e.vc = vc))
    (hunused : ∀ e ∈ rest', ∀ output, Takes cfg s e output → ¬ used output) :
    Keeps cfg s rest' u where
  placed := h.placed.settled hround
  now := hround.now.trans h.now
  queue := hqueue
  same := fun e he => (hround.buf _ _ (hother e he)).trans (h.same e (hsub e he))
  offers := fun e he output htakes => (h.offers e (hsub e he) output htakes).settled hround
    h.placed.shares (hother e he) (hunused e he output htakes)

/-- A channel that waits for the switch does not wait elsewhere. -/
theorem Placed.countP_switch {e : Entry vcs Nat} (ht : Placed t) (he : e ∈ t.swAllocVCs) :
    t.routeVCs.countP (Entry.isFor e.input e.vc) = 0 ∧
      t.swHoldVCs.countP (Entry.isFor e.input e.vc) = 0 := by
  have hpos : 0 < t.swAllocVCs.countP (Entry.isFor e.input e.vc) :=
    List.countP_pos_iff.mpr ⟨e, he, isFor_self e⟩
  have honce := ht.once e.input e.vc
  unfold waits at honce
  omega

theorem not_isFor {α : Type} {queue : List (Entry vcs α)} {x : Entry vcs α} {i : Fin 5}
    {v : Fin vcs} (hx : x ∈ queue) (hnone : queue.countP (Entry.isFor i v) = 0) :
    ¬ (i = x.input ∧ v = x.vc) := by
  rintro ⟨rfl, rfl⟩
  exact List.countP_eq_zero.mp hnone x hx (isFor_self x)

theorem Keeps.routeUpdate {scheme : Scheme} (h : Keeps cfg s rest t) :
    Yields (scheme.routeUpdate cfg o t) fun u => Keeps cfg s rest u ∧
      u.switchHoldOut = t.switchHoldOut := by
  apply Yields.bind_any; intro _
  apply Yields.loop_front (motive := fun u => Keeps cfg s rest u ∧
    u.switchHoldOut = t.switchHoldOut) ⟨h, rfl⟩
  rintro e u hfront ⟨hu, hheld⟩
  have hhead := (Option.filter_eq_some_iff.mp hfront).1
  have hsame : Yields (scheme.routeOne cfg o e u) fun w => w.switchHoldOut = u.switchHoldOut := by
    apply Yields.bind_any; intro _
    apply Yields.bind_any; intro _
    apply Yields.bind_any; intro _
    apply Yields.bind_any; intro _
    apply Yields.bind_any; intro _
    exact .pure rfl
  refine ((routeOne_settled hhead).both hsame).mono ?_
  rintro w ⟨⟨hsettled, hqueue⟩, hkept⟩
  refine ⟨hu.round hsettled (fun _ => id) (hu.queue.trans hqueue) ?_ fun _ _ _ _ => id,
    hkept.trans hheld⟩
  intro x hx
  have hmem : x ∈ u.swAllocVCs := hu.queue.begins.subset hx
  exact not_isFor (List.mem_of_mem_head? hhead) (hu.placed.countP_switch hmem).1

theorem Keeps.swHoldUpdate (h : Keeps cfg s rest t) (hheld : Releases s t)
    (hfree : ∀ e ∈ rest, ∀ output, Takes cfg s e output → ¬ Holds cfg s output) :
    Yields (t.swHoldUpdate cfg o) (Keeps cfg s rest) := by
  apply Yields.ite
  · intro _
    refine (Yields.loop_front (motive := fun u => Keeps cfg s rest u ∧ Releases s u) ⟨h, hheld⟩
      ?_).mono fun u hu => hu.1
    rintro e u hfront ⟨hu, hheld⟩
    have hhead := (Option.filter_eq_some_iff.mp hfront).1
    refine ((swHoldOne_settled hhead).both swHoldOne_releases).mono ?_
    rintro w ⟨⟨hsettled, hqueue⟩, hreleases⟩
    refine ⟨hu.round hsettled (fun _ => id) (hu.queue.trans hqueue) ?_ ?_,
      fun x hx => hheld x (hreleases x hx)⟩
    · intro x hx
      have hmem : x ∈ u.swAllocVCs := hu.queue.begins.subset hx
      exact not_isFor (List.mem_of_mem_head? hhead) (hu.placed.countP_switch hmem).2
    · rintro x hx output htakes ⟨y, hy, hyheld⟩
      exact hfree x hx output htakes ⟨y, hy, hheld y hyheld⟩
  · exact fun _ => .some h

/-- An entry that is due is one of the rest, and then it is the first of it. -/
theorem Keeps.front {e : Entry vcs Nat} (h : Keeps cfg s rest t) (hfront : swAllocFront t = some e) :
    e.due s.now = true ∧ ∃ later, rest = e :: later := by
  obtain ⟨hhead, hdue⟩ := Option.filter_eq_some_iff.mp hfront
  obtain ⟨fresh, hqueue, hfresh⟩ := h.queue
  rw [h.now] at hdue
  refine ⟨hdue, ?_⟩
  cases rest with
  | nil =>
      obtain ⟨time, htime, -⟩ := due_iff.mp hdue
      rw [hqueue] at hhead
      rw [hfresh e (List.mem_of_mem_head? hhead)] at htime
      exact nomatch htime
  | cons first later =>
      rw [hqueue] at hhead
      exact ⟨later, by rw [Option.some.inj hhead]⟩

/-- A round serves the first of the grants. -/
theorem Keeps.swAllocOne {e : Entry vcs Nat} {later : List (Entry vcs Nat)}
    (h : Keeps cfg s (e :: later) t) (hhead : t.swAllocVCs.head? = some e)
    (hfirst : ∀ x ∈ later, ∀ output, e.Uses cfg output → ¬ Takes cfg s x output) :
    Yields (design.swAllocOne cfg o e t) (Keeps cfg s later) := by
  refine (swAllocOne_settled hhead).mono ?_
  rintro u ⟨hsettled, hqueue⟩
  have hlater : Lengthens later t.swAllocVCs.tail := h.queue.tail rfl
  refine h.round hsettled (fun x hx => List.mem_cons_of_mem e hx) (hlater.trans hqueue) ?_ ?_
  · intro x hx
    have hsub : [e, x].Sublist t.swAllocVCs :=
      ((List.singleton_sublist.mpr hx).cons_cons e).trans h.queue.begins.sublist
    exact fun hself => h.placed.not_both hsub ⟨hself.1.symm, hself.2.symm⟩
  · exact fun x hx output htakes huses => hfirst x hx output huses htakes

end Keeps

/-! ### Runs -/

/-- What the credits and the handshakes make of the buffers is made by the operations of
`BufferState`. -/
def Outside.UpdatesBuffers (o : Outside k vcs) (nextBuf : Fin 5 → BufferState vcs) : Prop :=
  ∀ out, ∃ ops : List (CreditOp vcs),
    ops.foldlM BufferState.perform (nextBuf out) = .ok (o.creditUpdate nextBuf out)

theorem Outside.UpdatesBuffers.withinShare {nextBuf : Fin 5 → BufferState vcs}
    (h : o.UpdatesBuffers nextBuf) (hshares : ∀ out, (nextBuf out).WithinShare) (out : Fin 5) :
    (o.creditUpdate nextBuf out).WithinShare := by
  obtain ⟨ops, hops⟩ := h out
  have hrun (ops : List (CreditOp vcs)) : ∀ b b' : BufferState vcs, b.WithinShare →
      ops.foldlM BufferState.perform b = .ok b' → b'.WithinShare := by
    induction ops with
    | nil =>
        intro b b' hb h
        obtain rfl := pure_ok.mp h
        exact hb
    | cons op rest ih =>
        intro b b' hb h
        obtain ⟨c, hc, hrest⟩ := bind_ok.mp h
        exact ih c b' (hb.perform op hc) hrest
  exact hrun ops _ _ (hshares out) hops

namespace Design

/-- The states that a router reaches. -/
inductive Reached (design : Design) (cfg : PipelineConfig k) (config : BufferConfig vcs)
    (policy : PolicyConfig config) : Pipeline k vcs → Prop
  | start : Reached design cfg config policy (.initial fun _ => .new config policy)
  | cycle {s s' : Pipeline k vcs} {o : Outside k vcs} {a : SwitchAllocation cfg vcs} :
      Reached design cfg config policy s → o.UpdatesBuffers s.nextBuf →
      design.cycle cfg o a s = some s' → Reached design cfg config policy s'

section Run

variable {design : Design} {s t : Pipeline k vcs} {a : SwitchAllocation cfg vcs}
  {config : BufferConfig vcs} {policy : PolicyConfig config}

/-- The stages between, for a router without a VC allocator. -/
theorem beforeSWAlloc_arranged (hpiggyback : cfg.piggyback = true) (hs : Arranged s) :
    Yields (design.beforeSWAlloc cfg o s) Arranged := by
  refine Yields.bind hs.routeUpdate fun t ht => ?_
  refine Yields.bind (vcAllocUpdate_piggyback hpiggyback) fun u hu => ?_
  rw [hu]
  exact ht.swHoldUpdate

theorem Reached.arranged (hpiggyback : cfg.piggyback = true)
    (h : design.Reached cfg config policy s) : Arranged s := by
  induction h with
  | start => exact .initial _ fun _ => BufferState.withinShare_new config policy
  | @cycle s s' o a _ hbuffers hcycle ih =>
      have hcycled : Yields (design.cycle cfg o a s) Arranged := by
        refine Yields.bind (ih.begun (hbuffers.withinShare ih.placed.shares)) fun t ht => ?_
        refine Yields.bind (beforeSWAlloc_arranged hpiggyback ht.1) fun u hu => ?_
        exact hu.swAllocUpdate
      exact hcycled s' hcycle

/-- The grants after the last look have what they need. -/
theorem keeps_start (hs : Arranged s) (hlooked : cfg.speculative = true → Looked cfg o s) :
    Keeps cfg s s.swAllocVCs s where
  placed := hs.placed
  now := rfl
  queue := .refl _
  same _ _ := rfl
  offers := by
    intro e he output htakes
    obtain ⟨x, hx, hout⟩ := htakes.uses
    have hspec := cfg.speculative_of_piggyback htakes.piggyback
    have hkeeps := hlooked hspec e he htakes.due x hx
    obtain ⟨output', hout', h⟩ := Option.bind_eq_some_iff.mp hkeeps
    obtain rfl := Option.some.inj (hout.symm.trans hout')
    obtain ⟨-, -, h⟩ := Option.bind_eq_some_iff.mp h
    obtain ⟨-, -, h⟩ := Option.bind_eq_some_iff.mp h
    obtain ⟨f, -, h⟩ := Option.bind_eq_some_iff.mp h
    obtain ⟨-, -, h⟩ := Option.bind_eq_some_iff.mp h
    obtain ⟨-, -, h⟩ := Option.bind_eq_some_iff.mp h
    split at h
    next => exact nomatch h
    next =>
      rw [if_pos ⟨hspec, htakes.waiting⟩] at h
      obtain ⟨-, -, h⟩ := Option.bind_eq_some_iff.mp h
      unfold keepsSpeculative at h
      rw [if_pos htakes.piggyback] at h
      obtain ⟨-, -, h⟩ := Option.bind_eq_some_iff.mp h
      exact offers_of_findsRoom h

theorem keeps_beforeSWAlloc (hpiggyback : cfg.piggyback = true) (hs : Arranged s)
    (hlooked : cfg.speculative = true → Looked cfg o s) (hfree : Uncontested cfg s) :
    Yields (design.beforeSWAlloc cfg o s) (Keeps cfg s s.swAllocVCs) := by
  refine Yields.bind (keeps_start hs hlooked).routeUpdate fun t ⟨ht, hheld⟩ => ?_
  refine Yields.bind (vcAllocUpdate_piggyback hpiggyback) fun u hu => ?_
  rw [hu]
  exact ht.swHoldUpdate (.of_eq hheld) hfree.holds

/-- Whatever entry the loop comes to, those behind it have what they need. -/
theorem keeps_visits {e : Entry vcs Nat} {u : Pipeline k vcs} {rest : List (Entry vcs Nat)}
    (hfree : Uncontested cfg s) (hrest : rest <:+ s.swAllocVCs) (ht : Keeps cfg s rest t)
    (hvisits : Worklist.Visits swAllocFront (design.swAllocOne cfg o) t e u) :
    ∃ later, later <:+ s.swAllocVCs ∧ Keeps cfg s later u := by
  induction hvisits generalizing rest with
  | here _ => exact ⟨rest, hrest, ht⟩
  | @later t t' u first e hfront hbody _ ih =>
      obtain ⟨hdue, later, rfl⟩ := ht.front hfront
      have hhead := (Option.filter_eq_some_iff.mp hfront).1
      have hpairs := List.pairwise_cons.mp (List.Pairwise.sublist hrest.sublist hfree.grants)
      have hnext : Keeps cfg s later t' :=
        ht.swAllocOne hhead (fun x hx output huses => hpairs.1 x hx output hdue huses) t' hbody
      exact ih ((List.suffix_cons first later).trans hrest) hnext

/-- In a cycle in which no head flit follows another flit to its port, every head flit that
takes a virtual channel in passing finds one. -/
theorem finds_of_uncontested (hs : Arranged s) (hlooked : cfg.speculative = true → Looked cfg o s)
    (hfree : Uncontested cfg s) (ht : design.beforeSWAlloc cfg o s = some t) {e : Entry vcs Nat}
    {u : Pipeline k vcs} (hvisits : Worklist.Visits swAllocFront (design.swAllocOne cfg o) t e u)
    {output : Fin 5} (htakes : Takes cfg u e output) : Offers cfg u e.input e.vc output := by
  have hstart := keeps_beforeSWAlloc htakes.piggyback hs hlooked hfree t ht
  obtain ⟨rest, -, hu⟩ := keeps_visits hfree (List.suffix_refl _) hstart hvisits
  obtain ⟨hdue, later, rfl⟩ := hu.front hvisits.front_eq
  have hmem : e ∈ e :: later := List.mem_cons_self
  have hwaiting : (s.buf e.input e.vc).state = .vcAlloc := hu.same e hmem ▸ htakes.waiting
  exact hu.offers e hmem output ⟨htakes.piggyback, hdue, htakes.uses, hwaiting⟩

/-- In every run and every configuration, a head flit that takes a virtual channel in passing
finds one in each cycle in which it does not follow another flit to its port; with one
crossbar output for each port all cycles are of this kind. -/
theorem findsVC_of_reached (h : design.Reached cfg config policy s)
    (hbuffers : o.UpdatesBuffers s.nextBuf) :
    (UncontestedCycle cfg o a s → design.FindsVC cfg o a s) ∧
      (cfg.outputSpeedup = 1 → UncontestedCycle cfg o a s) := by
  have hbegun (hpiggyback : cfg.piggyback = true) :
      Yields (begun cfg o a s) fun t => Arranged t ∧ (cfg.speculative = true → Looked cfg o t) := by
    have hs := h.arranged hpiggyback
    exact hs.begun (hbuffers.withinShare hs.placed.shares)
  constructor
  · intro hfree t ht e u hvisits output htakes
    obtain ⟨s', hs', ht⟩ := Option.bind_eq_some_iff.mp ht
    obtain ⟨harranged, hlooked⟩ := hbegun htakes.piggyback s' hs'
    have hoffers := finds_of_uncontested harranged hlooked (hfree s' hs') ht hvisits htakes
    exact ⟨hoffers, hoffers.matchVC_ne⟩
  · intro hsingle t ht
    cases hpiggyback : cfg.piggyback with
    | true =>
        obtain ⟨harranged, hlooked⟩ := hbegun hpiggyback t ht
        exact uncontested_of_single hsingle harranged hlooked
    | false =>
        have hno (e : Entry vcs Nat) (output : Fin 5) : ¬ Takes cfg t e output := fun htakes =>
          Bool.false_ne_true (hpiggyback.symm.trans htakes.piggyback)
        exact ⟨List.pairwise_of_forall fun _ e output _ _ => hno e output,
          fun e _ output htakes => absurd htakes (hno e output)⟩

end Run

/-! ### Two packets for one virtual channel -/

/-- The router in the middle of a mesh, with some outputs of the crossbar for each port. -/
def crossbar (outputSpeedup : Nat) : PipelineConfig 3 :=
  { middle true with outputSpeedup := outputSpeedup }

/-- Packets for the router in the east arrive at some inputs. -/
def arrivals (now : Int) (inputs : List (Fin 5)) : Outside 3 1 :=
  { eastCycle now false .powerOn with
    inQueueFlits := fun input => if inputs.contains input then some eastbound else none }

/-- The channel of input 1 is granted the last output of the crossbar to the east. -/
def oneGranted : SwitchAllocation (crossbar 1) 1 where
  swAllocator := {
    matching := {
      inmatch := fun i => if i.val = 1 then some ⟨0, by decide⟩ else none
      outmatch := fun out => if out.val = 0 then some ⟨1, by decide⟩ else none }
    request := fun i out => if i.val = 1 ∧ out.val = 0 then some ⟨0, 0, 0⟩ else none }
  specSWAllocator := none
  specMaskByReqs := false
  stalled _ _ := false
  matching := by
    unfold Allocator.ReturnsMatching PartialMatching.Consistent PartialMatching.Within
    decide
  specMatching := nofun

/-- The channels of inputs 1 and 2 are granted the two outputs of the crossbar to the east. -/
def bothGranted : SwitchAllocation (crossbar 2) 1 where
  swAllocator := {
    matching := {
      inmatch := fun i =>
        if i.val = 1 then some ⟨1, by decide⟩
        else if i.val = 2 then some ⟨0, by decide⟩
        else none
      outmatch := fun out =>
        if out.val = 1 then some ⟨1, by decide⟩
        else if out.val = 0 then some ⟨2, by decide⟩
        else none }
    request := fun i out =>
      if i.val = 1 ∧ out.val = 1 ∨ i.val = 2 ∧ out.val = 0 then some ⟨0, 0, 0⟩ else none }
  specSWAllocator := none
  specMaskByReqs := false
  stalled _ _ := false
  matching := by
    unfold Allocator.ReturnsMatching PartialMatching.Consistent PartialMatching.Within
    decide
  specMatching := nofun

theorem updatesBuffers_arrivals (now : Int) (inputs : List (Fin 5))
    (nextBuf : Fin 5 → BufferState 1) : (arrivals now inputs).UpdatesBuffers nextBuf :=
  fun _ => ⟨[], rfl⟩

/-- A packet that is alone finds the virtual channel. -/
theorem findsVC_of_reached_alone : ∃ s : Pipeline 3 1,
    (gated .flov).Reached (crossbar 1) oneFlitBuffer (.privateBuffer (by decide)) s ∧
      s.swAllocVCs.length = 1 ∧ (gated .flov).FindsVC (crossbar 1) (arrivals 2 []) oneGranted s := by
  have hrun : ((gated .flov).cycle (crossbar 1) (arrivals 1 [1]) oneGranted
      (.initial fun _ => emptyBuffer)).map (·.swAllocVCs.length) = some 1 := rfl
  obtain ⟨s, hs, hlength⟩ := Option.map_eq_some_iff.mp hrun
  have hreached : (gated .flov).Reached (crossbar 1) oneFlitBuffer (.privateBuffer (by decide)) s :=
    .cycle .start (updatesBuffers_arrivals 1 [1] _) hs
  have hfinds := findsVC_of_reached (o := arrivals 2 []) (a := oneGranted) hreached
    (updatesBuffers_arrivals 2 [] _)
  exact ⟨s, hreached, hlength, hfinds.1 (hfinds.2 rfl)⟩

/-- Of two packets that are granted the port together, the second finds none. -/
theorem not_findsVC_doubled : ∃ s : Pipeline 3 1,
    (gated .flov).Reached (crossbar 2) oneFlitBuffer (.privateBuffer (by decide)) s ∧
      ¬ (gated .flov).FindsVC (crossbar 2) (arrivals 2 []) bothGranted s := by
  have hrun : (do
      let s ← (gated .flov).cycle (crossbar 2) (arrivals 1 [1, 2]) bothGranted
        (.initial fun _ => emptyBuffer)
      let t ← begun (crossbar 2) (arrivals 2 []) bothGranted s >>=
        (gated .flov).beforeSWAlloc (crossbar 2) (arrivals 2 [])
      let e ← swAllocFront t
      let u ← (gated .flov).swAllocOne (crossbar 2) (arrivals 2 []) e t
      let e' ← swAllocFront u
      pure (e'.result.bind (crossbar 2).output, (u.buf e'.input e'.vc).state,
        u.matchVC (crossbar 2) e'.input e'.vc 0 0)) = some (some 0, .vcAlloc, some none) := rfl
  obtain ⟨s, hs, hrun⟩ := Option.bind_eq_some_iff.mp hrun
  obtain ⟨t, ht, hrun⟩ := Option.bind_eq_some_iff.mp hrun
  obtain ⟨e, he, hrun⟩ := Option.bind_eq_some_iff.mp hrun
  obtain ⟨u, hu, hrun⟩ := Option.bind_eq_some_iff.mp hrun
  obtain ⟨e', he', hrun⟩ := Option.bind_eq_some_iff.mp hrun
  obtain ⟨houtput, hrun⟩ := Prod.mk.inj (Option.some.inj hrun)
  obtain ⟨hstate, hnone⟩ := Prod.mk.inj hrun
  refine ⟨s, .cycle .start (updatesBuffers_arrivals 1 [1, 2] _) hs, fun hfinds => ?_⟩
  have hvisits : Worklist.Visits swAllocFront
      ((gated .flov).swAllocOne (crossbar 2) (arrivals 2 [])) t e' u := .later he hu (.here he')
  have htakes : Takes (crossbar 2) u e' 0 :=
    ⟨rfl, (Option.filter_eq_some_iff.mp he').2, Option.bind_eq_some_iff.mp houtput, hstate⟩
  exact (hfinds t ht e' u hvisits 0 htakes).2 0 hnone

end Design

end Pipeline

end Flyover
