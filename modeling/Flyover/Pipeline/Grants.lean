import Flyover.Pipeline.Waiting

/-!
# The grants of a cycle

All requests whose stage ends in a cycle have been answered together, by a matching. So no
two channels have a grant for one output of the crossbar, and what the last look has left
is granted in the state in which the stages begin to end.
-/

namespace Flyover

namespace Pipeline

variable {k vcs : Nat} {cfg : PipelineConfig k} {o : Outside k vcs}

/-! ### Two answers -/

namespace SwitchAllocation

variable {a : SwitchAllocation cfg vcs}

theorem readGrant_eq_some {alloc : CrossbarAllocator cfg} {i : Fin (5 * cfg.inputSpeedup)}
    {out : Fin (5 * cfg.outputSpeedup)} {vc : Fin vcs} {x : Nat}
    (h : readGrant alloc i out vc = some x) :
    (alloc.request i out).map (·.label) = some vc.val ∧ x = out := by
  obtain ⟨hlabel, hx⟩ := Option.ite_none_right_eq_some.mp h
  exact ⟨hlabel, (Option.some.inj hx).symm⟩

/-- A grant comes from one of the two allocators; a speculative one is not masked. -/
inductive Answered (a : SwitchAllocation cfg vcs) (input : Fin 5) (vc : Fin vcs)
    (out : Fin (5 * cfg.outputSpeedup)) : Prop
  | plain :
      a.swAllocator.matching.inmatch (cfg.crossbarInput input vc) = some out →
      (a.swAllocator.request (cfg.crossbarInput input vc) out).map (·.label) = some vc.val →
      Answered a input vc out
  | speculative {spec : CrossbarAllocator cfg} :
      a.specSWAllocator = some spec →
      spec.matching.inmatch (cfg.crossbarInput input vc) = some out →
      a.masks out = false →
      (spec.request (cfg.crossbarInput input vc) out).map (·.label) = some vc.val →
      Answered a input vc out

theorem answered_of_assigned {input : Fin 5} {vc : Fin vcs} {x : Nat}
    (h : a.assigned input vc = some (some x)) :
    ∃ out, x = out.val ∧ a.Answered input vc out := by
  unfold assigned at h
  dsimp only at h
  split at h
  next out hmatch =>
    obtain ⟨-, -, h⟩ := Option.bind_eq_some_iff.mp h
    obtain ⟨hlabel, hx⟩ := readGrant_eq_some (Option.some.inj h)
    exact ⟨out, hx, .plain hmatch hlabel⟩
  next =>
    split at h
    next => exact nomatch h
    next spec hspec =>
      split at h
      next => exact nomatch h
      next out hmatch =>
        obtain ⟨-, -, h⟩ := Option.bind_eq_some_iff.mp h
        obtain ⟨hmask, hgrant⟩ := Option.ite_none_left_eq_some.mp (Option.some.inj h)
        obtain ⟨hlabel, hx⟩ := readGrant_eq_some hgrant
        exact ⟨out, hx, .speculative hspec hmatch (Bool.eq_false_iff.mpr hmask) hlabel⟩

/-- A speculative grant for an output that the other allocator has matched is masked. -/
theorem masks_of_matched {i : Fin (5 * cfg.inputSpeedup)} {out : Fin (5 * cfg.outputSpeedup)}
    (h : a.swAllocator.matching.inmatch i = some out) : a.masks out = true := by
  unfold masks
  split
  · have hhas : a.swAllocator.request.Has i out := a.matching.2 i out h
    have hmem : i ∈ a.swAllocator.request.outReq out := Requests.mem_outReq.mpr hhas
    simp [List.ne_nil_of_mem hmem]
  · rw [(a.matching.1 i out).mp h]
    rfl

/-- The label of a request tells which of the channels of a crossbar input it is from. -/
theorem channel_eq {i j : Fin 5} {v w : Fin vcs} {alloc : CrossbarAllocator cfg}
    {out : Fin (5 * cfg.outputSpeedup)} (hinput : cfg.crossbarInput i v = cfg.crossbarInput j w)
    (hv : (alloc.request (cfg.crossbarInput i v) out).map (·.label) = some v.val)
    (hw : (alloc.request (cfg.crossbarInput j w) out).map (·.label) = some w.val) :
    i = j ∧ v = w := by
  rw [hinput, hw] at hv
  obtain rfl : v = w := Fin.ext (Option.some.inj hv).symm
  exact ⟨expandedInput_inj (congrArg Fin.val hinput), rfl⟩

/-- No two channels are granted one output of the crossbar. -/
theorem Answered.unique {i j : Fin 5} {v w : Fin vcs} {out : Fin (5 * cfg.outputSpeedup)}
    (h : a.Answered i v out) (h' : a.Answered j w out) : i = j ∧ v = w := by
  cases h with
  | plain hmatch hlabel =>
      cases h' with
      | plain hmatch' hlabel' =>
          exact channel_eq (a.matching.1.injective hmatch hmatch') hlabel hlabel'
      | speculative _ _ hmask _ =>
          exact absurd (masks_of_matched hmatch) (Bool.eq_false_iff.mp hmask)
  | speculative hspec hmatch hmask hlabel =>
      cases h' with
      | plain hmatch' _ => exact absurd (masks_of_matched hmatch') (Bool.eq_false_iff.mp hmask)
      | speculative hspec' hmatch' _ hlabel' =>
          obtain rfl := Option.some.inj (hspec.symm.trans hspec')
          have hconsistent := (a.specMatching _ hspec).1
          exact channel_eq (hconsistent.injective hmatch hmatch') hlabel hlabel'

theorem assigned_unique {i j : Fin 5} {v w : Fin vcs} {x : Nat}
    (h : a.assigned i v = some (some x)) (h' : a.assigned j w = some (some x)) :
    i = j ∧ v = w := by
  obtain ⟨out, rfl, hanswer⟩ := answered_of_assigned h
  obtain ⟨out', hout, hanswer'⟩ := answered_of_assigned h'
  obtain rfl := Fin.ext hout
  exact hanswer.unique hanswer'

end SwitchAllocation

/-! ### What the answers do to the queue -/

section Queues

variable {α : Type} {queue queue' : List (Entry vcs α)}

theorem countP_map {g : Entry vcs α → Entry vcs α}
    (hg : ∀ e, (g e).input = e.input ∧ (g e).vc = e.vc) (i : Fin 5) (v : Fin vcs) :
    (queue.map g).countP (Entry.isFor i v) = queue.countP (Entry.isFor i v) := by
  have hfor : Entry.isFor i v ∘ g = Entry.isFor i v := by
    funext e
    simp only [Function.comp_apply, Entry.isFor, (hg e).1, (hg e).2]
  rw [List.countP_map, hfor]

theorem countP_stamp (time : Int) (i : Fin 5) (v : Fin vcs) :
    (Entry.stamp time queue).countP (Entry.isFor i v) = queue.countP (Entry.isFor i v) := by
  induction queue with
  | nil => rfl
  | cons e rest ih =>
      unfold Entry.stamp
      split
      · rfl
      · rw [List.countP_cons, List.countP_cons, ih]
        rfl

theorem countP_decideBy (now : Int) (result : Fin 5 → Fin vcs → Option α) (i : Fin 5)
    (v : Fin vcs) :
    (Entry.decideBy now result queue).countP (Entry.isFor i v) =
      queue.countP (Entry.isFor i v) := by
  apply countP_map
  intro e
  split
  · exact ⟨rfl, rfl⟩
  · exact ⟨rfl, rfl⟩

/-- If the entry in front of an ordered queue has no time, none has. -/
theorem Ordered.untimed {e : Entry vcs α} (h : Ordered (e :: queue)) (he : e.time = none) :
    ∀ x ∈ queue, x.time = none := by
  intro x hx
  apply Option.eq_none_iff_forall_ne_some.mpr
  intro later hlater
  obtain ⟨earlier, hearlier, -⟩ := (List.pairwise_cons.mp h).1 x hx later hlater
  rw [he] at hearlier
  exact nomatch hearlier

theorem Ordered.map {g : Entry vcs α → Entry vcs α} (hg : ∀ e, (g e).time = e.time)
    (h : Ordered queue) : Ordered (queue.map g) := by
  apply List.pairwise_map.mpr
  refine List.Pairwise.imp ?_ h
  intro e later hle
  rw [hg, hg]
  exact hle

theorem Ordered.lengthens (h : Ordered queue) (hlengthens : Lengthens queue queue') :
    Ordered queue' := by
  obtain ⟨fresh, rfl, hfresh⟩ := hlengthens
  have hwaits (e : Entry vcs α) {later : Entry vcs α} (hlater : later ∈ fresh) :
      ∀ time ∈ later.time, ∃ earlier ∈ e.time, earlier ≤ time := by
    rw [hfresh later hlater]
    exact nofun
  apply List.pairwise_append.mpr
  refine ⟨h, ?_, fun e _ later => hwaits e⟩
  exact List.pairwise_of_forall_mem_list fun e _ later => hwaits e

end Queues

/-- Channels with a time have no grant in common. -/
def Apart (queue : List (Entry vcs Nat)) : Prop :=
  ∀ e ∈ queue, ∀ e' ∈ queue, e.time ≠ none → e'.time ≠ none → ∀ x ∈ e.result, x ∈ e'.result →
    e.input = e'.input ∧ e.vc = e'.vc

namespace Apart

variable {queue queue' : List (Entry vcs Nat)}

theorem nil : Apart ([] : List (Entry vcs Nat)) := fun _ he => absurd he List.not_mem_nil

theorem subset (h : Apart queue) (hsub : ∀ e ∈ queue', e ∈ queue) : Apart queue' :=
  fun e he e' he' => h e (hsub e he) e' (hsub e' he')

theorem lengthens (h : Apart queue) (hlengthens : Lengthens queue queue') : Apart queue' := by
  obtain ⟨fresh, rfl, hfresh⟩ := hlengthens
  have hold {e : Entry vcs Nat} (he : e ∈ queue ++ fresh) (htime : e.time ≠ none) : e ∈ queue := by
    rcases List.mem_append.mp he with he | he
    · exact he
    · exact absurd (hfresh e he) htime
  exact fun e he e' he' htime htime' => h e (hold he htime) e' (hold he' htime') htime htime'

end Apart

section Answers

variable {a : SwitchAllocation cfg vcs} {queue queue' : List (Entry vcs Nat)}

/-- An entry with its answer. -/
def answered (a : SwitchAllocation cfg vcs) (time : Int) (e : Entry vcs Nat) : Entry vcs Nat :=
  { e with
    time := some time
    result := (a.answer e.input e.vc).join }

theorem assigned_of_answered {time : Int} {e : Entry vcs Nat} {x : Nat}
    (h : x ∈ (answered a time e).result) : a.assigned e.input e.vc = some (some x) := by
  have hanswer : a.answer e.input e.vc = some (some x) := Option.join_eq_some_iff.mp h
  obtain ⟨-, hassigned⟩ | ⟨-, hassigned⟩ := ite_eq_iff.mp hanswer
  · exact nomatch hassigned
  · exact hassigned

/-- If no entry has a time, all get one and their answers. -/
theorem award_eq {time : Int} (huntimed : ∀ e ∈ queue, e.time = none)
    (h : a.award time queue = some queue') : queue' = queue.map (answered a time) := by
  induction queue generalizing queue' with
  | nil => exact (Option.some.inj h).symm
  | cons e rest ih =>
      rw [SwitchAllocation.award, huntimed e List.mem_cons_self] at h
      obtain ⟨result, hresult, h⟩ := Option.bind_eq_some_iff.mp h
      obtain ⟨rest', hrest, h⟩ := Option.bind_eq_some_iff.mp h
      obtain rfl := Option.some.inj h
      rw [List.map_cons, ih (fun x hx => huntimed x (List.mem_cons_of_mem e hx)) hrest, answered,
        hresult]
      rfl

/-- The queue gets its answers at once, or it has them already. -/
theorem award_cases {time : Int} (hordered : Ordered queue) (h : a.award time queue = some queue') :
    queue' = queue ∨ queue' = queue.map (answered a time) := by
  cases queue with
  | nil => exact .inl (Option.some.inj h).symm
  | cons e rest =>
      cases htime : e.time with
      | some t =>
          rw [SwitchAllocation.award, htime] at h
          exact .inl (Option.some.inj h).symm
      | none =>
          refine .inr (award_eq (fun x hx => ?_) h)
          rcases List.mem_cons.mp hx with rfl | hx
          · exact htime
          · exact hordered.untimed htime x hx

theorem apart_answered (time : Int) : Apart (queue.map (answered a time)) := by
  intro e he e' he' _ _ x hx hx'
  obtain ⟨first, -, rfl⟩ := List.mem_map.mp he
  obtain ⟨second, -, rfl⟩ := List.mem_map.mp he'
  exact SwitchAllocation.assigned_unique (assigned_of_answered hx) (assigned_of_answered hx')

theorem ordered_answered (time : Int) : Ordered (queue.map (answered a time)) := by
  apply List.pairwise_map.mpr
  apply List.pairwise_of_forall_mem_list
  intro e _ later _ last hlast
  obtain rfl := Option.some.inj hlast
  exact ⟨time, rfl, le_rfl⟩

end Answers

/-! ### The last look -/

section Recheck

variable {s : Pipeline k vcs} {queue queue' : List (Entry vcs Nat)}

/-- An entry after the last look. -/
def judged (cfg : PipelineConfig k) (o : Outside k vcs) (s : Pipeline k vcs) (e : Entry vcs Nat) :
    Entry vcs Nat :=
  if e.due s.now then { e with
    result := e.result.filter fun x => s.keepsGrant cfg o e x == some true }
  else e

theorem recheckOne_eq {e e' : Entry vcs Nat} (hdue : e.due s.now = true)
    (h : s.recheckOne cfg o e = some e') : e' = judged cfg o s e := by
  unfold judged
  rw [if_pos hdue]
  unfold recheckOne at h
  split at h
  next hnone =>
    obtain rfl := Option.some.inj h
    cases e with
    | mk time input vc result =>
        obtain rfl : result = none := hnone
        rfl
  next x hx =>
    obtain ⟨keeps, hkeeps, h⟩ := Option.bind_eq_some_iff.mp h
    obtain rfl := Option.some.inj h
    rw [hx]
    cases keeps with
    | true =>
        rw [if_pos rfl, Option.filter_some_pos (by rw [hkeeps]; rfl), ← hx]
    | false =>
        rw [if_neg Bool.false_ne_true, Option.filter_some_neg (by rw [hkeeps]; decide)]

theorem judged_of_not_due {e : Entry vcs Nat} (h : e.due s.now = false) : judged cfg o s e = e := by
  unfold judged
  rw [h]
  rfl

theorem recheck_eq (hordered : Ordered queue) (h : s.recheck cfg o queue = some queue') :
    queue' = queue.map (judged cfg o s) := by
  induction queue generalizing queue' with
  | nil => exact (Option.some.inj h).symm
  | cons e rest ih =>
      obtain ⟨hfront, hrest⟩ := List.pairwise_cons.mp hordered
      unfold recheck at h
      split at h
      next hdue =>
        obtain ⟨e', he', h⟩ := Option.bind_eq_some_iff.mp h
        obtain ⟨rest', hrest', h⟩ := Option.bind_eq_some_iff.mp h
        obtain rfl := Option.some.inj h
        rw [List.map_cons, recheckOne_eq hdue he', ih hrest hrest']
      next hdue =>
        -- then none of the entries behind it is due
        obtain rfl := Option.some.inj h
        have hlater : ∀ x ∈ e :: rest, judged cfg o s x = x := by
          intro x hx
          apply judged_of_not_due
          apply Bool.eq_false_iff.mpr
          intro hxdue
          rcases List.mem_cons.mp hx with rfl | hx
          · exact hdue hxdue
          · obtain ⟨time, htime, hle⟩ := due_iff.mp hxdue
            obtain ⟨earlier, hearlier, hfirst⟩ := hfront x hx time htime
            exact hdue (due_iff.mpr ⟨earlier, hearlier, hfirst.trans hle⟩)
        rw [List.map_congr_left hlater, List.map_id']

theorem judged_channel (e : Entry vcs Nat) :
    (judged cfg o s e).input = e.input ∧ (judged cfg o s e).vc = e.vc := by
  unfold judged
  split
  · exact ⟨rfl, rfl⟩
  · exact ⟨rfl, rfl⟩

theorem judged_time (e : Entry vcs Nat) : (judged cfg o s e).time = e.time := by
  unfold judged
  split
  · rfl
  · rfl

theorem result_of_judged {e : Entry vcs Nat} {x : Nat} (h : x ∈ (judged cfg o s e).result) :
    x ∈ e.result ∧ (e.due s.now = true → s.keepsGrant cfg o e x = some true) := by
  unfold judged at h
  split at h
  · obtain ⟨hx, hkeeps⟩ := Option.filter_eq_some_iff.mp h
    exact ⟨hx, fun _ => beq_iff_eq.mp hkeeps⟩
  next hdue => exact ⟨h, fun h => absurd h hdue⟩

theorem Apart.judged (h : Apart queue) : Apart (queue.map (judged cfg o s)) := by
  intro e he e' he' htime htime' x hx hx'
  obtain ⟨first, hfirst, rfl⟩ := List.mem_map.mp he
  obtain ⟨second, hsecond, rfl⟩ := List.mem_map.mp he'
  rw [judged_time] at htime htime'
  rw [(judged_channel first).1, (judged_channel first).2, (judged_channel second).1,
    (judged_channel second).2]
  exact h first hfirst second hsecond htime htime' x (result_of_judged hx).1 (result_of_judged hx').1

/-- What the last look reads of a state is not in the queue. -/
theorem findsRoom_withQueue (swAllocVCs : List (Entry vcs Nat)) (input : Fin 5) (vc : Fin vcs)
    (output : Fin 5) (entries : List OutputEntry) :
    ({ s with swAllocVCs := swAllocVCs } : Pipeline k vcs).findsRoom cfg input vc output entries =
      s.findsRoom cfg input vc output entries := by
  induction entries with
  | nil => rfl
  | cons e rest ih =>
      simp only [findsRoom]
      rw [ih]
      rfl

theorem keepsGrant_withQueue (swAllocVCs : List (Entry vcs Nat)) (e : Entry vcs Nat) (x : Nat) :
    ({ s with swAllocVCs := swAllocVCs } : Pipeline k vcs).keepsGrant cfg o e x =
      s.keepsGrant cfg o e x := by
  unfold keepsGrant keepsSpeculative
  simp only [findsRoom_withQueue]

/-- Only the channel of an entry is looked at. -/
theorem keepsGrant_judged (e : Entry vcs Nat) (x : Nat) :
    s.keepsGrant cfg o (judged cfg o s e) x = s.keepsGrant cfg o e x := by
  unfold keepsGrant keepsSpeculative
  rw [(judged_channel e).1, (judged_channel e).2]

end Recheck

/-! ### A cycle -/

/-- What the queue for the switch looks like in all states. -/
structure Arranged (s : Pipeline k vcs) : Prop where
  placed : Placed s
  ordered : Ordered s.swAllocVCs
  apart : Apart s.swAllocVCs

/-- What is left of the grants has passed the last look. -/
def Looked (cfg : PipelineConfig k) (o : Outside k vcs) (s : Pipeline k vcs) : Prop :=
  ∀ e ∈ s.swAllocVCs, e.due s.now = true → ∀ x ∈ e.result, s.keepsGrant cfg o e x = some true

section Evaluate

variable {a : SwitchAllocation cfg vcs} {s t : Pipeline k vcs}

/-- The grants are speculative where a virtual channel is taken in passing, so that they
are looked at once more. -/
theorem swAllocEvaluate_spec (hs : Arranged s) :
    Yields (s.swAllocEvaluate cfg o a) fun t =>
      Arranged t ∧ (cfg.speculative = true → Looked cfg o t) := by
  apply Yields.bind_eq; intro queue hqueue
  apply Yields.bind_eq; intro queue' hqueue'
  apply Yields.pure
  have haward : Ordered queue ∧ Apart queue ∧
      ∀ i v, queue.countP (Entry.isFor i v) = s.swAllocVCs.countP (Entry.isFor i v) := by
    rcases award_cases hs.ordered hqueue with rfl | rfl
    · exact ⟨hs.ordered, hs.apart, fun _ _ => rfl⟩
    · exact ⟨ordered_answered _, apart_answered _, countP_map fun _ => ⟨rfl, rfl⟩⟩
  obtain ⟨hordered, hapart, hcount⟩ := haward
  have hplaced {queue'' : List (Entry vcs Nat)}
      (hcount' : ∀ i v, queue''.countP (Entry.isFor i v) = queue.countP (Entry.isFor i v)) :
      Placed { s with swAllocVCs := queue'' } := by
    have hwaits (i : Fin 5) (v : Fin vcs) :
        ({ s with swAllocVCs := queue'' } : Pipeline k vcs).waits i v = s.waits i v := by
      simp only [waits]
      rw [hcount' i v, hcount i v]
    refine ⟨fun i v => hwaits i v ▸ hs.placed.once i v, fun i v hpos => ?_, hs.placed.shares⟩
    exact hs.placed.busy i v (hwaits i v ▸ hpos)
  unfold lookAgain at hqueue'
  split at hqueue'
  next hplain =>
    obtain rfl := Option.some.inj hqueue'
    refine ⟨⟨hplaced fun _ _ => rfl, hordered, hapart⟩, fun hspec => ?_⟩
    exact absurd (hspec.symm.trans hplain.1) Bool.false_ne_true.symm
  next =>
    obtain rfl := recheck_eq hordered hqueue'
    refine ⟨⟨hplaced (countP_map judged_channel), hordered.map judged_time, hapart.judged⟩, ?_⟩
    intro _ e he hdue x hx
    obtain ⟨first, -, rfl⟩ := List.mem_map.mp he
    rw [keepsGrant_withQueue, keepsGrant_judged]
    exact (result_of_judged hx).2 (by rwa [Entry.due, judged_time] at hdue)

end Evaluate

end Pipeline

end Flyover
