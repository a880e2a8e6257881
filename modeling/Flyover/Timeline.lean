import Flyover.Lockstep.Timeline
import Flyover.Network

/-!
# Handshakes in time

With channels of latency `L` a handshake that is sent in one cycle is received
`L + 1` cycles later: it sits in `_input` until the next cycle, waits, and is
held in `_output` for the cycle in which the router reads it. So a run of the
handshake network is a lockstep run with one delay.
-/

namespace Flyover

namespace Channel

variable {α : Type}

/-- A channel before cycle `t`, if `arrivals` tells what comes out of it when. -/
structure Carries (c : Channel α) (latency t : Nat) (arrivals : Nat → Option α) : Prop where
  output : c.output = arrivals t
  waitQueue : c.waitQueue = (List.range' (t + 1) (latency - 1)).filterMap fun i =>
    (arrivals i).map fun d => (i - 1, d)
  input : c.input = arrivals (t + latency)

theorem Carries.initial {latency : Nat} {arrivals : Nat → Option α}
    (hnone : ∀ i ≤ latency, arrivals i = none) : Carries ({} : Channel α) latency 0 arrivals where
  output := (hnone 0 (Nat.zero_le _)).symm
  waitQueue := by
    symm
    rw [List.filterMap_eq_nil_iff]
    intro i hi
    rw [List.mem_range'_1] at hi
    rw [hnone i (by omega), Option.map_none]
  input := (hnone _ (by omega)).symm

/-- What the channel has read before it writes its output. -/
theorem Carries.readInputs {c : Channel α} {latency t : Nat} {arrivals : Nat → Option α}
    (hlatency : 0 < latency) (h : Carries c latency t arrivals) (data : Option α) :
    ((c.readInputs latency t).send data).waitQueue =
        (List.range' (t + 1) latency).filterMap (fun i =>
          (arrivals i).map fun d => (i - 1, d)) ∧
      ((c.readInputs latency t).send data).input = data := by
  obtain ⟨before, rfl⟩ : ∃ before, latency = before + 1 := ⟨latency - 1, by omega⟩
  have hlast : t + 1 + 1 * before = t + (before + 1) := by omega
  have hdue : t + (before + 1) - 1 = t + before := by omega
  rw [List.range'_concat, List.filterMap_append, hlast]
  have hqueue := h.waitQueue
  rw [Nat.add_sub_cancel] at hqueue
  rw [← hqueue]
  have hinput := h.input
  cases hin : c.input with
  | none =>
      rw [hin] at hinput
      cases data <;> simp [Channel.readInputs, Channel.send, hin, ← hinput]
  | some d =>
      rw [hin] at hinput
      cases data <;> simp [Channel.readInputs, Channel.send, hin, ← hinput, hdue]

/-- Cycle `t` brings the channel to the state before cycle `t + 1`. -/
theorem Carries.cycle {c : Channel α} {latency t : Nat} {arrivals : Nat → Option α}
    (hlatency : 0 < latency) (h : Carries c latency t arrivals) :
    Carries (c.cycle latency t (arrivals (t + 1 + latency))) latency (t + 1) arrivals := by
  obtain ⟨hqueue, hinput⟩ := h.readInputs hlatency (arrivals (t + 1 + latency))
  obtain ⟨before, rfl⟩ : ∃ before, latency = before + 1 := ⟨latency - 1, by omega⟩
  rw [List.range'_succ, List.filterMap_cons] at hqueue
  -- everything behind the front is due later
  have hlater : ∀ entry ∈ (List.range' (t + 1 + 1) before).filterMap (fun i =>
      (arrivals i).map fun d => (i - 1, d)), t < entry.1 := by
    intro entry hentry
    obtain ⟨i, hi, hsome⟩ := List.mem_filterMap.mp hentry
    rw [List.mem_range'_1] at hi
    obtain ⟨d, -, rfl⟩ := Option.map_eq_some_iff.mp hsome
    dsimp only
    omega
  unfold Channel.cycle Channel.writeOutputs
  cases harrives : arrivals (t + 1) with
  | some d =>
      rw [harrives] at hqueue
      rw [hqueue]
      simp only [Option.map_some, Nat.add_sub_cancel, Nat.lt_irrefl, if_false]
      exact ⟨harrives.symm, rfl, hinput⟩
  | none =>
      rw [harrives] at hqueue
      simp only [Option.map_none] at hqueue
      rw [← hqueue] at hlater
      split
      next hempty =>
        exact ⟨harrives.symm, hqueue, hinput⟩
      next time d rest hfront =>
        have htime := hlater (time, d) (by rw [hfront]; exact List.mem_cons_self)
        rw [if_pos htime]
        exact ⟨harrives.symm, hqueue, hinput⟩

/-- What is in flight arrives in the cycles to come, in this order. -/
theorem Carries.inFlight {c : Channel α} {latency t : Nat} {arrivals : Nat → Option α}
    (hlatency : 0 < latency) (h : Carries c latency t arrivals) :
    c.inFlight = (List.range (latency + 1)).filterMap fun i => arrivals (t + i) := by
  obtain ⟨before, rfl⟩ : ∃ before, latency = before + 1 := ⟨latency - 1, by omega⟩
  have hshift : (List.range (before + 1 + 1)).filterMap (fun i => arrivals (t + i)) =
      (List.range' t (before + 1 + 1)).filterMap arrivals := by
    rw [List.range'_eq_map_range, List.filterMap_map]
    rfl
  rw [hshift, List.range'_succ, List.range'_concat, List.filterMap_cons, List.filterMap_append,
    show t + 1 + 1 * before = t + (before + 1) by omega]
  unfold Channel.inFlight
  rw [h.output, h.input, h.waitQueue, List.map_filterMap]
  simp only [Option.map_map, Function.comp_def, Option.map_id', Nat.add_sub_cancel]
  have hlast : [t + (before + 1)].filterMap arrivals = (arrivals (t + (before + 1))).toList := rfl
  rw [hlast]
  cases arrivals t <;> simp

end Channel

namespace Net

variable {k : Nat} {σ ι : Type}

/-- The states of the runs from `init` in which every state before a cycle meets a
condition. -/
inductive ReachableWhile (cycle : Cycle k σ ι) (latency : Nat) (admissible : Node k → ι → Prop)
    (init : Net k σ) (meets : Net k σ → Prop) : Net k σ → Prop where
  | initial : ReachableWhile cycle latency admissible init meets init
  | step {net net' : Net k σ} (inputs : Node k → ι) :
      ReachableWhile cycle latency admissible init meets net →
      meets net →
      (∀ n, admissible n (inputs n)) →
      net.step cycle latency inputs = .ok net' →
      ReachableWhile cycle latency admissible init meets net'

variable {cycle : Cycle k σ ι} {latency : Nat} {admissible : Node k → ι → Prop}
  {init net : Net k σ} {meets : Net k σ → Prop}

/-- A schedule brings a network into states that meet the condition only. -/
def MeetsAlong (cycle : Cycle k σ ι) (latency : Nat) (meets : Net k σ → Prop) :
    Net k σ → List (Node k → ι) → Prop
  | _, [] => True
  | net, inputs :: rest =>
      meets net ∧ ∀ next, net.step cycle latency inputs = .ok next →
        MeetsAlong cycle latency meets next rest

instance decidableMeetsAlong [DecidablePred meets] : ∀ (net : Net k σ) (schedule : List (Node k → ι)),
    Decidable (MeetsAlong cycle latency meets net schedule)
  | _, [] => inferInstanceAs (Decidable True)
  | net, inputs :: rest =>
      have : Decidable (∀ next, net.step cycle latency inputs = .ok next →
          MeetsAlong cycle latency meets next rest) :=
        match net.step cycle latency inputs with
        | .error _ => .isTrue nofun
        | .ok next =>
            have := decidableMeetsAlong next rest
            decidable_of_iff (MeetsAlong cycle latency meets next rest) (by simp)
      inferInstanceAs (Decidable (_ ∧ _))

theorem ReachableWhile.run {net' : Net k σ} {schedule : List (Node k → ι)}
    (h : ReachableWhile cycle latency admissible init meets net)
    (hmeets : MeetsAlong cycle latency meets net schedule)
    (hadmissible : ∀ inputs ∈ schedule, ∀ n, admissible n (inputs n))
    (hok : net.run cycle latency schedule = .ok net') :
    ReachableWhile cycle latency admissible init meets net' := by
  induction schedule generalizing net with
  | nil => exact Except.ok.inj hok ▸ h
  | cons inputs rest ih =>
      obtain ⟨next, hnext, hrest⟩ := bind_ok.mp hok
      obtain ⟨hnow, hlater⟩ := hmeets
      exact ih (.step inputs h hnow (hadmissible inputs List.mem_cons_self) hnext) (hlater next hnext)
        (fun inputs hmem => hadmissible inputs (List.mem_cons_of_mem _ hmem)) hrest

/-- The states of such a run, in order. -/
theorem ReachableWhile.exists_run
    (h : ReachableWhile cycle latency admissible init meets net) :
    ∃ (len : Nat) (nets : Nat → Net k σ), nets 0 = init ∧ nets len = net ∧
      ∀ t < len, meets (nets t) ∧ ∃ inputs : Node k → ι, (∀ n, admissible n (inputs n)) ∧
        (nets t).step cycle latency inputs = .ok (nets (t + 1)) := by
  induction h with
  | initial => exact ⟨0, fun _ => init, rfl, rfl, by simp⟩
  | @step before after inputs _ hmeets hadmissible hok ih =>
      obtain ⟨len, nets, hinit, hlast, hsteps⟩ := ih
      refine ⟨len + 1, Function.update nets (len + 1) after, ?_, ?_, fun t ht => ?_⟩
      · rw [Function.update_of_ne (by omega), hinit]
      · rw [Function.update_self]
      · rw [Function.update_of_ne (by omega : t ≠ len + 1)]
        by_cases hend : t = len
        · subst hend
          rw [Function.update_self, hlast]
          exact ⟨hmeets, inputs, hadmissible, hok⟩
        · rw [Function.update_of_ne (by omega : t + 1 ≠ len + 1)]
          exact hsteps t (by omega)

/-- What the channels do with what is sent in the cycles before `len`. -/
def Carried (latency len : Nat) (nets : Nat → Net k σ)
    (sent : Nat → Node k → Port → Option Handshake) : Prop :=
  ∀ t < len, (nets (t + 1)).time = (nets t).time + 1 ∧
    (∀ n p, (nets (t + 1)).handshakeBuffer n p =
      ((nets t).handshakeBuffer n p ++ (sent t n p).toList).tail) ∧
    ∀ n p, (nets (t + 1)).channel n p = ((nets t).channel n p).cycle latency (nets t).time
      ((nets t).handshakeBuffer n p ++ (sent t n p).toList).head?

/-- Every handshake travels for `latency + 1` cycles: what a router receives, and
what is on its way to it. -/
theorem Carried.arriving {len : Nat} {nets : Nat → Net k σ}
    {sent : Nat → Node k → Port → Option Handshake} (hcarried : Carried latency len nets sent)
    (hlatency : 0 < latency) (hinit : nets 0 = init) (htime : init.time = 0)
    (hbuffer : ∀ n p, init.handshakeBuffer n p = []) (hchannel : ∀ n p, init.channel n p = {})
    {t : Nat} (ht : t ≤ len) (n : Node k) (p : Port) :
    (nets t).received n p = Lockstep.arriving (wiring k) (latency + 1) sent t n p ∧
      (nets t).inFlight n p = (List.range (latency + 1)).filterMap fun i =>
        Lockstep.arriving (wiring k) (latency + 1) sent (t + i) n p := by
  -- what comes out of the channel that leaves port `p` of `n`
  let arrivals : Node k → Port → Nat → Option Handshake := fun n p t =>
    Lockstep.arriving (wiring k) (latency + 1) sent t (n.neighbor p) p.opp
  have harrivals : ∀ n p t, arrivals n p (t + 1 + latency) = sent t n p := by
    intro n p t
    dsimp only [arrivals, Lockstep.arriving]
    rw [if_neg (by omega), show t + 1 + latency - (latency + 1) = t by omega]
    simp [Node.neighbor_neighbor]
  have hcarries : ∀ t ≤ len, (nets t).time = t ∧ (∀ n p, (nets t).handshakeBuffer n p = []) ∧
      ∀ n p, ((nets t).channel n p).Carries latency t (arrivals n p) := by
    intro t
    induction t with
    | zero =>
        intro _
        rw [hinit]
        refine ⟨htime, hbuffer, fun n p => ?_⟩
        rw [hchannel]
        apply Channel.Carries.initial
        intro i hi
        exact if_pos (by omega)
    | succ t ih =>
        intro ht
        obtain ⟨hnow, hempty, hchannels⟩ := ih (by omega)
        obtain ⟨hnext, hbuffers, hcycles⟩ := hcarried t (by omega)
        refine ⟨by rw [hnext, hnow], fun n p => ?_, fun n p => ?_⟩
        · rw [hbuffers, hempty, List.nil_append]
          cases sent t n p <;> rfl
        · have hput : ([] ++ (sent t n p).toList).head? = arrivals n p (t + 1 + latency) := by
            rw [harrivals]
            cases sent t n p <;> rfl
          rw [hcycles, hempty, hnow, hput]
          exact (hchannels n p).cycle hlatency
  have hback : arrivals (n.neighbor p) p.opp =
      fun t => Lockstep.arriving (wiring k) (latency + 1) sent t n p := by
    dsimp only [arrivals]
    rw [n.neighbor_neighbor, Port.opp_opp]
  obtain ⟨-, hempty, hchannels⟩ := hcarries t ht
  have hlink := hchannels (n.neighbor p) p.opp
  refine ⟨?_, ?_⟩
  · have houtput := hlink.output
    rwa [hback] at houtput
  · have hmsgs := hlink.inFlight hlatency
    rw [hback] at hmsgs
    rw [inFlight, hempty, List.append_nil, hmsgs]

/-- A run of the handshake network is a lockstep run in which every handshake
travels for `latency + 1` cycles. -/
theorem ReachableWhile.timeline (hlatency : 0 < latency) (htime : init.time = 0)
    (hbuffer : ∀ n p, init.handshakeBuffer n p = []) (hchannel : ∀ n p, init.channel n p = {})
    (h : ReachableWhile cycle latency admissible init meets net) :
    ∃ (len : Nat) (tl : Lockstep.Timeline (wiring k) (move cycle admissible) (latency + 1) len),
      tl.state 0 = init.view ∧ tl.state len = net.view ∧
        ∀ t < len, ∃ before, meets before ∧ tl.state t = before.view := by
  obtain ⟨len, nets, hinit, hlast, hsteps⟩ := h.exists_run
  have hsent : ∀ t, ∃ tx : Node k → Port → Option Handshake, t < len →
      (∀ n, ∃ inp, admissible n inp ∧
        cycle n ((nets t).router n) inp ((nets t).received n) = .ok ((nets (t + 1)).router n, tx n)) ∧
      (nets (t + 1)).time = (nets t).time + 1 ∧
      (∀ n p, (nets (t + 1)).handshakeBuffer n p =
        ((nets t).handshakeBuffer n p ++ (tx n p).toList).tail) ∧
      ∀ n p, (nets (t + 1)).channel n p = ((nets t).channel n p).cycle latency (nets t).time
        ((nets t).handshakeBuffer n p ++ (tx n p).toList).head? := by
    intro t
    by_cases ht : t < len
    · obtain ⟨-, inputs, hadmissible, hok⟩ := hsteps t ht
      obtain ⟨tx, hcycle, hrest⟩ := step_ok hok
      exact ⟨tx, fun _ => ⟨fun n => ⟨inputs n, hadmissible n, hcycle n⟩, hrest⟩⟩
    · exact ⟨fun _ _ => none, fun hlen => absurd hlen ht⟩
  choose sent hsent using hsent
  have hcarried : Carried latency len nets sent := fun t ht => (hsent t ht).2
  have harriving {t : Nat} (ht : t ≤ len) (n : Node k) (p : Port) :=
    hcarried.arriving hlatency hinit htime hbuffer hchannel ht n p
  let tl : Lockstep.Timeline (wiring k) (move cycle admissible) (latency + 1) len :=
    { node := fun t => (nets t).router
      sent := sent
      moves := fun t ht n => by
        obtain ⟨inp, hadmissible, hok⟩ := (hsent t ht).1 n
        have hreceived : (nets t).received n =
            Lockstep.arriving (wiring k) (latency + 1) sent t n :=
          funext fun p => (harriving ht.le n p).1
        rw [hreceived] at hok
        exact ⟨inp, hadmissible, hok⟩ }
  have hview : ∀ t ≤ len, tl.state t = (nets t).view := by
    intro t ht
    have hqueue : tl.queue t = (nets t).inFlight := by
      funext n p
      exact ((harriving ht n p).2).symm
    rw [Lockstep.Timeline.state, hqueue]
    rfl
  refine ⟨len, tl, ?_, ?_, fun t ht => ⟨nets t, (hsteps t ht).1, hview t ht.le⟩⟩
  · rw [hview 0 (Nat.zero_le _), hinit]
  · rw [hview len le_rfl, hlast]

/-- A run that never ends: the states before each cycle and what is asked of the
routers in it. -/
structure Execution (cycle : Cycle k σ ι) (latency : Nat) (admissible : Node k → ι → Prop)
    (init : Net k σ) where
  net : Nat → Net k σ
  inputs : Nat → Node k → ι
  net_zero : net 0 = init
  admissible : ∀ t n, admissible n (inputs t n)
  step : ∀ t, (net t).step cycle latency (inputs t) = .ok (net (t + 1))

namespace Execution

variable (run : Execution cycle latency admissible init)

theorem reachable (t : Nat) : Reachable cycle latency admissible init (run.net t) := by
  induction t with
  | zero =>
      rw [run.net_zero]
      exact .initial
  | succ t ih => exact .step (run.inputs t) ih (run.admissible t) (run.step t)

/-- A part of the run is a run through the inputs of its cycles. -/
theorem run_inputs (s len : Nat) :
    (run.net s).run cycle latency ((List.range' s len).map run.inputs) =
      .ok (run.net (s + len)) := by
  induction len generalizing s with
  | zero => rfl
  | succ len ih =>
      have hrest := ih (s + 1)
      rw [show s + 1 + len = s + (len + 1) by omega] at hrest
      rw [List.range'_succ, List.map_cons]
      exact bind_ok.mpr ⟨run.net (s + 1), run.step s, hrest⟩

/-- What is sent in each cycle, and when it is received. -/
theorem exists_sent (hlatency : 0 < latency) (htime : init.time = 0)
    (hbuffer : ∀ n p, init.handshakeBuffer n p = []) (hchannel : ∀ n p, init.channel n p = {}) :
    ∃ sent : Nat → Node k → Port → Option Handshake,
      (∀ t n, cycle n ((run.net t).router n) (run.inputs t n) ((run.net t).received n) =
        .ok ((run.net (t + 1)).router n, sent t n)) ∧
      ∀ t n p,
        (run.net t).received n p = Lockstep.arriving (wiring k) (latency + 1) sent t n p ∧
        (run.net t).inFlight n p = (List.range (latency + 1)).filterMap fun i =>
          Lockstep.arriving (wiring k) (latency + 1) sent (t + i) n p := by
  choose sent hcycle hrest using fun t => step_ok (run.step t)
  refine ⟨sent, hcycle, fun t n p => ?_⟩
  have hcarried : Carried latency t run.net sent := fun t _ => hrest t
  exact hcarried.arriving hlatency run.net_zero htime hbuffer hchannel le_rfl n p

end Execution

end Net

end Flyover
