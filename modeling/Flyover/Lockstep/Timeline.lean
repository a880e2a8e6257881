import Flyover.Lockstep.Network
import Mathlib.Data.List.Range

/-!
# Lockstep networks with one delay

When every message travels for the same number of steps, a run is told by the
nodes' states and by what is sent in each step: what a node takes is what was
sent to it `delay` steps ago. Such a run is a run of the lockstep network, with
the messages of the last `delay` steps in its queues, and facts about it can be
counted in steps.
-/

namespace Lockstep

variable {Node Port Msg σ : Type*} {wiring : Wiring Node Port} {move : Move Node Port Msg σ}

/-- What reaches a port in step `t` if each message travels for `delay` steps. -/
def arriving (wiring : Wiring Node Port) (delay : Nat) (sent : Nat → Node → Port → Option Msg)
    (t : Nat) (n : Node) (p : Port) : Option Msg :=
  if t < delay then none else sent (t - delay) (wiring.peer n p).1 (wiring.peer n p).2

/-- A run of `len` steps: the nodes before each step and what they send in it. -/
structure Timeline (wiring : Wiring Node Port) (move : Move Node Port Msg σ)
    (delay len : Nat) where
  node : Nat → Node → σ
  sent : Nat → Node → Port → Option Msg
  moves : ∀ t < len, ∀ n,
    move n (node t n) (arriving wiring delay sent t n) (node (t + 1) n) (sent t n)

namespace Timeline

variable {delay len : Nat}

/-- What reaches a port in step `t`. -/
abbrev arriving (tl : Timeline wiring move delay len) (t : Nat) (n : Node) (p : Port) :
    Option Msg :=
  Lockstep.arriving wiring delay tl.sent t n p

/-- What is on its way before step `t`: what arrives in the next `delay` steps. -/
def queue (tl : Timeline wiring move delay len) (t : Nat) (n : Node) (p : Port) : List Msg :=
  (List.range delay).filterMap fun i => tl.arriving (t + i) n p

/-- The network before step `t`. -/
def state (tl : Timeline wiring move delay len) (t : Nat) : State Node Port Msg σ where
  node := tl.node t
  queue := tl.queue t

theorem arriving_of_sent (tl : Timeline wiring move delay len) (t : Nat) (n : Node) (p : Port) :
    tl.arriving (t + delay) (wiring.peer n p).1 (wiring.peer n p).2 = tl.sent t n p := by
  unfold arriving Lockstep.arriving
  rw [if_neg (by omega), Nat.add_sub_cancel, wiring.peer_peer]

/-- What arrives later has been sent if it arrives soon enough. -/
theorem mem_queue (tl : Timeline wiring move delay len) {t u : Nat} {n : Node} {p : Port}
    {m : Msg} (hm : tl.arriving u n p = some m) (htu : t ≤ u) (hut : u < t + delay) :
    m ∈ tl.queue t n p := by
  rw [queue, List.mem_filterMap]
  refine ⟨u - t, List.mem_range.mpr (by omega), ?_⟩
  rwa [show t + (u - t) = u by omega]

/-- One step of the timeline is a step of the network. -/
theorem step (tl : Timeline wiring move (delay + 1) len) {t : Nat} (ht : t < len) :
    Step wiring move (tl.state t) (tl.state (t + 1)) := by
  refine ⟨tl.arriving t, tl.sent t,
    fun n p => (List.range delay).filterMap fun i => tl.arriving (t + 1 + i) n p,
    tl.moves t ht, fun n p => ?_, fun n p => ?_⟩
  · have hlater : ((fun i => tl.arriving (t + i) n p) ∘ Nat.succ) =
        fun i => tl.arriving (t + 1 + i) n p := by
      funext i
      rw [Function.comp_apply, show t + i.succ = t + 1 + i by omega]
    change tl.queue t n p = _
    rw [queue, List.range_succ_eq_map, List.filterMap_cons, List.filterMap_map, hlater,
      show t + 0 = t from rfl]
    cases tl.arriving t n p <;> rfl
  · have hsent := tl.arriving_of_sent t (wiring.peer n p).1 (wiring.peer n p).2
    rw [wiring.peer_peer, show t + (delay + 1) = t + 1 + delay by omega] at hsent
    change tl.queue (t + 1) n p = _
    rw [queue, List.range_succ, List.filterMap_append, ← hsent]
    congr 1

/-- An invariant of the network holds at all times. -/
theorem holds (tl : Timeline wiring move (delay + 1) len) {inv : Invariant wiring move}
    (hstart : inv.Holds (tl.state 0)) {t : Nat} (ht : t ≤ len) : inv.Holds (tl.state t) := by
  induction t with
  | zero => exact hstart
  | succ t ih => exact (ih (by omega)).step (tl.step (by omega))

end Timeline

end Lockstep
