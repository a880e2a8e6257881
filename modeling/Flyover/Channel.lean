import Mathlib.Tactic.Common

/-!
# Channels

`Channel<T>` of the simulator: a pipeline with a fixed latency. A datum that is
sent sits in `_input` until the next `ReadInputs`, waits in `_wait_queue` until
its time has come, and is then held in `_output` for one cycle.

Seen from outside the channel is a FIFO queue: one cycle takes what was in
`_output` off the front and puts what was sent on the back.
-/

namespace Flyover

/-- The state of a `Channel<T>`; times are simulation cycles. -/
structure Channel (α : Type) where
  input : Option α := none
  output : Option α := none
  waitQueue : List (Nat × α) := []

namespace Channel

variable {α : Type}

/-- `Send`; a router sends at most once in a cycle. -/
def send (c : Channel α) (data : Option α) : Channel α :=
  match data with
  | none => c
  | some d => { c with input := some d }

/-- `Receive` -/
def receive (c : Channel α) : Option α := c.output

/-- `ReadInputs` of a channel of latency `delay` in cycle `now` -/
def readInputs (c : Channel α) (delay now : Nat) : Channel α :=
  match c.input with
  | none => c
  | some d => { c with waitQueue := c.waitQueue ++ [(now + delay - 1, d)], input := none }

/-- `WriteOutputs` in cycle `now`; its assertion is `front_time_le`. -/
def writeOutputs (c : Channel α) (now : Nat) : Channel α :=
  match c.waitQueue with
  | [] => { c with output := none }
  | (time, d) :: rest =>
      if now < time then { c with output := none }
      else { c with output := some d, waitQueue := rest }

/-- One cycle: the channel reads its input, a router sends, the channel writes
its output. -/
def cycle (c : Channel α) (delay now : Nat) (data : Option α) : Channel α :=
  ((c.readInputs delay now).send data).writeOutputs now

/-- Everything sent and not yet received, oldest first. -/
def inFlight (c : Channel α) : List α :=
  c.output.toList ++ c.waitQueue.map Prod.snd ++ c.input.toList

/-- What is left in flight once the output has been received. -/
def pending (c : Channel α) : List α :=
  c.waitQueue.map Prod.snd ++ c.input.toList

theorem inFlight_eq (c : Channel α) : c.inFlight = c.receive.toList ++ c.pending := by
  simp [inFlight, pending, receive, List.append_assoc]

theorem writeOutputs_inFlight (c : Channel α) (now : Nat) :
    (c.writeOutputs now).inFlight = c.pending := by
  unfold writeOutputs
  split
  next hqueue => simp [inFlight, pending, hqueue]
  next time d rest hqueue =>
    split <;> simp [inFlight, pending, hqueue]

/-- The channel is a FIFO queue. -/
theorem cycle_inFlight (c : Channel α) (delay now : Nat) (data : Option α) :
    (c.cycle delay now data).inFlight = c.pending ++ data.toList := by
  rw [cycle, writeOutputs_inFlight]
  cases hinput : c.input with
  | none => cases data <;> simp [readInputs, send, pending, hinput]
  | some d => cases data <;> simp [readInputs, send, pending, hinput]

/-- The due times of a channel of latency `delay` at the end of cycle `now`:
increasing, not yet past, and so far ahead at most that the next datum is due
after all of them. -/
structure Timely (c : Channel α) (delay now : Nat) : Prop where
  sorted : (c.waitQueue.map Prod.fst).Pairwise (· < ·)
  ahead : ∀ entry ∈ c.waitQueue, now < entry.1
  bound : ∀ entry ∈ c.waitQueue, entry.1 < now + delay

theorem Timely.initial (delay now : Nat) : Timely ({} : Channel α) delay now where
  sorted := List.Pairwise.nil
  ahead := by simp
  bound := by simp

theorem Timely.readInputs {c : Channel α} {delay now : Nat} (hdelay : 0 < delay)
    (hc : c.Timely delay now) :
    ((c.readInputs delay (now + 1)).waitQueue.map Prod.fst).Pairwise (· < ·) ∧
      (∀ entry ∈ (c.readInputs delay (now + 1)).waitQueue,
        now + 1 ≤ entry.1 ∧ entry.1 < now + 1 + delay) := by
  cases hinput : c.input with
  | none =>
      simp only [Channel.readInputs, hinput]
      refine ⟨hc.sorted, fun entry hentry => ?_⟩
      have hahead := hc.ahead entry hentry
      have hbound := hc.bound entry hentry
      omega
  | some d =>
      simp only [Channel.readInputs, hinput, List.map_append, List.map_cons, List.map_nil,
        List.mem_append, List.mem_singleton]
      constructor
      · rw [List.pairwise_append]
        refine ⟨hc.sorted, List.pairwise_singleton _ _, ?_⟩
        intro time htime last hlast
        obtain ⟨entry, hentry, rfl⟩ := List.mem_map.mp htime
        have hbound := hc.bound entry hentry
        have : last = now + 1 + delay - 1 := by simpa using hlast
        omega
      · rintro entry (hentry | rfl)
        · have hahead := hc.ahead entry hentry
          have hbound := hc.bound entry hentry
          omega
        · dsimp only
          omega

/-- With a fixed latency the datum that `WriteOutputs` takes off the queue is
due in exactly this cycle: `assert(GetSimTime() == time)`. -/
theorem front_time_le {c : Channel α} {delay now : Nat} (hdelay : 0 < delay)
    (hc : c.Timely delay now) {time : Nat} {d : α} {rest : List (Nat × α)}
    (hfront : (c.readInputs delay (now + 1)).waitQueue = (time, d) :: rest)
    (htime : ¬ now + 1 < time) : time = now + 1 := by
  have hentry := (hc.readInputs hdelay).2 (time, d) (by simp [hfront])
  dsimp only at hentry
  omega

theorem Timely.cycle {c : Channel α} {delay now : Nat} (hdelay : 0 < delay)
    (hc : c.Timely delay now) (data : Option α) :
    (c.cycle delay (now + 1) data).Timely delay (now + 1) := by
  obtain ⟨hsorted, hdue⟩ := hc.readInputs hdelay
  have hsend : ((c.readInputs delay (now + 1)).send data).waitQueue =
      (c.readInputs delay (now + 1)).waitQueue := by cases data <;> rfl
  unfold Channel.cycle Channel.writeOutputs
  rw [hsend]
  split
  next hqueue =>
    constructor <;> simp [hqueue]
  next time d rest hqueue =>
    rw [hqueue] at hsorted hdue
    have hlater : ∀ entry ∈ rest, time < entry.1 := by
      intro entry hentry
      rw [List.map_cons, List.pairwise_cons] at hsorted
      exact hsorted.1 _ (List.mem_map_of_mem hentry)
    split
    next hearly =>
      constructor
      · simpa [hqueue] using hsorted
      · dsimp only
        rw [hqueue]
        intro entry hentry
        rcases List.mem_cons.mp hentry with rfl | hentry
        · exact hearly
        · exact Nat.lt_trans hearly (hlater entry hentry)
      · dsimp only
        rw [hqueue]
        exact fun entry hentry => (hdue entry hentry).2
    next hdueNow =>
      have hnow := (hdue (time, d) List.mem_cons_self).1
      constructor
      · rw [List.map_cons, List.pairwise_cons] at hsorted
        exact hsorted.2
      · intro entry hentry
        have := hlater entry hentry
        dsimp only at hnow
        omega
      · exact fun entry hentry => (hdue entry (List.mem_cons_of_mem _ hentry)).2

end Channel

end Flyover
