import Flyover.Lockstep.Network
import Flyover.Channel
import Flyover.Router

/-!
# The handshake network

Routers of one kind on the mesh, with the handshake channels between them, in
the simulator's order: each channel hands its output to the router at its far
end; each router runs its cycle and queues what it wants to send in its
`_handshake_buffer`; one handshake of each buffer goes onto the channel.

`Net.step_lockstep` connects this to the lockstep networks: what is in flight
toward a port is what the channel holds followed by what the buffer behind it
holds, and a cycle is a lockstep step on these queues, whatever the latency.
-/

namespace Flyover

variable {k : Nat} {σ ι : Type}

/-- What a router does in one cycle, given its inputs and the handshake received
at each port: its next state and what `_OutputQueuing` hands over. -/
abbrev Cycle (k : Nat) (σ ι : Type) :=
  Node k → σ → ι → (Port → Option Handshake) →
    Except AssertFailure (σ × (Port → Option Handshake))

/-- The routers, their handshake buffers, and the channel that leaves each port. -/
structure Net (k : Nat) (σ : Type) where
  time : Nat := 0
  router : Node k → σ
  handshakeBuffer : Node k → Port → List Handshake := fun _ _ => []
  channel : Node k → Port → Channel Handshake := fun _ _ => {}

namespace Net

/-- `_handshake_channels[input]->Receive()`; the channel comes from the neighbour. -/
def received (net : Net k σ) (n : Node k) (p : Port) : Option Handshake :=
  (net.channel (n.neighbor p) p.opp).receive

/-- One cycle of the network. -/
def step (cycle : Cycle k σ ι) (latency : Nat) (net : Net k σ) (inputs : Node k → ι) :
    Except AssertFailure (Net k σ) := do
  let moved ← tabulate (k * k) fun n => cycle n (net.router n) (inputs n) (net.received n)
  let buffer := fun n p => net.handshakeBuffer n p ++ ((moved n).2 p).toList
  pure
    { time := net.time + 1
      router := fun n => (moved n).1
      handshakeBuffer := fun n p => (buffer n p).tail
      channel := fun n p => (net.channel n p).cycle latency net.time (buffer n p).head? }

/-- The states of the runs from `init` with admissible inputs. A run ends with
the cycle in which an assertion fails. -/
inductive Reachable (cycle : Cycle k σ ι) (latency : Nat) (admissible : Node k → ι → Prop)
    (init : Net k σ) : Net k σ → Prop where
  | initial : Reachable cycle latency admissible init init
  | step {net net' : Net k σ} (inputs : Node k → ι) :
      Reachable cycle latency admissible init net →
      (∀ n, admissible n (inputs n)) →
      net.step cycle latency inputs = .ok net' →
      Reachable cycle latency admissible init net'

/-- Run a network through a schedule. -/
def run (cycle : Cycle k σ ι) (latency : Nat) (net : Net k σ) :
    List (Node k → ι) → Except AssertFailure (Net k σ)
  | [] => .ok net
  | inputs :: rest => do
      let next ← net.step cycle latency inputs
      next.run cycle latency rest

theorem Reachable.run {cycle : Cycle k σ ι} {latency : Nat} {admissible : Node k → ι → Prop}
    {init net net' : Net k σ} {schedule : List (Node k → ι)}
    (hreach : Reachable cycle latency admissible init net)
    (hadmissible : ∀ inputs ∈ schedule, ∀ n, admissible n (inputs n))
    (hok : net.run cycle latency schedule = .ok net') :
    Reachable cycle latency admissible init net' := by
  induction schedule generalizing net with
  | nil => exact Except.ok.inj hok ▸ hreach
  | cons inputs rest ih =>
      obtain ⟨next, hnext, hrest⟩ := bind_ok.mp hok
      exact ih (.step inputs hreach (hadmissible inputs List.mem_cons_self) hnext)
        (fun inputs hmem => hadmissible inputs (List.mem_cons_of_mem _ hmem)) hrest

/-- Everything on its way to a port, oldest first. -/
def inFlight (net : Net k σ) (n : Node k) (p : Port) : List Handshake :=
  (net.channel (n.neighbor p) p.opp).inFlight ++ net.handshakeBuffer (n.neighbor p) p.opp

/-- The links of the mesh. -/
def wiring (k : Nat) : Lockstep.Wiring (Node k) Port where
  peer n p := (n.neighbor p, p.opp)
  peer_peer n p := by simp [Node.neighbor_neighbor]

@[simp] theorem wiring_peer (n : Node k) (p : Port) :
    (wiring k).peer n p = (n.neighbor p, p.opp) := rfl

/-- The network as a lockstep network. -/
def view (net : Net k σ) : Lockstep.State (Node k) Port Handshake σ where
  node := net.router
  queue := net.inFlight

/-- The moves of a router under admissible inputs. -/
def move (cycle : Cycle k σ ι) (admissible : Node k → ι → Prop) :
    Lockstep.Move (Node k) Port Handshake σ :=
  fun n r rx r' tx => ∃ inp, admissible n inp ∧ cycle n r inp rx = .ok (r', tx)

theorem step_ok {cycle : Cycle k σ ι} {latency : Nat} {net net' : Net k σ}
    {inputs : Node k → ι} (hstep : net.step cycle latency inputs = .ok net') :
    ∃ tx : Node k → Port → Option Handshake,
      (∀ n, cycle n (net.router n) (inputs n) (net.received n) = .ok (net'.router n, tx n)) ∧
      net'.time = net.time + 1 ∧
      (∀ n p, net'.handshakeBuffer n p = (net.handshakeBuffer n p ++ (tx n p).toList).tail) ∧
      ∀ n p, net'.channel n p = (net.channel n p).cycle latency net.time
        (net.handshakeBuffer n p ++ (tx n p).toList).head? := by
  obtain ⟨moved, hmoved, hnet⟩ := bind_ok.mp hstep
  obtain rfl := pure_ok.mp hnet
  exact ⟨fun n => (moved n).2, fun n => tabulate_ok.mp hmoved n, rfl, fun _ _ => rfl,
    fun _ _ => rfl⟩

/-- What is left on its way to a port once the router has received. -/
def pending (net : Net k σ) (n : Node k) (p : Port) : List Handshake :=
  (net.channel (n.neighbor p) p.opp).pending ++ net.handshakeBuffer (n.neighbor p) p.opp

theorem inFlight_eq (net : Net k σ) (n : Node k) (p : Port) :
    net.inFlight n p = (net.received n p).toList ++ net.pending n p := by
  simp [inFlight, pending, received, Channel.inFlight_eq]

/-- A channel with its buffer is a queue. -/
theorem queue_step {channel channel' : Channel Handshake} {buffer buffer' sent : List Handshake}
    {latency time : Nat} (hbuffer : buffer' = (buffer ++ sent).tail)
    (hchannel : channel' = channel.cycle latency time (buffer ++ sent).head?) :
    channel'.inFlight ++ buffer' = channel.pending ++ buffer ++ sent := by
  rw [hbuffer, hchannel, Channel.cycle_inFlight, List.append_assoc, List.append_assoc]
  congr 1
  cases buffer ++ sent <;> rfl

theorem inFlight_step {net net' : Net k σ} {latency time : Nat}
    {t : Node k → Port → Option Handshake}
    (hbuffer : ∀ n p,
      net'.handshakeBuffer n p = (net.handshakeBuffer n p ++ (t n p).toList).tail)
    (hchannel : ∀ n p, net'.channel n p = (net.channel n p).cycle latency time
      (net.handshakeBuffer n p ++ (t n p).toList).head?) (n : Node k) (p : Port) :
    net'.inFlight n p = net.pending n p ++ (t (n.neighbor p) p.opp).toList :=
  queue_step (hbuffer _ _) (hchannel _ _)

theorem step_lockstep {cycle : Cycle k σ ι} {latency : Nat} {net net' : Net k σ}
    {inputs : Node k → ι} {admissible : Node k → ι → Prop}
    (hadmissible : ∀ n, admissible n (inputs n))
    (hstep : net.step cycle latency inputs = .ok net') :
    Lockstep.Step (wiring k) (move cycle admissible) net.view net'.view := by
  obtain ⟨tx, hcycle, -, hbuffer, hchannel⟩ := step_ok hstep
  refine ⟨net.received, tx, net.pending, fun n => ⟨inputs n, hadmissible n, hcycle n⟩, ?_, ?_⟩
  · exact net.inFlight_eq
  · exact inFlight_step hbuffer hchannel

/-- Induction over a run, in lockstep terms: what holds of the initial network
and is preserved by every lockstep step holds of every reachable one. -/
theorem Reachable.view_induction {cycle : Cycle k σ ι} {latency : Nat}
    {admissible : Node k → ι → Prop} {init net : Net k σ}
    {motive : Lockstep.State (Node k) Port Handshake σ → Prop}
    (hreach : Reachable cycle latency admissible init net)
    (hinit : motive init.view)
    (hstep : ∀ s s', motive s →
      Lockstep.Step (wiring k) (move cycle admissible) s s' → motive s') :
    motive net.view := by
  induction hreach with
  | initial => exact hinit
  | step inputs _ hadmissible hok ih => exact hstep _ _ ih (step_lockstep hadmissible hok)

section Bisimulation

variable {σ' ι' : Type}

/-- Two networks with related routers and the same handshakes on their way. -/
structure Related (R : Node k → σ → σ' → Prop) (P : Node k → Port → Handshake → Prop)
    (net : Net k σ) (net' : Net k σ') : Prop where
  time : net.time = net'.time
  router : ∀ n, R n (net.router n) (net'.router n)
  handshakeBuffer : net.handshakeBuffer = net'.handshakeBuffer
  channel : net.channel = net'.channel
  inFlight : ∀ n p, ∀ h ∈ net.inFlight n p, P n p h

/-- If every router and its counterpart do alike, so do the networks. -/
theorem Related.step {R : Node k → σ → σ' → Prop} {P : Node k → Port → Handshake → Prop}
    {net : Net k σ} {net' : Net k σ'} (h : Related R P net net') {cycle : Cycle k σ ι}
    {cycle' : Cycle k σ' ι'} {latency : Nat} {inputs : Node k → ι} {inputs' : Node k → ι'}
    (hcycle : ∀ n, (∀ p, ∀ m ∈ net.received n p, P n p m) →
      Alike (fun a b => R n a.1 b.1 ∧ a.2 = b.2 ∧
          ∀ p, ∀ t ∈ a.2 p, P (n.neighbor p) p.opp t)
        (cycle n (net.router n) (inputs n) (net.received n))
        (cycle' n (net'.router n) (inputs' n) (net.received n))) :
    Alike (Related R P) (net.step cycle latency inputs) (net'.step cycle' latency inputs') := by
  have hreceived : net'.received = net.received := by
    funext n p
    simp only [received, h.channel]
  have hmoved := tabulate_alike fun n => hcycle n fun p m hm => h.inFlight n p m (by
    rw [inFlight_eq]
    exact List.mem_append_left _ (Option.mem_toList.mpr hm))
  unfold Net.step
  rw [hreceived]
  refine hmoved.bind fun a b hab => Alike.ok ?_
  have hsent : ∀ n p, (a n).2 p = (b n).2 p := fun n p => by rw [(hab n).2.1]
  refine ⟨by rw [h.time], fun n => (hab n).1, ?_, ?_, ?_⟩
  · simp only [h.handshakeBuffer, hsent]
  · simp only [h.handshakeBuffer, h.channel, h.time, hsent]
  · intro n p m hm
    rw [inFlight_step (t := fun n => (a n).2) (fun _ _ => rfl) (fun _ _ => rfl),
      List.mem_append, Option.mem_toList] at hm
    rcases hm with hm | hm
    · apply h.inFlight n p
      rw [inFlight_eq]
      exact List.mem_append_right _ hm
    · have hp := (hab (n.neighbor p)).2.2 p.opp m hm
      rwa [n.neighbor_neighbor, Port.opp_opp] at hp

end Bisimulation

end Net

end Flyover
