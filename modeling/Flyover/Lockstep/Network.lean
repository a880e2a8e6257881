import Mathlib.Logic.Function.Basic
import Mathlib.Tactic.Common

/-!
# Lockstep networks over FIFO links

A finite or infinite family of nodes is wired port to port. In one step every
node takes at most one message from the queue of each of its ports, moves, and
puts at most one message on each of its ports; the message travels to the peer
port and joins the back of the queue there. How long a message waits is left
open, so every result holds for any fixed or varying latency.

The two rules at the end reduce facts about whole runs to one node's move:
`Invariant` for facts about single nodes and single messages, and
`LinkInvariant` for facts that tie the two ends of a link to the two queues
between them.
-/

namespace Lockstep

variable {Node Port Msg σ : Type*}

/-- Which port is at the other end of a link. -/
structure Wiring (Node Port : Type*) where
  peer : Node → Port → Node × Port
  peer_peer : ∀ n p, peer (peer n p).1 (peer n p).2 = (n, p)

/-- The nodes' states and the messages on their way to each port, oldest first. -/
structure State (Node Port Msg σ : Type*) where
  node : Node → σ
  queue : Node → Port → List Msg

/-- What one node may do: its state and the messages it takes, its new state
and the messages it sends. -/
abbrev Move (Node Port Msg σ : Type*) :=
  Node → σ → (Port → Option Msg) → σ → (Port → Option Msg) → Prop

/-- Every node moves once. -/
def Step (wiring : Wiring Node Port) (move : Move Node Port Msg σ)
    (s s' : State Node Port Msg σ) : Prop :=
  ∃ (rx tx : Node → Port → Option Msg) (rest : Node → Port → List Msg),
    (∀ n, move n (s.node n) (rx n) (s'.node n) (tx n)) ∧
    (∀ n p, s.queue n p = (rx n p).toList ++ rest n p) ∧
    ∀ n p, s'.queue n p =
      rest n p ++ (tx (wiring.peer n p).1 (wiring.peer n p).2).toList

/-- A fact about each node and a fact about each message in flight, maintained
together by every move. -/
structure Invariant (wiring : Wiring Node Port) (move : Move Node Port Msg σ) where
  node : Node → σ → Prop
  msg : Node → Port → Msg → Prop
  move_node : ∀ {n a rx a' tx}, node n a → (∀ p, ∀ m ∈ rx p, msg n p m) →
    move n a rx a' tx → node n a'
  move_msg : ∀ {n a rx a' tx}, node n a → (∀ p, ∀ m ∈ rx p, msg n p m) →
    move n a rx a' tx →
    ∀ p, ∀ m ∈ tx p, msg (wiring.peer n p).1 (wiring.peer n p).2 m

/-- The invariant's two parts, in one network state. -/
structure Invariant.Holds {wiring : Wiring Node Port} {move : Move Node Port Msg σ}
    (inv : Invariant wiring move) (s : State Node Port Msg σ) : Prop where
  node : ∀ n, inv.node n (s.node n)
  msg : ∀ n p, ∀ m ∈ s.queue n p, inv.msg n p m

theorem Invariant.Holds.step {wiring : Wiring Node Port} {move : Move Node Port Msg σ}
    {inv : Invariant wiring move} {s s' : State Node Port Msg σ}
    (hs : inv.Holds s) (hstep : Step wiring move s s') : inv.Holds s' := by
  obtain ⟨rx, tx, rest, hmove, hqueue, hqueue'⟩ := hstep
  have hrx : ∀ n p, ∀ m ∈ rx n p, inv.msg n p m := by
    intro n p m hm
    apply hs.msg n p
    rw [hqueue]
    exact List.mem_append_left _ (Option.mem_toList.mpr hm)
  refine ⟨fun n => inv.move_node (hs.node n) (hrx n) (hmove n), ?_⟩
  intro n p m hm
  rw [hqueue', List.mem_append, Option.mem_toList] at hm
  rcases hm with hm | hm
  · apply hs.msg n p
    rw [hqueue]
    exact List.mem_append_right _ hm
  · have hsent := inv.move_msg (hs.node _) (hrx _) (hmove _) _ m hm
    rwa [wiring.peer_peer] at hsent

/-- A fact about a link: the near end, the queue toward it, the queue away from
it, and the far end. It may use an invariant of nodes and messages, and may be
claimed for some of the ports only. -/
structure LinkInvariant {wiring : Wiring Node Port} {move : Move Node Port Msg σ}
    (inv : Invariant wiring move) where
  on : Node → Port → Prop
  rel : Node → Port → σ → List Msg → List Msg → σ → Prop
  on_peer : ∀ {n p}, on n p → on (wiring.peer n p).1 (wiring.peer n p).2
  rel_peer : ∀ {n p a i o b}, rel n p a i o b →
    rel (wiring.peer n p).1 (wiring.peer n p).2 b o i a
  /-- One end moves and the other stands still; before the move the fact holds
  of all links of the moving end. -/
  move_rel : ∀ {n p a rx a' tx i o b}, on n p → inv.node n a →
    (∀ q, ∀ m ∈ rx q, inv.msg n q m) → (∀ m ∈ i, inv.msg n p m) →
    (∀ q, on n q → ∃ i o b, rel n q a ((rx q).toList ++ i) o b) →
    move n a rx a' tx →
    rel n p a ((rx p).toList ++ i) o b → rel n p a' i (o ++ (tx p).toList) b

/-- The link fact, at every link it is claimed for. -/
def LinkInvariant.Holds {wiring : Wiring Node Port} {move : Move Node Port Msg σ}
    {inv : Invariant wiring move} (link : LinkInvariant inv)
    (s : State Node Port Msg σ) : Prop :=
  ∀ n p, link.on n p → link.rel n p (s.node n) (s.queue n p)
    (s.queue (wiring.peer n p).1 (wiring.peer n p).2) (s.node (wiring.peer n p).1)

/-- A step is two half steps as far as one link is concerned: first the near
end moves, then the far end, which cannot see what was sent just now. -/
theorem LinkInvariant.Holds.step {wiring : Wiring Node Port}
    {move : Move Node Port Msg σ} {inv : Invariant wiring move}
    {link : LinkInvariant inv} {s s' : State Node Port Msg σ}
    (hinv : inv.Holds s) (hlink : link.Holds s) (hstep : Step wiring move s s') :
    link.Holds s' := by
  intro n p hon
  have hinv' := hinv.step hstep
  obtain ⟨rx, tx, rest, hmove, hqueue, hqueue'⟩ := hstep
  have hrx : ∀ n p, ∀ m ∈ rx n p, inv.msg n p m := by
    intro n p m hm
    apply hinv.msg n p
    rw [hqueue]
    exact List.mem_append_left _ (Option.mem_toList.mpr hm)
  have hrest : ∀ n p, ∀ m ∈ rest n p, inv.msg n p m := by
    intro n p m hm
    apply hinv.msg n p
    rw [hqueue]
    exact List.mem_append_right _ hm
  have hall : ∀ n q, link.on n q →
      ∃ i o b, link.rel n q (s.node n) ((rx n q).toList ++ i) o b := by
    intro n q honq
    have hq := hlink n q honq
    rw [hqueue n q] at hq
    exact ⟨_, _, _, hq⟩
  have hback := wiring.peer_peer n p
  have hbefore := hlink n p hon
  rw [hqueue n p, hqueue (wiring.peer n p).1] at hbefore
  have hnear := link.move_rel hon (hinv.node n) (hrx n) (hrest n p) (hall n)
    (hmove n) hbefore
  have hturned := link.rel_peer hnear
  rw [List.append_assoc] at hturned
  have hsent : ∀ m ∈ rest (wiring.peer n p).1 (wiring.peer n p).2 ++ (tx n p).toList,
      inv.msg (wiring.peer n p).1 (wiring.peer n p).2 m := by
    intro m hm
    apply hinv'.msg
    rw [hqueue', hback]
    exact hm
  have hfar := link.move_rel (link.on_peer hon) (hinv.node _) (hrx _) hsent (hall _)
    (hmove _) hturned
  have hafter := link.rel_peer hfar
  rw [hback] at hafter
  rw [hqueue' n p, hqueue' (wiring.peer n p).1, hback]
  exact hafter

end Lockstep
