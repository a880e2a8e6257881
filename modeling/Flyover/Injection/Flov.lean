import Flyover.Injection.Interface
import Flyover.Router

/-!
# Injection by `FLOVTrafficManager`

No head flit is sent to a router that is not on: it is to be woken up, in every other
step. The router is looked at when a head flit needs a virtual channel, and again when
a head flit is to be sent. The first check leaves the loop over the classes, the
second one the loop over the nodes.
-/

namespace Flyover.Injection

variable {subnets classes vcs nodes : Nat}

/-- The interface of a node with `_wakeup_handshake_latency`, the power states of the
attached routers, and whether `WakeUp` has been called on them. -/
structure FlovInterface (subnets classes vcs : Nat) extends Interface subnets classes vcs where
  wakeupHandshakeLatency : Bool
  powerState : Fin subnets → PowerState
  wakeupSignal : Fin subnets → Bool

/-- The loop over the classes; `stopped` after the `break`. -/
structure FlovLoop (subnets classes vcs : Nat) extends ClassLoop subnets classes vcs where
  wakeupHandshakeLatency : Bool
  wakeupSignal : Bool
  stopped : Bool

/-- Wake the router up, or do so the next time. -/
def FlovLoop.wakeUp (l : FlovLoop subnets classes vcs) : FlovLoop subnets classes vcs :=
  { l with
    wakeupHandshakeLatency := !l.wakeupHandshakeLatency
    wakeupSignal := l.wakeupSignal || l.wakeupHandshakeLatency }

/-- One iteration of the loop over the classes. -/
def FlovLoop.examine (inputs : Inputs subnets vcs) (subnet : Fin subnets) (buf : BufferState vcs)
    (lastVC : Fin classes → Option (Fin vcs)) (powerState : PowerState)
    (l : FlovLoop subnets classes vcs) (c : Fin classes) : FlovLoop subnets classes vcs :=
  if l.stopped then l
  else
    match l.candidate subnet c with
    | none => l
    | some cf =>
        if cf.needsVC && powerState ≠ .powerOn then { l.wakeUp with stopped := true }
        else
          { l with
            toClassLoop := l.consider buf inputs (lastVC c) c cf
            wakeupHandshakeLatency := !cf.needsVC && l.wakeupHandshakeLatency }

/-- What a node does for a subnetwork: what it sends, and whether the loop over the
nodes is left. -/
structure Served (subnets classes vcs : Nat) where
  node : FlovInterface subnets classes vcs
  sent : Option (Flit subnets vcs)
  leaves : Bool

namespace FlovInterface

variable (s : FlovInterface subnets classes vcs) (cfg : Config) (inputs : Inputs subnets vcs)
  (subnet : Fin subnets)

/-- The loop over the classes. -/
def selectFlit : Except Error (FlovLoop subnets classes vcs) := do
  let held ← s.held cfg inputs subnet
  pure ((classOrder (s.lastClass subnet) held).foldl
    (FlovLoop.examine inputs subnet (s.bufStates subnet) (s.lastVC subnet) (s.powerState subnet))
    { partialPackets := s.partialPackets
      f := held
      wakeupHandshakeLatency := s.wakeupHandshakeLatency
      wakeupSignal := s.wakeupSignal subnet
      stopped := false })

/-- The interface after the loop over the classes. -/
def afterLoop (l : FlovLoop subnets classes vcs) : FlovInterface subnets classes vcs :=
  { s with
    partialPackets := l.partialPackets
    wakeupHandshakeLatency := l.wakeupHandshakeLatency
    wakeupSignal := Function.update s.wakeupSignal subnet l.wakeupSignal }

/-- `if(f)` -/
def sendFlit (l : FlovLoop subnets classes vcs) : Except Error (Served subnets classes vcs) :=
  match l.f with
  | none => .ok ⟨s.afterLoop subnet l, none, false⟩
  | some c =>
      match (l.partialPackets c).head? with
      | none => .error .notSendable
      | some f =>
          if f.subnetwork ≠ subnet then .error .notSendable
          else if f.head && s.powerState subnet ≠ .powerOn then
            .ok ⟨s.afterLoop subnet l.wakeUp, none, true⟩
          else
            let l := { l with wakeupHandshakeLatency := !f.head && l.wakeupHandshakeLatency }
            match (s.afterLoop subnet l).send cfg inputs subnet c with
            | .error e => .error e
            | .ok (interface, f) =>
                .ok ⟨{ s.afterLoop subnet l with toInterface := interface }, some f, false⟩

/-- A node's turn. -/
def inject : Except Error (Served subnets classes vcs) := do
  let l ← s.selectFlit cfg inputs subnet
  s.sendFlit cfg inputs subnet l

end FlovInterface

/-- The interfaces of the nodes, and what they have sent into the subnetwork. -/
structure FlovNodes (nodes subnets classes vcs : Nat) where
  interfaces : Fin nodes → FlovInterface subnets classes vcs
  sent : Fin nodes → Option (Flit subnets vcs)

namespace FlovNodes

/-- What a node has done. -/
def set (s : FlovNodes nodes subnets classes vcs) (n : Fin nodes)
    (served : Served subnets classes vcs) : FlovNodes nodes subnets classes vcs where
  interfaces := Function.update s.interfaces n served.node
  sent := Function.update s.sent n served.sent

variable (cfg : Config) (inputs : Fin nodes → Inputs subnets vcs) (subnet : Fin subnets)

/-- The loop over the nodes. -/
def injectAll : List (Fin nodes) → FlovNodes nodes subnets classes vcs →
    Except Error (FlovNodes nodes subnets classes vcs)
  | [], s => .ok s
  | n :: rest, s =>
      match (s.interfaces n).inject cfg (inputs n) subnet with
      | .error e => .error e
      | .ok served =>
          if served.leaves then .ok (s.set n served) else injectAll rest (s.set n served)

/-- The loop over the nodes for one subnetwork, in which nothing has been sent yet. -/
def injectInto (interfaces : Fin nodes → FlovInterface subnets classes vcs) :
    Except Error (FlovNodes nodes subnets classes vcs) :=
  injectAll cfg inputs subnet (List.finRange nodes) ⟨interfaces, fun _ => none⟩

end FlovNodes

end Flyover.Injection
