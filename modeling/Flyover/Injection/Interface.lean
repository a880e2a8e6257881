import Flyover.Injection.VCSearch

/-!
# The network interface of a node

In every step the traffic manager goes through the classes of each node, from the one
after the class that sent last, and sends at most one flit into each subnetwork: that
of highest priority among the waiting flits that have a virtual channel, or find one,
which is not full.

What is the same for all traffic managers is here. An error is an assertion that
fails, or an error of the buffer state.
-/

namespace Flyover.Injection

variable {subnets classes vcs : Nat}

/-- What injection reads and writes of a flit; its class is that of the queue it is in. -/
structure Flit (subnets vcs : Nat) where
  pid : Nat
  head : Bool
  tail : Bool
  pri : Int
  subnetwork : Fin subnets
  vc : Option (Fin vcs)
  deriving DecidableEq

/-- A head flit that has no virtual channel yet. -/
def Flit.needsVC (cf : Flit subnets vcs) : Bool := cf.head && cf.vc.isNone

inductive Error where
  /-- the flit that holds the switch has the virtual channel of the class -/
  | heldVC
  /-- the flit that is sent is in its subnetwork, and has a virtual channel -/
  | notSendable
  /-- an assertion about the bypass latches, or a flit that is not there -/
  | bypass
  /-- `assert(nf->pid == f->pid)` -/
  | otherPacket
  | buffer (e : BufferError)
  deriving DecidableEq

structure Config where
  holdSwitchForPacket : Bool
  /-- `_pri_type == network_age_based` -/
  networkAgeBased : Bool

/-- What a step reads besides the interfaces. -/
structure Inputs (subnets vcs : Nat) where
  /-- `_time` -/
  time : Int
  /-- `_rf` for injection -/
  range : Flit subnets vcs → InjectRange vcs

/-- The entries of `_partial_packets`, `_last_class`, `_last_vc` and `_buf_states` for a node. -/
structure Interface (subnets classes vcs : Nat) where
  partialPackets : Fin classes → List (Flit subnets vcs)
  lastClass : Fin subnets → Fin classes
  lastVC : Fin subnets → Fin classes → Option (Fin vcs)
  bufStates : Fin subnets → BufferState vcs

/-- `(last_class + i) % _classes` -/
def classAt (last : Fin classes) (i : Nat) : Fin classes :=
  ⟨(last + i) % classes, Nat.mod_lt _ last.pos⟩

/-- The classes that the loop goes through; the one that holds the switch is last, and
it is left out. -/
def classOrder (last : Fin classes) (held : Option (Fin classes)) : List (Fin classes) :=
  (List.range (if held.isSome then classes - 1 else classes)).map fun i => classAt last (i + 1)

/-! ### The loop over the classes -/

/-- `_partial_packets` and the flit `f`, the first of its class. -/
structure ClassLoop (subnets classes vcs : Nat) where
  partialPackets : Fin classes → List (Flit subnets vcs)
  f : Option (Fin classes)

namespace ClassLoop

variable (l : ClassLoop subnets classes vcs)

/-- `f && (f->pri >= cf->pri)` -/
def outranks (cf : Flit subnets vcs) : Bool :=
  l.f.any fun c => (l.partialPackets c).head?.any fun f => f.pri ≥ cf.pri

/-- The flit `cf` of a class that the loop does not skip. -/
def candidate (subnet : Fin subnets) (c : Fin classes) : Option (Flit subnets vcs) :=
  (l.partialPackets c).head?.filter fun cf => cf.subnetwork = subnet && !l.outranks cf

/-- `cf` after the search for a virtual channel. -/
def assignVC (buf : BufferState vcs) (inputs : Inputs subnets vcs) (lastVC : Option (Fin vcs))
    (cf : Flit subnets vcs) : Flit subnets vcs :=
  if cf.needsVC then { cf with vc := buf.findVC inputs.time (inputs.range cf) lastVC } else cf

/-- The flit has a virtual channel that is not full. -/
def ready (buf : BufferState vcs) (time : Int) (cf : Flit subnets vcs) : Bool :=
  cf.vc.any fun vc => !buf.isFullFor time vc

/-- The search, and `f = cf`. -/
def consider (buf : BufferState vcs) (inputs : Inputs subnets vcs) (lastVC : Option (Fin vcs))
    (c : Fin classes) (cf : Flit subnets vcs) : ClassLoop subnets classes vcs :=
  let cf := assignVC buf inputs lastVC cf
  { partialPackets := Function.update l.partialPackets c (cf :: (l.partialPackets c).tail)
    f := if ready buf inputs.time cf then some c else l.f }

end ClassLoop

namespace Interface

variable (s : Interface subnets classes vcs) (cfg : Config) (inputs : Inputs subnets vcs)
  (subnet : Fin subnets)

/-- The class whose packet holds the switch. -/
def held : Except Error (Option (Fin classes)) :=
  let last := s.lastClass subnet
  match (s.partialPackets last).head? with
  | none => .ok none
  | some f =>
      if cfg.holdSwitchForPacket && !f.head then
        match f.vc with
        | none => .error .heldVC
        | some vc =>
            if (s.bufStates subnet).isFullFor inputs.time vc then .ok none
            else if s.lastVC subnet last = some vc then .ok (some last)
            else .error .heldVC
      else .ok none

/-- `TakeBuffer` for a head flit. -/
def takeBuffer (f : Flit subnets vcs) (vc : Fin vcs) : Except BufferError (BufferState vcs) :=
  if f.head then (s.bufStates subnet).takeBuffer vc 0 else .ok (s.bufStates subnet)

/-- The buffer state after the flit has been sent. -/
def sendingFlit (f : Flit subnets vcs) (vc : Fin vcs) : Except BufferError (BufferState vcs) := do
  let buf ← s.takeBuffer subnet f vc
  buf.sendingFlit inputs.time vc f.tail

/-- "Pass VC back" -/
def passBack (f : Flit subnets vcs) : List (Flit subnets vcs) → List (Flit subnets vcs)
  | [] => []
  | nf :: rest => if f.tail then nf :: rest else { nf with vc := f.vc } :: rest

/-- Send the first flit of a class. -/
def send (c : Fin classes) : Except Error (Interface subnets classes vcs × Flit subnets vcs) :=
  match s.partialPackets c with
  | [] => .error .notSendable
  | f :: rest =>
      match f.vc with
      | none => .error .notSendable
      | some vc =>
          match s.sendingFlit inputs subnet f vc with
          | .error e => .error (.buffer e)
          | .ok buf =>
              .ok ({ partialPackets := Function.update s.partialPackets c (passBack f rest)
                     lastClass := Function.update s.lastClass subnet c
                     lastVC :=
                       if f.head then
                         Function.update s.lastVC subnet
                           (Function.update (s.lastVC subnet) c (some vc))
                       else s.lastVC
                     bufStates := Function.update s.bufStates subnet buf },
                if cfg.networkAgeBased then { f with pri := 2 ^ 31 - 1 - inputs.time } else f)

end Interface

end Flyover.Injection
