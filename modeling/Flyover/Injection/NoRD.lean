import Flyover.Injection.Selection
import Flyover.Switch.DrainDone
import Mathlib.Data.Fintype.Basic

/-!
# Injection by `NoRDTrafficManager`

A packet that passes a router which is off goes through the network interface, where
its flits wait in latches, one for each virtual channel. While the class that sent last
is bypassing, the loop over the latches takes the place of the loop over the classes.

A flit of a latch keeps its class and whether it comes from this node. `_expected_pid`
and the capacity of the buffer of latches are left out.
-/

namespace Flyover.Injection

variable {subnets classes vcs : Nat}

structure BypassFlit (subnets classes vcs : Nat) extends Flit subnets vcs where
  cl : Fin classes
  /-- `src == n` -/
  own : Bool
  rtime : Int
  bypassVC : Option (Fin vcs)

/-- A virtual channel of `_buffers`. -/
structure Latch (subnets classes vcs : Nat) where
  state : VCState
  outputVC : Option (Fin vcs)
  flits : List (BypassFlit subnets classes vcs)

/-- `SetOutput`, `SetState` and the virtual channel of the flit. -/
def Latch.activate (latch : Latch subnets classes vcs) (cf : BypassFlit subnets classes vcs)
    (outVC : Fin vcs) : Latch subnets classes vcs where
  state := .active
  outputVC := some outVC
  flits := { cf with vc := some outVC } :: latch.flits.tail

structure NoRDConfig extends Config where
  performanceCentricWakeupThreshold : Int
  powerCentricWakeupThreshold : Int
  wakeupMonitorEpoch : Int

/-- What a step reads besides the interfaces. -/
structure NoRDInputs (subnets classes vcs : Nat) extends Inputs subnets vcs where
  performanceCentricRouter : Bool
  /-- `_rf` for bypassing, in the order of the set -/
  bypassRanges : BypassFlit subnets classes vcs → List (InjectRange vcs)
  /-- `found`, which is not initialised, in the round for a latch and a range -/
  found : Fin vcs → Nat → Bool

/-- The interface of a node, and whether `WakeUp` has been called on its router. -/
structure NoRDInterface (subnets classes vcs : Nat) extends Interface subnets classes vcs where
  duringBypassing : Fin classes → Bool
  buffers : Fin subnets → Fin vcs → Latch subnets classes vcs
  wakeupMonitorVCRequests : Int
  wakeupSignal : Bool

/-! ### The loop over the latches -/

/-- The latches, and the one whose flit is `f`. -/
structure BypassLoop (subnets classes vcs : Nat) where
  latches : Fin vcs → Latch subnets classes vcs
  bypassVC : Option (Fin vcs)
  wakeupMonitorVCRequests : Int
  wakeupSignal : Bool

/-- `(last_vc + i) % _vcs` for `i` from 1, as for the classes; a `last_vc` of -1 is before
the first. -/
def latchOrder (lastVC : Option (Fin vcs)) (held : Bool) : List (Fin vcs) :=
  match lastVC with
  | none => List.finRange vcs
  | some lvc => classOrder lvc (if held then some lvc else none)

/-- The search through the ranges; `found` ends it after a range, too. -/
def findBypassVC (buf : BufferState vcs) (time : Int) (lastVC : Option (Fin vcs))
    (found : Nat → Bool) : List (InjectRange vcs) → Option (Fin vcs)
  | [] => none
  | r :: rest =>
      match buf.findVC time r lastVC with
      | some outVC => some outVC
      | none =>
          if found rest.length then none else findBypassVC buf time lastVC found rest

namespace BypassLoop

variable (l : BypassLoop subnets classes vcs)

/-- `f`, the first flit of its latch. -/
def f : Option (BypassFlit subnets classes vcs) :=
  l.bypassVC.bind fun vc => (l.latches vc).flits.head?

/-- The request monitor of the network interface. -/
def monitor (cfg : NoRDConfig) (inputs : NoRDInputs subnets classes vcs) :
    BypassLoop subnets classes vcs :=
  if cfg.performanceCentricWakeupThreshold > 0 ∧ cfg.powerCentricWakeupThreshold > 0 then
    let threshold :=
      if inputs.performanceCentricRouter then cfg.performanceCentricWakeupThreshold
      else cfg.powerCentricWakeupThreshold
    { l with
      wakeupMonitorVCRequests := l.wakeupMonitorVCRequests + 1
      wakeupSignal := l.wakeupSignal ||
        (inputs.time % cfg.wakeupMonitorEpoch = 0 &&
          l.wakeupMonitorVCRequests + 1 ≥ threshold) }
  else l

/-- The first flit of a latch in which a virtual channel is allocated, or a body flit
which has none, after that. -/
def allocate (cfg : NoRDConfig) (inputs : NoRDInputs subnets classes vcs) (buf : BufferState vcs)
    (lastVC : Option (Fin vcs)) (vc : Fin vcs) (cf : BypassFlit subnets classes vcs) :
    Except Error (BypassLoop subnets classes vcs) :=
  let latch := l.latches vc
  if latch.state = .vcAlloc then
    if cf.head then
      let l := l.monitor cfg inputs
      match findBypassVC buf inputs.time lastVC (inputs.found vc) (inputs.bypassRanges cf) with
      | none => .ok l
      | some outVC =>
          .ok { l with latches := Function.update l.latches vc (latch.activate cf outVC) }
    else .error .bypass
  else if !cf.head && cf.vc.isNone then
    if cf.own || latch.state ≠ .active then .error .bypass
    else
      .ok { l with
        latches := Function.update l.latches vc
          { latch with flits := { cf with vc := latch.outputVC } :: latch.flits.tail } }
  else .ok l

/-- After 300 cycles a head flit that cannot go asks for another virtual channel. -/
def retry (time : Int) (vc : Fin vcs) (cf : BypassFlit subnets classes vcs) :
    BypassLoop subnets classes vcs :=
  if cf.head && time - cf.rtime > 300 then
    { l with latches := Function.update l.latches vc { l.latches vc with state := .vcAlloc } }
  else l

/-- Whether the first flit of the latch goes; then the loop is left. -/
def decideOn (inputs : NoRDInputs subnets classes vcs) (buf : BufferState vcs) (vc : Fin vcs) :
    Except Error (BypassLoop subnets classes vcs × Bool) :=
  match (l.latches vc).flits.head? with
  | none => .error .bypass
  | some cf =>
      match cf.vc with
      | none => .ok (l.retry inputs.time vc cf, false)
      | some outVC =>
          if (l.latches vc).state ≠ .active then .error .bypass
          else if buf.isFullFor inputs.time outVC then .ok (l.retry inputs.time vc cf, false)
          else if cf.head && cf.own then .error .bypass
          else .ok ({ l with bypassVC := some vc }, true)

/-- `f && (f->pri >= cf->pri)`, with the assertions about `f`. -/
def outranks (cf : BypassFlit subnets classes vcs) : Except Error Bool :=
  match l.f with
  | none => .ok false
  | some f =>
      if f.pri ≥ cf.pri then
        if f.head || f.vc.isNone ||
            l.bypassVC.any (fun vc => (l.latches vc).state ≠ .active) then .error .bypass
        else .ok true
      else .ok false

/-- One iteration of the loop over the latches. -/
def examine (cfg : NoRDConfig) (inputs : NoRDInputs subnets classes vcs) (buf : BufferState vcs)
    (lastVC : Option (Fin vcs)) (vc : Fin vcs) :
    Except Error (BypassLoop subnets classes vcs × Bool) :=
  if (l.latches vc).state = .idle then .ok (l, false)
  else
    match (l.latches vc).flits.head? with
    | none => .ok (l, false)
    | some cf => do
        if ← l.outranks cf then pure (l, false)
        else
          let l ← l.allocate cfg inputs buf lastVC vc cf
          l.decideOn inputs buf vc

/-- The loop over the latches. -/
def run (cfg : NoRDConfig) (inputs : NoRDInputs subnets classes vcs) (buf : BufferState vcs)
    (lastVC : Option (Fin vcs)) :
    BypassLoop subnets classes vcs → List (Fin vcs) → Except Error (BypassLoop subnets classes vcs)
  | l, [] => .ok l
  | l, vc :: rest => do
      let (l, leaves) ← l.examine cfg inputs buf lastVC vc
      if leaves then pure l else run cfg inputs buf lastVC l rest

end BypassLoop

/-! ### A node's turn -/

/-- A flit of the queue of its class comes from this node. -/
def BypassFlit.ofQueue (c : Fin classes) (f : Flit subnets vcs) :
    BypassFlit subnets classes vcs where
  toFlit := f
  cl := c
  own := true
  rtime := 0
  bypassVC := none

/-- What a node does for a subnetwork: the flit and the virtual channel of the credit
that it sends. -/
structure NoRDServed (subnets classes vcs : Nat) where
  node : NoRDInterface subnets classes vcs
  sent : Option (BypassFlit subnets classes vcs)
  credit : Option (Fin vcs)

namespace NoRDInterface

variable (s : NoRDInterface subnets classes vcs) (cfg : NoRDConfig)
  (inputs : NoRDInputs subnets classes vcs) (subnet : Fin subnets)

/-- `last_vc` -/
def lastClassVC : Option (Fin vcs) := s.lastVC subnet (s.lastClass subnet)

def setLatch (vc : Fin vcs) (latch : Latch subnets classes vcs) :
    NoRDInterface subnets classes vcs :=
  { s with
    buffers := Function.update s.buffers subnet (Function.update (s.buffers subnet) vc latch) }

/-- The latch whose packet holds the switch, and its flit with the virtual channel. -/
def heldLatch : Except Error (Option (Fin vcs × BypassFlit subnets classes vcs)) :=
  match s.lastClassVC subnet with
  | none => .ok none
  | some vc =>
      let latch := s.buffers subnet vc
      let buf := s.bufStates subnet
      if cfg.holdSwitchForPacket && latch.state = .active && !buf.isFullFor inputs.time vc then
        match latch.outputVC with
        | none => .error .bypass
        | some outVC =>
            if buf.isFullFor inputs.time outVC then .ok none
            else
              .ok ((latch.flits.head?.filter fun f => f.cl = s.lastClass subnet).map fun f =>
                (vc, { f with vc := some outVC }))
      else .ok none

/-- The loop over the latches begins with the one that holds the switch. -/
def startLoop (held : Option (Fin vcs × BypassFlit subnets classes vcs)) :
    BypassLoop subnets classes vcs where
  latches :=
    match held with
    | none => s.buffers subnet
    | some (vc, f) =>
        Function.update (s.buffers subnet) vc
          { s.buffers subnet vc with flits := f :: (s.buffers subnet vc).flits.tail }
  bypassVC := held.map Prod.fst
  wakeupMonitorVCRequests := s.wakeupMonitorVCRequests
  wakeupSignal := s.wakeupSignal

/-- The loop over the latches. -/
def selectBypass : Except Error (BypassLoop subnets classes vcs) := do
  let held ← s.heldLatch cfg inputs subnet
  (s.startLoop subnet held).run cfg inputs (s.bufStates subnet) (s.lastClassVC subnet)
    (latchOrder (s.lastClassVC subnet) held.isSome)

/-- The loop over the classes. -/
def selectQueue : Except Error (ClassLoop subnets classes vcs) := do
  let held ← s.held cfg.toConfig inputs.toInputs subnet
  pure (ClassLoop.run (s.bufStates subnet) inputs.toInputs subnet (s.lastVC subnet) false
    ⟨s.partialPackets, held⟩ (classOrder (s.lastClass subnet) held))

/-- `RemoveFlit`, or `pop_front`. -/
def removeFlit (c : Fin classes) (bypassVC : Option (Fin vcs)) :
    Except Error (NoRDInterface subnets classes vcs) :=
  if s.duringBypassing c then
    if (s.partialPackets c).head?.any fun f => !f.head then .error .bypass
    else
      match bypassVC with
      | none => .error .bypass
      | some vc =>
          match (s.buffers subnet vc).flits with
          | [] => .error .bypass
          | _ :: rest => .ok (s.setLatch subnet vc { s.buffers subnet vc with flits := rest })
  else
    match s.partialPackets c with
    | [] => .error .bypass
    | _ :: rest => .ok { s with partialPackets := Function.update s.partialPackets c rest }

/-- "Pass VC back"; the flit of another node gives back a credit instead. -/
def passBack (f : BypassFlit subnets classes vcs) :
    Except Error (NoRDInterface subnets classes vcs) :=
  match s.partialPackets f.cl with
  | [] => .ok s
  | nf :: rest =>
      if f.own && !f.tail then
        if nf.pid = f.pid then
          .ok { s with
            partialPackets :=
              Function.update s.partialPackets f.cl ({ nf with vc := f.vc } :: rest) }
        else .error .otherPacket
      else .ok s

/-- After a tail the latch is idle. -/
def closeLatch (f : BypassFlit subnets classes vcs) (bypassVC : Option (Fin vcs)) :
    Except Error (NoRDInterface subnets classes vcs) :=
  if s.duringBypassing f.cl then
    match bypassVC with
    | none => .error .bypass
    | some vc => .ok (s.setLatch subnet vc { s.buffers subnet vc with state := .idle })
  else if f.own then .ok s
  else .error .bypass

/-- After a tail the class is bypassing if a latch is not idle. -/
def endPacket (f : BypassFlit subnets classes vcs) (bypassVC : Option (Fin vcs)) :
    Except Error (NoRDInterface subnets classes vcs) :=
  if f.tail then do
    let s ← s.closeLatch subnet f bypassVC
    pure { s with
      duringBypassing :=
        if ∃ vc, (s.buffers subnet vc).state ≠ .idle then
          Function.update s.duringBypassing f.cl true
        else s.duringBypassing }
  else .ok s

/-- Take the virtual channel for a head flit. -/
def takeVC (f : BypassFlit subnets classes vcs) (vc : Fin vcs) :
    Except Error (NoRDInterface subnets classes vcs) := do
  let buf ← (s.takeBuffer subnet f.toFlit vc).mapError .buffer
  pure { s with
    bufStates := Function.update s.bufStates subnet buf
    lastVC :=
      if f.head then
        Function.update s.lastVC subnet (Function.update (s.lastVC subnet) f.cl (some vc))
      else s.lastVC
    lastClass := Function.update s.lastClass subnet f.cl }

/-- `dest_buf->SendingFlit(f)` -/
def sendingFlitFor (f : BypassFlit subnets classes vcs) (vc : Fin vcs) :
    Except Error (NoRDInterface subnets classes vcs) := do
  let buf ← ((s.bufStates subnet).sendingFlit inputs.time vc f.tail).mapError .buffer
  pure { s with bufStates := Function.update s.bufStates subnet buf }

/-- `if(f)` -/
def sendFlit (f : BypassFlit subnets classes vcs) (bypassVC : Option (Fin vcs)) :
    Except Error (NoRDServed subnets classes vcs) :=
  if f.subnetwork ≠ subnet then .error .notSendable
  else
    match f.vc with
    | none => .error .notSendable
    | some vc => do
        let s ← s.takeVC subnet f vc
        let s ← s.removeFlit subnet f.cl bypassVC
        let s ← s.sendingFlitFor inputs subnet f vc
        let s ← s.passBack f
        let s ← s.endPacket subnet f bypassVC
        pure {
          node := s
          sent := some
            { f with
              pri := if cfg.networkAgeBased then 2 ^ 31 - 1 - inputs.time else f.pri
              bypassVC := if f.own then f.bypassVC else none }
          credit := if f.own then none else f.bypassVC }

/-- The flit of the queues. -/
def injectQueue (l : ClassLoop subnets classes vcs) : Except Error (NoRDServed subnets classes vcs) :=
  let s := { s with partialPackets := l.partialPackets }
  match l.f with
  | none => .ok ⟨s, none, none⟩
  | some c =>
      match (l.partialPackets c).head? with
      | none => .error .notSendable
      | some f => s.sendFlit cfg inputs subnet (.ofQueue c f) none

/-- The flit of the latches. -/
def injectBypass (l : BypassLoop subnets classes vcs) :
    Except Error (NoRDServed subnets classes vcs) :=
  let s := { s with
    buffers := Function.update s.buffers subnet l.latches
    wakeupMonitorVCRequests := l.wakeupMonitorVCRequests
    wakeupSignal := l.wakeupSignal }
  match l.f with
  | none => .ok ⟨s, none, none⟩
  | some f => s.sendFlit cfg inputs subnet f l.bypassVC

/-- A node's turn. -/
def inject : Except Error (NoRDServed subnets classes vcs) :=
  if s.duringBypassing (s.lastClass subnet) then do
    let l ← s.selectBypass cfg inputs subnet
    s.injectBypass cfg inputs subnet l
  else do
    let l ← s.selectQueue cfg inputs subnet
    s.injectQueue cfg inputs subnet l

/-- A flit that is not for this node is put into a latch. -/
def receive (time : Int) (f : BypassFlit subnets classes vcs) :
    Except Error (NoRDInterface subnets classes vcs) :=
  match f.vc with
  | none => .error .bypass
  | some vc =>
      let latch := s.buffers subnet vc
      if latch.flits ≠ [] ∨ (f.head = true ∧ latch.state ≠ .idle) then .error .bypass
      else
        let s := s.setLatch subnet vc
          { latch with
            state := if f.head then .vcAlloc else latch.state
            flits := [{ f with rtime := time, bypassVC := some vc, vc := none }] }
        .ok { s with
          duringBypassing :=
            if (s.partialPackets f.cl).head?.all fun pf => pf.head && pf.vc.isNone then
              Function.update s.duringBypassing f.cl true
            else s.duringBypassing }

end NoRDInterface

end Flyover.Injection
