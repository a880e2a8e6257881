import Flyover.Buffer.State
import Flyover.Routing.Function
import Flyover.Switch.DrainDone

/-!
# The pipeline of `FLOVRouter`

A flit waits in an input virtual channel. The packet at its front is routed, is
given a virtual channel of the next router, and then competes for the switch flit
by flit. For each stage there is a queue of the channels that are in it.

This is what the stages of a router that is on work on. The allocators, the
routing function, the neighbours and the output buffers are outside: what they
decide is an input of a cycle. The statistics of a flit, the credits that go back
upstream and what happens to a flit behind the switch are left out.

A failed assertion is `none`.
-/

namespace Flyover

/-- The number of an output; -1 has none. -/
def OutPort.output : OutPort → Option (Fin 5)
  | .inject => none
  | .mesh p => some p.index
  | .eject => some 4

/-- The parameters of a router, and the routers at the end of its outputs. -/
structure PipelineConfig (k : Nat) where
  id : Node k
  /-- `_output_channels[output]->GetSink()` -/
  sink : Fin 5 → Option (Node k)
  bufferSize : Nat
  inputSpeedup : Nat
  outputSpeedup : Nat
  routingDelay : Nat
  vcAllocDelay : Nat
  swAllocDelay : Nat
  speculative : Bool
  /-- there is no `_vc_allocator` -/
  piggyback : Bool
  holdSwitchForPacket : Bool
  noq : Bool
  vcPrioritizeEmpty : Bool
  inputSpeedup_pos : 0 < inputSpeedup
  vcAllocDelay_pos : 0 < vcAllocDelay
  swAllocDelay_pos : 0 < swAllocDelay
  /-- piggyback VC allocation requires speculative switch allocation -/
  speculative_of_piggyback : piggyback = true → speculative = true
  /-- NOQ requires lookahead routing -/
  lookahead_of_noq : noq = true → routingDelay = 0

namespace Pipeline

variable {k vcs : Nat}

/-- What the pipeline reads of a flit. -/
structure Flit (k vcs : Nat) where
  pid : Nat
  head : Bool
  tail : Bool
  vc : Fin vcs
  cl : Nat
  dest : Node k
  rtime : Int
  laRouteSet : OutputSet

/-- An input virtual channel. -/
structure InputVC (k vcs : Nat) where
  buffer : List (Flit k vcs) := []
  state : VCState := .idle
  routeSet : OutputSet := .clear
  /-- `_out_port` and `_out_vc` -/
  out : Option (Fin 5 × Fin vcs) := none
  expectedPid : Option Nat := none

namespace InputVC

/-- `AddFlit`, with its error. -/
def addFlit (c : InputVC k vcs) (f : Flit k vcs) : Option (InputVC k vcs) :=
  match c.expectedPid with
  | some pid =>
      if f.pid ≠ pid then none
      else some { c with
        buffer := c.buffer ++ [f]
        expectedPid := if f.tail then none else some pid }
  | none =>
      some { c with
        buffer := c.buffer ++ [f]
        expectedPid := if f.tail then none else some f.pid }

/-- `RemoveFlit` of a channel that is not empty. -/
def removeFlit (c : InputVC k vcs) : InputVC k vcs := { c with buffer := c.buffer.tail }

/-- `SetState` -/
def setState (c : InputVC k vcs) (state : VCState) : InputVC k vcs := { c with state := state }

/-- `SetRouteSet` and `Route` -/
def setRouteSet (c : InputVC k vcs) (set : OutputSet) : InputVC k vcs :=
  { c with routeSet := set, out := none }

/-- `ClearRouteSet` -/
def clearRouteSet (c : InputVC k vcs) : InputVC k vcs := { c with routeSet := .clear }

/-- `SetOutput` -/
def setOutput (c : InputVC k vcs) (port : Fin 5) (vc : Fin vcs) : InputVC k vcs :=
  { c with out := some (port, vc) }

/-- `f->rtime = time` for the flit in front -/
def setRtime (c : InputVC k vcs) (time : Int) : InputVC k vcs :=
  { c with
    buffer := match c.buffer with
      | [] => []
      | f :: rest => { f with rtime := time } :: rest }

end InputVC

/-- An entry of a queue of virtual channels. `time` is `none` until the stage has
begun, and `result` is `none` for the codes that say why nothing was allocated. -/
structure Entry (vcs : Nat) (α : Type) where
  time : Option Int := none
  input : Fin 5
  vc : Fin vcs
  result : Option α := none

namespace Entry

variable {α : Type}

/-- The stage is over. -/
def due (now : Int) (e : Entry vcs α) : Bool := e.time.any (decide <| · ≤ now)

/-- The entry is for this virtual channel. -/
def isFor (input : Fin 5) (vc : Fin vcs) (e : Entry vcs α) : Bool :=
  decide (e.input = input ∧ e.vc = vc)

/-- The loops over a queue in the functions that begin a stage: the entries in
front that have no time get one. -/
def stamp (time : Int) : List (Entry vcs α) → List (Entry vcs α)
  | [] => []
  | e :: rest =>
      match e.time with
      | some _ => e :: rest
      | none => { e with time := some time } :: stamp time rest

/-- The outcome of the stages that are over in this cycle. -/
def decideBy (now : Int) (result : Fin 5 → Fin vcs → Option α) (queue : List (Entry vcs α)) :
    List (Entry vcs α) :=
  queue.map fun e => if e.due now then { e with result := result e.input e.vc } else e

end Entry

/-- One entry of `_noq_next_output_port`, `_noq_next_vc_start` and `_noq_next_vc_end`. -/
structure NOQ where
  nextOutputPort : OutPort
  nextVCStart : Int
  nextVCEnd : Int

/-- An entry of `_crossbar_flits`. -/
structure Crossing (k vcs : Nat) where
  flit : Flit k vcs
  expandedInput : Nat
  output : Fin 5
  expandedOutput : Nat

/-- What a cycle finds outside the pipeline. -/
structure Outside (k vcs : Nat) where
  /-- `GetSimTime()` -/
  now : Int
  /-- `_in_queue_flits` -/
  inQueueFlits : Fin 5 → Option (Flit k vcs)
  /-- what the credits and the handshakes make of `_next_buf` -/
  creditUpdate : (Fin 5 → BufferState vcs) → Fin 5 → BufferState vcs
  /-- `_downstream_states`, after the handshakes -/
  downstreamStates : Fin 5 → PowerState
  /-- `_neighbor_states` -/
  neighborStates : Fin 5 → PowerState
  /-- the routing function at this router -/
  route : Fin 5 → Flit k vcs → OutputSet
  /-- the routing function at the router behind an output -/
  routeAhead : Fin 5 → Flit k vcs → OutputSet
  /-- what the VC allocator assigns to a channel -/
  vcAssigned : Fin 5 → Fin vcs → Option (Fin 5 × Fin vcs)
  /-- the held connection that a channel can use -/
  swHeld : Fin 5 → Fin vcs → Option Nat
  /-- what the switch allocators assign to a channel -/
  swAssigned : Fin 5 → Fin vcs → Option Nat
  /-- the output buffer with this number has room -/
  outputBufferRoom : Nat → Bool

end Pipeline

/-- The stages of a router. -/
structure Pipeline (k vcs : Nat) where
  now : Int
  buf : Fin 5 → Fin vcs → Pipeline.InputVC k vcs
  nextBuf : Fin 5 → BufferState vcs
  downstreamStates : Fin 5 → PowerState
  routeVCs : List (Pipeline.Entry vcs Unit)
  vcAllocVCs : List (Pipeline.Entry vcs (Fin 5 × Fin vcs))
  swHoldVCs : List (Pipeline.Entry vcs Nat)
  swAllocVCs : List (Pipeline.Entry vcs Nat)
  switchHoldVC : Nat → Option (Fin vcs)
  switchHoldIn : Nat → Option Nat
  switchHoldOut : Nat → Option Nat
  vcRROffset : Fin 5 → Nat → Int
  noqNext : Fin 5 → Fin vcs → Option Pipeline.NOQ
  /-- the flits that this cycle has sent to the crossbar -/
  crossbarFlits : List (Pipeline.Crossing k vcs)

namespace PipelineConfig

variable {k : Nat} (cfg : PipelineConfig k)

/-- `input * _input_speedup + vc % _input_speedup` -/
def expandedInput {vcs : Nat} (input : Fin 5) (vc : Fin vcs) : Nat :=
  input * cfg.inputSpeedup + vc % cfg.inputSpeedup

/-- `expanded_output / _output_speedup`, with the assertion on it. -/
def output (expandedOutput : Nat) : Option (Fin 5) :=
  if h : expandedOutput / cfg.outputSpeedup < 5 then some ⟨_, h⟩ else none

/-- The test of the recorded downstream state that sends a packet back to routing:
there is a router behind the output, it is not in the bottom row, and it is
draining, waking up or off. -/
def backToRoute (downstreamStates : Fin 5 → PowerState) (out : Fin 5) : Bool :=
  match cfg.sink out with
  | none => false
  | some router =>
      !Router.bottomRow router &&
        (downstreamStates out == .draining || downstreamStates out == .wakeup ||
          downstreamStates out == .powerOff)

end PipelineConfig

namespace Pipeline

variable {k vcs : Nat}

/-- The constructor; nothing has arrived yet. -/
def initial (nextBuf : Fin 5 → BufferState vcs) : Pipeline k vcs where
  now := 0
  buf _ _ := {}
  nextBuf := nextBuf
  downstreamStates _ := .powerOn
  routeVCs := []
  vcAllocVCs := []
  swHoldVCs := []
  swAllocVCs := []
  switchHoldVC _ := none
  switchHoldIn _ := none
  switchHoldOut _ := none
  vcRROffset _ _ := -1
  noqNext _ _ := none
  crossbarFlits := []

/-- Change one input virtual channel. -/
def modifyVC (s : Pipeline k vcs) (input : Fin 5) (vc : Fin vcs) (g : InputVC k vcs → InputVC k vcs) :
    Pipeline k vcs :=
  { s with
    buf := Function.update s.buf input
      (Function.update (s.buf input) vc (g (s.buf input vc))) }

theorem modifyVC_self (s : Pipeline k vcs) (input : Fin 5) (vc : Fin vcs)
    (g : InputVC k vcs → InputVC k vcs) : (s.modifyVC input vc g).buf input vc = g (s.buf input vc) := by
  simp [modifyVC]

theorem modifyVC_of_ne (s : Pipeline k vcs) {input i : Fin 5} {vc v : Fin vcs}
    (g : InputVC k vcs → InputVC k vcs) (hne : ¬ (i = input ∧ v = vc)) :
    (s.modifyVC input vc g).buf i v = s.buf i v := by
  by_cases hi : i = input
  · subst hi
    have hv : v ≠ vc := fun hv => hne ⟨rfl, hv⟩
    simp [modifyVC, hv]
  · simp [modifyVC, hi]

end Pipeline

end Flyover
