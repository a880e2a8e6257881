import Flyover.Downstream
import Flyover.RFlov.Router
import Mathlib.Data.List.FinRange
import Mathlib.Data.Fintype.Pi

/-!
# When `drain_done` is sent

`_HandshakeResponse` answers a neighbour that drains or wakes up. The neighbour
takes the answer to mean that nothing is left in this router that is bound for
it, so the router first looks through its virtual channels, its crossbar and its
output buffer.

The inputs are numbered from the output on, and the scan stops one short of a
full turn: it never looks at the input that belongs to the output itself.
-/

namespace Flyover

variable {k vcs speedup : Nat} {Flit : Type} {now : Int}

/-- The number of a mesh port. Number 4 is the network interface. -/
def Port.index : Port → Fin 5
  | .east => 0
  | .west => 1
  | .south => 2
  | .north => 3

/-- `VC::eVCState` -/
inductive VCState where
  | idle
  | routing
  | vcAlloc
  | active
  deriving DecidableEq

/-- The state of an input virtual channel and the output that it was given. -/
structure VC where
  state : VCState := .idle
  outPort : Int := -1

/-- A flit that crosses the switch. Its time has come, and there are
`_output_speedup` crossbar outputs for each port. -/
structure CrossbarFlit (now : Int) (speedup : Nat) where
  time : Int
  expandedOutput : Fin (5 * speedup)
  time_le : time ≤ now

/-- `expanded_output / _output_speedup` -/
def CrossbarFlit.output (f : CrossbarFlit now speedup) : Fin 5 :=
  ⟨f.expandedOutput / speedup, Nat.div_lt_of_lt_mul (Nat.mul_comm 5 speedup ▸ f.expandedOutput.isLt)⟩

/-- The data plane of a router as `_HandshakeResponse` finds it. -/
structure Switch (Flit : Type) (vcs : Nat) (now : Int) (speedup : Nat) where
  inQueueFlits : List Flit
  buf : Fin 5 → Fin vcs → VC
  crossbarFlits : List (CrossbarFlit now speedup)
  outputBuffer : Fin 5 → List Flit

/-- `_outstanding_bypass_packets`, and the port to the next router of the ring. -/
structure Bypass where
  ringOutPort : Port
  outstandingBypassPackets : List Nat

/-- The channel has been given an output, and it is this port. -/
def VC.ActiveFor (c : VC) (out : Port) : Prop := c.outPort = out.index ∧ c.state = .active

instance (c : VC) (out : Port) : Decidable (c.ActiveFor out) := inferInstanceAs (Decidable (_ ∧ _))

namespace Switch

/-- `(out_port + i) % _inputs` for `i` from 1 -/
def scannedInputs (out : Port) : List (Fin 5) := [1, 2, 3, 4].map fun i => out.index + i

/-- No virtual channel of an input is active for the port. -/
def inputDrained (s : Switch Flit vcs now speedup) (out : Port) (input : Fin 5) : Bool :=
  (List.finRange vcs).all fun vc => !decide ((s.buf input vc).ActiveFor out)

/-- The tests that lead to `drain_done`, in the order of the source. -/
def portDrained (s : Switch Flit vcs now speedup) (out : Port) : Bool :=
  (scannedInputs out).all (s.inputDrained out) &&
    s.crossbarFlits.all (fun f => f.output != out.index) &&
    (s.outputBuffer out.index).isEmpty

/-- What a cycle reads of the data plane. -/
def datapath (s : Switch Flit vcs now speedup) : Datapath where
  inQueueFlitsEmpty := s.inQueueFlits.isEmpty
  crossbarFlitsEmpty := s.crossbarFlits.isEmpty
  vcsIdle := decide (∀ input vc, (s.buf input vc).state = .idle)
  outputBuffersEmpty := decide (∀ output, (s.outputBuffer output).isEmpty)
  portDrained := s.portDrained

/-- No channel of this input will send to the port. -/
def NothingFrom (s : Switch Flit vcs now speedup) (input : Fin 5) (out : Port) : Prop :=
  ∀ vc, ¬ (s.buf input vc).ActiveFor out

/-- Neither in the crossbar nor in the output buffer is there a flit for the port. -/
def NothingSent (s : Switch Flit vcs now speedup) (out : Port) : Prop :=
  (∀ f ∈ s.crossbarFlits, f.output ≠ out.index) ∧ s.outputBuffer out.index = []

/-- Nothing in the router is bound for the port. -/
def Drained (s : Switch Flit vcs now speedup) (out : Port) : Prop :=
  (∀ input, s.NothingFrom input out) ∧ s.NothingSent out

/-- Nothing is bound for the port but perhaps a packet that came in there. -/
def DrainedButTurns (s : Switch Flit vcs now speedup) (out : Port) : Prop :=
  (∀ input, input ≠ out.index → s.NothingFrom input out) ∧ s.NothingSent out

theorem mem_scannedInputs (out : Port) (input : Fin 5) :
    input ∈ scannedInputs out ↔ input ≠ out.index := by
  cases out <;> decide +revert

theorem inputDrained_iff (s : Switch Flit vcs now speedup) (out : Port) (input : Fin 5) :
    s.inputDrained out input = true ↔ s.NothingFrom input out := by
  simp only [inputDrained, List.all_eq_true, List.mem_finRange, true_implies, NothingFrom,
    Bool.not_eq_true', decide_eq_false_iff_not]

/-- The scan leaves one input out. -/
theorem portDrained_iff (s : Switch Flit vcs now speedup) (out : Port) :
    s.portDrained out = true ↔ s.DrainedButTurns out := by
  unfold portDrained DrainedButTurns NothingSent
  rw [Bool.and_eq_true, Bool.and_eq_true, and_assoc]
  apply and_congr
  · rw [List.all_eq_true]
    apply forall_congr'
    intro input
    rw [mem_scannedInputs, inputDrained_iff]
  · apply and_congr
    · rw [List.all_eq_true]
      apply forall₂_congr
      intro f _
      exact bne_iff_ne
    · exact List.isEmpty_iff

theorem drained_iff (s : Switch Flit vcs now speedup) (out : Port) :
    s.Drained out ↔ s.DrainedButTurns out ∧ s.NothingFrom out.index out := by
  constructor
  · intro h
    exact ⟨⟨fun input _ => h.1 input, h.2⟩, h.1 out.index⟩
  · intro h
    refine ⟨fun input => ?_, h.1.2⟩
    by_cases hturn : input = out.index
    · rw [hturn]
      exact h.2
    · exact h.1.1 input hturn

end Switch

/-! ### The four routers -/

/-- The routers that gate their power by handshakes. -/
inductive RouterType where
  | flov
  | rflov
  | gflov
  | nord

/-- `NoRDRouter::_HandshakeResponse`: only a draining neighbour is answered, and
the next router of the ring not before the bypassed packets have gone. -/
def NoRDRouter.handshakeResponse (n : Node k) (s : Switch Flit vcs now speedup) (b : Bypass)
    (r : Router) : Router :=
  r.sendDrainDone n fun out =>
    decide ((r.ports out).neighborState = .draining) && !(r.ports out).drainDoneSent &&
      (s.portDrained out && (out != b.ringOutPort || b.outstandingBypassPackets.isEmpty))

namespace RouterType

/-- `_HandshakeResponse` -/
def handshakeResponse (type : RouterType) (n : Node k) (s : Switch Flit vcs now speedup)
    (b : Bypass) (r : Router) : Except AssertFailure Router :=
  match type with
  | .flov => r.handshakeResponse n s.datapath
  | .rflov => pure (RFLOVRouter.handshakeResponse n s.datapath r)
  | .gflov => r.handshakeResponse n s.datapath
  | .nord => pure (NoRDRouter.handshakeResponse n s b r)

/-- The router on the other side waits for an answer. -/
def Waiting (type : RouterType) (entry : PortState) : Prop :=
  match type with
  | .flov => entry.downstreamState = .draining ∨ entry.downstreamState = .wakeup
  | .rflov => entry.neighborState = .draining ∨ entry.neighborState = .wakeup
  | .gflov => entry.downstreamState = .draining ∨ entry.downstreamState = .wakeup
  | .nord => entry.neighborState = .draining

/-- The bypass does not hold the answer back. -/
def BypassDone (type : RouterType) (b : Bypass) (out : Port) : Prop :=
  match type with
  | .nord => out = b.ringOutPort → b.outstandingBypassPackets = []
  | _ => True

/-- The router on the other side waits for an answer, has none yet, and the
bypass does not hold it back. -/
def Due (type : RouterType) (b : Bypass) (r : Router) (out : Port) : Prop :=
  type.Waiting (r.ports out) ∧ (r.ports out).drainDoneSent = false ∧ type.BypassDone b out

variable {type : RouterType} {n : Node k} {s : Switch Flit vcs now speedup} {b : Bypass}
  {r r' : Router}

/-- Each of the four answers exactly the ports that wait and pass the scan. -/
theorem exists_sendDrainDone (hok : type.handshakeResponse n s b r = .ok r') :
    ∃ chosen : Port → Bool, r' = r.sendDrainDone n chosen ∧
      ∀ out, chosen out = true ↔ type.Due b r out ∧ s.DrainedButTurns out := by
  have hflov (h : r.handshakeResponse n s.datapath = .ok r') (out : Port) :
      r' = r.sendDrainDone n (r.answers s.datapath) ∧
      (r.answers s.datapath out = true ↔
        (((r.ports out).downstreamState = .draining ∨ (r.ports out).downstreamState = .wakeup) ∧
          (r.ports out).drainDoneSent = false ∧ True) ∧ s.DrainedButTurns out) := by
    obtain ⟨-, h⟩ := require_bind_ok.mp h
    refine ⟨(pure_ok.mp h).symm, ?_⟩
    rw [← s.portDrained_iff]
    simp [Router.answers, Router.waiting, Switch.datapath]
  cases type with
  | flov => exact ⟨_, (hflov hok .east).1, fun out => (hflov hok out).2⟩
  | gflov => exact ⟨_, (hflov hok .east).1, fun out => (hflov hok out).2⟩
  | rflov =>
      refine ⟨_, (pure_ok.mp hok).symm, fun out => ?_⟩
      rw [← s.portDrained_iff]
      simp [Due, Waiting, BypassDone, Switch.datapath]
  | nord =>
      refine ⟨_, (pure_ok.mp hok).symm, fun out => ?_⟩
      rw [← s.portDrained_iff]
      simp only [Due, Waiting, BypassDone, Bool.and_eq_true, decide_eq_true_eq, Bool.not_eq_true',
        Bool.or_eq_true, bne_iff_ne, List.isEmpty_iff, ← imp_iff_not_or]
      tauto

/-- `drain_done` and `_drain_done_sent` only change at ports that nothing is bound for. -/
def AnswersTruthfully (s : Switch Flit vcs now speedup) (r r' : Router) : Prop :=
  ∀ out, (r'.ports out).drainDoneSent ≠ (r.ports out).drainDoneSent ∨
    r'.outQueueHandshakes out ≠ r.outQueueHandshakes out → s.Drained out

/-- The answers are true exactly when no packet turns back at a port where one is due. -/
theorem answersTruthfully_iff (hok : type.handshakeResponse n s b r = .ok r') :
    AnswersTruthfully s r r' ↔
      ∀ out, type.Due b r out → s.DrainedButTurns out → s.NothingFrom out.index out := by
  obtain ⟨chosen, rfl, hchosen⟩ := exists_sendDrainDone hok
  apply forall_congr'
  intro out
  rw [s.drained_iff]
  cases hout : chosen out with
  | true =>
      obtain ⟨hdue, hbut⟩ := (hchosen out).mp hout
      have hsent : ((r.sendDrainDone n chosen).ports out).drainDoneSent ≠
          (r.ports out).drainDoneSent := by
        simp [Router.sendDrainDone, hout, hdue.2.1]
      constructor
      · intro h _ _
        exact (h (.inl hsent)).2
      · intro h _
        exact ⟨hbut, h hdue hbut⟩
  | false =>
      have hno : ¬ (type.Due b r out ∧ s.DrainedButTurns out) := by
        rw [← hchosen, hout]
        exact Bool.false_ne_true
      constructor
      · intro _ hdue hbut
        exact (hno ⟨hdue, hbut⟩).elim
      · intro _ hchange
        have hsame : ((r.sendDrainDone n chosen).ports out).drainDoneSent =
            (r.ports out).drainDoneSent ∧
            (r.sendDrainDone n chosen).outQueueHandshakes out = r.outQueueHandshakes out := by
          simp [Router.sendDrainDone, hout]
        cases hchange with
        | inl hsent => exact absurd hsame.1 hsent
        | inr hqueue => exact absurd hsame.2 hqueue

/-! ### A packet that turns back -/

/-- The router in the middle of a mesh, with a neighbour that drains in the south. -/
def southDrains : Router :=
  let r := Router.initial (k := 3) 4
  r.setPort .south
    { r.ports .south with neighborState := .draining, downstreamState := .draining }

/-- One virtual channel, in which a packet from one port waits to leave by another. -/
def oneActive (input out : Port) : Switch Unit 1 0 1 where
  inQueueFlits := []
  buf := fun i _ =>
    if i = input.index then { state := .active, outPort := out.index.val } else {}
  crossbarFlits := []
  outputBuffer := fun _ => []

/-- No packet is on its way from this ring router to the next. -/
def nothingBypassed : Bypass where
  ringOutPort := .south
  outstandingBypassPackets := []

/-- A packet from the north keeps the answer back. -/
theorem answersTruthfully_fromNorth :
    ∃ r', flov.handshakeResponse (4 : Node 3) (oneActive .north .south) nothingBypassed
        southDrains = .ok r' ∧
      AnswersTruthfully (oneActive .north .south) southDrains r' := by
  have hok : flov.handshakeResponse (4 : Node 3) (oneActive .north .south) nothingBypassed
      southDrains = .ok (southDrains.sendDrainDone (4 : Node 3)
        (southDrains.answers (oneActive .north .south).datapath)) := rfl
  refine ⟨_, hok, (answersTruthfully_iff hok).mpr ?_⟩
  intro out _ hbut vc hactive
  have hout : out ≠ .south := by
    intro hsouth
    subst hsouth
    exact hbut.1 3 (by decide) vc (by decide +revert)
  revert hactive
  cases out <;> decide +revert

/-- A packet from the south does not. -/
theorem not_answersTruthfully_fromSouth :
    ∃ r', flov.handshakeResponse (4 : Node 3) (oneActive .south .south) nothingBypassed
        southDrains = .ok r' ∧
      ¬ AnswersTruthfully (oneActive .south .south) southDrains r' := by
  refine ⟨southDrains.sendDrainDone (4 : Node 3)
    (southDrains.answers (oneActive .south .south).datapath), rfl, ?_⟩
  intro htrue
  -- the answer is sent, and the channel of the south input is still active
  have hsent : ((southDrains.sendDrainDone (4 : Node 3)
      (southDrains.answers (oneActive .south .south).datapath)).ports .south).drainDoneSent ≠
      (southDrains.ports .south).drainDoneSent := by decide
  exact (htrue .south (.inl hsent)).1 2 0 (by decide)

end RouterType

end Flyover
