import Flyover.Allocator.Base
import Flyover.Pipeline.Orderly

/-!
# `_SWAllocEvaluate`

The channels that wait for the switch get the answers of the switch allocators when
their stage begins, and the answers are looked at once more when it ends: a grant is
discarded if a held connection is in its way, or if there is no virtual channel left
behind the output. Only then the grants are served, one after the other.

The requests themselves are outside. An allocator answers them with a matching; what
they leave behind is the code of a stall where none could be made.
-/

namespace Flyover

variable {k : Nat}

theorem PipelineConfig.expandedInput_lt {vcs : Nat} (cfg : PipelineConfig k) (input : Fin 5)
    (vc : Fin vcs) : cfg.expandedInput input vc < 5 * cfg.inputSpeedup := by
  have hmod : vc % cfg.inputSpeedup < cfg.inputSpeedup := Nat.mod_lt _ cfg.inputSpeedup_pos
  have hrow : (input + 1) * cfg.inputSpeedup ≤ 5 * cfg.inputSpeedup :=
    Nat.mul_le_mul_right _ input.isLt
  have hsplit : (input + 1) * cfg.inputSpeedup = input * cfg.inputSpeedup + cfg.inputSpeedup :=
    Nat.succ_mul _ _
  unfold PipelineConfig.expandedInput
  omega

/-- The input of the crossbar that a channel uses. -/
def PipelineConfig.crossbarInput {vcs : Nat} (cfg : PipelineConfig k) (input : Fin 5)
    (vc : Fin vcs) : Fin (5 * cfg.inputSpeedup) :=
  ⟨cfg.expandedInput input vc, cfg.expandedInput_lt input vc⟩

namespace Pipeline

/-- An allocator for the inputs and outputs of the crossbar. -/
abbrev CrossbarAllocator (cfg : PipelineConfig k) :=
  Allocator (5 * cfg.inputSpeedup) (5 * cfg.outputSpeedup)

/-- What `_SWAllocEvaluate` finds in the switch allocators after they have run. -/
structure SwitchAllocation (cfg : PipelineConfig k) (vcs : Nat) where
  swAllocator : CrossbarAllocator cfg
  /-- there may be none for the speculative requests -/
  specSWAllocator : Option (CrossbarAllocator cfg)
  specMaskByReqs : Bool
  /-- the channels whose requests have left the code of a stall -/
  stalled : Fin 5 → Fin vcs → Bool
  matching : swAllocator.ReturnsMatching
  specMatching : ∀ a ∈ specSWAllocator, a.ReturnsMatching

variable {vcs : Nat} {cfg : PipelineConfig k}

namespace SwitchAllocation

/-- The pair is granted, and the request is the one of this channel. -/
def readGrant (a : CrossbarAllocator cfg) (expandedInput : Fin (5 * cfg.inputSpeedup))
    (expandedOutput : Fin (5 * cfg.outputSpeedup)) (vc : Fin vcs) : Option Nat :=
  if (a.request expandedInput expandedOutput).map (·.label) = some vc.val then
    some expandedOutput
  else none

/-- The speculative grant is discarded. -/
def masks (a : SwitchAllocation cfg vcs) (expandedOutput : Fin (5 * cfg.outputSpeedup)) : Bool :=
  if a.specMaskByReqs then !(a.swAllocator.request.outReq expandedOutput).isEmpty
  else (a.swAllocator.matching.outmatch expandedOutput).isSome

/-- What the allocators assign to a channel, with the assertion that it is the output
that is interleaved with the input. -/
def assigned (a : SwitchAllocation cfg vcs) (input : Fin 5) (vc : Fin vcs) :
    Option (Option Nat) :=
  let expandedInput := cfg.crossbarInput input vc
  match a.swAllocator.matching.inmatch expandedInput with
  | some expandedOutput => do
      guard (expandedOutput % cfg.outputSpeedup = input % cfg.outputSpeedup)
      pure (readGrant a.swAllocator expandedInput expandedOutput vc)
  | none =>
      match a.specSWAllocator with
      | none => some none
      | some spec =>
          match spec.matching.inmatch expandedInput with
          | none => some none
          | some expandedOutput => do
              guard (expandedOutput % cfg.outputSpeedup = input % cfg.outputSpeedup)
              pure (if a.masks expandedOutput then none
                else readGrant spec expandedInput expandedOutput vc)

/-- The answer for a channel: the code of a stall stays. -/
def answer (a : SwitchAllocation cfg vcs) (input : Fin 5) (vc : Fin vcs) : Option (Option Nat) :=
  if a.stalled input vc then some none else a.assigned input vc

/-- The loop that reads the answers for the entries in front that have no time. -/
def award (a : SwitchAllocation cfg vcs) (time : Int) :
    List (Entry vcs Nat) → Option (List (Entry vcs Nat))
  | [] => some []
  | e :: rest =>
      match e.time with
      | some _ => some (e :: rest)
      | none => do
          let result ← a.answer e.input e.vc
          let rest ← a.award time rest
          pure ({ e with time := some time, result := result } :: rest)

end SwitchAllocation

/-! ### The last look -/

section Recheck

variable (cfg) (o : Outside k vcs)

/-- There is a flit's worth of room in a virtual channel that is not taken. -/
def hasRoom (s : Pipeline k vcs) (output : Fin 5) (outVC : Fin vcs) : Bool :=
  (s.nextBuf output).isAvailableFor outVC && !(s.nextBuf output).isFullFor s.now outVC

/-- The virtual channels of a candidate, with the assertions on the range. -/
def candidateVCs (s : Pipeline k vcs) (input : Fin 5) (vc : Fin vcs) (e : OutputEntry) :
    Option (List (Fin vcs)) := do
  let noq := if cfg.noq then s.noqNext input vc else none
  let (vcStart, vcEnd) := match noq with
    | some n => (n.nextVCStart, n.nextVCEnd)
    | none => (e.vcStart, e.vcEnd)
  guard (0 ≤ vcStart ∧ vcStart < vcs)
  guard (0 ≤ vcEnd ∧ vcEnd < vcs)
  guard (vcStart ≤ vcEnd)
  pure ((List.finRange vcs).filter fun v =>
    decide (vcStart ≤ (v.val : Int) ∧ (v.val : Int) ≤ vcEnd))

/-- The loop over the candidates for a head flit without a virtual channel; it ends where
it finds room. -/
def findsRoom (s : Pipeline k vcs) (input : Fin 5) (vc : Fin vcs) (output : Fin 5) :
    List OutputEntry → Option Bool
  | [] => some false
  | e :: rest =>
      if e.outputPort.output = some output then do
        let outVCs ← s.candidateVCs cfg input vc e
        if outVCs.any (s.hasRoom output) then some true else s.findsRoom input vc output rest
      else s.findsRoom input vc output rest

/-- Whether a head flit without a virtual channel keeps its grant. -/
def keepsSpeculative (s : Pipeline k vcs) (e : Entry vcs Nat) (output : Fin 5) : Option Bool :=
  if cfg.piggyback then do
    let entries := (s.buf e.input e.vc).routeSet.entries
    guard (cfg.noq = true → entries.length = 1)
    s.findsRoom cfg e.input e.vc output entries
  else
    some (match o.vcAssigned e.input e.vc with
      | none => false
      | some (port, outVC) =>
          decide (port = output) && !(s.nextBuf output).isFullFor s.now outVC)

/-- Whether a grant is kept. -/
def keepsGrant (s : Pipeline k vcs) (e : Entry vcs Nat) (expandedOutput : Nat) :
    Option Bool := do
  let output ← cfg.output expandedOutput
  let expandedInput := cfg.expandedInput e.input e.vc
  guard (e.input % cfg.outputSpeedup = expandedOutput % cfg.outputSpeedup)
  guard (s.switchHoldVC expandedInput ≠ some e.vc)
  let c := s.buf e.input e.vc
  let f ← c.buffer.head?
  guard (c.state = .active ∨ cfg.speculative = true ∧ c.state = .vcAlloc)
  guard (f.vc = e.vc)
  if (s.switchHoldIn expandedInput).isSome ∨ (s.switchHoldOut expandedOutput).isSome then
    pure false
  else if cfg.speculative ∧ c.state = .vcAlloc then do
    guard (f.head = true)
    s.keepsSpeculative cfg o e output
  else do
    let (port, outVC) ← c.out
    guard (port = output)
    pure (!(s.nextBuf output).isFullFor s.now outVC)

/-- One round of the last loop. -/
def recheckOne (s : Pipeline k vcs) (e : Entry vcs Nat) : Option (Entry vcs Nat) :=
  match e.result with
  | none => some e
  | some expandedOutput => do
      let keeps ← s.keepsGrant cfg o e expandedOutput
      pure (if keeps then e else { e with result := none })

/-- The last loop, over the entries whose stage ends in this cycle. -/
def recheck (s : Pipeline k vcs) : List (Entry vcs Nat) → Option (List (Entry vcs Nat))
  | [] => some []
  | e :: rest =>
      if e.due s.now then do
        let e ← s.recheckOne cfg o e
        let rest ← s.recheck rest
        pure (e :: rest)
      else some (e :: rest)

/-- The answers that are given in the cycle in which they are used are only looked at once
more if some are speculative. -/
def lookAgain (s : Pipeline k vcs) (queue : List (Entry vcs Nat)) :
    Option (List (Entry vcs Nat)) :=
  if cfg.speculative = false ∧ cfg.swAllocDelay ≤ 1 then some queue else s.recheck cfg o queue

/-- `_SWAllocEvaluate` -/
def swAllocEvaluate (a : SwitchAllocation cfg vcs) (s : Pipeline k vcs) :
    Option (Pipeline k vcs) := do
  let queue ← a.award (s.now + cfg.swAllocDelay - 1) s.swAllocVCs
  let queue ← s.lookAgain cfg o queue
  pure { s with swAllocVCs := queue }

/-- All functions that begin the stages. -/
def evaluateAll (a : SwitchAllocation cfg vcs) (s : Pipeline k vcs) : Option (Pipeline k vcs) :=
  { s.evaluate cfg o with swAllocVCs := s.swAllocVCs }.swAllocEvaluate cfg o a

end Recheck

/-! ### The routers -/

/-- The routers that have the pipeline: `IQRouter` and those that are derived from it. The
pipeline of `IQRouter` is that of `RPRouter`, in which no packet waits for too long. -/
inductive Design where
  | iq
  | gated (scheme : Scheme)
  deriving DecidableEq, Repr

namespace Design

section Definitions

variable (design : Design) (cfg) (o : Outside k vcs)

/-- The scheme whose functions the router has. -/
def scheme : Design → Scheme
  | iq => .rp
  | gated scheme => scheme

/-- The switch is not granted. -/
def swFailed (e : Entry vcs Nat) (f : Flit k vcs) (s : Pipeline k vcs) : Option (Pipeline k vcs) :=
  match design with
  | .iq => some { s with swAllocVCs := s.swAllocVCs ++ [{ input := e.input, vc := e.vc }] }
  | .gated scheme => scheme.swFailed cfg o e f s

/-- What has become of the request for the switch. -/
def swDecided (e : Entry vcs Nat) (f : Flit k vcs) (s : Pipeline k vcs) :
    Option (Pipeline k vcs) :=
  match e.result with
  | some expandedOutput => design.scheme.swGranted cfg o e f expandedOutput s
  | none => design.swFailed cfg o e f s

/-- One round of the loop of `_SWAllocUpdate`. -/
def swAllocOne (e : Entry vcs Nat) (s : Pipeline k vcs) : Option (Pipeline k vcs) := do
  guard (e.time = some s.now)
  let c := s.buf e.input e.vc
  let f ← c.buffer.head?
  guard (c.state = .active ∨ cfg.speculative = true ∧ c.state = .vcAlloc)
  guard (f.vc = e.vc)
  let s ← design.swDecided cfg o e f s
  pure { s with swAllocVCs := s.swAllocVCs.tail }

/-- `_SWAllocUpdate` -/
def swAllocUpdate (s : Pipeline k vcs) : Option (Pipeline k vcs) :=
  Worklist.loop swAllocFront (design.swAllocOne cfg o) s.swAllocVCs.length s

/-- `_InternalStep` up to the functions that end the stages. -/
def begun (a : SwitchAllocation cfg vcs) (s : Pipeline k vcs) : Option (Pipeline k vcs) := do
  let s ← (s.readInputs o).inputQueuing cfg o
  s.evaluateAll cfg o a

/-- The functions that end the stages, up to `_SWAllocUpdate`. -/
def beforeSWAlloc (s : Pipeline k vcs) : Option (Pipeline k vcs) := do
  let s ← design.scheme.routeUpdate cfg o s
  let s ← design.scheme.vcAllocUpdate cfg o s
  s.swHoldUpdate cfg o

/-- `_InternalStep` -/
def cycle (a : SwitchAllocation cfg vcs) (s : Pipeline k vcs) : Option (Pipeline k vcs) := do
  let s ← begun cfg o a s
  let s ← design.beforeSWAlloc cfg o s
  design.swAllocUpdate cfg o s

end Definitions

/-- A round for a router that gates its power is the one of its scheme. -/
theorem swAllocOne_gated {o : Outside k vcs} (scheme : Scheme) :
    (gated scheme).swAllocOne cfg o = scheme.swAllocOne cfg o := rfl

end Design

end Pipeline

end Flyover
