import Mathlib.Algebra.BigOperators.Fin
import Mathlib.Algebra.Order.BigOperators.Group.Finset
import Flyover.Checked

/-!
# Buffer policies

A router keeps, for every output, a `BufferState`: its record of the buffer at
the other end of the channel. How many flits of a virtual channel fit is the
business of the buffer policy, which keeps records of its own. Seven policies
can be configured. Six of them share slots between virtual channels and differ
in a further bound on what one virtual channel may hold; they are a
`SharedBufferPolicy` with an extension.
-/

namespace Flyover

/-- The errors and assertions of `BufferState` and of the policies. -/
inductive BufferError where
  /-- "Received credit for idle VC" -/
  | creditForIdleVC
  /-- "Buffer occupancy fell below zero." -/
  | occupancyBelowZero
  /-- "Buffer occupancy fell below zero for VC" -/
  | vcOccupancyBelowZero
  /-- `assert(_in_use_by[vc] >= 0)` -/
  | notInUse
  /-- "Buffer overflow." -/
  | bufferOverflow
  /-- "Buffer taken while in use for VC" -/
  | takenWhileInUse
  /-- "Buffer return while VC is not used" -/
  | returnWhileIdle
  /-- "Buffer overflow for VC" -/
  | vcOverflow
  /-- "Private buffer occupancy fell below zero for buffer" -/
  | privateOccupancyBelowZero
  /-- "Shared buffer occupancy fell below zero." -/
  | sharedOccupancyBelowZero
  /-- "Shared buffer overflow." -/
  | sharedOverflow
  /-- "Number of active VCs is too large." -/
  | tooManyActiveVCs
  /-- "Number of active VCs fell below zero." -/
  | activeVCsBelowZero
  /-- `assert(_active_vcs > 0)` -/
  | noActiveVCs
  /-- `assert(_max_held_slots > 0)` -/
  | noHeldSlots
  /-- `assert(!_flit_sent_time[vc].empty())` -/
  | noSentTime
  /-- `assert(_buffer_state->OccupancyFor(vc) > 0)` -/
  | probeWithoutFlit
  /-- `assert(_size == _vcs * vc_buf_size)` -/
  | sizeAlreadySet
  deriving DecidableEq, Repr

/-- `assert(cond)`, or `if(!cond) Error(...)` -/
def ensure (cond : Prop) [Decidable cond] (failure : BufferError) : Except BufferError Unit :=
  if cond then .ok () else .error failure

theorem ensure_bind_ok {β : Type} {cond : Prop} [Decidable cond] {failure : BufferError}
    {f : Unit → Except BufferError β} {b : β} :
    (ensure cond failure >>= f) = .ok b ↔ cond ∧ f () = .ok b := by
  unfold ensure
  by_cases hcond : cond
  · rw [if_pos hcond]
    exact ⟨fun h => ⟨hcond, h⟩, fun h => h.2⟩
  · rw [if_neg hcond]
    exact ⟨nofun, fun h => absurd h.1 hcond⟩

theorem ensure_bind_error {β : Type} {cond : Prop} [Decidable cond] {failure e : BufferError}
    {f : Unit → Except BufferError β} :
    (ensure cond failure >>= f) = .error e ↔ ¬ cond ∧ failure = e ∨ cond ∧ f () = .error e := by
  unfold ensure
  by_cases hcond : cond
  · rw [if_pos hcond]
    simp [hcond, bind, Except.bind]
  · rw [if_neg hcond]
    simp [hcond, bind, Except.bind]

/-! ### Private buffers -/

structure PrivateBufferPolicy where
  vcBufSize : Int
  fullVcBufSize : Int
  deriving DecidableEq

namespace PrivateBufferPolicy

/-- `occupancy` is `_buffer_state->OccupancyFor(vc)`. -/
def sendingFlit (p : PrivateBufferPolicy) (occupancy : Int) :
    Except BufferError PrivateBufferPolicy := do
  ensure (¬ occupancy > p.vcBufSize) .vcOverflow
  pure p

def isFullFor (p : PrivateBufferPolicy) (occupancy : Int) : Bool :=
  decide (occupancy ≥ p.vcBufSize)

def availableFor (p : PrivateBufferPolicy) (occupancy : Int) : Int :=
  p.vcBufSize - occupancy

def setVCBufferSize (p : PrivateBufferPolicy) (vcBufSize : Int) : PrivateBufferPolicy :=
  { p with vcBufSize := vcBufSize }

def resetVCBufferSize (p : PrivateBufferPolicy) : PrivateBufferPolicy :=
  { p with vcBufSize := p.fullVcBufSize }

end PrivateBufferPolicy

/-! ### Shared buffers -/

variable {vcs : Nat}

/-- What the constructor of `SharedBufferPolicy` leaves: every virtual channel
is mapped to a private buffer, and what the private buffers do not take of the
whole is shared. -/
structure SharedLayout (vcs : Nat) where
  /-- `num_private_bufs` -/
  privateBufs : Nat
  bufSize : Int
  privateBufVcMap : Fin vcs → Fin privateBufs
  privateBufSize : Fin privateBufs → Int
  privateBufSize_nonneg : ∀ i, 0 ≤ privateBufSize i
  /-- `assert(_shared_buf_size >= 0)` -/
  sum_le_bufSize : ∑ i, privateBufSize i ≤ bufSize

def SharedLayout.sharedBufSize (L : SharedLayout vcs) : Int :=
  L.bufSize - ∑ i, L.privateBufSize i

structure SharedBufferPolicy (L : SharedLayout vcs) where
  privateBufOccupancy : Fin L.privateBufs → Int
  sharedBufOccupancy : Int
  reservedSlots : Fin vcs → Nat

namespace SharedBufferPolicy

variable {L : SharedLayout vcs}

/-- The constructor. -/
def new (L : SharedLayout vcs) : SharedBufferPolicy L where
  privateBufOccupancy _ := 0
  sharedBufOccupancy := 0
  reservedSlots _ := 0

def processFreeSlot (p : SharedBufferPolicy L) (vc : Fin vcs) :
    Except BufferError (SharedBufferPolicy L) := do
  let i := L.privateBufVcMap vc
  let occupancy := p.privateBufOccupancy i - 1
  ensure (¬ occupancy < 0) .privateOccupancyBelowZero
  let shared :=
    if occupancy ≥ L.privateBufSize i then p.sharedBufOccupancy - 1 else p.sharedBufOccupancy
  ensure (occupancy ≥ L.privateBufSize i → ¬ shared < 0) .sharedOccupancyBelowZero
  pure { p with
    privateBufOccupancy := Function.update p.privateBufOccupancy i occupancy
    sharedBufOccupancy := shared }

/-- The slot for a flit: a reserved one, or a new one of the private buffer or
of the shared rest. -/
def occupySlot (p : SharedBufferPolicy L) (vc : Fin vcs) :
    Except BufferError (SharedBufferPolicy L) :=
  if p.reservedSlots vc > 0 then
    .ok { p with reservedSlots := Function.update p.reservedSlots vc (p.reservedSlots vc - 1) }
  else do
    let i := L.privateBufVcMap vc
    let occupancy := p.privateBufOccupancy i + 1
    let shared :=
      if occupancy > L.privateBufSize i then p.sharedBufOccupancy + 1 else p.sharedBufOccupancy
    ensure (occupancy > L.privateBufSize i → ¬ shared > L.sharedBufSize) .sharedOverflow
    pure { p with
      privateBufOccupancy := Function.update p.privateBufOccupancy i occupancy
      sharedBufOccupancy := shared }

/-- `while(_reserved_slots[vc])`, for the number of slots that are reserved -/
def releaseReserved : Nat → SharedBufferPolicy L → Fin vcs →
    Except BufferError (SharedBufferPolicy L)
  | 0, p, _ => .ok p
  | n + 1, p, vc => do
      let p ← processFreeSlot
        { p with reservedSlots := Function.update p.reservedSlots vc n } vc
      releaseReserved n p vc

def sendingFlit (p : SharedBufferPolicy L) (vc : Fin vcs) (tail : Bool) :
    Except BufferError (SharedBufferPolicy L) := do
  let p ← p.occupySlot vc
  if tail then releaseReserved (p.reservedSlots vc) p vc else pure p

/-- `available` and `empty` are what `_buffer_state` answers for the virtual channel. -/
def freeSlotFor (p : SharedBufferPolicy L) (available empty : Bool) (vc : Fin vcs) :
    Except BufferError (SharedBufferPolicy L) :=
  if !available && empty then
    .ok { p with reservedSlots := Function.update p.reservedSlots vc (p.reservedSlots vc + 1) }
  else p.processFreeSlot vc

def isFullFor (p : SharedBufferPolicy L) (vc : Fin vcs) : Bool :=
  let i := L.privateBufVcMap vc
  p.reservedSlots vc == 0 && decide (p.privateBufOccupancy i ≥ L.privateBufSize i) &&
    decide (p.sharedBufOccupancy ≥ L.sharedBufSize)

def availableFor (p : SharedBufferPolicy L) (vc : Fin vcs) : Int :=
  let i := L.privateBufVcMap vc
  p.reservedSlots vc + max (L.privateBufSize i - p.privateBufOccupancy i) 0 +
    (L.sharedBufSize - p.sharedBufOccupancy)

end SharedBufferPolicy

/-! ### What the subclasses add -/

/-- The fields that `LimitedSharedBufferPolicy` adds. -/
structure LimitedSharedBufferPolicy where
  activeVCs : Int
  maxHeldSlots : Int
  deriving DecidableEq

namespace LimitedSharedBufferPolicy

/-- `_vcs` is the number of virtual channels. -/
def takeBuffer (vcs : Nat) (p : LimitedSharedBufferPolicy) :
    Except BufferError LimitedSharedBufferPolicy := do
  ensure (¬ p.activeVCs + 1 > vcs) .tooManyActiveVCs
  pure { p with activeVCs := p.activeVCs + 1 }

def returnBuffer (p : LimitedSharedBufferPolicy) :
    Except BufferError LimitedSharedBufferPolicy := do
  ensure (¬ p.activeVCs - 1 < 0) .activeVCsBelowZero
  pure { p with activeVCs := p.activeVCs - 1 }

def sendingFlit (p : LimitedSharedBufferPolicy) (tail : Bool) :
    Except BufferError LimitedSharedBufferPolicy :=
  if tail then p.returnBuffer else pure p

/-- The end of the operations of the dynamic policies: the bound follows the
number of active virtual channels if that has changed, and must be positive. -/
def resize (held : Int → Int) (changed : Bool) (p : LimitedSharedBufferPolicy) :
    Except BufferError LimitedSharedBufferPolicy := do
  let p := if changed then { p with maxHeldSlots := held p.activeVCs } else p
  ensure (p.maxHeldSlots > 0) .noHeldSlots
  pure p

end LimitedSharedBufferPolicy

namespace DynamicLimitedSharedBufferPolicy

/-- `_buf_size / _active_vcs` -/
def held (bufSize activeVCs : Int) : Int := bufSize / activeVCs

def takeBuffer (vcs : Nat) (bufSize : Int) (p : LimitedSharedBufferPolicy) :
    Except BufferError LimitedSharedBufferPolicy := do
  let p ← p.takeBuffer vcs
  ensure (p.activeVCs > 0) .noActiveVCs
  p.resize (held bufSize) true

def sendingFlit (bufSize : Int) (p : LimitedSharedBufferPolicy) (tail : Bool) :
    Except BufferError LimitedSharedBufferPolicy := do
  let p ← p.sendingFlit tail
  p.resize (held bufSize) (tail && p.activeVCs != 0)

def returnBuffer (bufSize : Int) (p : LimitedSharedBufferPolicy) :
    Except BufferError LimitedSharedBufferPolicy := do
  let p ← p.returnBuffer
  p.resize (held bufSize) (decide (p.activeVCs > 0))

end DynamicLimitedSharedBufferPolicy

namespace ShiftingDynamicLimitedSharedBufferPolicy

/-- `while(i) { _max_held_slots >>= 1; i >>= 1; }` -/
def shift (maxHeldSlots : Int) (i : Nat) : Int :=
  if i = 0 then maxHeldSlots else shift (maxHeldSlots / 2) (i / 2)

def held (bufSize activeVCs : Int) : Int := shift bufSize (activeVCs - 1).toNat

def takeBuffer (vcs : Nat) (bufSize : Int) (p : LimitedSharedBufferPolicy) :
    Except BufferError LimitedSharedBufferPolicy := do
  let p ← p.takeBuffer vcs
  ensure (p.activeVCs ≠ 0) .noActiveVCs
  p.resize (held bufSize) true

def sendingFlit (bufSize : Int) (p : LimitedSharedBufferPolicy) (tail : Bool) :
    Except BufferError LimitedSharedBufferPolicy := do
  let p ← p.sendingFlit tail
  p.resize (held bufSize) (tail && p.activeVCs != 0)

def returnBuffer (bufSize : Int) (p : LimitedSharedBufferPolicy) :
    Except BufferError LimitedSharedBufferPolicy := do
  let p ← p.returnBuffer
  p.resize (held bufSize) (p.activeVCs != 0)

end ShiftingDynamicLimitedSharedBufferPolicy

/-- The settings of the feedback policies. `SetMinLatency` sets the latency
when the output channel is attached; `assert(_min_latency >= 0)` is the field. -/
structure FeedbackConfig where
  agingScale : Nat
  offset : Int
  minLatency : Int
  minLatency_nonneg : 0 ≤ minLatency

/-- The fields that `FeedbackSharedBufferPolicy` adds. -/
structure FeedbackSharedBufferPolicy (vcs : Nat) where
  occupancyLimit : Fin vcs → Int
  roundTripTime : Fin vcs → Int
  flitSentTime : Fin vcs → List Int
  totalMappedSize : Int

namespace FeedbackSharedBufferPolicy

variable (config : FeedbackConfig)

def new (bufSize : Int) : FeedbackSharedBufferPolicy vcs where
  occupancyLimit _ := bufSize
  roundTripTime _ := -1
  flitSentTime _ := []
  totalMappedSize := bufSize * vcs

def computeRTT (p : FeedbackSharedBufferPolicy vcs) (vc : Fin vcs) (lastRtt : Int) : Int :=
  let rtt := p.roundTripTime vc
  if rtt < 0 then lastRtt else (rtt <<< config.agingScale + lastRtt - rtt) >>> config.agingScale

def computeLimit (rtt : Int) : Int :=
  max (config.minLatency <<< (1 : Nat) - rtt + config.offset) 1

def computeMaxSlots (p : FeedbackSharedBufferPolicy vcs) (time : Int) (vc : Fin vcs) : Int :=
  match p.flitSentTime vc with
  | [] => p.occupancyLimit vc
  | sent :: _ =>
      min (p.occupancyLimit vc) (computeLimit config (p.computeRTT config vc (time - sent)))

def sendingFlit (p : FeedbackSharedBufferPolicy vcs) (time : Int) (vc : Fin vcs) :
    FeedbackSharedBufferPolicy vcs :=
  { p with flitSentTime := Function.update p.flitSentTime vc (p.flitSentTime vc ++ [time]) }

def freeSlotFor (p : FeedbackSharedBufferPolicy vcs) (time : Int) (vc : Fin vcs) :
    Except BufferError (FeedbackSharedBufferPolicy vcs) :=
  match p.flitSentTime vc with
  | [] => .error .noSentTime
  | sent :: rest =>
      let rtt := p.computeRTT config vc (time - sent)
      let limit := computeLimit config rtt
      .ok {
        flitSentTime := Function.update p.flitSentTime vc rest
        roundTripTime := Function.update p.roundTripTime vc rtt
        totalMappedSize := p.totalMappedSize + (limit - p.occupancyLimit vc)
        occupancyLimit := Function.update p.occupancyLimit vc limit }

end FeedbackSharedBufferPolicy

/-- The fields that `SimpleFeedbackSharedBufferPolicy` adds. -/
structure SimpleFeedbackSharedBufferPolicy (vcs : Nat) extends
    FeedbackSharedBufferPolicy vcs where
  pendingCredits : Fin vcs → Int

namespace SimpleFeedbackSharedBufferPolicy

variable (config : FeedbackConfig)

def new (bufSize : Int) : SimpleFeedbackSharedBufferPolicy vcs where
  toFeedbackSharedBufferPolicy := .new bufSize
  pendingCredits _ := 0

/-- One flit at a time is a probe; the credits of the flits before it are counted off. -/
def sendingFlit (p : SimpleFeedbackSharedBufferPolicy vcs) (occupancy time : Int)
    (vc : Fin vcs) : Except BufferError (SimpleFeedbackSharedBufferPolicy vcs) :=
  match p.flitSentTime vc with
  | [] => do
      ensure (occupancy > 0) .probeWithoutFlit
      pure {
        toFeedbackSharedBufferPolicy := p.toFeedbackSharedBufferPolicy.sendingFlit time vc
        pendingCredits := Function.update p.pendingCredits vc (occupancy - 1) }
  | _ :: _ => .ok p

def freeSlotFor (p : SimpleFeedbackSharedBufferPolicy vcs) (time : Int) (vc : Fin vcs) :
    Except BufferError (SimpleFeedbackSharedBufferPolicy vcs) :=
  if p.flitSentTime vc ≠ [] ∧ p.pendingCredits vc = 0 then do
    let feedback ← p.toFeedbackSharedBufferPolicy.freeSlotFor config time vc
    pure { p with toFeedbackSharedBufferPolicy := feedback }
  else if p.pendingCredits vc > 0 then do
    ensure (p.flitSentTime vc ≠ []) .noSentTime
    pure { p with
      pendingCredits := Function.update p.pendingCredits vc (p.pendingCredits vc - 1) }
  else pure p

end SimpleFeedbackSharedBufferPolicy

/-- What the configured subclass keeps beside the fields of `SharedBufferPolicy`. -/
inductive SharedExtension (vcs : Nat) where
  | shared
  | limited (p : LimitedSharedBufferPolicy)
  | dynamic (p : LimitedSharedBufferPolicy)
  | shifting (p : LimitedSharedBufferPolicy)
  | feedback (config : FeedbackConfig) (p : FeedbackSharedBufferPolicy vcs)
  | simpleFeedback (config : FeedbackConfig) (p : SimpleFeedbackSharedBufferPolicy vcs)

namespace SharedExtension

def takeBuffer (bufSize : Int) : SharedExtension vcs → Except BufferError (SharedExtension vcs)
  | shared => pure shared
  | limited p => return limited (← p.takeBuffer vcs)
  | dynamic p => return dynamic (← DynamicLimitedSharedBufferPolicy.takeBuffer vcs bufSize p)
  | shifting p =>
      return shifting (← ShiftingDynamicLimitedSharedBufferPolicy.takeBuffer vcs bufSize p)
  | feedback config p => pure (feedback config p)
  | simpleFeedback config p => pure (simpleFeedback config p)

def sendingFlit (bufSize occupancy time : Int) (vc : Fin vcs) (tail : Bool) :
    SharedExtension vcs → Except BufferError (SharedExtension vcs)
  | shared => pure shared
  | limited p => return limited (← p.sendingFlit tail)
  | dynamic p => return dynamic (← DynamicLimitedSharedBufferPolicy.sendingFlit bufSize p tail)
  | shifting p =>
      return shifting (← ShiftingDynamicLimitedSharedBufferPolicy.sendingFlit bufSize p tail)
  | feedback config p => pure (feedback config (p.sendingFlit time vc))
  | simpleFeedback config p => return simpleFeedback config (← p.sendingFlit occupancy time vc)

def freeSlotFor (time : Int) (vc : Fin vcs) :
    SharedExtension vcs → Except BufferError (SharedExtension vcs)
  | feedback config p => return feedback config (← p.freeSlotFor config time vc)
  | simpleFeedback config p => return simpleFeedback config (← p.freeSlotFor config time vc)
  | ext => pure ext

def returnBuffer (bufSize : Int) :
    SharedExtension vcs → Except BufferError (SharedExtension vcs)
  | limited p => return limited (← p.returnBuffer)
  | dynamic p => return dynamic (← DynamicLimitedSharedBufferPolicy.returnBuffer bufSize p)
  | shifting p =>
      return shifting (← ShiftingDynamicLimitedSharedBufferPolicy.returnBuffer bufSize p)
  | ext => pure ext

/-- The bound that the subclass puts on the occupancy of one virtual channel. -/
def slotLimit (time : Int) (vc : Fin vcs) : SharedExtension vcs → Option Int
  | shared => none
  | limited p | dynamic p | shifting p => some p.maxHeldSlots
  | feedback config p => some (p.computeMaxSlots config time vc)
  | simpleFeedback config p => some (p.toFeedbackSharedBufferPolicy.computeMaxSlots config time vc)

end SharedExtension

/-- A buffer policy and its records. The subclass' part of an operation comes
after that of `SharedBufferPolicy`; they share no field. -/
inductive BufferPolicy (vcs : Nat) where
  | privateBuffer (p : PrivateBufferPolicy)
  | sharedBuffer (L : SharedLayout vcs) (p : SharedBufferPolicy L) (ext : SharedExtension vcs)

namespace BufferPolicy

def takeBuffer : BufferPolicy vcs → Except BufferError (BufferPolicy vcs)
  | .privateBuffer p => pure (.privateBuffer p)
  | .sharedBuffer L p ext => return .sharedBuffer L p (← ext.takeBuffer L.bufSize)

def sendingFlit (occupancy time : Int) (vc : Fin vcs) (tail : Bool) :
    BufferPolicy vcs → Except BufferError (BufferPolicy vcs)
  | .privateBuffer p => return .privateBuffer (← p.sendingFlit occupancy)
  | .sharedBuffer L p ext => do
      let p ← p.sendingFlit vc tail
      let ext ← ext.sendingFlit L.bufSize occupancy time vc tail
      pure (.sharedBuffer L p ext)

def freeSlotFor (available empty : Bool) (time : Int) (vc : Fin vcs) :
    BufferPolicy vcs → Except BufferError (BufferPolicy vcs)
  | .privateBuffer p => pure (.privateBuffer p)
  | .sharedBuffer L p ext => do
      let p ← p.freeSlotFor available empty vc
      let ext ← ext.freeSlotFor time vc
      pure (.sharedBuffer L p ext)

def returnBuffer : BufferPolicy vcs → Except BufferError (BufferPolicy vcs)
  | .privateBuffer p => pure (.privateBuffer p)
  | .sharedBuffer L p ext => return .sharedBuffer L p (← ext.returnBuffer L.bufSize)

def setVCBufferSize (vcBufSize : Int) : BufferPolicy vcs → BufferPolicy vcs
  | .privateBuffer p => .privateBuffer (p.setVCBufferSize vcBufSize)
  | .sharedBuffer L p ext => .sharedBuffer L p ext

def resetVCBufferSize : BufferPolicy vcs → BufferPolicy vcs
  | .privateBuffer p => .privateBuffer p.resetVCBufferSize
  | .sharedBuffer L p ext => .sharedBuffer L p ext

def isFullFor (occupancy time : Int) (vc : Fin vcs) : BufferPolicy vcs → Bool
  | .privateBuffer p => p.isFullFor occupancy
  | .sharedBuffer _ p ext =>
      p.isFullFor vc || (ext.slotLimit time vc).any fun limit => decide (occupancy ≥ limit)

def availableFor (occupancy time : Int) (vc : Fin vcs) : BufferPolicy vcs → Int
  | .privateBuffer p => p.availableFor occupancy
  | .sharedBuffer _ p ext =>
      match ext.slotLimit time vc with
      | none => p.availableFor vc
      | some limit => min (p.availableFor vc) (limit - occupancy)

end BufferPolicy

end Flyover
