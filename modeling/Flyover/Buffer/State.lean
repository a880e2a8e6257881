import Flyover.Buffer.Policy

/-!
# The buffer state of the next router

`BufferState` counts the flits that are outstanding, per virtual channel and in
total, and remembers which virtual channels are taken. Power gating adds three
operations that set its counters at once, without the policy.

The sender is modelled by the packet it has on each virtual channel. It takes a
virtual channel that is available, sends a flit of a packet that has one where
the policy says there is room, gives a virtual channel back before it has sent
anything, and receives credits for what is outstanding. Every order of these is
an order of operations here.
-/

namespace Flyover

variable {vcs : Nat}

structure BufferState (vcs : Nat) where
  waitForTailCredit : Bool
  size : Int
  occupancy : Int
  vcOccupancy : Fin vcs → Int
  policy : BufferPolicy vcs
  /-- the tag of the owner, or `none` for a negative one -/
  inUseBy : Fin vcs → Option Nat
  tailSent : Fin vcs → Bool

namespace BufferState

def isFullFor (s : BufferState vcs) (time : Int) (vc : Fin vcs) : Bool :=
  s.policy.isFullFor (s.vcOccupancy vc) time vc

def availableFor (s : BufferState vcs) (time : Int) (vc : Fin vcs) : Int :=
  s.policy.availableFor (s.vcOccupancy vc) time vc

def isEmptyFor (s : BufferState vcs) (vc : Fin vcs) : Bool :=
  s.vcOccupancy vc == 0

def isAvailableFor (s : BufferState vcs) (vc : Fin vcs) : Bool :=
  (s.inUseBy vc).isNone

/-- One round of the loop of `ProcessCredit`. -/
def processCreditFor (s : BufferState vcs) (time : Int) (vc : Fin vcs) :
    Except BufferError (BufferState vcs) := do
  ensure (¬ (s.waitForTailCredit = true ∧ s.isAvailableFor vc = true)) .creditForIdleVC
  ensure (¬ s.occupancy - 1 < 0) .occupancyBelowZero
  ensure (¬ s.vcOccupancy vc - 1 < 0) .vcOccupancyBelowZero
  let released := s.waitForTailCredit && s.vcOccupancy vc - 1 == 0 && s.tailSent vc
  ensure (released = true → s.isAvailableFor vc = false) .notInUse
  let s := { s with
    occupancy := s.occupancy - 1
    vcOccupancy := Function.update s.vcOccupancy vc (s.vcOccupancy vc - 1)
    inUseBy := if released then Function.update s.inUseBy vc none else s.inUseBy }
  let policy ← s.policy.freeSlotFor (s.isAvailableFor vc) (s.isEmptyFor vc) time vc
  pure { s with policy := policy }

/-- `credits` is the set `c->vc`. -/
def processCredit (s : BufferState vcs) (time : Int) (credits : List (Fin vcs)) :
    Except BufferError (BufferState vcs) :=
  credits.foldlM (fun s vc => s.processCreditFor time vc) s

def sendingFlit (s : BufferState vcs) (time : Int) (vc : Fin vcs) (tail : Bool) :
    Except BufferError (BufferState vcs) := do
  ensure (¬ s.occupancy + 1 > s.size) .bufferOverflow
  let s := { s with
    occupancy := s.occupancy + 1
    vcOccupancy := Function.update s.vcOccupancy vc (s.vcOccupancy vc + 1) }
  let policy ← s.policy.sendingFlit (s.vcOccupancy vc) time vc tail
  let released := tail && !s.waitForTailCredit
  ensure (released = true → s.isAvailableFor vc = false) .notInUse
  pure { s with
    policy := policy
    tailSent := if tail then Function.update s.tailSent vc true else s.tailSent
    inUseBy := if released then Function.update s.inUseBy vc none else s.inUseBy }

def takeBuffer (s : BufferState vcs) (vc : Fin vcs) (tag : Nat) :
    Except BufferError (BufferState vcs) := do
  ensure (s.isAvailableFor vc = true) .takenWhileInUse
  let policy ← s.policy.takeBuffer
  pure { s with
    policy := policy
    inUseBy := Function.update s.inUseBy vc (some tag)
    tailSent := Function.update s.tailSent vc false }

def returnBuffer (s : BufferState vcs) (vc : Fin vcs) : Except BufferError (BufferState vcs) := do
  ensure (s.isAvailableFor vc = false) .returnWhileIdle
  let policy ← s.policy.returnBuffer
  pure { s with
    policy := policy
    inUseBy := Function.update s.inUseBy vc none
    tailSent := Function.update s.tailSent vc false }

/-- The downstream router is turned off: all its slots become occupied, and the
credits of the router behind it are to free them. -/
def clearCredits (s : BufferState vcs) : BufferState vcs :=
  { s with
    occupancy := s.occupancy + s.size
    vcOccupancy := fun vc => s.vcOccupancy vc + s.size / vcs
    -- intentional to support wait_for_tail_credit
    inUseBy := fun _ => some (vcs * 4)
    tailSent := fun _ => true }

def fullCredits (s : BufferState vcs) : BufferState vcs :=
  { s with
    occupancy := 0
    vcOccupancy := fun _ => 0
    inUseBy := fun _ => none
    tailSent := fun _ => false
    policy := s.policy.resetVCBufferSize }

def fillCredits (s : BufferState vcs) : BufferState vcs :=
  { s with
    occupancy := 0
    vcOccupancy := fun _ => 0
    policy := s.policy.resetVCBufferSize }

end BufferState

/-! ### The configuration -/

/-- The settings that `BufferState` and the policies read. -/
structure BufferConfig (vcs : Nat) where
  vcBufSize : Int
  bufSize : Int
  waitForTailCredit : Bool

namespace BufferConfig

/-- `_size` of the constructor of `BufferState`, and `_buf_size` of `SharedBufferPolicy` -/
def size (config : BufferConfig vcs) : Int :=
  if config.bufSize < 0 then vcs * config.vcBufSize else config.bufSize

/-- `_vc_buf_size` of the constructor of `PrivateBufferPolicy` -/
def privateVcBufSize (config : BufferConfig vcs) : Int :=
  if config.bufSize ≤ 0 then config.vcBufSize else config.bufSize / vcs

end BufferConfig

/-- `buffer_policy`, with the settings of a policy that shares slots. -/
inductive SharedPolicyName where
  | shared
  | limited (maxHeldSlots : Int)
  | dynamic
  | shifting
  | feedback (config : FeedbackConfig)
  | simpleFeedback (config : FeedbackConfig)

namespace SharedPolicyName

/-- The constructors of the subclasses. -/
def new (bufSize : Int) : SharedPolicyName → SharedExtension vcs
  | shared => .shared
  | limited maxHeldSlots =>
      .limited {
        activeVCs := 0
        maxHeldSlots := if maxHeldSlots < 0 then bufSize else maxHeldSlots }
  | dynamic => .dynamic { activeVCs := 0, maxHeldSlots := bufSize }
  | shifting => .shifting { activeVCs := 0, maxHeldSlots := bufSize }
  | feedback config => .feedback config (.new bufSize)
  | simpleFeedback config => .simpleFeedback config (.new bufSize)

end SharedPolicyName

/-- What `BufferPolicy::New` accepts. -/
inductive PolicyConfig (config : BufferConfig vcs) where
  /-- with `assert(_vc_buf_size > 0)` -/
  | privateBuffer (pos : 0 < config.privateVcBufSize)
  | sharedBuffer (L : SharedLayout vcs) (bufSize_eq : L.bufSize = config.size)
      (name : SharedPolicyName)

/-- `BufferPolicy::New` -/
def BufferPolicy.new (config : BufferConfig vcs) : PolicyConfig config → BufferPolicy vcs
  | .privateBuffer _ =>
      .privateBuffer {
        vcBufSize := config.privateVcBufSize
        fullVcBufSize := config.privateVcBufSize }
  | .sharedBuffer L _ name => .sharedBuffer L (.new L) (name.new L.bufSize)

/-- The constructor of `BufferState`. -/
def BufferState.new (config : BufferConfig vcs) (policy : PolicyConfig config) :
    BufferState vcs where
  waitForTailCredit := config.waitForTailCredit
  size := config.size
  occupancy := 0
  vcOccupancy _ := 0
  policy := .new config policy
  inUseBy _ := none
  tailSent _ := false

namespace BufferState

variable (config : BufferConfig vcs)

/-- `_full_vc_buf_size` of the buffer state is the setting `vc_buf_size`. -/
def resetVCBufferSize (s : BufferState vcs) : BufferState vcs :=
  { s with
    size := vcs * config.vcBufSize
    policy := s.policy.resetVCBufferSize }

def setVCBufferSize (s : BufferState vcs) (vcBufSize : Int) :
    Except BufferError (BufferState vcs) := do
  let full := vcs * config.vcBufSize
  ensure (s.size ≠ full → s.size = vcs * vcBufSize) .sizeAlreadySet
  pure { s with
    size := if s.size ≠ full then s.size else vcs * vcBufSize
    policy := s.policy.setVCBufferSize vcBufSize }

end BufferState

/-! ### The sender -/

/-- The packet that the sender has on a virtual channel. -/
inductive PacketPhase where
  | noPacket
  /-- the virtual channel is taken, nothing is sent -/
  | taken
  /-- a flit is sent, the tail is not -/
  | partlySent
  deriving DecidableEq, Repr

/-- A sender and its buffer state. -/
structure CreditLink (vcs : Nat) where
  buffer : BufferState vcs
  phase : Fin vcs → PacketPhase

inductive CreditOp (vcs : Nat) where
  | takeBuffer (vc : Fin vcs) (tag : Nat)
  | sendingFlit (time : Int) (vc : Fin vcs) (tail : Bool)
  | returnBuffer (vc : Fin vcs)
  | processCredit (time : Int) (credits : List (Fin vcs))
  | clearCredits
  | fullCredits
  | fillCredits

namespace CreditLink

/-- There is a packet on the virtual channel whose tail is not sent. -/
def Open (link : CreditLink vcs) (vc : Fin vcs) : Prop := link.phase vc ≠ .noPacket

instance (link : CreditLink vcs) (vc : Fin vcs) : Decidable (link.Open vc) :=
  inferInstanceAs (Decidable (_ ≠ _))

/-- What the routers check before an operation. -/
def Guarded (link : CreditLink vcs) : CreditOp vcs → Prop
  | .takeBuffer vc _ => link.buffer.isAvailableFor vc = true
  | .sendingFlit time vc _ => link.Open vc ∧ link.buffer.isFullFor time vc = false
  | .returnBuffer vc => link.phase vc = .taken
  | .processCredit _ credits => credits.Nodup ∧ ∀ vc ∈ credits, 0 < link.buffer.vcOccupancy vc
  | .clearCredits | .fullCredits | .fillCredits => True

/-- The packets after an operation. -/
def nextPhase (phase : Fin vcs → PacketPhase) : CreditOp vcs → Fin vcs → PacketPhase
  | .takeBuffer vc _ => Function.update phase vc .taken
  | .sendingFlit _ vc tail => Function.update phase vc (if tail then .noPacket else .partlySent)
  | .returnBuffer vc => Function.update phase vc .noPacket
  | .processCredit _ _ | .clearCredits | .fullCredits | .fillCredits => phase

end CreditLink

/-- The operation on the buffer state. -/
def BufferState.perform (s : BufferState vcs) : CreditOp vcs → Except BufferError (BufferState vcs)
  | .takeBuffer vc tag => s.takeBuffer vc tag
  | .sendingFlit time vc tail => s.sendingFlit time vc tail
  | .returnBuffer vc => s.returnBuffer vc
  | .processCredit time credits => s.processCredit time credits
  | .clearCredits => pure s.clearCredits
  | .fullCredits => pure s.fullCredits
  | .fillCredits => pure s.fillCredits

namespace CreditLink

def new (config : BufferConfig vcs) (policy : PolicyConfig config) : CreditLink vcs where
  buffer := .new config policy
  phase _ := .noPacket

/-- One operation, which is an error of the buffer state or of the policy if there is one. -/
def step (link : CreditLink vcs) (op : CreditOp vcs) : Except BufferError (CreditLink vcs) := do
  let buffer ← link.buffer.perform op
  pure { buffer := buffer, phase := nextPhase link.phase op }

/-- The links reached from one by guarded operations that meet a condition. -/
inductive Reaches (Meets : CreditLink vcs → CreditOp vcs → Prop) (start : CreditLink vcs) :
    CreditLink vcs → Prop
  | refl : Reaches Meets start start
  | step {link next : CreditLink vcs} (op : CreditOp vcs) :
      Reaches Meets start link → link.Guarded op → Meets link op →
        link.step op = .ok next → Reaches Meets start next

theorem step_ok {link next : CreditLink vcs} {op : CreditOp vcs} :
    link.step op = .ok next ↔
      link.buffer.perform op = .ok next.buffer ∧ next.phase = nextPhase link.phase op := by
  cases next with
  | mk buffer phase =>
      rw [step, bind_ok]
      constructor
      · rintro ⟨b, hb, hnext⟩
        obtain ⟨rfl, rfl⟩ := CreditLink.mk.inj (pure_ok.mp hnext)
        exact ⟨hb, rfl⟩
      · rintro ⟨hb, rfl⟩
        exact ⟨buffer, hb, rfl⟩

end CreditLink

end Flyover
