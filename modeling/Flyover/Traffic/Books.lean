import Flyover.Traffic.Generation

/-!
# The books of the traffic manager

The traffic manager numbers packets and flits as it generates them, and keeps which of them
are in flight. A flit that comes out of the network is checked against that, and the head of
a packet is kept until its tail comes. What is sent back for a request is waiting at its
destination in between. `FLOVTrafficManager` has copies of these functions.

`BatchTrafficManager` sends so many packets only, and no request while too many of its
requests are outstanding.
-/

namespace Flyover.Traffic

open Drawing

/-! ### Packets -/

/-- `Flit` -/
structure TrafficFlit (ι : Type) where
  id : ℕ
  pid : ℕ
  src : ℤ
  /-- `-1` for all but the head -/
  dest : ℤ
  cl : ι
  type : PacketType
  head : Bool
  tail : Bool
  ctime : ℤ
  record : Bool
  deriving DecidableEq

/-- `PacketReplyInfo` -/
structure ReplyInfo where
  source : ℤ
  time : ℤ
  record : Bool
  type : PacketType

inductive SimState where
  | warmingUp
  | running
  | draining
  | done
  deriving DecidableEq, Repr

/-- What is configured for a class, beside its traffic pattern. -/
structure ClassBooks where
  useReadWrite : Bool
  measureStats : Bool
  readRequestSize : ℕ
  readReplySize : ℕ
  writeRequestSize : ℕ
  writeReplySize : ℕ
  /-- `_packet_size` with `_packet_size_rate` -/
  packetSize : List (ℕ × ℤ)

/-- `max_outstanding_requests` and `batch_size` -/
structure BatchSettings where
  maxOutstanding : ℤ
  batchSize : ℤ

structure BooksConfig (ι : Type) (nodes : ℕ) where
  traffic : ι → ClassTraffic nodes
  core : ℕ → Bool
  books : ι → ClassBooks
  includeQueuing : Bool
  /-- of a `BatchTrafficManager` -/
  batch : Option BatchSettings

/-- The books. `packetDest` is not in the source: it is where each packet goes, which only its
head says. -/
structure Books (ι : Type) where
  time : ℤ
  simState : SimState
  drainTime : ℤ
  curId : ℕ
  curPid : ℕ
  qtime : ℤ → ι → ℤ
  totalInFlightFlits : List (TrafficFlit ι)
  measuredInFlightFlits : List (TrafficFlit ι)
  retiredPackets : ι → ℕ → Option (TrafficFlit ι)
  repliesPending : ℤ → List ReplyInfo
  requestsOutstanding : ℤ → ℤ
  packetSeqNo : ℤ → ℤ
  partialPackets : ℤ → ι → List (TrafficFlit ι)
  packetDest : ℕ → ℤ

def Books.start (ι : Type) : Books ι where
  time := 0
  simState := .warmingUp
  drainTime := 0
  curId := 0
  curPid := 0
  qtime _ _ := 0
  totalInFlightFlits := []
  measuredInFlightFlits := []
  retiredPackets _ _ := none
  repliesPending _ := []
  requestsOutstanding _ := 0
  packetSeqNo _ := 0
  partialPackets _ _ := []
  packetDest _ := 0

namespace ClassBooks

/-- The loop of `_GetNextPacketSize`. -/
def pickSize : List (ℕ × ℤ) → ℤ → Except Stop ℕ
  | [], _ => .error .fails
  | [last], pct => if last.2 > pct then .ok last.1 else .error .fails
  | first :: rest, pct => if first.2 > pct then .ok first.1 else pickSize rest (pct - first.2)

/-- `_GetNextPacketSize`, where `pct` is drawn. -/
def getNextPacketSize (b : ClassBooks) (pct : ℤ) : Except Stop ℕ :=
  match b.packetSize with
  | [only] => .ok only.1
  | sizes => pickSize sizes pct

/-- `size` of `_GeneratePacket`, by the type of the packet. -/
def sizeOf (b : ClassBooks) (size : ℕ) : PacketType → ℕ
  | .any => size
  | .readRequest => b.readRequestSize
  | .writeRequest => b.writeRequestSize
  | .readReply => b.readReplySize
  | .writeReply => b.writeReplySize

end ClassBooks

/-- A round of the loop in `_Inject`: what it draws, and the destinations that the pattern
gives. -/
structure InjectDraws where
  /-- `_injection_process[cl]->test(source)` -/
  test : Bool
  /-- the coin toss for the type of a request -/
  write : Bool
  issuePct : ℤ
  pct : ℤ
  given : List ℤ

/-- What `_GeneratePacket` finds out about a packet. -/
structure PacketPlan where
  type : PacketType
  dest : ℤ
  time : ℤ
  record : Bool
  replies : List ReplyInfo

namespace Books

section

variable {ι : Type} [DecidableEq ι] {nodes : ℕ} (config : BooksConfig ι nodes)

/-! ### `_IssuePacket` -/

def countOutstanding (s : Books ι) (source : ℤ) : Books ι :=
  { s with
    requestsOutstanding := Function.update s.requestsOutstanding source
      (s.requestsOutstanding source + 1) }

/-- The end of both functions. -/
def countPacket (s : Books ι) (source result : ℤ) : ℤ × Books ι :=
  (result, if result ≠ 0 then
    { s with packetSeqNo := Function.update s.packetSeqNo source (s.packetSeqNo source + 1) } else s)

/-- `TrafficManager::_IssuePacket` -/
def issuePacket (s : Books ι) (source : ℤ) (cl : ι) (draws : InjectDraws) : ℤ × Books ι :=
  if (config.books cl).useReadWrite then
    match s.repliesPending source with
    | rinfo :: _ => s.countPacket source (if rinfo.time ≤ s.time then -1 else 0)
    | [] =>
        if draws.test then
          (s.countOutstanding source).countPacket source (if draws.write then 2 else 1)
        else s.countPacket source 0
  else (s.countOutstanding source).countPacket source (if draws.test then 1 else 0)

/-- A request may be sent. -/
def mayRequest (batch : BatchSettings) (s : Books ι) (source : ℤ) : Bool :=
  decide (s.packetSeqNo source < batch.batchSize ∧
    (batch.maxOutstanding ≤ 0 ∨ s.requestsOutstanding source < batch.maxOutstanding))

/-- `BatchTrafficManager::_IssuePacket` -/
def batchIssuePacket (batch : BatchSettings) (s : Books ι) (source : ℤ) (cl : ι)
    (draws : InjectDraws) : Except Stop (ℤ × Books ι) :=
  if (config.books cl).useReadWrite then
    match s.repliesPending source with
    | rinfo :: _ => .ok (s.countPacket source (if rinfo.time ≤ s.time then -1 else 0))
    | [] =>
        if mayRequest batch s source then
          .ok ((s.countOutstanding source).countPacket source (if draws.write then 2 else 1))
        else .ok (s.countPacket source 0)
  else if mayRequest batch s source then do
    let size ← (config.books cl).getNextPacketSize draws.issuePct
    .ok ((s.countOutstanding source).countPacket source size)
  else .ok (s.countPacket source 0)

/-- `_IssuePacket` of the class of the traffic manager. -/
def issue (s : Books ι) (source : ℤ) (cl : ι) (draws : InjectDraws) : Except Stop (ℤ × Books ι) :=
  match config.batch with
  | some batch => batchIssuePacket config batch s source cl draws
  | none => .ok (issuePacket config s source cl draws)

/-! ### `_GeneratePacket` -/

/-- The type of a packet, with what a reply takes over from its request. -/
def plan (s : Books ι) (source stype : ℤ) (cl : ι) (time found : ℤ) : Except Stop PacketPlan :=
  if (config.books cl).useReadWrite then
    if stype > 0 then
      if stype = 1 then .ok ⟨.readRequest, found, time, false, s.repliesPending source⟩
      else if stype = 2 then .ok ⟨.writeRequest, found, time, false, s.repliesPending source⟩
      else .error .fails
    else
      match s.repliesPending source with
      | [] => .error .fails
      | rinfo :: rest =>
          match rinfo.type with
          | .readRequest => .ok ⟨.readReply, rinfo.source, rinfo.time, rinfo.record, rest⟩
          | .writeRequest => .ok ⟨.writeReply, rinfo.source, rinfo.time, rinfo.record, rest⟩
          | _ => .error .fails
  else .ok ⟨.any, found, time, false, s.repliesPending source⟩

/-- The loop over the flits of a packet. -/
def packetFlits (source : ℤ) (cl : ι) (id pid size : ℕ) (p : PacketPlan) : List (TrafficFlit ι) :=
  (List.range size).map fun i => {
    id := id + i
    pid := pid
    src := source
    dest := if i = 0 then p.dest else -1
    cl := cl
    type := p.type
    head := decide (i = 0)
    tail := decide (i + 1 = size)
    ctime := p.time
    record := p.record }

/-- The packet in the books. -/
def enter (s : Books ι) (source : ℤ) (cl : ι) (size : ℕ) (p : PacketPlan) : Books ι :=
  let flits := packetFlits source cl s.curId s.curPid size p
  { s with
    curId := s.curId + size
    curPid := s.curPid + 1
    totalInFlightFlits := s.totalInFlightFlits ++ flits
    measuredInFlightFlits :=
      if p.record then s.measuredInFlightFlits ++ flits else s.measuredInFlightFlits
    repliesPending := Function.update s.repliesPending source p.replies
    partialPackets := Function.update s.partialPackets source
      (Function.update (s.partialPackets source) cl (s.partialPackets source cl ++ flits))
    packetDest := Function.update s.packetDest s.curPid p.dest }

def generatePacket (s : Books ι) (source stype : ℤ) (cl : ι) (time : ℤ) (draws : InjectDraws) :
    Except Stop (Books ι) := do
  if stype = 0 ∨ coreAt nodes config.core source ≠ some true then .error .fails
  else
    let drawn ← (config.books cl).getNextPacketSize draws.pct
    let found ← findDestination (config.traffic cl) config.core source draws.given
    let p ← plan config s source stype cl time found
    if p.dest < 0 ∨ p.dest ≥ nodes then .error .fails
    else
      let record :=
        if s.simState = .running ∨ (s.simState = .draining ∧ p.time < s.drainTime) then
          (config.books cl).measureStats
        else p.record
      .ok (s.enter source cl ((config.books cl).sizeOf drawn p.type) { p with record := record })

/-! ### `_Inject`, `_Step` and `_RetireFlit` -/

/-- "generate a packet" -/
def generateIssued (s : Books ι) (source stype : ℤ) (cl : ι) (time : ℤ) (draws : InjectDraws) :
    Except Stop (Books ι) :=
  if stype ≠ 0 then generatePacket config s source stype cl time draws else .ok s

/-- "only advance time if this is not a reply packet" -/
def advance (s : Books ι) (source stype : ℤ) (cl : ι) : Books ι :=
  if (config.books cl).useReadWrite = false ∨ stype ≥ 0 then
    { s with
      qtime := Function.update s.qtime source
        (Function.update (s.qtime source) cl (s.qtime source cl + 1)) }
  else s

/-- A round of the loop in `_Inject`; the loop is left where there is nothing to do. -/
def injectRound (s : Books ι) (source : ℤ) (cl : ι) (draws : InjectDraws) :
    Except Stop (Books ι) :=
  if coreAt nodes config.core source ≠ some true ∨ s.partialPackets source cl ≠ [] ∨
      s.qtime source cl > s.time then .ok s
  else do
    let issued ← issue config s source cl draws
    let s ← generateIssued config issued.2 source issued.1 cl
      (if config.includeQueuing then s.qtime source cl else s.time) draws
    .ok (advance config s source issued.1 cl)

/-- The first flit of a class is sent. -/
def send (s : Books ι) (source : ℤ) (cl : ι) : Books ι :=
  { s with
    partialPackets := Function.update s.partialPackets source
      (Function.update (s.partialPackets source) cl (s.partialPackets source cl).tail) }

/-- `count(f->id)` of the flits of the class. -/
def counts (flits : List (TrafficFlit ι)) (f : TrafficFlit ι) : Bool :=
  flits.any fun g => decide (g.cl = f.cl ∧ g.id = f.id)

/-- `erase(f->id)` of the flits of the class. -/
def erase (flits : List (TrafficFlit ι)) (f : TrafficFlit ι) : List (TrafficFlit ι) :=
  flits.filter fun g => decide (¬ (g.cl = f.cl ∧ g.id = f.id))

/-- A packet is over: a request waits for its reply, and another packet is no longer
outstanding. -/
def retirePacket (s : Books ι) (f : TrafficFlit ι) (dest : ℤ) : Books ι :=
  match f.type with
  | .readRequest | .writeRequest =>
      { s with
        repliesPending := Function.update s.repliesPending dest
          (s.repliesPending dest ++ [⟨f.src, s.time, f.record, f.type⟩]) }
  | .readReply | .writeReply =>
      { s with
        requestsOutstanding := Function.update s.requestsOutstanding dest
          (s.requestsOutstanding dest - 1) }
  | .any =>
      { s with
        requestsOutstanding := Function.update s.requestsOutstanding f.src
          (s.requestsOutstanding f.src - 1) }

/-- The head of the packet is in `_retired_packets`, if it is another flit. -/
def takeHead (s : Books ι) (f : TrafficFlit ι) : Except Stop (Books ι) :=
  if f.head then .ok s
  else
    match s.retiredPackets f.cl f.pid with
    | none => .error .fails
    | some head =>
        if head.head = true ∧ f.pid = head.pid then
          .ok { s with
            retiredPackets := Function.update s.retiredPackets f.cl
              (Function.update (s.retiredPackets f.cl) f.pid none) }
        else .error .fails

/-- `map::insert` keeps what is there. -/
def keepHead (s : Books ι) (f : TrafficFlit ι) : Books ι :=
  if s.retiredPackets f.cl f.pid = none then
    { s with
      retiredPackets := Function.update s.retiredPackets f.cl
        (Function.update (s.retiredPackets f.cl) f.pid (some f)) }
  else s

/-- `_RetireFlit`, without the statistics. -/
def retireFlit (s : Books ι) (f : TrafficFlit ι) (dest : ℤ) : Except Stop (Books ι) := do
  if counts s.totalInFlightFlits f = false then .error .fails
  else if f.record = true ∧ counts s.measuredInFlightFlits f = false then .error .fails
  else if f.head = true ∧ f.dest ≠ dest then .error .fails
  else
    let s := { s with
      totalInFlightFlits := erase s.totalInFlightFlits f
      measuredInFlightFlits :=
        if f.record then erase s.measuredInFlightFlits f else s.measuredInFlightFlits }
    let s ← if f.tail then do
        let s ← takeHead s f
        .ok (s.retirePacket f dest)
      else .ok s
    .ok (if f.head = true ∧ f.tail = false then s.keepHead f else s)

end

end Books

/-! ### Runs -/

inductive BooksEvent (ι : Type) where
  | inject (source : ℤ) (cl : ι) (draws : InjectDraws)
  | send (source : ℤ) (cl : ι)
  | retire (f : TrafficFlit ι) (dest : ℤ)
  | tick
  | simState (state : SimState) (drainTime : ℤ)
  /-- a batch begins -/
  | batch

namespace Books

variable {ι : Type} [DecidableEq ι] {nodes : ℕ} (config : BooksConfig ι nodes)

def perform (s : Books ι) : BooksEvent ι → Except Stop (Books ι)
  | .inject source cl draws => s.injectRound config source cl draws
  | .send source cl => .ok (s.send source cl)
  | .retire f dest => s.retireFlit f dest
  | .tick => .ok { s with time := s.time + 1 }
  | .simState state drainTime => .ok { s with simState := state, drainTime := drainTime }
  | .batch => .ok { s with packetSeqNo := fun _ => 0, simState := .running }

/-- The flit is in the network. -/
def Sent (s : Books ι) (f : TrafficFlit ι) : Prop :=
  f ∈ s.totalInFlightFlits ∧ f ∉ s.partialPackets f.src f.cl

/-- What the network does: it delivers a flit that was sent to it, the flits of a packet in
their order, where their head is to go. -/
structure Delivers (s : Books ι) (f : TrafficFlit ι) (dest : ℤ) : Prop where
  sent : s.Sent f
  first : ∀ g, s.Sent g → g.pid = f.pid → f.id ≤ g.id
  dest : dest = s.packetDest f.pid

/-- Only the network is to keep to something. -/
def Meets (s : Books ι) : BooksEvent ι → Prop
  | .retire f dest => s.Delivers f dest
  | _ => True

/-- The states of the runs from the start of the simulation. -/
def Reached (s : Books ι) : Prop :=
  Runs.Reaches (perform config) Meets (start ι) s

end Books

end Flyover.Traffic
