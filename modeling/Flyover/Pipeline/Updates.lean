import Flyover.Pipeline.State
import Flyover.Progress.Worklist

/-!
# The stages of `FLOVRouter`

The functions that end the stages of the pipeline, in the order in which a cycle
calls them. Each works through the entries of its queue whose time has come.

A packet toward a router that is not on goes back to routing. There are tests for
this when a virtual channel has been allocated, when none was, when a head flit
has won the switch and when it has lost; they are not all the same.
-/

namespace Flyover

namespace Pipeline

variable {k vcs : Nat} (cfg : PipelineConfig k) (o : Outside k vcs)

/-! ### Going from stage to stage -/

/-- Wait for the allocators. -/
def enterAllocation (s : Pipeline k vcs) (input : Fin 5) (vc : Fin vcs) : Pipeline k vcs :=
  { s with
    swAllocVCs :=
      if cfg.speculative then s.swAllocVCs ++ [{ input := input, vc := vc }] else s.swAllocVCs
    vcAllocVCs :=
      if cfg.piggyback then s.vcAllocVCs else s.vcAllocVCs ++ [{ input := input, vc := vc }] }

/-- Wait for the routing function. -/
def enterRouting (s : Pipeline k vcs) (input : Fin 5) (vc : Fin vcs) : Pipeline k vcs :=
  { s.modifyVC input vc (·.setState .routing) with
    routeVCs := s.routeVCs ++ [{ input := input, vc := vc }] }

/-- The range of one output among the virtual channels of an entry. -/
def noqOf (se : OutputEntry) (next : Fin 5) : NOQ :=
  let count := (se.vcEnd - se.vcStart + 1).tdiv 5
  { nextOutputPort := se.outputPort
    nextVCStart := se.vcStart + next * count
    nextVCEnd := se.vcStart + (next + 1) * count - 1 }

/-- `_UpdateNOQ` -/
def updateNOQ (s : Pipeline k vcs) (input : Fin 5) (vc : Fin vcs) (f : Flit k vcs) :
    Option (Pipeline k vcs) := do
  guard (f.vc = vc ∧ f.head = true)
  let [e] := f.laRouteSet.entries | none
  let out ← e.outputPort.output
  if (cfg.sink out).isNone then pure s
  else
    let [se] := (o.routeAhead out f).entries | none
    let next ← se.outputPort.output
    guard ((s.noqNext input vc).isNone = true)
    let noq := noqOf se next
    guard (0 ≤ noq.nextVCStart ∧ noq.nextVCStart < vcs)
    guard (0 ≤ noq.nextVCEnd ∧ noq.nextVCEnd < vcs)
    guard (noq.nextVCStart ≤ noq.nextVCEnd)
    pure { s with
      noqNext := Function.update s.noqNext input
        (Function.update (s.noqNext input) vc (some noq)) }

/-- The head flit brings its route along. -/
def useLookahead (s : Pipeline k vcs) (input : Fin 5) (vc : Fin vcs) (f : Flit k vcs) :
    Option (Pipeline k vcs) :=
  let s := (s.modifyVC input vc fun c => (c.setRouteSet f.laRouteSet).setState .vcAlloc)
    |>.enterAllocation cfg input vc
  if cfg.noq then s.updateNOQ cfg o input vc f else some s

/-! ### Input queuing -/

/-- The flits in the buffer of an input. -/
def occupancy (s : Pipeline k vcs) (input : Fin 5) : Nat :=
  ((List.finRange vcs).map fun vc => (s.buf input vc).buffer.length).sum

/-- The packet that a flit in an empty channel belongs to. -/
def takeIn (s : Pipeline k vcs) (input : Fin 5) (f : Flit k vcs) : Option (Pipeline k vcs) := do
  let c := s.buf input f.vc
  match c.state with
  | .idle =>
      guard (c.buffer.length = 1)
      guard (f.head = true)
      guard (s.switchHoldVC (cfg.expandedInput input f.vc) ≠ some f.vc)
      if cfg.routingDelay ≠ 0 then pure (s.enterRouting input f.vc)
      else s.useLookahead cfg o input f.vc f
  | .active =>
      if c.buffer.length = 1 then
        if s.switchHoldVC (cfg.expandedInput input f.vc) = some f.vc then
          pure { s with swHoldVCs := s.swHoldVCs ++ [{ input := input, vc := f.vc }] }
        else
          pure { s with swAllocVCs := s.swAllocVCs ++ [{ input := input, vc := f.vc }] }
      else pure s
  | .routing => pure s
  | .vcAlloc => pure s

/-- One round of the loop over `_in_queue_flits`. -/
def queueFlit (s : Pipeline k vcs) (input : Fin 5) : Option (Pipeline k vcs) :=
  match o.inQueueFlits input with
  | none => some s
  | some f => do
      let f := { f with rtime := s.now }
      guard (s.occupancy input < cfg.bufferSize)
      let c ← (s.buf input f.vc).addFlit f
      (s.modifyVC input f.vc fun _ => c).takeIn cfg o input f

/-- `_InputQueuing` -/
def inputQueuing (s : Pipeline k vcs) : Option (Pipeline k vcs) :=
  (List.finRange 5).foldlM (queueFlit cfg o) s

/-! ### The stages begin -/

/-- `_RouteEvaluate`, `_VCAllocEvaluate`, `_SWHoldEvaluate` and `_SWAllocEvaluate`:
the stages get the time of their end, and those that end now their results. -/
def evaluate (s : Pipeline k vcs) : Pipeline k vcs :=
  { s with
    routeVCs := Entry.stamp (s.now + cfg.routingDelay - 1) s.routeVCs
    vcAllocVCs :=
      Entry.decideBy s.now o.vcAssigned (Entry.stamp (s.now + cfg.vcAllocDelay - 1) s.vcAllocVCs)
    swHoldVCs := Entry.decideBy s.now o.swHeld (Entry.stamp s.now s.swHoldVCs)
    swAllocVCs :=
      Entry.decideBy s.now o.swAssigned (Entry.stamp (s.now + cfg.swAllocDelay - 1) s.swAllocVCs) }

/-! ### Routing -/

/-- A packet whose only way leads straight to its destination finds it on. -/
def checkNeighbor (f : Flit k vcs) (set : OutputSet) : Option Unit :=
  if f.dest = cfg.id then some ()
  else
    match set.entries with
    | [e] => do
        let out ← e.outputPort.output
        let router ← cfg.sink out
        guard (f.dest = router → o.neighborStates out = .powerOn)
    | _ => some ()

/-- One round of the loop of `_RouteUpdate`. -/
def routeOne (e : Entry vcs Unit) (s : Pipeline k vcs) : Option (Pipeline k vcs) := do
  guard (e.time = some s.now)
  let c := s.buf e.input e.vc
  let f ← c.buffer.head?
  guard (c.state = .routing)
  guard (f.vc = e.vc ∧ f.head = true)
  let set := o.route e.input f
  checkNeighbor cfg o f set
  let s := s.modifyVC e.input e.vc fun c =>
    ((c.setRouteSet set).setState .vcAlloc).setRtime s.now
  let s := s.enterAllocation cfg e.input e.vc
  pure { s with routeVCs := s.routeVCs.tail }

/-- `_RouteUpdate` -/
def routeUpdate (s : Pipeline k vcs) : Option (Pipeline k vcs) := do
  guard (s.routeVCs ≠ [] → cfg.routingDelay ≠ 0)
  Worklist.loop (fun s => s.routeVCs.head?.filter (Entry.due s.now)) (routeOne cfg o)
    s.routeVCs.length s

/-! ### VC allocation -/

/-- The loop that deletes the candidates without a router that is on. Once it has
found one, it deletes all that follow. -/
def routesLeft (downstreamStates : Fin 5 → PowerState) :
    Bool → List OutputEntry → Option (List OutputEntry)
  | _, [] => some []
  | deleteRoute, e :: rest => do
      let out ← e.outputPort.output
      let deleteRoute := deleteRoute || cfg.backToRoute downstreamStates out
      let left ← routesLeft downstreamStates deleteRoute rest
      pure (if deleteRoute then left else e :: left)

/-- A loop over the indices that erases and goes on: what follows an entry that
was erased is not looked at. -/
def eraseSkipping {α : Type} (p : α → Bool) : List α → List α
  | [] => []
  | x :: rest =>
      if p x then
        match rest with
        | [] => []
        | y :: rest => y :: eraseSkipping p rest
      else x :: eraseSkipping p rest

/-- The route is deleted and asked for again. -/
def dropRoute (s : Pipeline k vcs) (input : Fin 5) (vc : Fin vcs) : Pipeline k vcs :=
  (s.modifyVC input vc (·.clearRouteSet)).enterRouting input vc

/-- A virtual channel is allocated. -/
def vcGranted (e : Entry vcs (Fin 5 × Fin vcs)) (out : Fin 5) (outVC : Fin vcs)
    (s : Pipeline k vcs) : Option (Pipeline k vcs) :=
  if cfg.backToRoute s.downstreamStates out then
    let s := s.dropRoute e.input e.vc
    some (if cfg.speculative then
      { s with swAllocVCs := eraseSkipping (Entry.isFor e.input e.vc) s.swAllocVCs }
    else s)
  else do
    let dest ← ((s.nextBuf out).takeBuffer outVC (e.input * vcs + e.vc)).toOption
    let s := { s with nextBuf := Function.update s.nextBuf out dest }
    let s := s.modifyVC e.input e.vc fun c => (c.setOutput out outVC).setState .active
    pure (if cfg.speculative then s
      else { s with swAllocVCs := s.swAllocVCs ++ [{ input := e.input, vc := e.vc }] })

/-- No virtual channel is allocated. -/
def vcFailed (e : Entry vcs (Fin 5 × Fin vcs)) (f : Flit k vcs) (s : Pipeline k vcs) :
    Option (Pipeline k vcs) := do
  let left ← routesLeft cfg s.downstreamStates false (s.buf e.input e.vc).routeSet.entries
  if left.isEmpty then
    let s := s.dropRoute e.input e.vc
    pure (if cfg.speculative then
      { s with swAllocVCs := eraseSkipping (Entry.isFor e.input e.vc) s.swAllocVCs }
    else s)
  else if s.now - f.rtime = 300 then
    let s := s.enterRouting e.input e.vc
    pure (if cfg.speculative then
      { s with swAllocVCs := s.swAllocVCs.eraseP (Entry.isFor e.input e.vc) }
    else s)
  else
    pure { s with vcAllocVCs := s.vcAllocVCs ++ [{ input := e.input, vc := e.vc }] }

/-- What has become of the request for a virtual channel. -/
def vcDecided (e : Entry vcs (Fin 5 × Fin vcs)) (f : Flit k vcs) (s : Pipeline k vcs) :
    Option (Pipeline k vcs) :=
  match e.result with
  | some (out, outVC) => s.vcGranted cfg e out outVC
  | none => s.vcFailed cfg e f

/-- One round of the loop of `_VCAllocUpdate`. -/
def vcAllocOne (e : Entry vcs (Fin 5 × Fin vcs)) (s : Pipeline k vcs) :
    Option (Pipeline k vcs) := do
  guard (e.time = some s.now)
  let c := s.buf e.input e.vc
  let f ← c.buffer.head?
  guard (c.state = .vcAlloc)
  guard (f.vc = e.vc ∧ f.head = true)
  let s ← s.vcDecided cfg e f
  pure { s with vcAllocVCs := s.vcAllocVCs.tail }

/-- `_VCAllocUpdate` -/
def vcAllocUpdate (s : Pipeline k vcs) : Option (Pipeline k vcs) := do
  guard (s.vcAllocVCs ≠ [] → cfg.piggyback = false)
  Worklist.loop (fun s => s.vcAllocVCs.head?.filter (Entry.due s.now)) (vcAllocOne cfg)
    s.vcAllocVCs.length s

/-! ### The switch -/

/-- The route of a head flit at the next router. -/
def lookAhead (s : Pipeline k vcs) (input : Fin 5) (vc : Fin vcs) (output : Fin 5)
    (f : Flit k vcs) : Option (Flit k vcs × Option NOQ) :=
  let noq := s.noqNext input vc
  if cfg.routingDelay = 0 ∧ f.head = true then
    if (cfg.sink output).isNone then some ({ f with laRouteSet := .clear }, noq)
    else if cfg.noq then do
      let n ← noq
      let set := OutputSet.clear.addRange n.nextOutputPort n.nextVCStart n.nextVCEnd 0
      pure ({ f with laRouteSet := set }, none)
    else some ({ f with laRouteSet := o.routeAhead output f }, noq)
  else some (f, noq)

/-- The flit in front leaves for the crossbar: `SendingFlit` is called for it. -/
def sendFlit {α : Type} (e : Entry vcs α) (f : Flit k vcs) (output : Fin 5) (outVC : Fin vcs)
    (expandedOutput : Nat) (s : Pipeline k vcs) : Option (Pipeline k vcs) := do
  let (f, noq) ← s.lookAhead cfg o e.input e.vc output { f with vc := outVC }
  let dest ← ((s.nextBuf output).sendingFlit s.now outVC f.tail).toOption
  pure { s.modifyVC e.input e.vc (·.removeFlit) with
    nextBuf := Function.update s.nextBuf output dest
    noqNext := Function.update s.noqNext e.input (Function.update (s.noqNext e.input) e.vc noq)
    crossbarFlits := s.crossbarFlits ++
      [⟨f, cfg.expandedInput e.input e.vc, output, expandedOutput⟩] }

/-- The connection is not held any longer. -/
def cancelHold (s : Pipeline k vcs) (expandedInput expandedOutput : Nat) : Pipeline k vcs :=
  { s with
    switchHoldVC := Function.update s.switchHoldVC expandedInput none
    switchHoldIn := Function.update s.switchHoldIn expandedInput none
    switchHoldOut := Function.update s.switchHoldOut expandedOutput none }

/-- A held connection carries the flit in front. -/
def holdSent (e : Entry vcs Nat) (f : Flit k vcs) (expandedOutput : Nat) (s : Pipeline k vcs) :
    Option (Pipeline k vcs) := do
  let expandedInput := cfg.expandedInput e.input e.vc
  guard (s.switchHoldIn expandedInput = some expandedOutput)
  guard (s.switchHoldOut expandedOutput = some expandedInput)
  let output ← cfg.output expandedOutput
  let (port, outVC) ← (s.buf e.input e.vc).out
  guard (port = output)
  let s ← s.sendFlit cfg o e f output outVC expandedOutput
  match (s.buf e.input e.vc).buffer with
  | [] =>
      let s := s.cancelHold expandedInput expandedOutput
      pure (if f.tail then s.modifyVC e.input e.vc (·.setState .idle) else s)
  | nf :: _ =>
      guard (nf.vc = e.vc)
      if f.tail then
        guard (nf.head = true)
        let s := s.cancelHold expandedInput expandedOutput
        if cfg.routingDelay ≠ 0 then
          pure ((s.enterRouting e.input e.vc).modifyVC e.input e.vc (·.setRtime s.now))
        else s.useLookahead cfg o e.input e.vc nf
      else
        pure { s with swHoldVCs := s.swHoldVCs ++ [{ input := e.input, vc := e.vc }] }

/-- A held connection cannot be used. -/
def holdFailed (e : Entry vcs Nat) (s : Pipeline k vcs) : Option (Pipeline k vcs) := do
  let expandedInput := cfg.expandedInput e.input e.vc
  let heldExpandedOutput ← s.switchHoldIn expandedInput
  let s := s.cancelHold expandedInput heldExpandedOutput
  pure { s with swAllocVCs := s.swAllocVCs ++ [{ input := e.input, vc := e.vc }] }

/-- What has become of a held connection. -/
def holdDecided (e : Entry vcs Nat) (f : Flit k vcs) (s : Pipeline k vcs) :
    Option (Pipeline k vcs) :=
  match e.result.filter o.outputBufferRoom with
  | some expandedOutput => s.holdSent cfg o e f expandedOutput
  | none => s.holdFailed cfg e

/-- One round of the loop of `_SWHoldUpdate`. -/
def swHoldOne (e : Entry vcs Nat) (s : Pipeline k vcs) : Option (Pipeline k vcs) := do
  guard (e.time = some s.now)
  let c := s.buf e.input e.vc
  let f ← c.buffer.head?
  guard (c.state = .active)
  guard (f.vc = e.vc)
  guard (s.switchHoldVC (cfg.expandedInput e.input e.vc) = some e.vc)
  let s ← s.holdDecided cfg o e f
  pure { s with swHoldVCs := s.swHoldVCs.tail }

/-- `_SWHoldUpdate` -/
def swHoldUpdate (s : Pipeline k vcs) : Option (Pipeline k vcs) :=
  if cfg.holdSwitchForPacket then
    Worklist.loop (fun s => s.swHoldVCs.head?.filter fun e => e.time.isSome) (swHoldOne cfg o)
      s.swHoldVCs.length s
  else some s

/-! ### Piggybacked VC allocation -/

/-- `RoundRobinArbiter::Supersedes` -/
def supersedes (vc₁ : Fin vcs) (pri₁ : Int) (vc₂ : Fin vcs) (pri₂ : Int) (offset : Int) : Bool :=
  decide (pri₂ < pri₁) ||
    (decide (pri₁ = pri₂) &&
      decide ((vc₁ - offset + vcs).tmod vcs < (vc₂ - offset + vcs).tmod vcs))

/-- One round of the loop over the virtual channels of a candidate. -/
def betterVC (now : Int) (dest : BufferState vcs) (offset pri : Int)
    (best : Option (Fin vcs × Int)) (outVC : Fin vcs) : Option (Option (Fin vcs × Int)) := do
  let occupied := cfg.vcPrioritizeEmpty && !dest.isEmptyFor outVC
  guard (occupied = true → 0 ≤ pri)
  let pri := if occupied then pri - 2147483648 else pri
  pure (if dest.isAvailableFor outVC && !dest.isFullFor now outVC &&
      best.all (fun b => supersedes outVC pri b.1 b.2 offset) then some (outVC, pri)
    else best)

/-- One round of the loop over the candidates. -/
def betterCandidate (s : Pipeline k vcs) (input : Fin 5) (vc : Fin vcs) (output : Fin 5)
    (offset : Int) (best : Option (Fin vcs × Int)) (e : OutputEntry) :
    Option (Option (Fin vcs × Int)) :=
  if e.outputPort.output = some output then do
    let noq := if cfg.noq then s.noqNext input vc else none
    let (vcStart, vcEnd) := match noq with
      | some n => (n.nextVCStart, n.nextVCEnd)
      | none => (e.vcStart, e.vcEnd)
    guard (0 ≤ vcStart ∧ vcStart < vcs)
    guard (0 ≤ vcEnd ∧ vcEnd < vcs)
    guard (vcStart ≤ vcEnd)
    ((List.finRange vcs).filter fun v =>
        decide (vcStart ≤ (v.val : Int) ∧ (v.val : Int) ≤ vcEnd)).foldlM
      (betterVC cfg s.now (s.nextBuf output) offset e.pri) best
  else some best

/-- The virtual channel for a head flit that has won the switch without one. -/
def chooseVC (s : Pipeline k vcs) (input : Fin 5) (vc : Fin vcs) (output : Fin 5) (cl : Nat) :
    Option (Fin vcs) := do
  let entries := (s.buf input vc).routeSet.entries
  guard (cfg.noq = true → entries.length = 1)
  let best ← entries.foldlM
    (betterCandidate cfg s input vc output (s.vcRROffset output cl)) none
  best.map Prod.fst

/-- The virtual channel is taken in passing. -/
def piggybackVC (e : Entry vcs Nat) (f : Flit k vcs) (output : Fin 5) (s : Pipeline k vcs) :
    Option (Pipeline k vcs × Fin vcs) := do
  guard (f.head = true)
  let outVC ← s.chooseVC cfg e.input e.vc output f.cl
  let dest ← ((s.nextBuf output).takeBuffer outVC (e.input * vcs + e.vc)).toOption
  let s := s.modifyVC e.input e.vc fun c => (c.setState .active).setOutput output outVC
  pure ({ s with
    nextBuf := Function.update s.nextBuf output dest
    vcRROffset := Function.update s.vcRROffset output
      (Function.update (s.vcRROffset output) f.cl ((outVC + 1) % vcs)) }, outVC)

/-! ### Switch allocation -/

/-- The flit in front has won the switch and leaves. -/
def swSent (e : Entry vcs Nat) (f : Flit k vcs) (output : Fin 5) (outVC : Fin vcs)
    (expandedOutput : Nat) (s : Pipeline k vcs) : Option (Pipeline k vcs) := do
  let expandedInput := cfg.expandedInput e.input e.vc
  let s ← s.sendFlit cfg o e f output outVC expandedOutput
  match (s.buf e.input e.vc).buffer with
  | [] => pure (if f.tail then s.modifyVC e.input e.vc (·.setState .idle) else s)
  | nf :: _ =>
      guard (nf.vc = e.vc)
      if f.tail then
        guard (nf.head = true)
        if cfg.routingDelay ≠ 0 then pure (s.enterRouting e.input e.vc)
        else s.useLookahead cfg o e.input e.vc nf
      else if cfg.holdSwitchForPacket then
        pure { s with
          switchHoldVC := Function.update s.switchHoldVC expandedInput (some e.vc)
          switchHoldIn := Function.update s.switchHoldIn expandedInput (some expandedOutput)
          switchHoldOut := Function.update s.switchHoldOut expandedOutput (some expandedInput)
          swHoldVCs := s.swHoldVCs ++ [{ input := e.input, vc := e.vc }] }
      else
        pure { s with swAllocVCs := s.swAllocVCs ++ [{ input := e.input, vc := e.vc }] }

/-- The downstream router of a head flit that has won the switch is not on. -/
def swTurnedBack (e : Entry vcs Nat) (output : Fin 5) (outVC : Fin vcs) (s : Pipeline k vcs) :
    Option (Pipeline k vcs) :=
  if (s.buf e.input e.vc).state = .vcAlloc then
    some ({ s with vcAllocVCs := s.vcAllocVCs.eraseP (Entry.isFor e.input e.vc) }.dropRoute
      e.input e.vc)
  else do
    let dest ← ((s.nextBuf output).returnBuffer outVC).toOption
    pure ({ s with nextBuf := Function.update s.nextBuf output dest }.dropRoute e.input e.vc)

/-- The switch is granted. A head flit without a virtual channel gets one, and no
one looks at the downstream router. -/
def swGranted (e : Entry vcs Nat) (f : Flit k vcs) (expandedOutput : Nat) (s : Pipeline k vcs) :
    Option (Pipeline k vcs) := do
  let expandedInput := cfg.expandedInput e.input e.vc
  guard (s.switchHoldVC expandedInput = none ∧ s.switchHoldIn expandedInput = none ∧
    s.switchHoldOut expandedOutput = none)
  let output ← cfg.output expandedOutput
  if cfg.piggyback ∧ (s.buf e.input e.vc).state = .vcAlloc then
    let (s, outVC) ← s.piggybackVC cfg e f output
    s.swSent cfg o e f output outVC expandedOutput
  else
    let (port, outVC) ← (s.buf e.input e.vc).out
    guard (port = output)
    if f.head = true ∧ cfg.backToRoute s.downstreamStates output = true then
      s.swTurnedBack e output outVC
    else
      s.swSent cfg o e f output outVC expandedOutput

/-- The test of the recorded state when the switch was not granted; a router that
is off is not looked for. -/
def drainingOrWaking (downstreamStates : Fin 5 → PowerState) (out : Fin 5) : Bool :=
  match cfg.sink out with
  | none => false
  | some router =>
      !Router.bottomRow router &&
        (downstreamStates out == .draining || downstreamStates out == .wakeup)

/-- A head flit that has lost the switch goes back to routing if there is no way
left; `none` inside if it does not. -/
def swLostRoute (e : Entry vcs Nat) (f : Flit k vcs) (s : Pipeline k vcs) :
    Option (Option (Pipeline k vcs)) :=
  if f.head = false then some none
  else if (s.buf e.input e.vc).state = .vcAlloc then do
    guard ((s.buf e.input e.vc).out.isNone = true)
    let left ← routesLeft cfg s.downstreamStates false (s.buf e.input e.vc).routeSet.entries
    pure (if left.isEmpty then
      some ({ s with vcAllocVCs := s.vcAllocVCs.eraseP (Entry.isFor e.input e.vc) }.dropRoute
        e.input e.vc)
    else none)
  else do
    let (output, outVC) ← (s.buf e.input e.vc).out
    if drainingOrWaking cfg s.downstreamStates output then
      let dest ← ((s.nextBuf output).returnBuffer outVC).toOption
      pure (some ({ s with nextBuf := Function.update s.nextBuf output dest }.dropRoute
        e.input e.vc))
    else pure none

/-- A head flit has waited too long and is routed again. -/
def swTimedOut (e : Entry vcs Nat) (s : Pipeline k vcs) : Option (Pipeline k vcs) :=
  if (s.buf e.input e.vc).state = .active then do
    let (output, outVC) ← (s.buf e.input e.vc).out
    let dest ← ((s.nextBuf output).returnBuffer outVC).toOption
    pure ({ s with nextBuf := Function.update s.nextBuf output dest }.enterRouting e.input e.vc)
  else do
    guard ((s.buf e.input e.vc).out.isNone = true)
    pure ({ s with vcAllocVCs := s.vcAllocVCs.eraseP (Entry.isFor e.input e.vc) }.enterRouting
      e.input e.vc)

/-- The switch is not granted. -/
def swFailed (e : Entry vcs Nat) (f : Flit k vcs) (s : Pipeline k vcs) :
    Option (Pipeline k vcs) := do
  match ← s.swLostRoute cfg e f with
  | some s => pure s
  | none =>
      -- the escape virtual channel is number 0
      if s.now - f.rtime = 300 ∧ f.head = true ∧
          (s.buf e.input e.vc).out.all (fun out => decide (out.2.val ≠ 0)) = true then
        s.swTimedOut e
      else pure { s with swAllocVCs := s.swAllocVCs ++ [{ input := e.input, vc := e.vc }] }

/-- What has become of the request for the switch. -/
def swDecided (e : Entry vcs Nat) (f : Flit k vcs) (s : Pipeline k vcs) :
    Option (Pipeline k vcs) :=
  match e.result with
  | some expandedOutput => s.swGranted cfg o e f expandedOutput
  | none => s.swFailed cfg e f

/-- One round of the loop of `_SWAllocUpdate`. -/
def swAllocOne (e : Entry vcs Nat) (s : Pipeline k vcs) : Option (Pipeline k vcs) := do
  guard (e.time = some s.now)
  let c := s.buf e.input e.vc
  let f ← c.buffer.head?
  guard (c.state = .active ∨ cfg.speculative = true ∧ c.state = .vcAlloc)
  guard (f.vc = e.vc)
  let s ← s.swDecided cfg o e f
  pure { s with swAllocVCs := s.swAllocVCs.tail }

/-- The next entry for `_SWAllocUpdate`. -/
def swAllocFront (s : Pipeline k vcs) : Option (Entry vcs Nat) :=
  s.swAllocVCs.head?.filter (Entry.due s.now)

/-- `_SWAllocUpdate` -/
def swAllocUpdate (s : Pipeline k vcs) : Option (Pipeline k vcs) :=
  Worklist.loop swAllocFront (swAllocOne cfg o) s.swAllocVCs.length s

/-! ### A cycle -/

/-- What has come in since the last cycle. -/
def readInputs (s : Pipeline k vcs) : Pipeline k vcs :=
  { s with
    now := o.now
    nextBuf := o.creditUpdate s.nextBuf
    downstreamStates := o.downstreamStates
    crossbarFlits := [] }

/-- `_InternalStep` up to `_SWAllocUpdate` -/
def beforeSWAlloc (s : Pipeline k vcs) : Option (Pipeline k vcs) := do
  let s ← (s.readInputs o).inputQueuing cfg o
  let s ← (s.evaluate cfg o).routeUpdate cfg o
  let s ← s.vcAllocUpdate cfg
  s.swHoldUpdate cfg o

/-- `_InternalStep` -/
def cycle (s : Pipeline k vcs) : Option (Pipeline k vcs) := do
  let s ← s.beforeSWAlloc cfg o
  s.swAllocUpdate cfg o

/-- One cycle after the other. -/
def run (cfg : PipelineConfig k) (s : Pipeline k vcs) (os : List (Outside k vcs)) :
    Option (Pipeline k vcs) :=
  os.foldlM (fun s o => s.cycle cfg o) s

end Pipeline

end Flyover
