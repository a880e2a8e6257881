import Flyover.Pipeline.Reroute

/-!
# The pipelines of the other routers

`GFLOVRouter`, `RFLOVRouter` and `RPRouter` have copies of the pipeline. They differ in
the tests that send a packet back to routing: `RFLOVRouter` looks at its neighbours, and
`RPRouter`, whose routers are parked for good, has no such test at all. All of them send
a packet back when it has waited for 300 cycles.

The functions here have the scheme as a parameter; `Scheme.cycle_flov` says that
`FLOVRouter` is one instance.
-/

namespace Flyover

namespace Pipeline

/-- The routers in which a packet can wait for too long. -/
inductive Scheme where
  | flov
  | gflov
  | rflov
  | rp
  deriving DecidableEq, Repr

/-- What a router knows of the others in a cycle; it has no ring. -/
def known {k vcs : Nat} (o : Outside k vcs) (s : Pipeline k vcs) : Known where
  downstreamStates := s.downstreamStates
  neighborStates := o.neighborStates
  ringOutPort := 0

namespace Scheme

/-- The test for a packet that has nowhere to go. -/
def rerouting : Scheme → Option Rerouting
  | .flov => some .flov
  | .gflov => some .gflov
  | .rflov => some .rflov
  | .rp => none

section Definitions

variable {k vcs : Nat} (scheme : Scheme) (cfg : PipelineConfig k) (o : Outside k vcs)

/-- The router behind an output is not on. -/
def asleep (s : Pipeline k vcs) (out : Fin 5) : Bool :=
  match scheme.rerouting with
  | none => false
  | some r => r.unavailable cfg (known o s) out

/-- No candidate is left. -/
def noWay (s : Pipeline k vcs) (input : Fin 5) (vc : Fin vcs) : Option Bool :=
  match scheme.rerouting with
  | none => some false
  | some r => do
      let left ← r.candidatesLeft cfg (known o s) false (s.buf input vc).routeSet.entries
      pure left.isEmpty

/-- The router behind the output of a packet that waits for the switch is not on. -/
def deserted (s : Pipeline k vcs) (out : Fin 5) : Bool :=
  match scheme with
  | .flov => drainingOrWaking cfg s.downstreamStates out
  | .gflov => drainingOrWaking cfg s.downstreamStates out
  | .rflov => drainingOrWaking cfg o.neighborStates out
  | .rp => false

/-- What is asserted of a route. -/
def checkRoute (f : Flit k vcs) (set : OutputSet) : Option Unit :=
  if scheme = .rp then some () else checkNeighbor cfg o f set

/-- One round of the loop of `_RouteUpdate`. -/
def routeOne (e : Entry vcs Unit) (s : Pipeline k vcs) : Option (Pipeline k vcs) := do
  guard (e.time = some s.now)
  let c := s.buf e.input e.vc
  let f ← c.buffer.head?
  guard (c.state = .routing)
  guard (f.vc = e.vc ∧ f.head = true)
  let set := o.route e.input f
  scheme.checkRoute cfg o f set
  let s := s.modifyVC e.input e.vc fun c =>
    ((c.setRouteSet set).setState .vcAlloc).setRtime s.now
  let s := s.enterAllocation cfg e.input e.vc
  pure { s with routeVCs := s.routeVCs.tail }

/-- `_RouteUpdate` -/
def routeUpdate (s : Pipeline k vcs) : Option (Pipeline k vcs) := do
  guard (s.routeVCs ≠ [] → cfg.routingDelay ≠ 0)
  Worklist.loop (fun s => s.routeVCs.head?.filter (Entry.due s.now)) (scheme.routeOne cfg o)
    s.routeVCs.length s

/-- A virtual channel is allocated. -/
def vcGranted (e : Entry vcs (Fin 5 × Fin vcs)) (out : Fin 5) (outVC : Fin vcs)
    (s : Pipeline k vcs) : Option (Pipeline k vcs) :=
  if scheme.asleep cfg o s out then
    let s := s.dropRoute e.input e.vc
    some (if cfg.speculative then
      { s with swAllocVCs := eraseSkipping (Entry.isFor e.input e.vc) s.swAllocVCs }
    else s)
  else do
    let dest ← ((s.nextBuf out).takeBuffer outVC (e.input * vcs + e.vc)).toOption
    let s := { s with nextBuf := Function.update s.nextBuf out dest }
    let s := s.modifyVC e.input e.vc fun c => (c.setOutput out outVC).setState .active
    pure (if cfg.speculative then s
      else { s with swAllocVCs := s.swAllocVCs ++ [{ input := e.input, vc := e.vc }] })

/-- No virtual channel is allocated. -/
def vcFailed (e : Entry vcs (Fin 5 × Fin vcs)) (f : Flit k vcs) (s : Pipeline k vcs) :
    Option (Pipeline k vcs) := do
  let lost ← scheme.noWay cfg o s e.input e.vc
  if lost then
    let s := s.dropRoute e.input e.vc
    pure (if cfg.speculative then
      { s with swAllocVCs := eraseSkipping (Entry.isFor e.input e.vc) s.swAllocVCs }
    else s)
  else if s.now - f.rtime = 300 then
    let s := s.enterRouting e.input e.vc
    pure (if cfg.speculative then
      { s with swAllocVCs := s.swAllocVCs.eraseP (Entry.isFor e.input e.vc) }
    else s)
  else
    pure { s with vcAllocVCs := s.vcAllocVCs ++ [{ input := e.input, vc := e.vc }] }

/-- What has become of the request for a virtual channel. -/
def vcDecided (e : Entry vcs (Fin 5 × Fin vcs)) (f : Flit k vcs) (s : Pipeline k vcs) :
    Option (Pipeline k vcs) :=
  match e.result with
  | some (out, outVC) => scheme.vcGranted cfg o e out outVC s
  | none => scheme.vcFailed cfg o e f s

/-- One round of the loop of `_VCAllocUpdate`. -/
def vcAllocOne (e : Entry vcs (Fin 5 × Fin vcs)) (s : Pipeline k vcs) :
    Option (Pipeline k vcs) := do
  guard (e.time = some s.now)
  let c := s.buf e.input e.vc
  let f ← c.buffer.head?
  guard (c.state = .vcAlloc)
  guard (f.vc = e.vc ∧ f.head = true)
  let s ← scheme.vcDecided cfg o e f s
  pure { s with vcAllocVCs := s.vcAllocVCs.tail }

/-- The next entry for `_VCAllocUpdate`. -/
def vcAllocFront (s : Pipeline k vcs) : Option (Entry vcs (Fin 5 × Fin vcs)) :=
  s.vcAllocVCs.head?.filter (Entry.due s.now)

/-- `_VCAllocUpdate` -/
def vcAllocUpdate (s : Pipeline k vcs) : Option (Pipeline k vcs) := do
  guard (s.vcAllocVCs ≠ [] → cfg.piggyback = false)
  Worklist.loop vcAllocFront (scheme.vcAllocOne cfg o) s.vcAllocVCs.length s

/-- The switch is granted. -/
def swGranted (e : Entry vcs Nat) (f : Flit k vcs) (expandedOutput : Nat) (s : Pipeline k vcs) :
    Option (Pipeline k vcs) := do
  let expandedInput := cfg.expandedInput e.input e.vc
  guard (s.switchHoldVC expandedInput = none ∧ s.switchHoldIn expandedInput = none ∧
    s.switchHoldOut expandedOutput = none)
  let output ← cfg.output expandedOutput
  if cfg.piggyback ∧ (s.buf e.input e.vc).state = .vcAlloc then
    let (s, outVC) ← s.piggybackVC cfg e f output
    s.swSent cfg o e f output outVC expandedOutput
  else
    let (port, outVC) ← (s.buf e.input e.vc).out
    guard (port = output)
    if f.head = true ∧ scheme.asleep cfg o s output = true then
      s.swTurnedBack e output outVC
    else
      s.swSent cfg o e f output outVC expandedOutput

/-- A head flit that has lost the switch goes back to routing if there is no way left. -/
def swLostRoute (e : Entry vcs Nat) (f : Flit k vcs) (s : Pipeline k vcs) :
    Option (Option (Pipeline k vcs)) :=
  if f.head = false ∨ scheme = .rp then some none
  else if (s.buf e.input e.vc).state = .vcAlloc then do
    guard ((s.buf e.input e.vc).out.isNone = true)
    let lost ← scheme.noWay cfg o s e.input e.vc
    pure (if lost then
      some ({ s with vcAllocVCs := s.vcAllocVCs.eraseP (Entry.isFor e.input e.vc) }.dropRoute
        e.input e.vc)
    else none)
  else do
    let (output, outVC) ← (s.buf e.input e.vc).out
    if scheme.deserted cfg o s output then
      let dest ← ((s.nextBuf output).returnBuffer outVC).toOption
      pure (some ({ s with nextBuf := Function.update s.nextBuf output dest }.dropRoute
        e.input e.vc))
    else pure none

/-- Take a packet out of the queue for a virtual channel. The loop of `RPRouter` has no
`break`. -/
def withdraw {α : Type} (input : Fin 5) (vc : Fin vcs) (queue : List (Entry vcs α)) :
    List (Entry vcs α) :=
  if scheme = .rp then eraseSkipping (Entry.isFor input vc) queue
  else queue.eraseP (Entry.isFor input vc)

/-- A head flit has waited too long and is routed again. -/
def swTimedOut (e : Entry vcs Nat) (s : Pipeline k vcs) : Option (Pipeline k vcs) :=
  if (s.buf e.input e.vc).state = .active then do
    let (output, outVC) ← (s.buf e.input e.vc).out
    let dest ← ((s.nextBuf output).returnBuffer outVC).toOption
    pure ({ s with nextBuf := Function.update s.nextBuf output dest }.enterRouting e.input e.vc)
  else do
    guard ((s.buf e.input e.vc).out.isNone = true)
    pure ({ s with vcAllocVCs := scheme.withdraw e.input e.vc s.vcAllocVCs }.enterRouting
      e.input e.vc)

/-- The output virtual channel does not keep a packet from being timed out: all but
`RFLOVRouter` spare the escape virtual channel, which is number 0 for them. -/
def sparesNot (out : Option (Fin 5 × Fin vcs)) : Bool :=
  match scheme with
  | .rflov => true
  | .flov => out.all fun out => decide (out.2.val ≠ 0)
  | .gflov => out.all fun out => decide (out.2.val ≠ 0)
  | .rp => out.all fun out => decide (out.2.val ≠ 0)

/-- The switch is not granted. -/
def swFailed (e : Entry vcs Nat) (f : Flit k vcs) (s : Pipeline k vcs) :
    Option (Pipeline k vcs) := do
  match ← scheme.swLostRoute cfg o e f s with
  | some s => pure s
  | none =>
      if s.now - f.rtime = 300 ∧ f.head = true ∧
          scheme.sparesNot (s.buf e.input e.vc).out = true then
        scheme.swTimedOut e s
      else pure { s with swAllocVCs := s.swAllocVCs ++ [{ input := e.input, vc := e.vc }] }

/-- What has become of the request for the switch. -/
def swDecided (e : Entry vcs Nat) (f : Flit k vcs) (s : Pipeline k vcs) :
    Option (Pipeline k vcs) :=
  match e.result with
  | some expandedOutput => scheme.swGranted cfg o e f expandedOutput s
  | none => scheme.swFailed cfg o e f s

/-- One round of the loop of `_SWAllocUpdate`. -/
def swAllocOne (e : Entry vcs Nat) (s : Pipeline k vcs) : Option (Pipeline k vcs) := do
  guard (e.time = some s.now)
  let c := s.buf e.input e.vc
  let f ← c.buffer.head?
  guard (c.state = .active ∨ cfg.speculative = true ∧ c.state = .vcAlloc)
  guard (f.vc = e.vc)
  let s ← scheme.swDecided cfg o e f s
  pure { s with swAllocVCs := s.swAllocVCs.tail }

/-- `_SWAllocUpdate` -/
def swAllocUpdate (s : Pipeline k vcs) : Option (Pipeline k vcs) :=
  Worklist.loop swAllocFront (scheme.swAllocOne cfg o) s.swAllocVCs.length s

/-- `_InternalStep` of a router that is on -/
def cycle (s : Pipeline k vcs) : Option (Pipeline k vcs) := do
  let s ← (s.readInputs o).inputQueuing cfg o
  let s ← scheme.routeUpdate cfg o (s.evaluate cfg o)
  let s ← scheme.vcAllocUpdate cfg o s
  let s ← s.swHoldUpdate cfg o
  scheme.swAllocUpdate cfg o s

end Definitions

/-! ### `FLOVRouter` -/

section FLOV

variable {k vcs : Nat} {cfg : PipelineConfig k} {o : Outside k vcs}

theorem noWay_flov (s : Pipeline k vcs) (input : Fin 5) (vc : Fin vcs) :
    flov.noWay cfg o s input vc = (do
      let left ← routesLeft cfg s.downstreamStates false (s.buf input vc).routeSet.entries
      pure left.isEmpty) := by
  have hleft : routesLeft cfg (known o s).downstreamStates false (s.buf input vc).routeSet.entries =
      Rerouting.flov.candidatesLeft cfg (known o s) false (s.buf input vc).routeSet.entries :=
    routesLeft_eq false _
  unfold noWay
  rw [show s.downstreamStates = (known o s).downstreamStates from rfl, hleft]
  rfl

theorem routeUpdate_flov (s : Pipeline k vcs) : flov.routeUpdate cfg o s = s.routeUpdate cfg o := rfl

theorem vcAllocOne_flov : flov.vcAllocOne cfg o = Pipeline.vcAllocOne cfg := by
  have hfailed (e : Entry vcs (Fin 5 × Fin vcs)) (f : Flit k vcs) (s : Pipeline k vcs) :
      flov.vcFailed cfg o e f s = s.vcFailed cfg e f := by
    unfold vcFailed Pipeline.vcFailed
    rw [noWay_flov, bind_assoc]
    rfl
  funext e s
  unfold vcAllocOne Pipeline.vcAllocOne vcDecided Pipeline.vcDecided
  simp only [hfailed]
  rfl

theorem vcAllocUpdate_flov (s : Pipeline k vcs) :
    flov.vcAllocUpdate cfg o s = s.vcAllocUpdate cfg := by
  unfold vcAllocUpdate Pipeline.vcAllocUpdate
  rw [vcAllocOne_flov]
  rfl

theorem swAllocOne_flov : flov.swAllocOne cfg o = Pipeline.swAllocOne cfg o := by
  have hlost (e : Entry vcs Nat) (f : Flit k vcs) (s : Pipeline k vcs) :
      flov.swLostRoute cfg o e f s = s.swLostRoute cfg e f := by
    unfold swLostRoute Pipeline.swLostRoute
    simp only [noWay_flov, bind_assoc, reduceCtorEq, or_false]
    rfl
  have hfailed (e : Entry vcs Nat) (f : Flit k vcs) (s : Pipeline k vcs) :
      flov.swFailed cfg o e f s = s.swFailed cfg e f := by
    unfold swFailed Pipeline.swFailed
    rw [hlost]
    rfl
  funext e s
  unfold swAllocOne Pipeline.swAllocOne swDecided Pipeline.swDecided
  simp only [hfailed]
  rfl

theorem swAllocUpdate_flov (s : Pipeline k vcs) :
    flov.swAllocUpdate cfg o s = s.swAllocUpdate cfg o := by
  unfold swAllocUpdate Pipeline.swAllocUpdate
  rw [swAllocOne_flov]

theorem cycle_flov (s : Pipeline k vcs) : flov.cycle cfg o s = s.cycle cfg o := by
  unfold cycle Pipeline.cycle beforeSWAlloc
  simp only [bind_assoc, routeUpdate_flov, vcAllocUpdate_flov, swAllocUpdate_flov]

end FLOV

end Scheme

end Pipeline

end Flyover
