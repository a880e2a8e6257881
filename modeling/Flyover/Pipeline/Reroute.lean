import Flyover.Pipeline.Dispatch

/-!
# Going back to routing for want of a way

`FLOVRouter`, `GFLOVRouter`, `RFLOVRouter` and `NoRDRouter` look at the candidates of
a head flit that has got no virtual channel, or no switch before it had one. Each of
them deletes candidates from a copy of the output set and routes the packet again if
nothing is left. They differ in what they test, and `NoRDRouter` knows no time-out.

Once a candidate has been deleted, all that follow it are. So what counts is the first
candidate, whatever the others are.
-/

namespace Flyover

namespace Pipeline

variable {k vcs : Nat} {cfg : PipelineConfig k}

/-- The routers with this test. -/
inductive Rerouting where
  | flov
  | gflov
  | rflov
  | nord
  deriving DecidableEq, Repr

/-- What a router knows of the others. -/
structure Known where
  downstreamStates : Fin 5 → PowerState
  neighborStates : Fin 5 → PowerState
  /-- `_ring_out_port` -/
  ringOutPort : Fin 5

/-- The test of `NoRDRouter`, which is for a router that drains and for no other. -/
def isDraining (cfg : PipelineConfig k) (neighborStates : Fin 5 → PowerState) (out : Fin 5) : Bool :=
  match cfg.sink out with
  | none => false
  | some router => !Router.bottomRow router && neighborStates out == .draining

namespace Rerouting

/-- The router behind an output cannot be reached because of its power state. -/
def unavailable (cfg : PipelineConfig k) (known : Known) : Rerouting → Fin 5 → Bool
  | .flov, out => cfg.backToRoute known.downstreamStates out
  | .gflov, out => cfg.backToRoute known.downstreamStates out
  | .rflov, out => drainingOrWaking cfg known.neighborStates out
  | .nord, out => isDraining cfg known.neighborStates out

/-- What `NoRDRouter` asserts of a candidate. -/
def check (cfg : PipelineConfig k) (known : Known) (out : Fin 5) : Rerouting → Prop
  | .nord => (cfg.sink out).isSome = true → known.neighborStates out = .powerOff →
      out = known.ringOutPort
  | .flov => True
  | .gflov => True
  | .rflov => True

instance (known : Known) (out : Fin 5) : (r : Rerouting) → Decidable (r.check cfg known out)
  | .nord => inferInstanceAs (Decidable (_ → _ → _))
  | .flov => inferInstanceAs (Decidable True)
  | .gflov => inferInstanceAs (Decidable True)
  | .rflov => inferInstanceAs (Decidable True)

/-- The router sends a packet back after 300 cycles, too. -/
def timesOut : Rerouting → Bool
  | .flov => true
  | .gflov => true
  | .rflov => true
  | .nord => false

/-- The loop over the candidates with `delete_route`. -/
def candidatesLeft (cfg : PipelineConfig k) (known : Known) (r : Rerouting) :
    Bool → List OutputEntry → Option (List OutputEntry)
  | _, [] => some []
  | deleteRoute, c :: rest => do
      let out ← c.outputPort.output
      guard (r.check cfg known out)
      let deleteRoute := deleteRoute || r.unavailable cfg known out
      let left ← candidatesLeft cfg known r deleteRoute rest
      pure (if deleteRoute then left else c :: left)

/-- `_VCAllocUpdate` for a flit that was assigned no virtual channel -/
def vcAllocFailed (cfg : PipelineConfig k) (known : Known) (r : Rerouting) (input : Fin 5)
    (vc : Fin vcs) (f : Flit k vcs) (s : Pipeline k vcs) : Option (Pipeline k vcs) := do
  let left ← r.candidatesLeft cfg known false (s.buf input vc).routeSet.entries
  if left.isEmpty then
    let s := s.dropRoute input vc
    pure (if cfg.speculative then
      { s with swAllocVCs := eraseSkipping (Entry.isFor input vc) s.swAllocVCs }
    else s)
  else if r.timesOut = true ∧ s.now - f.rtime = 300 then
    let s := s.enterRouting input vc
    pure (if cfg.speculative then
      { s with swAllocVCs := s.swAllocVCs.eraseP (Entry.isFor input vc) }
    else s)
  else
    pure { s with vcAllocVCs := s.vcAllocVCs ++ [{ input := input, vc := vc }] }

/-- `_SWAllocUpdate` for a head flit without a virtual channel that was not granted the
switch: "mis-speculation" -/
def misspeculated (cfg : PipelineConfig k) (known : Known) (r : Rerouting) (input : Fin 5)
    (vc : Fin vcs) (f : Flit k vcs) (s : Pipeline k vcs) : Option (Pipeline k vcs) := do
  guard (cfg.speculative = true)
  guard ((s.buf input vc).out.isNone = true)
  let left ← r.candidatesLeft cfg known false (s.buf input vc).routeSet.entries
  if left.isEmpty then
    pure ({ s with vcAllocVCs := s.vcAllocVCs.eraseP (Entry.isFor input vc) }.dropRoute input vc)
  else if r.timesOut = true ∧ s.now - f.rtime = 300 then
    pure ({ s with vcAllocVCs := s.vcAllocVCs.eraseP (Entry.isFor input vc) }.enterRouting input vc)
  else
    pure { s with swAllocVCs := s.swAllocVCs ++ [{ input := input, vc := vc }] }

end Rerouting

/-! ### `FLOVRouter` -/

section FLOV

variable {known : Known} {s : Pipeline k vcs} {f : Flit k vcs}

theorem routesLeft_eq (deleteRoute : Bool) (entries : List OutputEntry) :
    routesLeft cfg known.downstreamStates deleteRoute entries =
      Rerouting.flov.candidatesLeft cfg known deleteRoute entries := by
  induction entries generalizing deleteRoute with
  | nil => rfl
  | cons c rest ih =>
      unfold routesLeft Rerouting.candidatesLeft
      simp only [ih, Rerouting.check, Rerouting.unavailable]
      rfl

/-- The pipeline has the test of `FLOVRouter`. -/
theorem vcFailed_eq (e : Entry vcs (Fin 5 × Fin vcs)) (hknown : known.downstreamStates = s.downstreamStates) :
    s.vcFailed cfg e f = Rerouting.flov.vcAllocFailed cfg known e.input e.vc f s := by
  unfold vcFailed Rerouting.vcAllocFailed
  rw [← hknown]
  simp only [routesLeft_eq, Rerouting.timesOut, true_and]

theorem swFailed_eq {e : Entry vcs Nat} (hknown : known.downstreamStates = s.downstreamStates)
    (hhead : f.head = true) (hstate : (s.buf e.input e.vc).state = .vcAlloc)
    (hspeculative : cfg.speculative = true) :
    s.swFailed cfg e f = Rerouting.flov.misspeculated cfg known e.input e.vc f s := by
  unfold swFailed swLostRoute Rerouting.misspeculated swTimedOut
  rw [← hknown]
  simp only [routesLeft_eq, Rerouting.timesOut, hhead, hstate, hspeculative]
  cases hout : (s.buf e.input e.vc).out with
  | some out => rfl
  | none =>
      cases hleft : Rerouting.flov.candidatesLeft cfg known false
          (s.buf e.input e.vc).routeSet.entries with
      | none => rfl
      | some left =>
          cases left with
          | nil => simp [guard]
          | cons c left => by_cases htime : s.now - f.rtime = 300 <;> simp [guard, htime]

end FLOV

/-! ### What is deleted -/

/-- The two places where nothing was allocated. -/
inductive Failure where
  | vcAlloc
  | switch
  deriving DecidableEq, Repr

/-- The router deals with the flit in front. -/
def Failure.handle (cfg : PipelineConfig k) (known : Known) (r : Rerouting) (input : Fin 5)
    (vc : Fin vcs) (f : Flit k vcs) (s : Pipeline k vcs) : Failure → Option (Pipeline k vcs)
  | .vcAlloc => r.vcAllocFailed cfg known input vc f s
  | .switch => r.misspeculated cfg known input vc f s

/-- The route is deleted and the packet waits for another. -/
def RouteDeleted (c : InputVC k vcs) : Prop := c.routeSet.entries = [] ∧ c.state = .routing

namespace Rerouting

variable {known : Known} {r : Rerouting} {input : Fin 5} {vc : Fin vcs} {f : Flit k vcs}
  {s s' : Pipeline k vcs}

/-- A candidate that the router finds unavailable. -/
def Unavailable (cfg : PipelineConfig k) (known : Known) (r : Rerouting) (c : OutputEntry) : Prop :=
  ∃ out, c.outputPort.output = some out ∧ r.unavailable cfg known out = true

/-- The first candidate decides. -/
theorem candidatesLeft_nil {deleteRoute : Bool} {entries left : List OutputEntry}
    (h : r.candidatesLeft cfg known deleteRoute entries = some left) :
    left = [] ↔ deleteRoute = true ∨ ∀ c ∈ entries.head?, r.Unavailable cfg known c := by
  induction entries generalizing deleteRoute left with
  | nil =>
      cases h
      exact ⟨fun _ => .inr fun c hc => absurd hc (Option.not_mem_none c), fun _ => rfl⟩
  | cons c rest ih =>
      obtain ⟨out, hout, h⟩ := Option.bind_eq_some_iff.mp h
      obtain ⟨-, h⟩ := guard_bind.mp h
      obtain ⟨later, hlater, h⟩ := Option.bind_eq_some_iff.mp h
      have hc : r.Unavailable cfg known c ↔ r.unavailable cfg known out = true := by
        refine ⟨fun hc => ?_, fun hc => ⟨out, hout, hc⟩⟩
        obtain ⟨out', hout', hc⟩ := hc
        rw [hout] at hout'
        cases hout'
        exact hc
      have hhead : (∀ c' ∈ (c :: rest).head?, r.Unavailable cfg known c') ↔
          r.unavailable cfg known out = true := by
        rw [← hc]
        exact ⟨fun hall => hall c rfl, fun hc c' hc' => Option.some.inj hc' ▸ hc⟩
      rw [hhead, ← Bool.or_eq_true]
      cases hdelete : deleteRoute || r.unavailable cfg known out with
      | true =>
          rw [hdelete] at h hlater
          cases h
          exact ⟨fun _ => rfl, fun _ => (ih hlater).mpr (.inl rfl)⟩
      | false =>
          rw [hdelete] at h
          cases h
          exact iff_of_false (List.cons_ne_nil _ _) Bool.false_ne_true

theorem candidatesLeft_of_empty {left : List OutputEntry} {entries : List OutputEntry}
    (h : r.candidatesLeft cfg known false entries = some left) (hentries : entries = []) :
    left = [] :=
  (candidatesLeft_nil h).mpr (.inr (by rw [hentries]; exact nofun))

theorem dropRoute_deleted (s : Pipeline k vcs) (input : Fin 5) (vc : Fin vcs) :
    RouteDeleted ((s.dropRoute input vc).buf input vc) := by
  have hself : (s.dropRoute input vc).buf input vc =
      ((s.buf input vc).clearRouteSet).setState .routing := by
    unfold Pipeline.dropRoute Pipeline.enterRouting
    simp [modifyVC]
  rw [hself]
  exact ⟨rfl, rfl⟩

/-- A time-out keeps the route. -/
theorem enterRouting_entries (s : Pipeline k vcs) (input : Fin 5) (vc : Fin vcs) :
    ((s.enterRouting input vc).buf input vc).routeSet = (s.buf input vc).routeSet := by
  unfold Pipeline.enterRouting
  simp [modifyVC, InputVC.setState]

theorem vcAllocFailed_deleted (h : r.vcAllocFailed cfg known input vc f s = some s') :
    RouteDeleted (s'.buf input vc) ↔
      ∀ c ∈ (s.buf input vc).routeSet.entries.head?, r.Unavailable cfg known c := by
  obtain ⟨left, hleft, h⟩ := Option.bind_eq_some_iff.mp h
  have hnil := candidatesLeft_nil hleft
  rw [Bool.false_eq_true, false_or] at hnil
  rw [← hnil]
  split at h
  next hempty =>
    have hdeleted := dropRoute_deleted s input vc
    cases h
    refine ⟨fun _ => List.isEmpty_iff.mp hempty, fun _ => ?_⟩
    split <;> exact hdeleted
  next hsome =>
    rw [List.isEmpty_iff] at hsome
    have hkept : (s'.buf input vc).routeSet = (s.buf input vc).routeSet := by
      split at h
      next =>
        have hrouting := enterRouting_entries s input vc
        cases h
        split <;> exact hrouting
      next =>
        cases h
        rfl
    refine ⟨fun hdeleted => ?_, fun hleft => absurd hleft hsome⟩
    exact candidatesLeft_of_empty hleft (hkept ▸ hdeleted.1)

theorem misspeculated_deleted (h : r.misspeculated cfg known input vc f s = some s') :
    RouteDeleted (s'.buf input vc) ↔
      ∀ c ∈ (s.buf input vc).routeSet.entries.head?, r.Unavailable cfg known c := by
  obtain ⟨-, h⟩ := guard_bind.mp h
  obtain ⟨-, h⟩ := guard_bind.mp h
  obtain ⟨left, hleft, h⟩ := Option.bind_eq_some_iff.mp h
  have hnil := candidatesLeft_nil hleft
  rw [Bool.false_eq_true, false_or] at hnil
  rw [← hnil]
  split at h
  next hempty =>
    cases h
    exact ⟨fun _ => List.isEmpty_iff.mp hempty, fun _ => dropRoute_deleted _ input vc⟩
  next hsome =>
    rw [List.isEmpty_iff] at hsome
    have hkept : (s'.buf input vc).routeSet = (s.buf input vc).routeSet := by
      split at h
      next =>
        cases h
        exact enterRouting_entries _ input vc
      next =>
        cases h
        rfl
    refine ⟨fun hdeleted => ?_, fun hleft => absurd hleft hsome⟩
    exact candidatesLeft_of_empty hleft (hkept ▸ hdeleted.1)

end Rerouting

/-- A route is deleted exactly when no candidate is available, unless the first candidate
is not available and another one is. -/
theorem routeDeleted_iff {known : Known} {r : Rerouting} {failure : Failure} {input : Fin 5}
    {vc : Fin vcs} {f : Flit k vcs} {s s' : Pipeline k vcs}
    (h : failure.handle cfg known r input vc f s = some s') :
    (RouteDeleted (s'.buf input vc) ↔
      ∀ c ∈ (s.buf input vc).routeSet.entries, r.Unavailable cfg known c) ↔
    (∃ c ∈ (s.buf input vc).routeSet.entries.head?, ¬ r.Unavailable cfg known c) ∨
      ∀ c ∈ (s.buf input vc).routeSet.entries, r.Unavailable cfg known c := by
  have hdeleted : RouteDeleted (s'.buf input vc) ↔
      ∀ c ∈ (s.buf input vc).routeSet.entries.head?, r.Unavailable cfg known c := by
    cases failure with
    | vcAlloc => exact Rerouting.vcAllocFailed_deleted h
    | switch => exact Rerouting.misspeculated_deleted h
  have hfirst : (∀ c ∈ (s.buf input vc).routeSet.entries, r.Unavailable cfg known c) →
      ∀ c ∈ (s.buf input vc).routeSet.entries.head?, r.Unavailable cfg known c :=
    fun hall c hc => hall c (List.mem_of_mem_head? hc)
  rw [hdeleted]
  constructor
  · intro hiff
    by_cases hhead : ∀ c ∈ (s.buf input vc).routeSet.entries.head?, r.Unavailable cfg known c
    · exact .inr (hiff.mp hhead)
    · push Not at hhead
      exact .inl hhead
  · rintro (⟨c, hc, havailable⟩ | hall)
    · exact ⟨fun hhead => absurd (hhead c hc) havailable, hfirst⟩
    · exact ⟨fun _ => hall, hfirst⟩

/-- A packet to the east or, if it has to, to the north or along the escape route. -/
def waiting : Pipeline 3 1 :=
  (initial fun _ => emptyBuffer).modifyVC 1 0 fun _ =>
    { buffer := [eastbound]
      state := .vcAlloc
      routeSet := ((OutputSet.clear.addRange (.mesh .south) 0 0 0).addRange
        (.mesh .east) 0 0 2).addRange (.mesh .north) 0 0 1 }

/-- The routers of the mesh are as given in the east and on elsewhere. -/
def eastIs (state : PowerState) : Known where
  downstreamStates out := if out = 0 then state else .powerOn
  neighborStates out := if out = 0 then state else .powerOn
  ringOutPort := 0

theorem routeDeleted_iff_awake : ∃ s' : Pipeline 3 1,
    (RouteDeleted (s'.buf 1 0) ↔ ∀ c ∈ (waiting.buf 1 0).routeSet.entries,
      Rerouting.flov.Unavailable (middle false) (eastIs .powerOn) c) ↔
    (∃ c ∈ (waiting.buf 1 0).routeSet.entries.head?,
      ¬ Rerouting.flov.Unavailable (middle false) (eastIs .powerOn) c) ∨
      ∀ c ∈ (waiting.buf 1 0).routeSet.entries,
        Rerouting.flov.Unavailable (middle false) (eastIs .powerOn) c := by
  have hhandled : (Failure.vcAlloc.handle (middle false) (eastIs .powerOn) .flov 1 0 eastbound
      waiting).isSome = true := rfl
  obtain ⟨s', hs'⟩ := Option.isSome_iff_exists.mp hhandled
  exact ⟨s', routeDeleted_iff hs'⟩

/-- The router in the east drains, and the packet could go north. -/
theorem not_routeDeleted_iff_draining : ∃ s' : Pipeline 3 1,
    Failure.vcAlloc.handle (middle false) (eastIs .draining) .flov 1 0 eastbound waiting =
      some s' ∧
    ¬ (RouteDeleted (s'.buf 1 0) ↔ ∀ c ∈ (waiting.buf 1 0).routeSet.entries,
      Rerouting.flov.Unavailable (middle false) (eastIs .draining) c) := by
  have hhandled : (Failure.vcAlloc.handle (middle false) (eastIs .draining) .flov 1 0 eastbound
      waiting).map (fun s' => ((s'.buf 1 0).routeSet.entries, (s'.buf 1 0).state)) =
      some ([], .routing) := rfl
  obtain ⟨s', hs', hbuf⟩ := Option.map_eq_some_iff.mp hhandled
  obtain ⟨hroute, hstate⟩ := Prod.mk.inj hbuf
  refine ⟨s', hs', fun hiff => ?_⟩
  have hnorth : (⟨.mesh .north, 0, 0, 1⟩ : OutputEntry) ∈ (waiting.buf 1 0).routeSet.entries := by
    decide
  obtain ⟨out, hout, hunavailable⟩ := hiff.mp ⟨hroute, hstate⟩ _ hnorth
  cases hout
  exact absurd hunavailable (by decide)

end Pipeline

end Flyover
