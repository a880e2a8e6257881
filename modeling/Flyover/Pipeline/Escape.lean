import Flyover.Pipeline.Blocked

/-!
# How blocked packets get to the escape network

A packet that has waited for 300 cycles is sent back to routing, where it is put on the
escape virtual channel of its class, the first one of the range of the class. But the
routers send it back only in the cycle in which it has waited for exactly 300 cycles, if
one of its requests happens to be decided just then, and they do not know the classes:
they spare the output virtual channel 0, or none, and only when the switch is refused.
-/

namespace Flyover

namespace Pipeline

variable {k vcs : Nat}

/-- A run of a router from its start on: the cycles in which it is on. -/
structure Scheme.Run (scheme : Scheme) (cfg : PipelineConfig k) (vcs : Nat) where
  nextBuf : Fin 5 → BufferState vcs
  outside : Nat → Outside k vcs
  state : Nat → Pipeline k vcs
  length : Nat
  start : state 0 = initial nextBuf
  now_lt : ∀ m, m + 1 < length → (outside m).now < (outside (m + 1)).now
  step : ∀ m < length, scheme.cycle cfg (outside m) (state m) = some (state (m + 1))

/-- In this cycle the packet is on the escape virtual channel of its class, or has it at
the next router by the time when the switch is allocated. -/
def OnEscape (range : VCRange) (o : Outside k vcs) (t : Pipeline k vcs) (input : Fin 5)
    (vc : Fin vcs) : Prop :=
  (vc : Int) = range.vcBegin ∨ ∃ out ∈ t.outBy o input vc, (out.2 : Int) = range.vcBegin

namespace Scheme.Run

variable {scheme : Scheme} {cfg : PipelineConfig k} (run : scheme.Run cfg vcs)

/-- A cycle when its stages end. -/
def begun (m : Nat) : Pipeline k vcs :=
  ((run.state m).begun cfg (run.outside m)).getD (run.state m)

/-- A packet waits in all cycles from one to another and does not get the switch. The
router stays on for that long. -/
structure Blocked (input : Fin 5) (vc : Fin vcs) (f : Flit k vcs) (first last : Nat) : Prop where
  first_le : first ≤ last
  last_lt : last < run.length
  now_succ : ∀ m, first ≤ m → m < last → (run.outside (m + 1)).now = (run.outside m).now + 1
  waits : ∀ m, first ≤ m → m ≤ last → HeadWaits (run.state m) input vc f
  refused : ∀ m, first ≤ m → m ≤ last → Refused (run.outside m) (run.begun m) input vc

/-- When it has waited for 300 cycles, a request fails that the time-out looks at if the
packet is not on an escape virtual channel, and none does if it is. -/
def TimesOutRight (range : VCRange) (input : Fin 5) (vc : Fin vcs) (f : Flit k vcs) (m : Nat) :
    Prop :=
  (run.outside m).now - f.rtime = 300 →
    (scheme.retries (run.outside m) (run.begun m) input vc = true ↔
      ¬ OnEscape range (run.outside m) (run.begun m) input vc)

variable {run} {range : VCRange} {input : Fin 5} {vc : Fin vcs} {f : Flit k vcs} {first last m : Nat}

theorem orderly (hm : m ≤ run.length) : Orderly (run.state m) := by
  induction m with
  | zero =>
      rw [run.start]
      exact .initial run.nextBuf
  | succ m ih => exact (ih (Nat.le_of_succ_le hm)).cycle _ (run.step m hm)

theorem now_lt_of_lt {n : Nat} (hmn : m < n) (hn : n < run.length) :
    (run.outside m).now < (run.outside n).now := by
  induction n, hmn using Nat.le_induction with
  | base => exact run.now_lt m hn
  | succ n _ ih => exact (ih (Nat.lt_of_succ_lt hn)).trans (run.now_lt n hn)

theorem begun_eq (hm : m < run.length) :
    (run.state m).begun cfg (run.outside m) = some (run.begun m) ∧
      scheme.ended cfg (run.outside m) (run.begun m) = some (run.state (m + 1)) := by
  have hstep := run.step m hm
  rw [cycle_eq] at hstep
  obtain ⟨t, ht, hended⟩ := Option.bind_eq_some_iff.mp hstep
  have hbegun : run.begun m = t := by
    rw [begun, ht]
    rfl
  rw [hbegun]
  exact ⟨ht, hended⟩

namespace Blocked

/-- What a cycle does to the packet. -/
theorem ended (h : run.Blocked input vc f first last) (hfirst : first ≤ m) (hlast : m ≤ last) :
    BackIn (TimesOut scheme (run.outside m) (run.begun m) input vc f)
        ((run.state (m + 1)).buf input vc) ∨
      Asks (run.outside m) (run.begun m) (run.state (m + 1)) input vc f ∧
        ¬ TimesOut scheme (run.outside m) (run.begun m) input vc f := by
  have hm : m < run.length := Nat.lt_of_le_of_lt hlast h.last_lt
  obtain ⟨hbegun, hended⟩ := begun_eq hm
  have hwait := ((h.waits m hfirst hlast).begun _ hbegun).1
  exact hwait.ended ((orderly hm.le).begun _ hbegun) (begun_decided _ hbegun)
    (h.refused m hfirst hlast) _ hended

theorem now_begun (h : run.Blocked input vc f first last) (hfirst : first ≤ m) (hlast : m ≤ last) :
    (run.begun m).now = (run.outside m).now :=
  ((h.waits m hfirst hlast).begun _ (begun_eq (Nat.lt_of_le_of_lt hlast h.last_lt)).1).2.2

/-- A packet that waits in the next cycle, too, was not sent back. -/
theorem asks (h : run.Blocked input vc f first last) (hfirst : first ≤ m) (hlast : m < last) :
    Asks (run.outside m) (run.begun m) (run.state (m + 1)) input vc f ∧
      ¬ TimesOut scheme (run.outside m) (run.begun m) input vc f := by
  refine (h.ended hfirst hlast.le).resolve_left fun hback => ?_
  have hwaits := (h.waits (m + 1) (Nat.le_succ_of_le hfirst) hlast).state
  rw [hback.state] at hwaits
  simp at hwaits

/-- Once it is on the escape virtual channel, a packet stays on it while it waits. -/
theorem onEscape_succ (h : run.Blocked input vc f first last) (hfirst : first ≤ m)
    (hlast : m < last) (hescape : OnEscape range (run.outside m) (run.begun m) input vc) :
    OnEscape range (run.outside (m + 1)) (run.begun (m + 1)) input vc := by
  have hm : m + 1 < run.length := Nat.lt_of_le_of_lt hlast h.last_lt
  have hwaits := h.waits (m + 1) (Nat.le_succ_of_le hfirst) hlast
  have hout : ((run.begun (m + 1)).buf input vc).out =
      (run.begun m).outBy (run.outside m) input vc :=
    (hwaits.begun _ (begun_eq hm).1).2.1.trans (h.asks hfirst hlast).1.out
  refine hescape.imp id fun ⟨out, hmem, hvc⟩ => ⟨out, ?_, hvc⟩
  rw [outBy, hout, hmem]
  rfl

/-- Off the escape virtual channel no one waits for longer. -/
theorem age_le (h : run.Blocked input vc f first last) (hyoung : (run.outside first).now - f.rtime ≤ 300)
    (hmeets : ∀ m, first ≤ m → m ≤ last → run.TimesOutRight range input vc f m)
    (hfirst : first ≤ m) (hlast : m ≤ last)
    (hescape : ¬ OnEscape range (run.outside m) (run.begun m) input vc) :
    (run.outside m).now - f.rtime ≤ 300 := by
  induction m, hfirst using Nat.le_induction with
  | base => exact hyoung
  | succ m hfirst ih =>
      have hbefore : ¬ OnEscape range (run.outside m) (run.begun m) input vc :=
        fun h' => hescape (h.onEscape_succ hfirst hlast h')
      have hle := ih (Nat.le_of_succ_le hlast) hbefore
      have hsucc := h.now_succ m hfirst hlast
      have hne : (run.outside m).now - f.rtime ≠ 300 := by
        intro hage
        apply (h.asks hfirst hlast).2
        refine ⟨?_, (hmeets m hfirst (Nat.le_of_succ_le hlast) hage).mpr hbefore⟩
        rw [h.now_begun hfirst (Nat.le_of_succ_le hlast)]
        exact hage
      omega

end Blocked

/-- If a packet has not waited for more than 300 cycles already when it comes to the front,
it is sent back as soon as it has waited for 300, and the routing function sees more than
these; unless it is on the escape virtual channel, and then it is sent back only when its
route is deleted. -/
theorem reachesEscape (h : run.Blocked input vc f first last)
    (hyoung : (run.outside first).now - f.rtime ≤ 300)
    (hmeets : ∀ m, first ≤ m → m ≤ last → run.TimesOutRight range input vc f m) :
    (¬ OnEscape range (run.outside last) (run.begun last) input vc →
      300 ≤ (run.outside last).now - f.rtime →
        ((run.state (last + 1)).buf input vc).state = .routing ∧
          ∀ m, last < m → m < run.length → 300 < (run.outside m).now - f.rtime) ∧
    (OnEscape range (run.outside last) (run.begun last) input vc →
      ((run.state (last + 1)).buf input vc).state = .routing →
      RouteDeleted ((run.state (last + 1)).buf input vc)) := by
  have hended := h.ended h.first_le (le_refl last)
  have hlast := hmeets last h.first_le (le_refl last)
  constructor
  · intro hescape hage
    have hle := h.age_le hyoung hmeets h.first_le (le_refl last) hescape
    have hage : (run.outside last).now - f.rtime = 300 := le_antisymm hle hage
    have htimesOut : TimesOut scheme (run.outside last) (run.begun last) input vc f := by
      refine ⟨?_, (hlast hage).mpr hescape⟩
      rw [h.now_begun h.first_le (le_refl last)]
      exact hage
    refine ⟨(hended.resolve_right fun hasks => hasks.2 htimesOut).state, fun m hm hlength => ?_⟩
    have hlater := now_lt_of_lt hm hlength
    omega
  · intro hescape hrouting
    rcases hended with hback | ⟨hasks, -⟩
    · cases hback with
      | dropped hdeleted => exact hdeleted
      | timedOut htimesOut _ =>
          obtain ⟨hage, hretries⟩ := htimesOut
          rw [h.now_begun h.first_le (le_refl last)] at hage
          exact absurd hescape ((hlast hage).mp hretries)
    · have hwaits := hasks.state
      rw [hrouting] at hwaits
      simp at hwaits

end Scheme.Run

/-! ### One packet -/

def twoChannels : BufferConfig 2 where
  vcBufSize := 1
  bufSize := -1
  waitForTailCredit := false

/-- A packet to the router in the east, on the second virtual channel. -/
def patient : Flit 3 2 where
  pid := 0
  head := true
  tail := true
  vc := 1
  cl := 0
  dest := 5
  rtime := 0
  laRouteSet := .clear

/-- The packet comes in from the west in the first cycle. It gets the second virtual channel
of the router in the east in one cycle only, and it never gets the switch. -/
def patientCycle (grant m : Nat) : Outside 3 2 where
  now := m
  inQueueFlits input := if m == 0 && input == 1 then some patient else none
  creditUpdate := id
  downstreamStates _ := .powerOn
  neighborStates _ := .powerOn
  route _ _ := OutputSet.clear.addRange (.mesh .east) 0 1 0
  routeAhead _ _ := .clear
  vcAssigned _ _ := if m = grant then some (0, 1) else none
  swHeld _ _ := none
  swAssigned _ _ := none
  outputBufferRoom _ := true

def emptyBuffers : Fin 5 → BufferState 2 := fun _ => .new twoChannels (.privateBuffer (by decide))

/-- The states of the router in the middle. -/
def patientState (grant : Nat) : Nat → Pipeline 3 2
  | 0 => initial emptyBuffers
  | m + 1 => (Scheme.flov.cycle (middle false) (patientCycle grant m) (patientState grant m)).getD
      (patientState grant m)

/-- The packet has been routed. -/
def routed : Pipeline 3 2 := patientState 0 1

/-- In each cycle it asks for a virtual channel. -/
theorem routed_begun {grant m : Nat} (hgrant : m + 1 ≠ grant) :
    ({ routed with now := m } : Pipeline 3 2).begun (middle false) (patientCycle grant (m + 1)) =
      some { routed with
        now := (m : Int) + 1
        vcAllocVCs := [{ time := some ((m : Int) + 1), input := 1, vc := 1 }] } := by
  have hqueued : (({ routed with now := m } : Pipeline 3 2).readInputs
      (patientCycle grant (m + 1))).inputQueuing (middle false) (patientCycle grant (m + 1)) =
      some { routed with now := (m : Int) + 1 } := rfl
  have hqueue : Entry.decideBy ((m : Int) + 1) (patientCycle grant (m + 1)).vcAssigned
      (Entry.stamp ((m : Int) + 1 + 1 - 1) [{ input := 1, vc := 1 }]) =
      [{ time := some ((m : Int) + 1), input := 1, vc := 1 }] := by
    simp [Entry.stamp, Entry.decideBy, Entry.due, patientCycle, hgrant]
  unfold begun
  rw [hqueued]
  exact congrArg (fun queue => some { routed with now := (m : Int) + 1, vcAllocVCs := queue }) hqueue

/-- Nothing changes as long as it does not get one, but for the 300th cycle. -/
theorem routed_next {grant m : Nat} (hgrant : m + 1 ≠ grant) (hage : m + 1 ≠ 300) :
    Scheme.flov.cycle (middle false) (patientCycle grant (m + 1)) { routed with now := m } =
      some { routed with now := (m : Int) + 1 } := by
  let e : Entry 2 (Fin 5 × Fin 2) := { time := some ((m : Int) + 1), input := 1, vc := 1 }
  let t : Pipeline 3 2 := { routed with now := (m : Int) + 1, vcAllocVCs := [e] }
  have hfront : Scheme.vcAllocFront t = some e := by
    simp [Scheme.vcAllocFront, Entry.due, t, e]
  have hagain : Scheme.flov.vcAllocOne (middle false) (patientCycle grant (m + 1)) e t =
      some { routed with now := (m : Int) + 1 } := by
    apply vcAllocOne_again (f := patient) ⟨rfl, rfl, .inl rfl⟩ rfl rfl rfl rfl
    · rfl
    · dsimp only [t, patient]
      omega
  have hended : Scheme.flov.ended (middle false) (patientCycle grant (m + 1)) t = (do
      let s ← Worklist.loop Scheme.vcAllocFront
        (Scheme.flov.vcAllocOne (middle false) (patientCycle grant (m + 1))) 1 t
      let s ← s.swHoldUpdate (middle false) (patientCycle grant (m + 1))
      Scheme.flov.swAllocUpdate (middle false) (patientCycle grant (m + 1)) s) := rfl
  rw [Scheme.cycle_eq, routed_begun hgrant]
  calc Scheme.flov.ended (middle false) (patientCycle grant (m + 1)) t
      = _ := hended
    _ = some { routed with now := (m : Int) + 1 } := by
        rw [Worklist.loop_some hfront, hagain]
        rfl

theorem patientState_routed {grant m : Nat} (hgrant : grant = 0 ∨ 300 ≤ grant) (hm : m < 300) :
    patientState grant (m + 1) = { routed with now := m } := by
  induction m with
  | zero => rfl
  | succ m ih =>
      have hnext : Scheme.flov.cycle (middle false) (patientCycle grant (m + 1))
          (patientState grant (m + 1)) = some { routed with now := (m : Int) + 1 } := by
        rw [ih (Nat.lt_of_succ_lt hm)]
        exact routed_next (by omega) (by omega)
      rw [patientState, hnext]
      rfl

/-- The packet has got a virtual channel when it has waited for 300 cycles. -/
def granted : Pipeline 3 2 :=
  (Scheme.flov.cycle (middle false) (patientCycle 300 300) { routed with now := 299 }).getD routed

theorem granted_next {m : Nat} (hage : m + 1 ≠ 300) :
    Scheme.flov.cycle (middle false) (patientCycle 300 (m + 1)) { granted with now := m } =
      some { granted with now := (m : Int) + 1 } := by
  let e : Entry 2 Nat := { time := some ((m : Int) + 1), input := 1, vc := 1 }
  let t : Pipeline 3 2 := { granted with now := (m : Int) + 1, swAllocVCs := [e] }
  have hbegun : ({ granted with now := m } : Pipeline 3 2).begun (middle false)
      (patientCycle 300 (m + 1)) = some t := by
    have hqueued : (({ granted with now := m } : Pipeline 3 2).readInputs
        (patientCycle 300 (m + 1))).inputQueuing (middle false) (patientCycle 300 (m + 1)) =
        some { granted with now := (m : Int) + 1 } := rfl
    have hqueue : Entry.decideBy ((m : Int) + 1) (patientCycle 300 (m + 1)).swAssigned
        (Entry.stamp ((m : Int) + 1 + 1 - 1) [{ input := 1, vc := 1 }]) = [e] := by
      simp [Entry.stamp, Entry.decideBy, Entry.due, patientCycle, e]
    unfold begun
    rw [hqueued]
    exact congrArg (fun queue => some { t with swAllocVCs := queue }) hqueue
  have hfront : swAllocFront t = some e := by
    simp [swAllocFront, Entry.due, t, e]
  have hagain : Scheme.flov.swAllocOne (middle false) (patientCycle 300 (m + 1)) e t =
      some { granted with now := (m : Int) + 1 } := by
    apply swAllocOne_again (f := patient) ⟨rfl, rfl, .inr rfl⟩ rfl rfl rfl rfl rfl
    · rfl
    · dsimp only [t, patient]
      omega
  have hended : Scheme.flov.ended (middle false) (patientCycle 300 (m + 1)) t =
      Worklist.loop swAllocFront
        (Scheme.flov.swAllocOne (middle false) (patientCycle 300 (m + 1))) 1 t := rfl
  rw [Scheme.cycle_eq, hbegun]
  calc Scheme.flov.ended (middle false) (patientCycle 300 (m + 1)) t
      = _ := hended
    _ = some { granted with now := (m : Int) + 1 } := by
        rw [Worklist.loop_some hfront, hagain]
        rfl

theorem patientState_granted {m : Nat} (hm : 300 ≤ m) :
    patientState 300 (m + 1) = { granted with now := m } := by
  induction m, hm using Nat.le_induction with
  | base =>
      rw [patientState, patientState_routed (.inr le_rfl) (by decide)]
      rfl
  | succ m hm ih =>
      rw [patientState, ih, granted_next (by omega)]
      rfl

theorem patientState_succ {grant m : Nat}
    (hgrant : grant = 300 ∨ grant = 0 ∧ m ≤ 300) :
    Scheme.flov.cycle (middle false) (patientCycle grant m) (patientState grant m) =
      some (patientState grant (m + 1)) := by
  have hsome : (Scheme.flov.cycle (middle false) (patientCycle grant m)
      (patientState grant m)).isSome = true := by
    cases m with
    | zero => rfl
    | succ m =>
        rcases Nat.lt_trichotomy (m + 1) 300 with hearly | hlast | hlate
        · rw [patientState_routed (by omega) (by omega), routed_next (by omega) (by omega)]
          rfl
        · obtain rfl : m = 299 := by omega
          rw [patientState_routed (by omega) (by omega)]
          rcases hgrant with rfl | ⟨rfl, -⟩
          · rfl
          · rfl
        · obtain rfl : grant = 300 := by omega
          rw [patientState_granted (by omega), granted_next (by omega)]
          rfl
  obtain ⟨s, hs⟩ := Option.isSome_iff_exists.mp hsome
  rw [patientState, hs]
  rfl

/-- The packet gets a virtual channel in cycle 300, or the run ends with this cycle. -/
def patientRun (grant length : Nat) (hgrant : grant = 300 ∨ grant = 0 ∧ length ≤ 301) :
    Scheme.flov.Run (middle false) 2 where
  nextBuf := emptyBuffers
  outside := patientCycle grant
  state := patientState grant
  length := length
  start := rfl
  now_lt m _ := Int.ofNat_lt.mpr (Nat.lt_succ_self m)
  step m hm := patientState_succ (by omega)

theorem patientState_waits {grant m : Nat} (hgrant : grant = 300 ∨ grant = 0 ∧ m ≤ 300)
    (hm : 1 ≤ m) : HeadWaits (patientState grant m) 1 1 patient ∧
      ∀ out ∈ ((patientState grant m).buf 1 1).out, out.2 = 1 := by
  obtain ⟨m, rfl⟩ := Nat.exists_eq_add_of_le' hm
  by_cases hearly : m < 300
  · rw [patientState_routed (by omega) hearly]
    exact ⟨⟨rfl, rfl, .inl rfl⟩, nofun⟩
  · obtain rfl : grant = 300 := by omega
    rw [patientState_granted (by omega)]
    refine ⟨⟨rfl, rfl, .inr rfl⟩, fun out hout => ?_⟩
    rw [← Option.some.inj hout]

theorem patientRun_blocked {grant last : Nat} (hgrant : grant = 300 ∨ grant = 0 ∧ last ≤ 300)
    (hlast : 1 ≤ last) : (patientRun grant (last + 1) (by omega)).Blocked 1 1 patient 1 last where
  first_le := hlast
  last_lt := Nat.lt_succ_self last
  now_succ m _ _ := Int.natCast_succ m
  waits m hfirst hm := (patientState_waits (by omega) hfirst).1
  refused m _ _ := ⟨fun _ => rfl, fun _ => rfl⟩

theorem patientRun_not_onEscape {grant last m : Nat} (hgrant : grant = 300 ∨ grant = 0 ∧ last ≤ 300)
    (hfirst : 1 ≤ m) (hm : m ≤ last) :
    ¬ OnEscape ⟨0, 1⟩ (patientCycle grant m) ((patientRun grant (last + 1) (by omega)).begun m) 1 1 := by
  have hrun : grant = 300 ∨ grant = 0 ∧ m ≤ 300 := by omega
  obtain ⟨hwaits, hout⟩ := patientState_waits hrun hfirst
  have hlength : m < (patientRun grant (last + 1) (by omega)).length := Nat.lt_succ_of_le hm
  obtain ⟨-, hsame, -⟩ := hwaits.begun _ (Scheme.Run.begun_eq hlength).1
  rintro (hvc | ⟨out, hmem, hvc⟩)
  · exact absurd hvc (by decide)
  · have hone : out.2 = 1 := by
      rcases Option.or_eq_some_iff.mp hmem with hheld | ⟨-, hassigned⟩
      · exact hout out (hsame.symm.trans hheld)
      · split at hassigned
        · by_cases hm : m = grant
          · rw [show (patientCycle grant m).vcAssigned 1 1 = some (0, 1) from if_pos hm] at hassigned
            rw [← Option.some.inj hassigned]
          · rw [show (patientCycle grant m).vcAssigned 1 1 = none from if_neg hm] at hassigned
            exact nomatch hassigned
        · exact nomatch hassigned
    rw [hone] at hvc
    exact absurd hvc (by decide)


theorem patientRun_age (grant length m : Nat) (hgrant : grant = 300 ∨ grant = 0 ∧ length ≤ 301) :
    ((patientRun grant length hgrant).outside m).now - patient.rtime = m :=
  Int.sub_zero _

/-- Its request for a virtual channel fails in each cycle. -/
theorem patientRun_retries {last m : Nat} (hlast : last ≤ 300) (hm : m < last) :
    Scheme.flov.retries (patientCycle 0 (m + 1))
      ((patientRun 0 (last + 1) (by omega)).begun (m + 1)) 1 1 = true := by
  have hbegun : (patientRun 0 (last + 1) (by omega)).begun (m + 1) = { routed with
      now := (m : Int) + 1
      vcAllocVCs := [{ time := some ((m : Int) + 1), input := 1, vc := 1 }] } := by
    have hstate : patientState 0 (m + 1) = { routed with now := m } :=
      patientState_routed (.inl rfl) (by omega)
    rw [Scheme.Run.begun]
    change ((patientState 0 (m + 1)).begun _ (patientCycle 0 (m + 1))).getD _ = _
    rw [hstate, routed_begun (by omega)]
    rfl
  rw [hbegun]
  simp [Scheme.retries, vcDue, dueIn, Entry.isFor, Entry.due, patientCycle]

/-- Without a virtual channel it is sent back after cycle 300. -/
theorem reachesEscape_patient : ∃ run : Scheme.flov.Run (middle false) 2,
    ((run.state 301).buf 1 1).state = .routing := by
  have hgrant : 0 = 300 ∨ 0 = 0 ∧ 300 ≤ 300 := by decide
  have hmeets : ∀ m, 1 ≤ m → m ≤ 300 →
      (patientRun 0 301 (by decide)).TimesOutRight ⟨0, 1⟩ 1 1 patient m := by
    intro m hfirst hm _
    obtain ⟨m, rfl⟩ := Nat.exists_eq_add_of_le' hfirst
    exact ⟨fun _ => patientRun_not_onEscape hgrant hfirst hm,
      fun _ => patientRun_retries (le_refl 300) hm⟩
  have hends := Scheme.Run.reachesEscape (patientRun_blocked hgrant (by decide))
    (by rw [patientRun_age]; decide) hmeets
  have hage : (300 : Int) ≤ ((patientRun 0 301 (by decide)).outside 300).now - patient.rtime := by
    rw [patientRun_age]
    decide
  have hrouting := (hends.1 (patientRun_not_onEscape hgrant (by decide) (le_refl 300)) hage).1
  exact ⟨patientRun 0 301 (by decide), hrouting⟩

/-- The packet that gets a virtual channel in cycle 300 waits for ever. -/
theorem not_reachesEscape : ∃ (outside : Nat → Outside 3 2) (f : Flit 3 2), ∀ last, 1 ≤ last →
    ∃ run : Scheme.flov.Run (middle false) 2, run.outside = outside ∧
      run.Blocked 1 1 f 1 last ∧ (outside last).now - f.rtime = last ∧
      ∀ m, 1 ≤ m → m ≤ last → ¬ OnEscape ⟨0, 1⟩ (run.outside m) (run.begun m) 1 1 := by
  refine ⟨patientCycle 300, patient, fun last hlast => ?_⟩
  refine ⟨patientRun 300 (last + 1) (.inl rfl), rfl, patientRun_blocked (.inl rfl) hlast, ?_, ?_⟩
  · exact Int.sub_zero _
  · exact fun m hfirst hm => patientRun_not_onEscape (.inl rfl) hfirst hm

end Pipeline

end Flyover
