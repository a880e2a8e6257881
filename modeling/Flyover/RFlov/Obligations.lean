import Flyover.RFlov.Safety

/-!
# What the two ends of a link owe each other

`Requests` says what an acknowledgement means. `Obliged` says what becomes of a
request: it is on its way, or the responder knows of it and has not answered, or
the answer is on its way. It also keeps the books that the assertions of
`_HandshakeEvaluate` look into: a router that announces `power_off` has been
answered under its last request, and no answer reaches a router that is off.
-/

namespace Flyover.RFLOVRouter

variable {k : Nat}

/-! ### One port in one cycle, with everything it keeps -/

/-- The assertions of `_HandshakeEvaluate` about one handshake. -/
structure Accepts (ps : PowerState) (e : PortState) (h : Handshake) : Prop where
  off : h.newState = some .powerOff → e.neighborState = .draining ∧ e.drainDoneSent = true
  done : h.drainDone = true → ps ≠ .powerOff

/-- `_drain_done_sent` after a handshake: an announcement asks for a new answer. -/
def answeredAfter (recorded : PowerState) (sent : Bool) (h : Handshake) : Bool :=
  match h.newState with
  | some .powerOn => if recorded = .wakeup ∨ recorded = .draining then false else sent
  | some _ => false
  | none => sent

/-- The entry of a port after a handshake. -/
def processed (ps : PowerState) (e : PortState) (h : Handshake) : PortState :=
  { e with
    neighborState := hear e.neighborState h
    drainDoneSent := answeredAfter e.neighborState e.drainDoneSent h
    drainTag := e.drainTag ||
      (h.drainDone && decide (h.hid = e.reqHid ∧ (ps = .draining ∨ ps = .wakeup)))
    respHid := if h.drainDone then e.respHid else h.hid }

theorem updateNeighborState_eq_ok {e e' : PortState} {newState : Option PowerState} :
    updateNeighborState e newState = .ok e' ↔
      (newState = some .powerOff → e.neighborState = .draining ∧ e.drainDoneSent = true) ∧
        e' = { e with
          neighborState := hear e.neighborState { newState := newState }
          drainDoneSent := answeredAfter e.neighborState e.drainDoneSent { newState := newState } } := by
  have hpure (entry : PortState) : (pure entry : Except AssertFailure PortState) = .ok e' ↔
      e' = entry := by rw [pure_ok, eq_comm]
  unfold updateNeighborState
  split
  next =>
    simp only [require_bind_ok, hpure, forall_const, and_assoc, hear, answeredAfter]
  next =>
    simp only [hear, answeredAfter]
    split
    next hwaiting => simp [hpure]
    next hwaiting => simp [hpure]
  all_goals simp [hpure, hear, answeredAfter]

theorem processHandshake_some {ps : PowerState} {e e' : PortState} {h : Handshake} :
    processHandshake ps e (some h) = .ok e' ↔ Accepts ps e h ∧ e' = processed ps e h := by
  simp only [processHandshake, bind_ok, updateNeighborState_eq_ok]
  have hhear : hear e.neighborState { newState := h.newState } = hear e.neighborState h := rfl
  have hanswered : answeredAfter e.neighborState e.drainDoneSent { newState := h.newState } =
      answeredAfter e.neighborState e.drainDoneSent h := rfl
  rw [hhear, hanswered]
  have hdone : (ps = .draining ∨ ps = .wakeup ∨ ps = .powerOn) ↔ ps ≠ .powerOff := by
    cases ps <;> simp
  constructor
  · rintro ⟨updated, ⟨hoff, rfl⟩, hrequest⟩
    unfold updateRequest at hrequest
    split at hrequest
    next hanswer =>
      rw [require_bind_ok, pure_ok, hdone] at hrequest
      refine ⟨⟨hoff, fun _ => hrequest.1⟩, ?_⟩
      rw [← hrequest.2]
      simp only [processed, hanswer, Bool.true_and, if_true]
      split
      next hvalid => simp [hvalid]
      next hvalid => simp [hvalid]
    next hanswer =>
      rw [pure_ok] at hrequest
      refine ⟨⟨hoff, fun h => absurd h hanswer⟩, ?_⟩
      rw [← hrequest]
      simp [processed, hanswer]
  · rintro ⟨haccepts, rfl⟩
    refine ⟨_, ⟨haccepts.off, rfl⟩, ?_⟩
    unfold updateRequest
    split
    next hanswer =>
      rw [require_bind_ok, pure_ok, hdone]
      refine ⟨haccepts.done hanswer, ?_⟩
      simp only [processed, hanswer, Bool.true_and, if_true]
      split
      next hvalid => simp [hvalid]
      next hvalid => simp [hvalid]
    next hanswer => simp [processed, hanswer]

theorem received_processed (ps : PowerState) (e : PortState) (h : Handshake) :
    Received e h (processed ps e h) where
  neighborState := rfl
  reqHid := rfl
  respHid := rfl
  drainTag := by
    intro htag
    simp only [processed, Bool.or_eq_true, Bool.and_eq_true, decide_eq_true_eq] at htag
    exact htag.imp_right fun hvalid => ⟨hvalid.1, hvalid.2.1⟩

/-- What the power state machine leaves at a port as it was. -/
structure Keeps (ps ps' : PowerState) (e e' : PortState) : Prop where
  drainDoneSent : e'.drainDoneSent = e.drainDoneSent
  drainTag : ps' = ps → ps = .draining ∨ ps = .wakeup → e'.drainTag = e.drainTag

theorem Keeps.change {ps : PowerState} {e : PortState} {n : Node k} {p : Port}
    {chosen : Port → Bool} {r r' : Router} (hok : announce n chosen r = .ok r')
    (hentry : (r.ports p).drainDoneSent = e.drainDoneSent) (hne : r.powerState ≠ ps) :
    Keeps ps r'.powerState e (r'.ports p) := by
  obtain rfl := announce_ok hok
  refine ⟨?_, fun heq => absurd heq hne⟩
  rw [← hentry]
  simp only [Router.queueHandshakes]
  split <;> rfl

section PowerStateEvaluate

variable {cfg : Config k} {n : Node k} {d : Datapath} {r r' : Router}

theorem powerStateEvaluate_keeps (hok : powerStateEvaluate cfg n d r = .ok r') (p : Port) :
    Keeps r.powerState r'.powerState (r.ports p) (r'.ports p) := by
  obtain ⟨-, hok⟩ := require_bind_ok.mp hok
  cases hstate : r.powerState <;> rw [hstate] at hok
  case powerOn =>
    dsimp only [powerOnEvaluate] at hok
    split at hok
    next =>
      obtain rfl := pure_ok.mp hok
      exact ⟨rfl, fun _ h => by simp at h⟩
    next =>
      split at hok
      next => exact .change hok rfl (by simp [Router.setDrainTags])
      next =>
        obtain rfl := pure_ok.mp hok
        exact ⟨rfl, fun _ h => by simp at h⟩
  case draining =>
    dsimp only [drainingEvaluate] at hok
    split at hok
    next => exact .change hok rfl (by simp)
    next =>
      split at hok
      next => exact .change hok rfl (by simp)
      next =>
        split at hok
        next => exact .change hok rfl (by simp)
        next =>
          split at hok
          next => exact .change hok rfl (by simp)
          next =>
            obtain rfl := pure_ok.mp hok
            exact ⟨rfl, fun _ _ => rfl⟩
  case powerOff =>
    dsimp only [powerOffEvaluate] at hok
    split at hok
    next =>
      split at hok
      next => exact .change hok rfl (by simp [Router.setDrainTags])
      next =>
        obtain rfl := pure_ok.mp hok
        exact ⟨rfl, fun _ h => by simp at h⟩
    next =>
      obtain rfl := pure_ok.mp hok
      exact ⟨rfl, fun _ h => by simp at h⟩
  case wakeup =>
    dsimp only [wakeupEvaluate] at hok
    split at hok
    next => exact .change hok rfl (by simp)
    next =>
      obtain rfl := pure_ok.mp hok
      exact ⟨rfl, fun _ _ => rfl⟩

end PowerStateEvaluate

/-- Who has answered does not answer again. -/
theorem internalStep_silent {n : Node k} {p : Port} {d : Datapath} {r : Router}
    (hsent : (r.ports p).drainDoneSent = true) :
    (internalStep n d r).ports p = r.ports p ∧
      (internalStep n d r).outQueueHandshakes p = r.outQueueHandshakes p := by
  unfold internalStep
  split
  · exact ⟨rfl, rfl⟩
  · simp [handshakeResponse, Router.sendDrainDone, hsent]

/-- The entry after what came in, if anything. -/
def heardEntry (ps : PowerState) (e : PortState) : Option Handshake → PortState
  | none => e
  | some h => processed ps e h

theorem processHandshake_heardEntry {ps : PowerState} {e e' : PortState} {rx : Option Handshake}
    (hok : processHandshake ps e rx = .ok e') : e' = heardEntry ps e rx := by
  cases rx with
  | none => exact (pure_ok.mp hok).symm
  | some h => exact (processHandshake_some.mp hok).2

/-- One cycle of an inner port, with what it keeps. -/
structure PortStep (n : Node k) (p : Port) (ps : PowerState) (received : PortState)
    (ps' : PowerState) (moved : PortState) (queued : Option Handshake) (e' : PortState)
    (tx : Option Handshake) : Prop where
  power : PowerMove n p ps received ps' moved queued
  keeps : Keeps ps ps' received moved
  responds : Responds n ps' moved queued e' tx
  silent : moved.drainDoneSent = true → e' = moved ∧ tx = queued

theorem cycle_portStep {cfg : Config k} {n : Node k} {r r' : Router} {inp : Inputs}
    {rx tx : Port → Option Handshake} (hqueue : ∀ p, r.outQueueHandshakes p = none)
    (hok : cycle cfg n r inp rx = .ok (r', tx)) {p : Port} (hp : n.edge p = false) :
    ∃ moved queued, PortStep n p r.powerState (heardEntry r.powerState (r.ports p) (rx p))
      r'.powerState moved queued (r'.ports p) (tx p) := by
  simp only [cycle, bind_ok] at hok
  obtain ⟨heard, hheard, moved, hmoved, hend⟩ := hok
  obtain ⟨rfl, rfl⟩ := Router.outputQueuing_ok hend
  obtain ⟨ports, hports, hkept⟩ := bind_ok.mp hheard
  obtain rfl := pure_ok.mp hkept
  have hentry : heardEntry r.powerState (r.ports p) (rx p) = ports p := by
    have hport := processHandshake_heardEntry (traversePorts_ok.mp hports p)
    simpa using hport.symm
  have hstate : r.powerState = { r.setInputs inp with ports := ports }.powerState := by simp
  rw [hentry]
  refine ⟨moved.ports p, moved.outQueueHandshakes p, ?_, ?_, ?_, ?_⟩
  · have hpower := powerStateEvaluate_ok hp (by simpa using hqueue p) hmoved
    simpa using hpower
  · have hkeeps := powerStateEvaluate_keeps hmoved p
    simpa using hkeeps
  · simpa using internalStep_responds n p inp.datapath moved
  · exact internalStep_silent

/-! ### Answers and announcements on their way -/

/-- No acknowledgement among the messages. -/
def Unanswered (msgs : List Handshake) : Prop := ∀ m ∈ msgs, m.drainDone = false

/-- Acknowledgements only, and no announcement. -/
def Answers (msgs : List Handshake) : Prop :=
  ∀ m ∈ msgs, m.newState = none ∧ m.drainDone = true

/-- Every `power_off` on the way will find the responder as its assertions want it. -/
def Admits (recorded : PowerState) (sent : Bool) : List Handshake → Prop
  | [] => True
  | h :: rest =>
      (h.newState = some .powerOff → recorded = .draining ∧ sent = true) ∧
        Admits (hear recorded h) (answeredAfter recorded sent h) rest

theorem Unanswered.append {first second : List Handshake} (hfirst : Unanswered first)
    (hsecond : Unanswered second) : Unanswered (first ++ second) := by
  intro m hm
  exact (List.mem_append.mp hm).elim (hfirst m) (hsecond m)

theorem Answers.append {first second : List Handshake} (hfirst : Answers first)
    (hsecond : Answers second) : Answers (first ++ second) := by
  intro m hm
  exact (List.mem_append.mp hm).elim (hfirst m) (hsecond m)

theorem Answers.tail {m : Handshake} {rest : List Handshake} (h : Answers (m :: rest)) :
    Answers rest := fun m' hm' => h m' (List.mem_cons_of_mem _ hm')

theorem answeredAfter_of_none {recorded : PowerState} {sent : Bool} {h : Handshake}
    (hnone : h.newState = none) : answeredAfter recorded sent h = sent := by
  simp [answeredAfter, hnone]

theorem answeredAfter_mono {recorded : PowerState} {h : Handshake} :
    answeredAfter recorded false h = true → answeredAfter recorded true h = true := by
  unfold answeredAfter
  split <;> simp

namespace Admits

variable {recorded : PowerState} {sent : Bool} {msgs : List Handshake} {m : Handshake}

/-- A responder that has answered admits what it would admit otherwise. -/
theorem answered (h : Admits recorded sent msgs) : Admits recorded true msgs := by
  cases sent with
  | true => exact h
  | false =>
    induction msgs generalizing recorded with
    | nil => trivial
    | cons head rest ih =>
        refine ⟨fun hoff => absurd (h.1 hoff).2 Bool.false_ne_true, ?_⟩
        have hrest := h.2
        cases hsent : answeredAfter recorded false head with
        | true => rwa [answeredAfter_mono hsent, ← hsent]
        | false =>
            rw [hsent] at hrest
            cases answeredAfter recorded true head with
            | true => exact ih hrest
            | false => exact hrest

/-- Anything but `power_off` may be announced at any time. -/
theorem append (h : Admits recorded sent msgs) (hm : m.newState ≠ some .powerOff) :
    Admits recorded sent (msgs ++ [m]) := by
  induction msgs generalizing recorded sent with
  | nil => exact ⟨fun hoff => absurd hoff hm, trivial⟩
  | cons head rest ih => exact ⟨h.1, ih h.2⟩

/-- `power_off` may be announced to a responder that has answered the drain. -/
theorem append_off (h : Admits .draining true msgs) (hquiet : Quiet msgs) :
    Admits .draining true (msgs ++ [m]) := by
  induction msgs with
  | nil => exact ⟨fun _ => ⟨rfl, rfl⟩, trivial⟩
  | cons head rest ih =>
      have hnone := hquiet head List.mem_cons_self
      have hrest := h.2
      rw [hear_of_none hnone, answeredAfter_of_none hnone] at hrest
      refine ⟨h.1, ?_⟩
      rw [hear_of_none hnone, answeredAfter_of_none hnone]
      exact ih hrest hquiet.tail

end Admits

/-- A request that is not answered yet: it is on its way, the responder knows of
it, or the answer is on its way. -/
inductive Awaits (ps : PowerState) (e : PortState) (o i : List Handshake) (eR : PortState) : Prop where
  | asked {before after : List Handshake} {m : Handshake} :
      o = before ++ m :: after → m.newState = some ps → m.drainDone = false →
      m.hid = e.reqHid → Answers after → Awaits ps e o i eR
  | heard : Answers o → eR.neighborState = ps → eR.respHid = e.reqHid →
      eR.drainDoneSent = false → Awaits ps e o i eR
  | answered {m : Handshake} : m ∈ i → m.drainDone = true → m.hid = e.reqHid →
      Awaits ps e o i eR

/-- What the responder owes the requester, and the requester the responder. -/
structure Obliged (p : Port) (ps : PowerState) (e : PortState) (o i : List Handshake)
    (eR : PortState) : Prop where
  admitted : Admits eR.neighborState eR.drainDoneSent o
  /-- A valid answer is the last one until the next request. -/
  answered : ps = .draining → ∀ before m after, i = before ++ m :: after →
    m.drainDone = true → m.hid = e.reqHid → eR.drainDoneSent = true ∧ Unanswered after
  tagged : ps = .draining → e.drainTag = true →
    YieldsAt p e ∨ eR.drainDoneSent = true ∧ Unanswered i
  /-- Nobody answers a router that is off. -/
  asleep : ps = .powerOff → Unanswered i ∧
    (∀ m ∈ o, m.newState = none ∨ m.newState = some .powerOff) ∧
    (eR.drainDoneSent = true ∨ eR.neighborState = .powerOff)
  /-- No request is lost. -/
  pending : ps = .draining ∨ ps = .wakeup → e.drainTag = false → Awaits ps e o i eR

namespace Obliged

variable {n : Node k} {p : Port} {ps ps' psR psR' : PowerState} {e e' eR eR' moved : PortState}
  {o i : List Handshake} {m : Handshake} {queued tx : Option Handshake}

/-- The requester receives a message. -/
theorem receive (h : Obliged p ps e o (m :: i) eR) (hsettled : ps = .draining → ¬ YieldsAt p e) :
    Obliged p ps (processed ps e m) o i eR where
  admitted := h.admitted
  answered := fun hps before m' after hsplit hdone hhid =>
    h.answered hps (m :: before) m' after (by rw [hsplit]; rfl) hdone hhid
  tagged := by
    intro hps htag
    rcases (received_processed ps e m).drainTag htag with htag | ⟨hdone, hhid⟩
    · obtain ⟨hsent, hnone⟩ := (h.tagged hps htag).resolve_left (hsettled hps)
      exact .inr ⟨hsent, fun m' hm' => hnone m' (List.mem_cons_of_mem _ hm')⟩
    · exact .inr (h.answered hps [] m i rfl hdone hhid)
  asleep := by
    intro hps
    obtain ⟨hnone, hrest⟩ := h.asleep hps
    exact ⟨fun m' hm' => hnone m' (List.mem_cons_of_mem _ hm'), hrest⟩
  pending := by
    intro hps htag
    have htag' : e.drainTag = false ∧ ¬ (m.drainDone = true ∧ m.hid = e.reqHid) := by
      simp only [processed, Bool.or_eq_false_iff, Bool.and_eq_false_iff,
        decide_eq_false_iff_not] at htag
      refine ⟨htag.1, fun ⟨hdone, hhid⟩ => ?_⟩
      rcases htag.2 with hnot | hnot
      · exact absurd (hdone.symm.trans hnot).symm Bool.false_ne_true
      · exact hnot ⟨hhid, hps⟩
    cases h.pending hps htag'.1 with
    | asked hsplit hnew hdone hhid hafter => exact .asked hsplit hnew hdone hhid hafter
    | heard ho hknown hhid hsent => exact .heard ho hknown hhid hsent
    | @answered m' hm' hdone hhid =>
        rcases List.mem_cons.mp hm' with rfl | hm'
        · exact absurd ⟨hdone, hhid⟩ htag'.2
        · exact .answered hm' hdone hhid

/-- The responder receives a message. -/
theorem deliver (h : Obliged p ps e (m :: o) i eR) (hrequests : Requests p ps e (m :: o) i psR eR)
    (hyield : ps = .draining → ¬ YieldsAt p e) :
    Obliged p ps e o i (processed psR eR m) where
  admitted := h.admitted.2
  answered := by
    intro hps before m' after hsplit hdone hhid
    have hquiet := (hrequests.answered hps before m' after hsplit hdone hhid).1
    obtain ⟨hsent, hafter⟩ := h.answered hps before m' after hsplit hdone hhid
    refine ⟨?_, hafter⟩
    rw [processed, answeredAfter_of_none (hquiet m List.mem_cons_self)]
    exact hsent
  tagged := by
    intro hps htag
    have hquiet := ((hrequests.tagged hps htag).resolve_left (hyield hps)).1
    obtain ⟨hsent, hnone⟩ := (h.tagged hps htag).resolve_left (hyield hps)
    refine .inr ⟨?_, hnone⟩
    rw [processed, answeredAfter_of_none (hquiet m List.mem_cons_self)]
    exact hsent
  asleep := by
    intro hps
    obtain ⟨hnone, hoff, hanswered⟩ := h.asleep hps
    refine ⟨hnone, fun m' hm' => hoff m' (List.mem_cons_of_mem _ hm'), ?_⟩
    rcases hoff m List.mem_cons_self with hm | hm
    · simpa only [processed, answeredAfter_of_none hm, hear_of_none hm] using hanswered
    · exact .inr (by simp [processed, hear, hm])
  pending := by
    intro hps htag
    cases h.pending hps htag with
    | @asked before after m' hsplit hnew hdone hhid hafter =>
        cases before with
        | nil =>
            obtain ⟨rfl, rfl⟩ := List.cons.inj hsplit
            refine .heard hafter ?_ ?_ ?_
            · rcases hps with rfl | rfl <;> simp [processed, hear, hnew]
            · simp [processed, hdone, hhid]
            · rcases hps with rfl | rfl <;> simp [processed, answeredAfter, hnew]
        | cons first before =>
            obtain ⟨-, rfl⟩ := List.cons.inj hsplit
            exact .asked rfl hnew hdone hhid hafter
    | heard ho hknown hhid hsent =>
        obtain ⟨hnone, hdone⟩ := ho m List.mem_cons_self
        refine .heard ho.tail ?_ ?_ ?_
        · rw [processed, hear_of_none hnone]
          exact hknown
        · rw [processed, if_pos hdone]
          exact hhid
        · rw [processed, answeredAfter_of_none hnone]
          exact hsent
    | answered hm hdone hhid => exact .answered hm hdone hhid

/-- The requester's state stays, and it sends an answer or nothing. -/
theorem stay (h : Obliged p ps e o i eR) (hyield : ps = .draining → ¬ YieldsAt p e)
    (hreq : e'.reqHid = e.reqHid) (htag : e'.drainTag = true → e.drainTag = true)
    (hkept : ps = .draining ∨ ps = .wakeup → e'.drainTag = e.drainTag)
    (htx : ∀ m ∈ tx, m.newState = none ∧ m.drainDone = true) :
    Obliged p ps e' (o ++ tx.toList) i eR := by
  have hanswers : Answers tx.toList := fun m hm => htx m (Option.mem_toList.mp hm)
  constructor
  · cases tx with
    | none => simpa using h.admitted
    | some m => exact h.admitted.append (by simp [(htx m rfl).1])
  · rw [hreq]
    exact h.answered
  · exact fun hps htag' => .inr ((h.tagged hps (htag htag')).resolve_left (hyield hps))
  · intro hps
    obtain ⟨hnone, hoff, hanswered⟩ := h.asleep hps
    refine ⟨hnone, fun m hm => ?_, hanswered⟩
    rcases List.mem_append.mp hm with hm | hm
    · exact hoff m hm
    · exact .inl (hanswers m hm).1
  · intro hps htag'
    cases h.pending hps ((hkept hps).symm.trans htag') with
    | @asked before after m hsplit hnew hdone hhid hafter =>
        have hsplit' : o ++ tx.toList = before ++ m :: (after ++ tx.toList) := by
          rw [hsplit, List.append_assoc, List.cons_append]
        exact .asked hsplit' hnew hdone (hhid.trans hreq.symm) (hafter.append hanswers)
    | heard ho hknown hhid hsent =>
        exact .heard (ho.append hanswers) hknown (hhid.trans hreq.symm) hsent
    | answered hm hdone hhid => exact .answered hm hdone (hhid.trans hreq.symm)

/-- The requester's state changes, and it says so. -/
theorem change (h : Obliged p ps e o i eR) (hrequests : Requests p ps e o i psR eR)
    (htransition : Transition p ps e ps') (hreq : e'.reqHid = e.reqHid + 1)
    (htag : e'.drainTag = false) (hm : m.newState = some ps')
    (hrequest : ps' = .draining ∨ ps' = .wakeup → m.drainDone = false ∧ m.hid = e.reqHid + 1) :
    Obliged p ps' e' (o ++ [m]) i eR := by
  have hlate : ∀ m' ∈ i, m'.drainDone = true → m'.hid ≠ e'.reqHid := by
    intro m' hm' hdone
    have hle := hrequests.asked m' hm' hdone
    omega
  constructor
  · by_cases hoff : ps' = .powerOff
    · cases htransition with
      | powerOff hdone hyield =>
          obtain ⟨hquiet, -⟩ := (hrequests.tagged rfl hdone).resolve_left hyield
          obtain ⟨hsent, -⟩ := (h.tagged rfl hdone).resolve_left hyield
          have hadmitted := h.admitted
          rw [hrequests.knows_draining hquiet, hsent] at hadmitted ⊢
          exact hadmitted.append_off hquiet
      | _ => cases hoff
    · exact h.admitted.append fun hnew => hoff (Option.some.inj (hm.symm.trans hnew))
  · intro _ before m' after hsplit hdone hhid
    exact absurd hhid (hlate m' (by simp [hsplit]) hdone)
  · simp [htag]
  · rintro rfl
    cases htransition with
    | powerOff hdone hyield =>
        obtain ⟨hquiet, -⟩ := (hrequests.tagged rfl hdone).resolve_left hyield
        obtain ⟨hsent, hnone⟩ := (h.tagged rfl hdone).resolve_left hyield
        refine ⟨hnone, fun m' hm' => ?_, .inl hsent⟩
        rcases List.mem_append.mp hm' with hm' | hm'
        · exact .inl (hquiet m' hm')
        · rw [List.mem_singleton.mp hm']
          exact .inr hm
  · intro hps _
    obtain ⟨hdone, hhid⟩ := hrequest hps
    exact .asked rfl hm hdone (hhid.trans hreq.symm) fun m' hm' => absurd hm' List.not_mem_nil

/-- A request is announced alone: nothing is answered along with it. -/
theorem request_alone (hpower : PowerMove n p ps e ps' moved (some (announcement n ps' e)))
    (htransition : Transition p ps e ps')
    (hresponds : Responds n ps' moved (some (announcement n ps' e)) e' tx)
    (hps' : ps' = .draining ∨ ps' = .wakeup) : tx = some (announcement n ps' e) := by
  cases hresponds with
  | silent => rfl
  | answer hon hbusy =>
      exfalso
      have hneighbor : moved.neighborState = e.neighborState := by
        cases hpower with
        | change _ hneighbor => exact hneighbor
      rw [hneighbor] at hbusy
      cases htransition with
      | startDraining hneighborOn => simp [hneighborOn] at hbusy
      | startWakeup => simp at hon
      | stopDraining => simp at hps'
      | powerOff => simp at hps'
      | wakeUp => simp at hps'

/-- The requester moves. -/
theorem move (h : Obliged p ps e o i eR) (hrequests : Requests p ps e o i psR eR)
    (hstep : PortStep n p ps e ps' moved queued e' tx) :
    Obliged p ps' e' (o ++ tx.toList) i eR := by
  obtain ⟨hpower, hkeeps, hresponds, -⟩ := hstep
  obtain ⟨-, hreq, -, htag⟩ := Requests.responds_entry hresponds
  cases hpower with
  | stay hyield _ hreq' _ htag' =>
      exact h.stay hyield (hreq.trans hreq') (fun ht => htag' (htag ▸ ht))
        (fun hps => htag.trans (hkeeps.drainTag rfl hps)) (Requests.respond_none hresponds)
  | change htransition hneighbor hreq' hresp' htag' =>
      obtain ⟨m, rfl, hm, -⟩ := Requests.respond_some hresponds
      refine h.change hrequests htransition (hreq.trans hreq') (htag.trans htag') hm fun hps' => ?_
      have halone := request_alone (.change htransition hneighbor hreq' hresp' htag') htransition
        hresponds hps'
      rw [Option.some.inj halone]
      exact ⟨rfl, rfl⟩

/-- What a responder sends when it has answered already. -/
theorem unanswered_tx (hstep : PortStep n p psR eR psR' moved queued eR' tx)
    (hsent : eR.drainDoneSent = true) :
    eR'.drainDoneSent = true ∧ Unanswered tx.toList := by
  have hmoved : moved.drainDoneSent = true := hstep.keeps.drainDoneSent.trans hsent
  obtain ⟨rfl, rfl⟩ := hstep.silent hmoved
  refine ⟨hmoved, fun m hm => ?_⟩
  cases hstep.power with
  | stay => simp at hm
  | change =>
      obtain rfl := List.mem_singleton.mp hm
      rfl

/-- The responder moves. -/
theorem respond (h : Obliged p ps e o i eR)
    (hstep : PortStep n p.opp psR eR psR' moved queued eR' tx) :
    Obliged p ps e o (i ++ tx.toList) eR' := by
  have hentry := Requests.responds_entry hstep.responds
  have hmoved : moved.neighborState = eR.neighborState ∧ moved.respHid = eR.respHid := by
    cases hstep.power with
    | stay _ hneighbor _ hresp => exact ⟨hneighbor, hresp⟩
    | change _ hneighbor _ hresp => exact ⟨hneighbor, hresp⟩
  have hneighbor : eR'.neighborState = eR.neighborState := hentry.1.trans hmoved.1
  have hresp : eR'.respHid = eR.respHid := hentry.2.2.1.trans hmoved.2
  -- an answer is due, or the responder sends no answer and has not answered
  have hcases : (∃ m, tx = some m ∧ m.drainDone = true ∧ m.hid = eR.respHid ∧
      eR'.drainDoneSent = true ∧ eR.neighborState ≠ .powerOff ∧ eR.drainDoneSent = false) ∨
      Unanswered tx.toList ∧ eR'.drainDoneSent = eR.drainDoneSent := by
    cases hsent : eR.drainDoneSent with
    | true =>
        obtain ⟨hsent', hnone⟩ := unanswered_tx hstep hsent
        exact .inr ⟨hnone, hsent'⟩
    | false =>
        have hkept := hstep.keeps.drainDoneSent
        cases hstep.responds with
        | silent =>
            refine .inr ⟨fun m hm => ?_, hkept.trans hsent⟩
            cases hstep.power with
            | stay => simp at hm
            | change =>
                obtain rfl := List.mem_singleton.mp hm
                rfl
        | answer hon hbusy =>
            rw [hmoved.1] at hbusy
            exact .inl ⟨_, rfl, rfl, hmoved.2, rfl, by rcases hbusy with h | h <;> simp [h], rfl⟩
  constructor
  · rw [hneighbor]
    rcases hcases with ⟨-, -, -, -, hsent', -⟩ | ⟨-, hsame⟩
    · rw [hsent']
      exact h.admitted.answered
    · rw [hsame]
      exact h.admitted
  · intro hps before m after hsplit hdone hhid
    have hold : ∀ rest, i = before ++ m :: rest → after = rest ++ tx.toList →
        eR'.drainDoneSent = true ∧ Unanswered after := by
      rintro rest hi rfl
      obtain ⟨hsent, hrest⟩ := h.answered hps before m rest hi hdone hhid
      obtain ⟨hsent', htx⟩ := unanswered_tx hstep hsent
      exact ⟨hsent', hrest.append htx⟩
    cases tx with
    | none => exact hold after (by simpa using hsplit) (by simp)
    | some x =>
        rcases Requests.append_split hsplit with ⟨rfl, rfl, rfl⟩ | ⟨rest, hafter, hi⟩
        · rcases hcases with ⟨-, -, -, -, hsent', -⟩ | ⟨hnone, -⟩
          · exact ⟨hsent', fun m' hm' => absurd hm' List.not_mem_nil⟩
          · exact absurd (hdone.symm.trans (hnone m List.mem_cons_self)).symm Bool.false_ne_true
        · exact hold rest hi hafter
  · intro hps htag
    refine (h.tagged hps htag).imp_right fun ⟨hsent, hnone⟩ => ?_
    obtain ⟨hsent', htx⟩ := unanswered_tx hstep hsent
    exact ⟨hsent', hnone.append htx⟩
  · intro hps
    obtain ⟨hnone, hoff, hanswered⟩ := h.asleep hps
    rcases hcases with ⟨-, -, -, -, -, hnotOff, hnotSent⟩ | ⟨htx, hsame⟩
    · rcases hanswered with hsent | hknown
      · exact absurd (hnotSent.symm.trans hsent) Bool.false_ne_true
      · exact absurd hknown hnotOff
    · rw [hsame, hneighbor]
      exact ⟨hnone.append htx, hoff, hanswered⟩
  · intro hps htag
    cases h.pending hps htag with
    | asked hsplit hnew hdone hhid hafter => exact .asked hsplit hnew hdone hhid hafter
    | heard ho hknown hhid hnot =>
        rcases hcases with ⟨m, rfl, hdone, hm, -⟩ | ⟨-, hsame⟩
        · exact .answered (by simp) hdone (hm.trans hhid)
        · exact .heard ho (hneighbor.trans hknown) (hresp.trans hhid) (hsame.trans hnot)
    | answered hm hdone hhid => exact .answered (List.mem_append_left _ hm) hdone hhid

theorem initial (n m : Node k) :
    Obliged p .powerOn ((Router.initial n).ports p) [] []
      ((Router.initial m).ports p.opp) := by
  constructor <;> simp [Admits]

/-- One half of a link, when the near end goes through a cycle. -/
theorem portStep {rx : Option Handshake}
    (hout : Obliged p ps e o (rx.toList ++ i) eR)
    (hin : Obliged p.opp psR eR (rx.toList ++ i) o e)
    (houtRequests : Requests p ps e o (rx.toList ++ i) psR eR)
    (hinRequests : Requests p.opp psR eR (rx.toList ++ i) o ps e)
    (hsettled : ps = .draining → ¬ YieldsAt p e)
    (hsettledR : psR = .draining → ¬ YieldsAt p.opp eR)
    (hstep : PortStep n p ps (heardEntry ps e rx) ps' moved queued e' tx) :
    Obliged p ps' e' (o ++ tx.toList) i eR ∧ Obliged p.opp psR eR i (o ++ tx.toList) e' := by
  have hheard : Obliged p ps (heardEntry ps e rx) o i eR ∧
      Obliged p.opp psR eR i o (heardEntry ps e rx) ∧
      Requests p ps (heardEntry ps e rx) o i psR eR := by
    cases rx with
    | none => exact ⟨hout, hin, houtRequests⟩
    | some m =>
        exact ⟨hout.receive hsettled, hin.deliver hinRequests hsettledR,
          houtRequests.receive hsettled (received_processed ps e m)⟩
  have hback : PortStep n p.opp.opp ps (heardEntry ps e rx) ps' moved queued e' tx := by
    rwa [Port.opp_opp]
  exact ⟨hheard.1.move hheard.2.2 hstep, hheard.2.1.respond hback⟩

end Obliged

end Flyover.RFLOVRouter
