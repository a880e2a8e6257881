import Flyover.RFlov.PortMove

/-!
# Adjacent routers are never both gated

The argument is about one link. Each end is the requester of its own changes and
the responder to the other's; `Requests` collects what holds between the two and
the messages between them. The key facts are that an acknowledgement under the
current request id means that the responder has seen everything the requester
said (`numbered`), and that the responder then stays on, or else drains itself
and the requester gives way when it hears of it (`answered`).
-/

namespace Flyover.RFLOVRouter

variable {k : Nat}

/-- The neighbour's state after a row of announcements. -/
def heard (recorded : PowerState) (msgs : List Handshake) : PowerState :=
  msgs.foldl hear recorded

/-- No announcement among the messages. -/
def Quiet (msgs : List Handshake) : Prop := ∀ h ∈ msgs, h.newState = none

/-- The messages toward a responder that has last seen the request id `resp`,
from a requester that has used ids up to `req`: wherever an announcement is yet
to come, the ids seen by then are not the latest. -/
def Numbered (req resp : Int) : List Handshake → Prop
  | [] => resp ≤ req
  | h :: rest => resp ≤ req ∧ (¬ Quiet (h :: rest) → resp < req) ∧
      Numbered req (if h.drainDone then resp else h.hid) rest

@[simp] theorem heard_cons (recorded : PowerState) (h : Handshake) (rest : List Handshake) :
    heard recorded (h :: rest) = heard (hear recorded h) rest := rfl

@[simp] theorem heard_append (recorded : PowerState) (first second : List Handshake) :
    heard recorded (first ++ second) = heard (heard recorded first) second :=
  List.foldl_append

@[simp] theorem heard_nil (recorded : PowerState) : heard recorded [] = recorded := rfl

theorem hear_of_none {recorded : PowerState} {h : Handshake} (hnone : h.newState = none) :
    hear recorded h = recorded := by simp [hear, hnone]

theorem Quiet.heard_eq {msgs : List Handshake} (hquiet : Quiet msgs) (recorded : PowerState) :
    heard recorded msgs = recorded := by
  induction msgs generalizing recorded with
  | nil => rfl
  | cons h rest ih =>
      rw [heard_cons, hear_of_none (hquiet h List.mem_cons_self)]
      exact ih (fun h hh => hquiet h (List.mem_cons_of_mem _ hh)) recorded

theorem Quiet.tail {h : Handshake} {rest : List Handshake} (hquiet : Quiet (h :: rest)) :
    Quiet rest := fun h hh => hquiet h (List.mem_cons_of_mem _ hh)

theorem Quiet.append {first second : List Handshake} (hfirst : Quiet first)
    (hsecond : Quiet second) : Quiet (first ++ second) := by
  intro h hh
  rcases List.mem_append.mp hh with hh | hh
  · exact hfirst h hh
  · exact hsecond h hh

theorem hear_ne_powerOn {recorded : PowerState} {h : Handshake} (hrecorded : recorded ≠ .powerOn)
    (hh : h.newState ≠ some .powerOn) : hear recorded h ≠ .powerOn := by
  unfold hear
  split <;> simp_all

namespace Numbered

variable {req resp : Int} {msgs : List Handshake}

theorem le (h : Numbered req resp msgs) : resp ≤ req := by
  cases msgs with
  | nil => exact h
  | cons => exact h.1

theorem quiet (h : Numbered req resp msgs) (heq : resp = req) : Quiet msgs := by
  cases msgs with
  | nil => exact nofun
  | cons =>
      by_contra hloud
      have := h.2.1 hloud
      omega

theorem append_answer {m : Handshake} (h : Numbered req resp msgs) (hnone : m.newState = none)
    (hdone : m.drainDone = true) : Numbered req resp (msgs ++ [m]) := by
  induction msgs generalizing resp with
  | nil =>
      refine ⟨h, fun hloud => absurd (fun m' hm' => ?_) hloud, by rwa [if_pos hdone]⟩
      rw [List.mem_singleton.mp hm']
      exact hnone
  | cons head rest ih =>
      refine ⟨h.1, fun hloud => h.2.1 fun hquiet => hloud ?_, ih h.2.2⟩
      exact hquiet.append fun m' hm' => by rw [List.mem_singleton.mp hm', hnone]

theorem append_announcement {m : Handshake} (h : Numbered req resp msgs)
    (hm : m.drainDone = true ∨ m.hid = req + 1) : Numbered (req + 1) resp (msgs ++ [m]) := by
  have hle := h.le
  induction msgs generalizing resp with
  | nil =>
      refine ⟨by omega, fun _ => by omega, ?_⟩
      split
      next => exact Int.le_add_one hle
      next hdone =>
        rw [hm.resolve_left hdone]
        exact Int.le_refl _
  | cons head rest ih => exact ⟨by omega, fun _ => by omega, ih h.2.2 h.2.2.le⟩

end Numbered

/-- What holds between a requester at its port `p`, with the messages `o` that it
sent and the messages `i` that it is to receive, and the responder. -/
structure Requests (p : Port) (ps : PowerState) (e : PortState) (o i : List Handshake)
    (psR : PowerState) (eR : PortState) : Prop where
  /-- The responder will know the requester's state. -/
  tracked : heard eR.neighborState o = ps
  /-- Request ids arrive in order. -/
  numbered : Numbered e.reqHid eR.respHid o
  /-- Nothing is answered that was not asked. -/
  asked : ∀ m ∈ i, m.drainDone = true → m.hid ≤ e.reqHid
  /-- With the tag set the responder is on and knows of the drain. -/
  tagged : ps = .draining → e.drainTag = true → YieldsAt p e ∨
    Quiet o ∧ Quiet i ∧ psR = .powerOn ∧ e.neighborState = .powerOn
  /-- A valid answer comes from a responder that stays on, or is preceded by the
  news that the requester has to give way. -/
  answered : ps = .draining → ∀ before m after, i = before ++ m :: after →
    m.drainDone = true → m.hid = e.reqHid → Quiet o ∧
      (heard e.neighborState (before ++ [m]) = .powerOn ∧ psR = .powerOn ∧ Quiet after ∨
        p.higherPriority = true ∧ heard e.neighborState (before ++ [m]) = .draining)
  /-- While the requester is gated the responder is on and will not drain. -/
  gated : ps = .powerOff ∨ ps = .wakeup → psR = .powerOn ∧ eR.neighborState ≠ .powerOn ∧
    ∀ m ∈ o, m.newState ≠ some .powerOn

namespace Requests

variable {n : Node k} {p : Port} {ps ps' psR psR' : PowerState} {e e' eR eR' moved : PortState}
  {o i : List Handshake} {m : Handshake} {queued tx : Option Handshake}

/-- The requester receives a message. -/
theorem receive (h : Requests p ps e o (m :: i) psR eR)
    (hsettled : ps = .draining → ¬ YieldsAt p e) (hreceived : Received e m e') :
    Requests p ps e' o i psR eR where
  tracked := h.tracked
  numbered := hreceived.reqHid ▸ h.numbered
  asked := by
    rw [hreceived.reqHid]
    exact fun m' hm' => h.asked m' (List.mem_cons_of_mem _ hm')
  tagged := by
    intro hps htag
    rcases hreceived.drainTag htag with htag | ⟨hdone, hhid⟩
    · obtain ⟨hquiet, hi, hon, hknown⟩ := (h.tagged hps htag).resolve_left (hsettled hps)
      refine .inr ⟨hquiet, hi.tail, hon, ?_⟩
      rw [hreceived.neighborState, hear_of_none (hi m List.mem_cons_self), hknown]
    · obtain ⟨hquiet, hanswer⟩ := h.answered hps [] m i rfl hdone hhid
      simp only [List.nil_append, heard_cons, heard_nil, ← hreceived.neighborState] at hanswer
      rcases hanswer with ⟨hknown, hon, hi⟩ | ⟨hyields, hknown⟩
      · exact .inr ⟨hquiet, hi, hon, hknown⟩
      · exact .inl (.inr ⟨hyields, .inl hknown⟩)
  answered := by
    intro hps before m' after hsplit hdone hhid
    rw [hreceived.reqHid] at hhid
    rw [hreceived.neighborState]
    exact h.answered hps (m :: before) m' after (by rw [hsplit]; rfl) hdone hhid
  gated := h.gated

/-- The responder receives a message. -/
theorem deliver (h : Requests p ps e (m :: o) i psR eR) (hreceived : Received eR m eR') :
    Requests p ps e o i psR eR' where
  tracked := by
    rw [hreceived.neighborState]
    exact h.tracked
  numbered := by
    rw [hreceived.respHid]
    exact h.numbered.2.2
  asked := h.asked
  tagged := fun hps htag => (h.tagged hps htag).imp_right fun hquiet => ⟨hquiet.1.tail, hquiet.2⟩
  answered := fun hps before m' after hsplit hdone hhid =>
    have hanswer := h.answered hps before m' after hsplit hdone hhid
    ⟨hanswer.1.tail, hanswer.2⟩
  gated := by
    intro hps
    obtain ⟨hon, hknown, hnever⟩ := h.gated hps
    refine ⟨hon, ?_, fun m' hm' => hnever m' (List.mem_cons_of_mem _ hm')⟩
    rw [hreceived.neighborState]
    exact hear_ne_powerOn hknown (hnever m List.mem_cons_self)

/-- The requester's state stays, and it sends an answer or nothing. -/
theorem stay (h : Requests p ps e o i psR eR) (hyield : ps = .draining → ¬ YieldsAt p e)
    (hneighbor : e'.neighborState = e.neighborState) (hreq : e'.reqHid = e.reqHid)
    (htag : e'.drainTag = true → e.drainTag = true)
    (htx : ∀ m ∈ tx, m.newState = none ∧ m.drainDone = true) :
    Requests p ps e' (o ++ tx.toList) i psR eR := by
  have hquiet : Quiet tx.toList := fun m hm => (htx m (Option.mem_toList.mp hm)).1
  constructor
  · rw [heard_append, h.tracked, hquiet.heard_eq]
  · rw [hreq]
    cases tx with
    | none => simpa using h.numbered
    | some m => exact h.numbered.append_answer (htx m rfl).1 (htx m rfl).2
  · rw [hreq]
    exact h.asked
  · intro hps htag'
    obtain ⟨ho, hrest⟩ := (h.tagged hps (htag htag')).resolve_left (hyield hps)
    exact .inr ⟨ho.append hquiet, hrest.1, hrest.2.1, hneighbor ▸ hrest.2.2⟩
  · intro hps before m after hsplit hdone hhid
    obtain ⟨ho, hrest⟩ := h.answered hps before m after hsplit hdone (hreq ▸ hhid)
    exact ⟨ho.append hquiet, hneighbor ▸ hrest⟩
  · intro hps
    obtain ⟨hon, hknown, hnever⟩ := h.gated hps
    refine ⟨hon, hknown, fun m hm => ?_⟩
    rcases List.mem_append.mp hm with hm | hm
    · exact hnever m hm
    · simp [(htx m (Option.mem_toList.mp hm)).1]

theorem hear_transition (htransition : Transition p ps e ps') (hm : m.newState = some ps') :
    hear ps m = ps' := by
  cases htransition <;> simp [hear, hm]

/-- The requester's state changes, and it says so. -/
theorem change (h : Requests p ps e o i psR eR) (htransition : Transition p ps e ps')
    (hreq : e'.reqHid = e.reqHid + 1) (htag : e'.drainTag = false)
    (hm : m.newState = some ps') (hhid : m.drainDone = true ∨ m.hid = e.reqHid + 1) :
    Requests p ps' e' (o ++ [m]) i psR eR where
  tracked := by
    rw [heard_append, h.tracked, heard_cons, heard_nil, hear_transition htransition hm]
  numbered := hreq ▸ h.numbered.append_announcement hhid
  asked := by
    intro m' hm' hdone
    have := h.asked m' hm' hdone
    omega
  tagged := by simp [htag]
  answered := by
    intro _ before m' after hsplit hdone hhid'
    have := h.asked m' (by simp [hsplit]) hdone
    omega
  gated := by
    intro hps
    have hnever : ∀ o : List Handshake, (∀ m ∈ o, m.newState ≠ some .powerOn) →
        ∀ m' ∈ o ++ [m], m'.newState ≠ some .powerOn := by
      intro o ho m' hm'
      rcases List.mem_append.mp hm' with hm' | hm'
      · exact ho m' hm'
      · rw [List.mem_singleton.mp hm', hm]
        rcases hps with rfl | rfl <;> simp
    cases htransition with
    | startDraining => simp at hps
    | stopDraining => simp at hps
    | wakeUp => simp at hps
    | powerOff hdone hyield =>
        obtain ⟨ho, -, hon, -⟩ := (h.tagged rfl hdone).resolve_left hyield
        refine ⟨hon, ?_, hnever o fun m' hm' => by simp [ho m' hm']⟩
        rw [← ho.heard_eq eR.neighborState, h.tracked]
        simp
    | startWakeup =>
        obtain ⟨hon, hknown, ho⟩ := h.gated (.inl rfl)
        exact ⟨hon, hknown, hnever o ho⟩

/-- What is sent after a move of the power state: the announcement, if the state
changed, with or without an answer. -/
theorem respond_some (hresponds : Responds n ps' moved (some (announcement n ps' e)) e' tx) :
    ∃ m, tx = some m ∧ m.newState = some ps' ∧ (m.drainDone = true ∨ m.hid = e.reqHid + 1) ∧
      (m.drainDone = true → m.hid = moved.respHid) := by
  cases hresponds with
  | silent => exact ⟨_, rfl, rfl, .inr rfl, by simp [announcement]⟩
  | answer => exact ⟨_, rfl, rfl, .inl rfl, fun _ => rfl⟩

theorem respond_none (hresponds : Responds n ps' moved none e' tx) :
    ∀ m ∈ tx, m.newState = none ∧ m.drainDone = true := by
  cases hresponds with
  | silent => simp
  | answer =>
      intro m hm
      obtain rfl := Option.mem_some.mp hm
      exact ⟨rfl, rfl⟩

theorem responds_entry (hresponds : Responds n ps' moved queued e' tx) :
    e'.neighborState = moved.neighborState ∧ e'.reqHid = moved.reqHid ∧
      e'.respHid = moved.respHid ∧ e'.drainTag = moved.drainTag := by
  cases hresponds <;> exact ⟨rfl, rfl, rfl, rfl⟩

/-- The requester moves. -/
theorem move (h : Requests p ps e o i psR eR) (hpower : PowerMove n p ps e ps' moved queued)
    (hresponds : Responds n ps' moved queued e' tx) :
    Requests p ps' e' (o ++ tx.toList) i psR eR := by
  obtain ⟨hneighbor, hreq, -, htag⟩ := responds_entry hresponds
  cases hpower with
  | stay hyield hneighbor' hreq' _ htag' =>
      exact h.stay hyield (hneighbor.trans hneighbor') (hreq.trans hreq')
        (fun h => htag' (htag ▸ h)) (respond_none hresponds)
  | change htransition _ hreq' _ htag' =>
      obtain ⟨m, rfl, hm, hhid, -⟩ := respond_some hresponds
      exact h.change htransition (hreq.trans hreq') (htag.trans htag') hm hhid

/-- A responder that is on and does not know its neighbour to be on stays as it is. -/
theorem stay_of_known (hpower : PowerMove n p .powerOn eR psR' moved queued)
    (hknown : eR.neighborState ≠ .powerOn) : psR' = .powerOn ∧ queued = none := by
  cases hpower with
  | stay => exact ⟨rfl, rfl⟩
  | change htransition =>
      cases htransition with
      | startDraining hon => exact absurd hon hknown

/-- The responder knows of a drain once every announcement has arrived. -/
theorem knows_draining (h : Requests p .draining e o i psR eR) (hquiet : Quiet o) :
    eR.neighborState = .draining := by
  rw [← hquiet.heard_eq eR.neighborState]
  exact h.tracked

theorem append_split {i before after : List Handshake} {x : Handshake}
    (hsplit : i ++ [x] = before ++ m :: after) :
    after = [] ∧ m = x ∧ before = i ∨ ∃ rest, after = rest ++ [x] ∧ i = before ++ m :: rest := by
  rcases List.eq_nil_or_concat after with rfl | ⟨rest, last, rfl⟩
  · obtain ⟨rfl, hx⟩ := List.append_inj' hsplit rfl
    exact .inl ⟨rfl, (List.singleton_inj.mp hx).symm, rfl⟩
  · rw [List.concat_eq_append, ← List.cons_append, ← List.append_assoc] at hsplit
    obtain ⟨rfl, hx⟩ := List.append_inj' hsplit rfl
    exact .inr ⟨rest, by rw [List.concat_eq_append, List.singleton_inj.mp hx], rfl⟩

/-- What a responder sends while the requester relies on its answer. -/
theorem quiet_respond (h : Requests p .draining e o i .powerOn eR) (hquiet : Quiet o)
    (hpower : PowerMove n p.opp .powerOn eR psR' moved queued)
    (hresponds : Responds n psR' moved queued eR' tx) : psR' = .powerOn ∧ Quiet tx.toList := by
  obtain ⟨hon, rfl⟩ := stay_of_known hpower (by simp [h.knows_draining hquiet])
  exact ⟨hon, fun m hm => (respond_none hresponds m (Option.mem_toList.mp hm)).1⟩

/-- An answer carries the id of the last request seen. -/
theorem answer_hid (hpower : PowerMove n p psR eR psR' moved queued)
    (hresponds : Responds n psR' moved queued eR' (some m)) (hdone : m.drainDone = true) :
    m.hid = eR.respHid := by
  cases hpower with
  | stay _ _ _ hresp =>
      rw [← hresp]
      cases hresponds
      rfl
  | change _ _ _ hresp =>
      obtain ⟨m', hm', -, -, hhid⟩ := respond_some hresponds
      obtain rfl := Option.some.inj hm'
      rw [← hresp]
      exact hhid hdone

/-- A responder that drains itself, and answers, has priority. -/
theorem yields_of_answer (hpower : PowerMove n p.opp psR eR .draining moved queued)
    (hknown : eR.neighborState = .draining) : p.higherPriority = true := by
  cases hpower with
  | stay hyield =>
      have hport : ¬ p.opp.higherPriority = true := fun h => hyield rfl (.inr ⟨h, .inl hknown⟩)
      cases p <;> simp_all [Port.higherPriority, Port.opp]
  | change htransition =>
      cases htransition with
      | startDraining hon => simp [hon] at hknown

/-- The responder moves; `hback` is its own `tracked`, after the move. -/
theorem respond (h : Requests p ps e o i psR eR)
    (hpower : PowerMove n p.opp psR eR psR' moved queued)
    (hresponds : Responds n psR' moved queued eR' tx)
    (hback : heard e.neighborState (i ++ tx.toList) = psR') :
    Requests p ps e o (i ++ tx.toList) psR' eR' := by
  have hentry := responds_entry hresponds
  have hmoved : moved.neighborState = eR.neighborState ∧ moved.respHid = eR.respHid := by
    cases hpower with
    | stay _ hneighbor _ hresp => exact ⟨hneighbor, hresp⟩
    | change _ hneighbor _ hresp => exact ⟨hneighbor, hresp⟩
  have hneighbor : eR'.neighborState = eR.neighborState := hentry.1.trans hmoved.1
  constructor
  · rw [hneighbor, h.tracked]
  · rw [hentry.2.2.1, hmoved.2]
    exact h.numbered
  · intro m hm hdone
    rcases List.mem_append.mp hm with hm | hm
    · exact h.asked m hm hdone
    · obtain rfl := Option.mem_toList.mp hm
      rw [answer_hid hpower hresponds hdone]
      exact h.numbered.le
  · rintro rfl htag
    refine (h.tagged rfl htag).imp_right ?_
    rintro ⟨ho, hi, rfl, hknown⟩
    obtain ⟨hon, htx⟩ := h.quiet_respond ho hpower hresponds
    exact ⟨ho, hi.append htx, hon, hknown⟩
  · rintro rfl before m after hsplit hdone hhid
    have hold : ∀ rest, i = before ++ m :: rest → after = rest ++ tx.toList → Quiet o ∧
        (heard e.neighborState (before ++ [m]) = .powerOn ∧ psR' = .powerOn ∧ Quiet after ∨
          p.higherPriority = true ∧ heard e.neighborState (before ++ [m]) = .draining) := by
      rintro rest hi rfl
      obtain ⟨ho, hrest⟩ := h.answered rfl before m rest hi hdone hhid
      refine ⟨ho, hrest.imp_left ?_⟩
      rintro ⟨hknown, rfl, hquiet⟩
      obtain ⟨hon, htx⟩ := h.quiet_respond ho hpower hresponds
      exact ⟨hknown, hon, hquiet.append htx⟩
    cases tx with
    | none => exact hold after (by simpa using hsplit) (by simp)
    | some x =>
        rcases append_split hsplit with ⟨rfl, rfl, rfl⟩ | ⟨rest, hafter, hi⟩
        · have ho := h.numbered.quiet ((answer_hid hpower hresponds hdone).symm.trans hhid)
          refine ⟨ho, ?_⟩
          rw [show before ++ [m] = before ++ (some m).toList from rfl, hback]
          have hstate : psR' = .powerOn ∨ psR' = .draining := by
            cases hresponds with
            | silent =>
                cases hpower with
                | change htransition => simp [announcement] at hdone
            | answer hon => exact hon
          rcases hstate with rfl | rfl
          · exact .inl ⟨rfl, rfl, fun m hm => absurd hm List.not_mem_nil⟩
          · exact .inr ⟨yields_of_answer hpower (h.knows_draining ho), rfl⟩
        · exact hold rest hi hafter
  · intro hps
    obtain ⟨rfl, hknown, hnever⟩ := h.gated hps
    obtain ⟨hon, -⟩ := stay_of_known hpower hknown
    exact ⟨hon, hneighbor ▸ hknown, hnever⟩

theorem initial (n : Node k) (hp : n.edge p = false) (m : Node k)
    (hm : m.edge p.opp = false) :
    Requests p .powerOn ((Router.initial n).ports p) [] [] .powerOn
      ((Router.initial m).ports p.opp) := by
  constructor <;> simp [Router.initial, hp, hm, Numbered]

/-- One half of a link, when the near end goes through a cycle. -/
theorem portMove {rx : Option Handshake}
    (hout : Requests p ps e o (rx.toList ++ i) psR eR)
    (hin : Requests p.opp psR eR (rx.toList ++ i) o ps e)
    (hsettled : ps = .draining → ¬ YieldsAt p e) (hmove : PortMove n p ps e rx ps' e' tx) :
    Requests p ps' e' (o ++ tx.toList) i psR eR ∧
      Requests p.opp psR eR i (o ++ tx.toList) ps' e' := by
  obtain ⟨received, moved, queued, hreceives, hpower, hresponds⟩ := hmove
  have hheard : Requests p ps received o i psR eR ∧ Requests p.opp psR eR i o ps received := by
    cases rx with
    | none =>
        obtain rfl := hreceives
        exact ⟨hout, hin⟩
    | some m => exact ⟨hout.receive hsettled hreceives, hin.deliver hreceives⟩
  have hmoved := hheard.1.move hpower hresponds
  refine ⟨hmoved, hheard.2.respond ?_ hresponds hmoved.tracked⟩
  rwa [Port.opp_opp]

end Requests

/-- After the power state machine a draining router has given way where it must. -/
theorem PowerMove.settled {n : Node k} {p : Port} {ps ps' : PowerState} {e e' : PortState}
    {queued : Option Handshake} (h : PowerMove n p ps e ps' e' queued)
    (hdraining : ps' = .draining) : ¬ YieldsAt p e' := by
  cases h with
  | stay hyield hneighbor =>
      rw [YieldsAt, hneighbor]
      exact hyield hdraining
  | change htransition hneighbor =>
      rw [YieldsAt, hneighbor]
      cases htransition <;> simp_all

/-- Between cycles nothing is queued inside a router, and a draining router has
given way where it must. -/
def invariant (cfg : Config k) :
    Lockstep.Invariant (Net.wiring k) (Net.move (cycle cfg) Admissible) where
  node n r := (∀ p, r.outQueueHandshakes p = none) ∧
    ∀ p, n.edge p = false → r.powerState = .draining → ¬ YieldsAt p (r.ports p)
  msg _ _ _ := True
  move_node := by
    rintro n r rx r' tx ⟨hqueue, -⟩ - ⟨inp, -, hok⟩
    refine ⟨cycle_outQueue hok, fun p hp hdraining => ?_⟩
    obtain ⟨received, moved, queued, -, hpower, hresponds⟩ := cycle_portMove hqueue hok hp
    obtain ⟨hneighbor, -⟩ := Requests.responds_entry hresponds
    rw [YieldsAt, hneighbor]
    exact hpower.settled hdraining
  move_msg := by simp

/-- Both halves of every inner link. -/
def link (cfg : Config k) : Lockstep.LinkInvariant (invariant cfg) where
  on n p := n.edge p = false
  rel _ p r i o s := Requests p r.powerState (r.ports p) o i s.powerState (s.ports p.opp) ∧
    Requests p.opp s.powerState (s.ports p.opp) i o r.powerState (r.ports p)
  on_peer hp := Node.edge_neighbor_eq_false hp
  rel_peer := by
    intro n p r i o s h
    simpa using h.symm
  move_rel := by
    rintro n p r rx r' tx i o s hp ⟨hqueue, hsettled⟩ - - - ⟨inp, -, hok⟩ ⟨hout, hin⟩
    exact Requests.portMove hout hin (hsettled p hp) (cycle_portMove hqueue hok hp)

/-- Every link of a reachable network is in order. -/
theorem Reachable.link {cfg : Config k} {net : Net k Router} (hreach : Reachable cfg net) :
    (invariant cfg).Holds net.view ∧ (RFLOVRouter.link cfg).Holds net.view := by
  refine Net.Reachable.view_induction
    (motive := fun s => (invariant cfg).Holds s ∧ (RFLOVRouter.link cfg).Holds s)
    hreach ⟨⟨?_, fun _ _ _ _ => trivial⟩, ?_⟩ ?_
  · intro n
    refine ⟨fun _ => rfl, ?_⟩
    simp [Net.view, start, Router.initial]
  · intro n p hp
    have hpeer : (n.neighbor p).edge p.opp = false := Node.edge_neighbor_eq_false hp
    have hback := Requests.initial (n.neighbor p) hpeer n (by rwa [Port.opp_opp])
    rw [Port.opp_opp] at hback
    exact ⟨Requests.initial n hp _ hpeer, hback⟩
  · rintro s s' ⟨hinv, hlink⟩ hstep
    exact ⟨hinv.step hstep, Lockstep.LinkInvariant.Holds.step hinv hlink hstep⟩

/-- Asleep or not yet awake. -/
def Gated (r : Router) : Prop := r.powerState = .powerOff ∨ r.powerState = .wakeup

instance (r : Router) : Decidable (Gated r) := inferInstanceAs (Decidable (_ ∨ _))

/-- Of two adjacent routers at most one is gated, in every reachable state. -/
theorem adjacent_not_both_gated {cfg : Config k} {net : Net k Router}
    (hreach : Reachable cfg net) {n m : Node k} (hadjacent : n.Adjacent m) :
    ¬ (Gated (net.router n) ∧ Gated (net.router m)) := by
  rintro ⟨hn, hm⟩
  obtain ⟨p, hp, rfl⟩ := hadjacent.exists_port
  obtain ⟨hon, -⟩ := ((Reachable.link hreach).2 n p hp).1.gated hn
  rcases hm with hm | hm <;> simp_all [Net.view]

/-- A run in which a router goes to sleep, and its neighbour may not. -/
theorem adjacent_not_both_gated_asleep : ∃ net, Reachable (Config.short 2) net ∧
    Gated (net.router 0) ∧ ¬ (Gated (net.router 0) ∧ Gated (net.router 1)) := by
  obtain ⟨net, hrun, hgated⟩ := exists_of_succeeds
    ((start 2).run (cycle (Config.short 2)) 1
      (List.replicate 6 fun n => Inputs.quiet (decide (n.val ≠ 0))))
    (fun net => decide (Gated (net.router 0))) (by decide +kernel)
  have hreach : Reachable (Config.short 2) net := Net.Reachable.run .initial (by decide) hrun
  exact ⟨net, hreach, of_decide_eq_true hgated,
    adjacent_not_both_gated hreach (by decide : Node.Adjacent (k := 2) 0 1)⟩

end Flyover.RFLOVRouter
