import Flyover.Router
import Flyover.Buffer.State
import Mathlib.Data.List.FinRange

/-!
# Credits that fly over

A router that is off or waking passes the credits it receives on to the router
on the other side. `_FlovStep` puts them into the out queue, which has one slot
for each port, and fills the slots up with the credits that the router owed when
it went off. A slot is one message and names each virtual channel at most once.

`FLOVRouter` and `GFLOVRouter` have the same code. `RFLOVRouter` merges what is
due for one port into one message.
-/

namespace Flyover

variable {k vcs : Nat}

/-- A credit message: a set of virtual channels, of which there is at least one. -/
structure Credit (vcs : Nat) where
  vc : List (Fin vcs)
  nodup : vc.Nodup
  nonempty : vc ≠ []

/-- An entry of `_proc_credits`; the output is `none` for the ejection port. -/
structure ProcCredit (vcs : Nat) where
  time : Int
  credit : Credit vcs
  output : Option Port

/-- What the credit half of `_FlovStep` reads and writes. -/
structure FlovCredits (vcs : Nat) where
  router : Router
  nextBuf : Option Port → BufferState vcs
  procCredits : List (ProcCredit vcs)
  creditCounter : Port → Fin vcs → Nat
  outQueueCredits : Port → Option (List (Fin vcs))
  /-- the messages that `Free()` was called on -/
  freed : List (Credit vcs)

namespace FlovCredits

/-- There is a router to pass a credit on to, and it is not off while this one wakes. -/
def relaysTo (s : FlovCredits vcs) (n : Node k) (input : Port) : Bool :=
  !(n.edge input ||
    (s.router.powerState == .wakeup &&
      (s.router.ports input).downstreamState == .powerOff))

def free (s : FlovCredits vcs) (c : Credit vcs) : FlovCredits vcs :=
  { s with freed := s.freed ++ [c] }

/-- `_out_queue_credits.insert(make_pair(input, c))` if the slot is free; there
is no other branch. -/
def insertCredit (s : FlovCredits vcs) (input : Port) (c : Credit vcs) : FlovCredits vcs :=
  if (s.outQueueCredits input).isNone then
    { s with outQueueCredits := Function.update s.outQueueCredits input (some c.vc) }
  else s

/-- What happens to a due credit after `dest_buf->ProcessCredit(c)`. -/
def relayCredit (n : Node k) (s : FlovCredits vcs) (item : ProcCredit vcs) : FlovCredits vcs :=
  match item.output with
  | none => s.free item.credit
  | some output =>
      if s.relaysTo n output.opp then s.insertCredit output.opp item.credit
      else s.free item.credit

/-- One round of the loop over `_proc_credits`. -/
def processDue (n : Node k) (now : Int) (s : FlovCredits vcs) (item : ProcCredit vcs) :
    Except BufferError (FlovCredits vcs) := do
  let buffer ← (s.nextBuf item.output).processCredit now item.credit.vc
  pure (relayCredit n { s with nextBuf := Function.update s.nextBuf item.output buffer } item)

/-- The slot and the counters of one port, after the credit that is owed for a
virtual channel has been put into the slot, if it can be. -/
def payOwed (slot : Option (List (Fin vcs)) × (Fin vcs → Nat)) (vc : Fin vcs) :
    Option (List (Fin vcs)) × (Fin vcs → Nat) :=
  if slot.2 vc > 0 then
    let names := slot.1.getD []
    if vc ∈ names then (some names, slot.2)
    else (some (vc :: names), Function.update slot.2 vc (slot.2 vc - 1))
  else slot

/-- The loop over the virtual channels. -/
def payAll (slot : Option (List (Fin vcs)) × (Fin vcs → Nat)) :
    Option (List (Fin vcs)) × (Fin vcs → Nat) :=
  (List.finRange vcs).foldl payOwed slot

/-- The loop over the ports that fills the slots from `_credit_counter`. -/
def fillSlots (s : FlovCredits vcs) : FlovCredits vcs :=
  { s with
    outQueueCredits := fun input =>
      (payAll (s.outQueueCredits input, s.creditCounter input.opp)).1
    creditCounter := fun out =>
      (payAll (s.outQueueCredits out.opp, s.creditCounter out)).2 }

/-- The credits that are due: the loop ends at the first that is not. -/
def due (s : FlovCredits vcs) (now : Int) : List (ProcCredit vcs) :=
  s.procCredits.takeWhile fun item => !decide (now < item.time)

/-- The credit half of `FLOVRouter::_FlovStep`, and of `GFLOVRouter::_FlovStep`. -/
def flovStep (n : Node k) (now : Int) (s : FlovCredits vcs) :
    Except BufferError (FlovCredits vcs) := do
  let rest := s.procCredits.dropWhile fun item => !decide (now < item.time)
  let s ← (s.due now).foldlM (processDue n now) s
  pure ({ s with procCredits := rest }).fillSlots

/-! ### What is forwarded -/

/-- How many credits a slot carries for a virtual channel. -/
def carried (slot : Option (List (Fin vcs))) (vc : Fin vcs) : Nat :=
  if vc ∈ slot.getD [] then 1 else 0

/-- The credits that come from an output. -/
def comingFrom (items : List (ProcCredit vcs)) (output : Port) : List (ProcCredit vcs) :=
  items.filter fun item => item.output == some output

/-- How many of the credits from an output are for a virtual channel. -/
def received (items : List (ProcCredit vcs)) (output : Port) (vc : Fin vcs) : Nat :=
  (comingFrom items output).countP fun item => decide (vc ∈ item.credit.vc)

/-- The credits that are passed on, not freed. -/
def relayed (s : FlovCredits vcs) (n : Node k) (item : ProcCredit vcs) : Bool :=
  match item.output with
  | none => false
  | some output => s.relaysTo n output.opp

/-- Nothing is lost: towards every router that credits are passed on to, the
slot carries, beside what it takes off the counters, what was received from the
other side, and all other credits are freed. -/
structure LosesNothing (n : Node k) (now : Int) (s s' : FlovCredits vcs) : Prop where
  forwarded : ∀ input, s.relaysTo n input = true → ∀ vc,
    carried (s'.outQueueCredits input) vc + s'.creditCounter input.opp vc =
      carried (s.outQueueCredits input) vc + received (s.due now) input.opp vc +
        s.creditCounter input.opp vc
  freed : s'.freed =
    s.freed ++ ((s.due now).filter fun item => !s.relayed n item).map (·.credit)

/-- The slot has place for what is due: nothing is, or one credit and the slot is free. -/
def HasPlace (slot : Option (List (Fin vcs))) (items : List (ProcCredit vcs)) : Prop :=
  items.length = 0 ∨ items.length = 1 ∧ slot = none

variable {n : Node k} {now : Int} {s s' : FlovCredits vcs}

/-! ### The counters -/

theorem payOwed_conserves (slot : Option (List (Fin vcs)) × (Fin vcs → Nat)) (vc u : Fin vcs) :
    carried (payOwed slot vc).1 u + (payOwed slot vc).2 u = carried slot.1 u + slot.2 u := by
  unfold payOwed
  split
  next hpos =>
    dsimp only
    split
    next hmem => rfl
    next hmem =>
      by_cases hu : u = vc
      · subst hu
        simp only [carried, Option.getD_some, List.mem_cons_self, if_true, hmem, if_false,
          Function.update_self]
        omega
      · simp [carried, hu]
  next => rfl

/-- What is taken off a counter goes into the slot. -/
theorem payAll_conserves (slot : Option (List (Fin vcs)) × (Fin vcs → Nat)) (u : Fin vcs) :
    carried (payAll slot).1 u + (payAll slot).2 u = carried slot.1 u + slot.2 u := by
  unfold payAll
  generalize List.finRange vcs = l
  induction l generalizing slot with
  | nil => rfl
  | cons vc rest ih => exact (ih (payOwed slot vc)).trans (payOwed_conserves slot vc u)

/-! ### The due credits -/

/-- What one due credit does to everything but the buffer states. -/
structure RelayStep (n : Node k) (items : List (ProcCredit vcs)) (s s' : FlovCredits vcs) :
    Prop where
  router : s'.router = s.router
  procCredits : s'.procCredits = s.procCredits
  counter : s'.creditCounter = s.creditCounter
  slot : ∀ input, s.relaysTo n input = true → s'.outQueueCredits input =
    (s.outQueueCredits input).or ((comingFrom items input.opp).head?.map (·.credit.vc))
  freed : s'.freed = s.freed ++ (items.filter fun item => !s.relayed n item).map (·.credit)

theorem relaysTo_of_router (hrouter : s'.router = s.router) (input : Port) :
    s'.relaysTo n input = s.relaysTo n input := by
  rw [relaysTo, relaysTo, hrouter]

theorem relayed_of_router (hrouter : s'.router = s.router) : s'.relayed n = s.relayed n := by
  funext item
  rw [relayed, relayed]
  cases item.output with
  | none => rfl
  | some output => exact relaysTo_of_router hrouter output.opp

theorem insertCredit_slot (input u : Port) (c : Credit vcs) :
    (s.insertCredit input c).outQueueCredits u =
      (s.outQueueCredits u).or (if u = input then some c.vc else none) := by
  unfold insertCredit
  by_cases hu : u = input
  · subst hu
    cases hslot : s.outQueueCredits u with
    | none => simp
    | some names => simp [hslot]
  · split
    next => simp [hu]
    next => simp

theorem relayStep_relayCredit (item : ProcCredit vcs) :
    RelayStep n [item] s (relayCredit n s item) := by
  cases hout : item.output with
  | none =>
      rw [relayCredit, hout]
      constructor
      case router => rfl
      case procCredits => rfl
      case counter => rfl
      case slot => intro input _; simp [free, comingFrom, hout]
      case freed => simp [free, relayed, hout]
  | some output =>
      rw [relayCredit, hout]
      dsimp only
      by_cases hrelays : s.relaysTo n output.opp = true
      · rw [if_pos hrelays]
        have hkept : ∀ t, t = s.insertCredit output.opp item.credit →
            t.router = s.router ∧ t.procCredits = s.procCredits ∧
              t.creditCounter = s.creditCounter ∧ t.freed = s.freed := by
          rintro t rfl
          unfold insertCredit
          split <;> exact ⟨rfl, rfl, rfl, rfl⟩
        obtain ⟨hrouter, hproc, hcounter, hfreed⟩ := hkept _ rfl
        constructor
        case router => exact hrouter
        case procCredits => exact hproc
        case counter => exact hcounter
        case freed => simp [hfreed, relayed, hout, hrelays]
        case slot =>
          intro input _
          rw [insertCredit_slot]
          by_cases hinput : input = output.opp
          · subst hinput
            simp [comingFrom, hout]
          · have hne : output ≠ input.opp := by
              rintro rfl
              exact hinput (Port.opp_opp input).symm
            simp [comingFrom, hout, hinput, hne]
      · rw [if_neg hrelays]
        constructor
        case router => rfl
        case procCredits => rfl
        case counter => rfl
        case slot =>
          intro input hinput
          have hne : output ≠ input.opp := by
            rintro rfl
            rw [Port.opp_opp] at hrelays
            exact hrelays hinput
          simp [free, comingFrom, hout, hne]
        case freed => simp [free, relayed, hout, hrelays]

theorem relayStep_processDue {item : ProcCredit vcs} (h : processDue n now s item = .ok s') :
    RelayStep n [item] s s' := by
  obtain ⟨buffer, -, h⟩ := bind_ok.mp h
  obtain rfl := pure_ok.mp h
  have hstep := relayStep_relayCredit (n := n)
    (s := { s with nextBuf := Function.update s.nextBuf item.output buffer }) item
  exact ⟨hstep.router, hstep.procCredits, hstep.counter, hstep.slot, hstep.freed⟩

theorem RelayStep.trans {s'' : FlovCredits vcs} {items items' : List (ProcCredit vcs)}
    (h : RelayStep n items s s') (h' : RelayStep n items' s' s'') :
    RelayStep n (items ++ items') s s'' where
  router := h'.router.trans h.router
  procCredits := h'.procCredits.trans h.procCredits
  counter := h'.counter.trans h.counter
  slot input hinput := by
    rw [h'.slot input ((relaysTo_of_router h.router input).trans hinput), h.slot input hinput,
      comingFrom, comingFrom, comingFrom, List.filter_append, List.head?_append, Option.map_or,
      Option.or_assoc]
  freed := by
    rw [h'.freed, h.freed, relayed_of_router h.router, List.filter_append, List.map_append,
      List.append_assoc]

theorem relayStep_foldlM {items : List (ProcCredit vcs)}
    (h : items.foldlM (processDue n now) s = .ok s') : RelayStep n items s s' := by
  induction items generalizing s with
  | nil =>
      obtain rfl := Except.ok.inj h
      exact ⟨rfl, rfl, rfl, fun _ _ => by simp [comingFrom], by simp⟩
  | cons item rest ih =>
      obtain ⟨t, ht, h⟩ := bind_ok.mp h
      exact (relayStep_processDue ht).trans (ih h)

/-! ### The step -/

theorem countP_pos_of_head (item : ProcCredit vcs) (rest : List (ProcCredit vcs)) :
    ∃ vc, 0 < (item :: rest).countP fun item => decide (vc ∈ item.credit.vc) := by
  obtain ⟨vc, hvc⟩ := List.exists_mem_of_ne_nil _ item.credit.nonempty
  exact ⟨vc, List.countP_pos_iff.mpr ⟨item, List.mem_cons_self, decide_eq_true hvc⟩⟩

theorem carried_or_head (slot : Option (List (Fin vcs))) (items : List (ProcCredit vcs)) :
    (∀ vc, carried (slot.or (items.head?.map (·.credit.vc))) vc =
      carried slot vc + items.countP fun item => decide (vc ∈ item.credit.vc)) ↔
      HasPlace slot items := by
  cases items with
  | nil => simp [HasPlace]
  | cons first rest =>
      cases slot with
      | some names =>
          -- the slot is in use: the first credit is lost
          constructor
          · intro hall
            obtain ⟨vc, hvc⟩ := countP_pos_of_head first rest
            have := hall vc
            simp only [Option.some_or] at this
            omega
          · rintro (hnone | ⟨-, hnone⟩)
            · cases hnone
            · cases hnone
      | none =>
          have hfirst : ∀ vc, carried (some first.credit.vc) vc =
              if decide (vc ∈ first.credit.vc) = true then 1 else 0 := by
            intro vc
            simp [carried]
          have hempty : ∀ vc, carried (none : Option (List (Fin vcs))) vc = 0 := fun vc => rfl
          simp only [List.head?_cons, Option.map_some, Option.none_or, hfirst, hempty,
            List.countP_cons]
          constructor
          · intro hall
            right
            cases rest with
            | nil => exact ⟨rfl, rfl⟩
            | cons second rest =>
                -- the slot is in use for the second credit
                obtain ⟨vc, hvc⟩ := countP_pos_of_head second rest
                have := hall vc
                omega
          · rintro (hnone | ⟨hone, -⟩) vc
            · cases hnone
            · obtain rfl : rest = [] := List.length_eq_zero_iff.mp (Nat.succ.inj hone)
              simp

/-- The step loses nothing exactly if every slot has place for the credits that
are due from the other side. -/
theorem losesNothing_iff (h : s.flovStep n now = .ok s') :
    LosesNothing n now s s' ↔ ∀ input, s.relaysTo n input = true →
      HasPlace (s.outQueueCredits input) (comingFrom (s.due now) input.opp) := by
  obtain ⟨t, ht, h⟩ := bind_ok.mp h
  obtain rfl := pure_ok.mp h
  have hrelay := relayStep_foldlM ht
  have hfilled : ∀ input vc,
      carried (({ t with
          procCredits := s.procCredits.dropWhile fun item => !decide (now < item.time) } :
            FlovCredits vcs).fillSlots.outQueueCredits input) vc +
        ({ t with
          procCredits := s.procCredits.dropWhile fun item => !decide (now < item.time) } :
            FlovCredits vcs).fillSlots.creditCounter input.opp vc =
        carried (t.outQueueCredits input) vc + s.creditCounter input.opp vc := by
    intro input vc
    rw [← hrelay.counter]
    dsimp only [fillSlots]
    rw [Port.opp_opp]
    exact payAll_conserves _ vc
  constructor
  · intro hloses input hinput
    apply (carried_or_head _ _).mp
    intro vc
    have hforward := hloses.forwarded input hinput vc
    rw [hfilled, hrelay.slot input hinput] at hforward
    rw [received] at hforward
    omega
  · intro hplace
    constructor
    case freed => exact hrelay.freed
    case forwarded =>
      intro input hinput vc
      have hslot := (carried_or_head _ _).mpr (hplace input hinput) vc
      rw [hfilled, hrelay.slot input hinput, received]
      omega

/-! ### Two credits from one output -/

/-- The router in the middle of the top row of a three by three mesh, off, with
one flit outstanding for either virtual channel of every output. -/
def offRouter (items : List (ProcCredit 2)) : FlovCredits 2 where
  router := { Router.initial (1 : Node 3) with powerState := .powerOff }
  nextBuf _ := {
    waitForTailCredit := false
    size := 2
    occupancy := 2
    vcOccupancy := fun _ => 1
    policy := .privateBuffer ⟨1, 1⟩
    inUseBy := fun _ => none
    tailSent := fun _ => true }
  procCredits := items
  creditCounter _ _ := 0
  outQueueCredits _ := none
  freed := []

def creditFor (vc : Fin 2) : ProcCredit 2 where
  time := 0
  credit := { vc := [vc], nodup := List.nodup_singleton vc, nonempty := nofun }
  output := some .east

theorem losesNothing_one : ∃ s', (offRouter [creditFor 0]).flovStep (1 : Node 3) 0 = .ok s' ∧
    LosesNothing (1 : Node 3) 0 (offRouter [creditFor 0]) s' := by
  refine ⟨_, rfl, (losesNothing_iff rfl).mpr fun input _ => ?_⟩
  cases input with
  | east => exact .inl rfl
  | west => exact .inr ⟨rfl, rfl⟩
  | south => exact .inl rfl
  | north => exact .inl rfl

/-- The credit for the second virtual channel is neither passed on nor freed. -/
theorem not_losesNothing_two :
    ∃ s', (offRouter [creditFor 0, creditFor 1]).flovStep (1 : Node 3) 0 = .ok s' ∧
      ¬ LosesNothing (1 : Node 3) 0 (offRouter [creditFor 0, creditFor 1]) s' := by
  refine ⟨_, rfl, fun hloses => ?_⟩
  have hforward := hloses.forwarded .west rfl 1
  revert hforward
  decide

end FlovCredits

end Flyover
