import Flyover.Buffer.InUse
import Flyover.NoRD.Router
import Flyover.Progress.Runs
import Flyover.RFlov.PortMove

/-!
# The packets that a NoRD router bypasses

While a router is off or wakes up, it notes the packets that come in from the mesh, and it
takes a packet off the list when its tail leaves for the mesh again. The list keeps the
acknowledgement from the next router of the ring, and the buffer at the network interface
small.

A reference follows each packet from its head to its tail. Nobody takes a packet off the list
that ends at this node.
-/

namespace Flyover

variable {k : Nat}

namespace NoRDRouter

/-- What happens to a router. -/
inductive Action where
  | setRouterState (wanted : Bool)
  | wakeUp
  | receive (input : Fin 5) (f : PassingFlit)
  /-- `_HandshakeEvaluate` leaves the ports so -/
  | handshakes (ports : Port → PortState)
  | evaluate (time : Int) (d : NoRDDatapath)
  | takeRequest
  | respond (d : NoRDDatapath)
  | send (output : Fin 5) (f : PassingFlit)

variable (cfg : NoRDRouterConfig k) (n : Node k) (r : NoRDRouter)

def perform : Action → Except NoRDFailure NoRDRouter
  | .setRouterState wanted => .ok { r with routerState := wanted }
  | .wakeUp => .ok { r with wakeupSignal := true }
  | .receive input f => .ok (r.receiveFlit input f)
  | .handshakes ports => .ok { r with ports := ports }
  | .evaluate time d => r.powerStateEvaluate cfg n time d
  | .takeRequest => .ok r.takeRequest
  | .respond d => .ok (r.respond n d)
  | .send output f => .ok (r.sendFlit cfg output f)

/-- The router bypasses its pipeline. -/
def Bypasses : Prop := r.powerState = .powerOff ∨ r.powerState = .wakeup

instance : Decidable r.Bypasses := inferInstanceAs (Decidable (_ ∨ _))

variable {cfg n r} {r' : NoRDRouter}

/-! ### The power state and the list -/

/-- The list stays, and the buffer is made small only where the router goes off. -/
structure KeepsPackets (cfg : NoRDRouterConfig k) (r r' : NoRDRouter) : Prop where
  packets : r'.outstandingBypassPackets = r.outstandingBypassPackets
  size : r'.ejectionSize = r.ejectionSize ∨
    r'.ejectionSize = cfg.vcs ∧ r'.powerState = .powerOff

theorem announce_ok (h : r.announce n = .ok r') :
    r'.outstandingBypassPackets = r.outstandingBypassPackets ∧
      r'.ejectionSize = r.ejectionSize ∧ r'.powerState = r.powerState := by
  obtain ⟨router, hrouter, h⟩ := bind_ok.mp h
  cases h
  obtain rfl := RFLOVRouter.announce_ok (mapError_ok.mp hrouter)
  exact ⟨rfl, rfl, rfl⟩

theorem setEjectionSize_ok (h : r.setEjectionSize cfg = .ok r') :
    r'.outstandingBypassPackets = r.outstandingBypassPackets ∧ r'.ejectionSize = cfg.vcs ∧
      r'.powerState = r.powerState := by
  unfold setEjectionSize at h
  split at h
  next =>
    split at h
    next hsmall =>
      cases h
      exact ⟨rfl, hsmall, rfl⟩
    next => cases h
  next =>
    cases h
    exact ⟨rfl, rfl, rfl⟩

theorem turnOn_ok (h : r.turnOn n = .ok r') :
    r'.outstandingBypassPackets = r.outstandingBypassPackets ∧
      r'.ejectionSize = r.ejectionSize := by
  obtain ⟨hpackets, hsize, -⟩ := announce_ok h
  exact ⟨hpackets, hsize⟩

theorem keepsPackets_powerOn {d : NoRDDatapath} (h : r.powerOnEvaluate cfg n d = .ok r') :
    KeepsPackets cfg r r' := by
  unfold powerOnEvaluate at h
  dsimp only at h
  split at h
  next =>
    cases h
    exact ⟨rfl, .inl rfl⟩
  next =>
    split at h
    next =>
      obtain ⟨hpackets, hsize, -⟩ := announce_ok h
      exact ⟨hpackets, .inl hsize⟩
    next =>
      cases h
      exact ⟨rfl, .inl rfl⟩

theorem keepsPackets_draining {d : NoRDDatapath} (h : r.drainingEvaluate cfg n d = .ok r') :
    KeepsPackets cfg r r' := by
  unfold drainingEvaluate at h
  dsimp only at h
  split at h
  next =>
    obtain ⟨r₁, hon, h⟩ := bind_ok.mp h
    cases h
    obtain ⟨hpackets, hsize⟩ := turnOn_ok hon
    exact ⟨hpackets, .inl hsize⟩
  next =>
    split at h
    next =>
      obtain ⟨r₁, hsmall, h⟩ := bind_ok.mp h
      obtain ⟨hpackets, hsize, hstate⟩ := setEjectionSize_ok hsmall
      obtain ⟨hpackets', hsize', hstate'⟩ := announce_ok h
      exact ⟨hpackets'.trans hpackets, .inr ⟨hsize'.trans hsize, hstate'.trans hstate⟩⟩
    next =>
      split at h
      next =>
        obtain ⟨hpackets, hsize⟩ := turnOn_ok h
        exact ⟨hpackets, .inl hsize⟩
      next =>
        cases h
        exact ⟨rfl, .inl rfl⟩

theorem keepsPackets_powerOff {time : Int} (h : r.powerOffEvaluate cfg n time = .ok r') :
    KeepsPackets cfg r r' := by
  obtain ⟨r₁, hleave, h⟩ := bind_ok.mp h
  cases h
  have hleft : r₁.outstandingBypassPackets = r.outstandingBypassPackets ∧
      r₁.ejectionSize = r.ejectionSize := by
    unfold leaveOff at hleave
    dsimp only at hleave
    split at hleave
    next =>
      split at hleave
      next =>
        cases hleave
        exact ⟨rfl, rfl⟩
      next => cases hleave
    next =>
      cases hleave
      exact ⟨rfl, rfl⟩
  unfold monitor
  split
  next =>
    split
    next => exact ⟨hleft.1, .inl hleft.2⟩
    next => exact ⟨hleft.1, .inl hleft.2⟩
  next => exact ⟨hleft.1, .inl hleft.2⟩

theorem keepsPackets_wakeup (h : r.wakeupEvaluate cfg n = .ok r') : KeepsPackets cfg r r' := by
  unfold wakeupEvaluate at h
  dsimp only at h
  split at h
  next =>
    obtain ⟨hpackets, hsize, -⟩ := announce_ok h
    exact ⟨hpackets, .inl hsize⟩
  next =>
    cases h
    exact ⟨rfl, .inl rfl⟩

theorem keepsPackets_evaluate {time : Int} {d : NoRDDatapath}
    (h : r.powerStateEvaluate cfg n time d = .ok r') : KeepsPackets cfg r r' := by
  unfold powerStateEvaluate at h
  split at h
  next =>
    split at h
    next =>
      cases h
      exact ⟨rfl, .inl rfl⟩
    next => cases h
  next =>
    split at h
    next => exact keepsPackets_powerOn h
    next => exact keepsPackets_draining h
    next => exact keepsPackets_powerOff h
    next => exact keepsPackets_wakeup h

end NoRDRouter

/-! ### The reference -/

/-- A packet on its way through the router, and whether its head came from the mesh while the
router was bypassing. -/
structure Passage where
  pid : Nat
  bypassing : Bool

/-- The packets whose tail has not left for the mesh yet, of those that the list is about. -/
def outstanding (passages : List Passage) : List Nat :=
  (passages.filter (·.bypassing)).map (·.pid)

/-- The oldest passage of the packet ends. -/
def endPassage (pid : Nat) (passages : List Passage) : List Passage :=
  passages.eraseP (·.pid = pid)

/-- A packet whose head arrives, if it does not end here. From the network interface come the
packets of this node, and again those that have been on their way. -/
def beginPassage (n : Node k) (bypassing : Bool) (input : Fin 5) (f : PassingFlit)
    (passages : List Passage) : List Passage :=
  if f.head = true ∧ f.dest ≠ n.val then
    if input < 4 then passages ++ [⟨f.pid, bypassing⟩]
    else if f.src = n.val then passages ++ [⟨f.pid, false⟩]
    else passages
  else passages

/-- The list is not about the passage of the packet that ends, only if about none. -/
def EndsInOrder (pid : Nat) (passages : List Passage) : Prop :=
  ∀ p, passages.find? (·.pid = pid) = some p → p.bypassing = false → pid ∉ outstanding passages

theorem outstanding_append (passages rest : List Passage) :
    outstanding (passages ++ rest) = outstanding passages ++ outstanding rest := by
  simp [outstanding]

@[simp] theorem outstanding_cons_of_bypassing {p : Passage} {rest : List Passage}
    (h : p.bypassing = true) : outstanding (p :: rest) = p.pid :: outstanding rest := by
  simp [outstanding, h]

@[simp] theorem outstanding_cons_of_not_bypassing {p : Passage} {rest : List Passage}
    (h : p.bypassing = false) : outstanding (p :: rest) = outstanding rest := by
  simp [outstanding, h]

/-- The packets come off the list in the order of their passages. -/
theorem outstanding_endPassage {pid : Nat} {passages : List Passage}
    (h : EndsInOrder pid passages) :
    outstanding (endPassage pid passages) = (outstanding passages).erase pid := by
  induction passages with
  | nil => rfl
  | cons p rest ih =>
      by_cases hpid : p.pid = pid
      · have hend : endPassage pid (p :: rest) = rest := by simp [endPassage, hpid]
        rw [hend]
        cases hbypassing : p.bypassing with
        | true => rw [outstanding_cons_of_bypassing hbypassing, hpid, List.erase_cons_head]
        | false =>
            -- the list is not about this passage, and about no other one of the packet
            have hnot := h p (by simp [hpid]) hbypassing
            rw [outstanding_cons_of_not_bypassing hbypassing] at hnot ⊢
            rw [List.erase_of_not_mem hnot]
      · have hend : endPassage pid (p :: rest) = p :: endPassage pid rest := by
          simp [endPassage, hpid]
        have hrest : EndsInOrder pid rest := by
          intro q hq hfalse hmem
          refine h q (by rwa [List.find?_cons_of_neg (by simpa using hpid)]) hfalse ?_
          rw [show p :: rest = [p] ++ rest from rfl, outstanding_append]
          exact List.mem_append_right _ hmem
        rw [hend]
        cases hbypassing : p.bypassing with
        | true =>
            rw [outstanding_cons_of_bypassing hbypassing, outstanding_cons_of_bypassing hbypassing,
              ih hrest, List.erase_cons_tail (by simpa using hpid)]
        | false =>
            rw [outstanding_cons_of_not_bypassing hbypassing,
              outstanding_cons_of_not_bypassing hbypassing, ih hrest]

/-- A router, the packets on their way through it, and whether the buffer at the network
interface is due to be large: since the router was off, a tail has left for the mesh when no
packet was outstanding. -/
structure BypassingRouter extends NoRDRouter where
  passages : List Passage
  cleared : Bool

namespace BypassingRouter

variable (cfg : NoRDRouterConfig k) (n : Node k) (s : BypassingRouter)

def passagesAfter : NoRDRouter.Action → List Passage
  | .receive input f => beginPassage n (decide s.Bypasses) input f s.passages
  | .send output f =>
      if output < 4 ∧ f.tail = true then endPassage f.pid s.passages else s.passages
  | _ => s.passages

/-- A tail leaves for the mesh, and no packet is outstanding. -/
def Clears : NoRDRouter.Action → Prop
  | .send output f => output < 4 ∧ f.tail = true ∧ outstanding (endPassage f.pid s.passages) = []
  | _ => False

instance : (a : NoRDRouter.Action) → Decidable (s.Clears a)
  | .send _ _ => inferInstanceAs (Decidable (_ ∧ _ ∧ _))
  | .setRouterState _ | .wakeUp | .receive _ _ | .handshakes _ | .evaluate _ _ | .takeRequest
  | .respond _ => inferInstanceAs (Decidable False)

def perform (a : NoRDRouter.Action) : Except NoRDFailure BypassingRouter := do
  let r ← s.toNoRDRouter.perform cfg n a
  pure {
    toNoRDRouter := r
    passages := s.passagesAfter n a
    cleared := decide (¬ r.Bypasses) && (s.cleared || decide (s.Clears a)) }

/-- No packet that ends at this node comes from the mesh while the router is bypassing, and the
passages of a packet that the list is about end in order. -/
def Meets : NoRDRouter.Action → Prop
  | .receive input f => s.Bypasses → input < 4 → f.head = true → f.dest ≠ n.val
  | .send output f => output < 4 → f.tail = true → EndsInOrder f.pid s.passages
  | _ => True

/-- The list has the packets that are outstanding. When there are none, the next router of the
ring has its answer as soon as the pipeline allows; and when a tail leaves then, the buffer at
the network interface is large. -/
structure Kept : Prop where
  packets : s.outstandingBypassPackets = outstanding s.passages
  restored : s.cleared = true → s.ejectionSize = cfg.fullSize
  answered : outstanding s.passages = [] → ∀ d : NoRDDatapath,
    (s.ports n.ringOutput).neighborState = .draining → d.portDrained n.ringOutput = true →
      ((s.toNoRDRouter.respond n d).ports n.ringOutput).drainDoneSent = true

/-- Nothing has come in. -/
structure Begins : Prop where
  packets : s.outstandingBypassPackets = []
  passages : s.passages = []
  cleared : s.cleared = false
  size : s.ejectionSize = cfg.fullSize ∨ s.ejectionSize = cfg.vcs

/-- The invariant of runs. -/
structure Tracked : Prop where
  packets : s.outstandingBypassPackets = outstanding s.passages
  restored : s.cleared = true → s.ejectionSize = cfg.fullSize
  size : s.ejectionSize = cfg.fullSize ∨ s.ejectionSize = cfg.vcs

variable {cfg n s} {s' start : BypassingRouter}

theorem Begins.tracked (h : s.Begins cfg) : s.Tracked cfg where
  packets := by
    rw [h.packets, h.passages]
    rfl
  restored := by
    intro hcleared
    rw [h.cleared] at hcleared
    cases hcleared
  size := h.size

/-- The answer rests on the list. -/
theorem Tracked.kept (h : s.Tracked cfg) : s.Kept cfg n where
  packets := h.packets
  restored := h.restored
  answered := by
    intro hnone d hdraining hdrained
    have hempty : s.outstandingBypassPackets.isEmpty = true := by
      rw [h.packets, hnone]
      rfl
    cases hsent : (s.ports n.ringOutput).drainDoneSent with
    | true => simp [NoRDRouter.respond, Router.sendDrainDone, hsent]
    | false => simp [NoRDRouter.respond, Router.sendDrainDone, hdraining, hdrained, hempty, hsent]

/-- A flit that comes begins a passage, if it is a head that does not end here. -/
theorem Tracked.receive {input : Fin 5} {f : PassingFlit} (h : s.Tracked cfg)
    (hmeets : s.Meets n (.receive input f)) :
    (s.toNoRDRouter.receiveFlit input f).outstandingBypassPackets =
      outstanding (beginPassage n (decide s.Bypasses) input f s.passages) := by
  unfold NoRDRouter.receiveFlit beginPassage
  dsimp only
  rw [h.packets]
  have hother : outstanding (s.passages ++ [⟨f.pid, false⟩]) = outstanding s.passages := by
    rw [outstanding_append]
    exact List.append_nil _
  by_cases hlisted : (s.powerState = .powerOff ∨ s.powerState = .wakeup) ∧ input < 4 ∧ f.head = true
  · obtain ⟨hbypasses, hmesh, hhead⟩ := hlisted
    have hdest := hmeets hbypasses hmesh hhead
    have htrue : decide s.Bypasses = true := decide_eq_true hbypasses
    rw [if_pos ⟨hbypasses, hmesh, hhead⟩, if_pos ⟨hhead, hdest⟩, if_pos hmesh, outstanding_append,
      htrue]
    rfl
  · rw [if_neg hlisted]
    split
    next hhead =>
      split
      next hmesh =>
        have hnot : ¬ s.Bypasses := fun hbypasses => hlisted ⟨hbypasses, hmesh, hhead.1⟩
        rw [decide_eq_false hnot, hother]
      next =>
        split
        next => exact hother.symm
        next => rfl
    next => rfl

/-- A flit that leaves ends the oldest passage of its packet, if it is a tail. -/
theorem Tracked.send {output : Fin 5} {f : PassingFlit} (h : s.Tracked cfg)
    (hmeets : s.Meets n (.send output f)) (hleaves : output < 4 ∧ f.tail = true) :
    (s.toNoRDRouter.sendFlit cfg output f).outstandingBypassPackets =
      outstanding (endPassage f.pid s.passages) := by
  unfold NoRDRouter.sendFlit
  rw [if_pos hleaves, outstanding_endPassage (hmeets hleaves.1 hleaves.2), ← h.packets]

/-- The buffer at the network interface becomes large or stays; it becomes large where the
list has become empty and the router is on. -/
theorem sendFlit_size (cfg : NoRDRouterConfig k) (r : NoRDRouter) (output : Fin 5) (f : PassingFlit) :
    ((r.sendFlit cfg output f).ejectionSize = r.ejectionSize ∨
      (r.sendFlit cfg output f).ejectionSize = cfg.fullSize) ∧
      (output < 4 ∧ f.tail = true → (r.sendFlit cfg output f).outstandingBypassPackets = [] →
        ¬ r.Bypasses → r.ejectionSize = cfg.vcs →
          (r.sendFlit cfg output f).ejectionSize = cfg.fullSize) := by
  unfold NoRDRouter.sendFlit
  split
  next hleaves =>
    dsimp only
    constructor
    · split
      · exact .inr rfl
      · exact .inl rfl
    · intro _ hempty hon hsmall
      have hstate : r.powerState = .powerOn ∨ r.powerState = .draining := by
        unfold NoRDRouter.Bypasses at hon
        cases hpower : r.powerState <;> simp [hpower] at hon ⊢
      rw [if_pos ⟨hstate, hsmall, hempty⟩]
  next hstays => exact ⟨.inl rfl, fun hleaves => absurd hleaves hstays⟩

/-- What does not touch the list nor the buffer keeps the invariant. -/
theorem Tracked.keeps {r : NoRDRouter} {cleared : Bool} (h : s.Tracked cfg)
    (hkeeps : NoRDRouter.KeepsPackets cfg s.toNoRDRouter r)
    (hcleared : cleared = true → ¬ r.Bypasses ∧ s.cleared = true) :
    Tracked cfg ⟨r, s.passages, cleared⟩ where
  packets := hkeeps.packets.trans h.packets
  restored := by
    intro htrue
    obtain ⟨hon, hbefore⟩ := hcleared htrue
    obtain hsize | ⟨-, hoff⟩ := hkeeps.size
    · exact hsize.trans (h.restored hbefore)
    · exact absurd (.inl hoff) hon
  size := by
    obtain hsize | ⟨hsize, -⟩ := hkeeps.size
    · exact hsize ▸ h.size
    · exact .inr hsize

theorem Tracked.perform (a : NoRDRouter.Action) (h : s.Tracked cfg) (hmeets : s.Meets n a)
    (hperform : s.perform cfg n a = .ok s') : s'.Tracked cfg := by
  obtain ⟨r, hr, hperform⟩ := bind_ok.mp hperform
  cases hperform
  have hquiet (hclears : ¬ s.Clears a) :
      (decide (¬ r.Bypasses) && (s.cleared || decide (s.Clears a))) = true →
        ¬ r.Bypasses ∧ s.cleared = true := by
    rw [decide_eq_false hclears, Bool.or_false, Bool.and_eq_true, decide_eq_true_eq]
    exact id
  cases a with
  | setRouterState wanted =>
      cases hr
      exact h.keeps ⟨rfl, .inl rfl⟩ (hquiet id)
  | wakeUp =>
      cases hr
      exact h.keeps ⟨rfl, .inl rfl⟩ (hquiet id)
  | handshakes ports =>
      cases hr
      exact h.keeps ⟨rfl, .inl rfl⟩ (hquiet id)
  | takeRequest =>
      cases hr
      exact h.keeps ⟨rfl, .inl rfl⟩ (hquiet id)
  | respond d =>
      cases hr
      exact h.keeps ⟨rfl, .inl rfl⟩ (hquiet id)
  | evaluate time d => exact h.keeps (NoRDRouter.keepsPackets_evaluate hr) (hquiet id)
  | receive input f =>
      cases hr
      exact ⟨h.receive hmeets, fun hcleared => h.restored (hquiet id hcleared).2, h.size⟩
  | send output f =>
      cases hr
      by_cases hleaves : output < 4 ∧ f.tail = true
      · have hpassages : s.passagesAfter n (.send output f) = endPassage f.pid s.passages :=
          if_pos hleaves
        have hpackets := h.send hmeets hleaves
        obtain ⟨hsize, hlarge⟩ := sendFlit_size cfg s.toNoRDRouter output f
        have hstate : (s.toNoRDRouter.sendFlit cfg output f).powerState = s.powerState := by
          unfold NoRDRouter.sendFlit
          rw [if_pos hleaves]
        rw [hpassages]
        refine ⟨hpackets, fun hcleared => ?_, ?_⟩
        · rw [Bool.and_eq_true, Bool.or_eq_true, decide_eq_true_eq, decide_eq_true_eq,
            NoRDRouter.Bypasses, hstate] at hcleared
          dsimp only
          obtain ⟨hon, hbefore | hclears⟩ := hcleared
          · exact hsize.elim (fun hsame => hsame.trans (h.restored hbefore)) id
          · obtain hfull | hsmall := h.size
            · exact hsize.elim (fun hsame => hsame.trans hfull) id
            · exact hlarge hleaves (hpackets.trans hclears.2.2) hon hsmall
        · exact hsize.elim (fun hsame => hsame ▸ h.size) .inl
      · have hsame : s.toNoRDRouter.sendFlit cfg output f = s.toNoRDRouter := if_neg hleaves
        have hpassages : s.passagesAfter n (.send output f) = s.passages := if_neg hleaves
        rw [hsame, hpassages]
        have hclears : ¬ s.Clears (.send output f) := fun hclears => hleaves ⟨hclears.1, hclears.2.1⟩
        exact h.keeps ⟨rfl, .inl rfl⟩ (hsame ▸ hquiet hclears)

/-- The router in the middle of a mesh, at the beginning. -/
def poweredOn : BypassingRouter where
  toNoRDRouter := { Router.initial (k := 3) 4 with ejectionSize := 2 }
  passages := []
  cleared := false

/-- Nothing is in the pipeline. -/
def emptyPipeline : NoRDDatapath := { Datapath.empty with destBuffersEmpty := true }

/-- A packet of one flit, from router 5. -/
def oneFlit (dest : Nat) : PassingFlit where
  pid := 7
  src := 5
  dest := dest
  head := true
  tail := true

/-- All neighbours have answered. -/
def answeredPorts (p : Port) : PortState := { (Router.initial (k := 3) 4).ports p with drainTag := true }

/-- The router drains, and is off. -/
theorem reaches_off (meets : BypassingRouter → NoRDRouter.Action → Prop)
    (hmeets : ∀ s a, (∀ input f, a ≠ .receive input f) → (∀ output f, a ≠ .send output f) → meets s a) :
    ∃ s, Runs.Reaches (BypassingRouter.perform (.short 3) 4) meets poweredOn s ∧
      s.powerState = .powerOff ∧ s.outstandingBypassPackets = [] ∧ s.passages = [] := by
  have hstart : Runs.Reaches (BypassingRouter.perform (.short 3) 4) meets poweredOn _ := .refl
  have hwanted := hstart.step (a := .setRouterState false) (hmeets _ _ nofun nofun) rfl
  have hdrains := hwanted.step (a := .evaluate 0 emptyPipeline) (hmeets _ _ nofun nofun) rfl
  have hasks := hdrains.step (a := .respond emptyPipeline) (hmeets _ _ nofun nofun) rfl
  have hanswered := hasks.step (a := .handshakes answeredPorts) (hmeets _ _ nofun nofun) rfl
  have hoff := hanswered.step (a := .evaluate 1 emptyPipeline) (hmeets _ _ nofun nofun) rfl
  exact ⟨_, hoff, rfl, rfl, rfl⟩

end BypassingRouter

end Flyover
