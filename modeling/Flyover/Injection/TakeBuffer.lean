import Flyover.Injection.Independence
import Flyover.Injection.NoRDTurn
import Flyover.Progress.Runs

/-!
# Injection takes no virtual channel in use

A run of a network interface is made of its turns and of what happens in between, in any
order: packets are generated, credits come back, the power state of the router changes,
flits of other nodes arrive. The router of `NoRDTrafficManager` is not asked whether it is on.
-/

namespace Flyover.Injection

variable {subnets classes vcs : Nat}

/-! ### `FLOVTrafficManager` -/

inductive FlovEvent (subnets classes vcs : Nat) where
  | packet (c : Fin classes) (size pid : Nat) (pri : Int) (subnetwork : Fin subnets)
  | credit (time : Int) (subnet : Fin subnets) (credits : List (Fin vcs))
  | power (subnet : Fin subnets) (state : PowerState)
  | turn (inputs : Inputs subnets vcs) (subnet : Fin subnets)

namespace FlovInterface

variable {s s' : FlovInterface subnets classes vcs} {cfg : Config} {inputs : Inputs subnets vcs}
  {subnet : Fin subnets}

def perform (cfg : Config) (s : FlovInterface subnets classes vcs) :
    FlovEvent subnets classes vcs → Except Error (FlovInterface subnets classes vcs)
  | .packet c size pid pri subnetwork =>
      .ok { s with
        partialPackets :=
          Function.update s.partialPackets c
            (s.partialPackets c ++ generatePacket size pid pri subnetwork) }
  | .credit time subnet credits => do
      let buf ← ((s.bufStates subnet).processCredit time credits).mapError .buffer
      pure { s with bufStates := Function.update s.bufStates subnet buf }
  | .power subnet state => .ok { s with powerState := Function.update s.powerState subnet state }
  | .turn inputs subnet => (s.inject cfg inputs subnet).map Served.node

/-- In a turn with the router on, no two classes come to have the same virtual channel. -/
def Meets (cfg : Config) (s : FlovInterface subnets classes vcs) :
    FlovEvent subnets classes vcs → Prop
  | .turn inputs subnet => s.powerState subnet = .powerOn → s.KeepsApart cfg inputs subnet
  | _ => True

theorem keptAvailable_afterLoop {l : FlovLoop subnets classes vcs} (h : s.KeptAvailable)
    (hl : s.selectFlit cfg inputs subnet = .ok l) :
    (s.afterLoop subnet l).KeptAvailable := by
  cases hoff : s.routerOff subnet with
  | true =>
      rw [afterLoop_toInterface subnet (partialPackets_of_off hl hoff)]
      exact h
  | false =>
      obtain ⟨held, hheld, hrun⟩ := selectFlit_eq_ok hl
      rw [hoff] at hrun
      exact h.afterLoop hheld hrun

/-- A turn takes available virtual channels only. -/
theorem inject_notInUse (h : s.KeptAvailable) :
    Avoids (.buffer .takenWhileInUse) (s.inject cfg inputs subnet) := by
  have hassert : Error.notSendable ≠ .buffer .takenWhileInUse := fun heq => nomatch heq
  refine Avoids.bind (Interface.held_avoids.bind fun held _ => .ok _) fun l hl => ?_
  unfold sendFlit
  split
  · exact .ok _
  next c hc =>
    split
    · exact .error hassert
    next f hf =>
      by_cases hsubnet : f.subnetwork ≠ subnet
      · rw [if_pos hsubnet]
        exact .error hassert
      · rw [if_neg hsubnet]
        split
        · exact .ok _
        · dsimp only
          have hsend : Avoids (.buffer .takenWhileInUse)
              ((s.afterLoop subnet l).send cfg inputs subnet c) := by
            refine (keptAvailable_afterLoop h hl).send_notInUse ?_
            intro g hg
            cases hf.symm.trans hg
            exact not_not.mp hsubnet
          intro herror
          split at herror
          next e he =>
            cases herror
            exact hsend he
          next => cases herror

/-- A turn that meets the condition leaves what is kept available. -/
theorem keptAvailable_inject {served : Served subnets classes vcs} (h : s.KeptAvailable)
    (hmeets : s.powerState subnet = .powerOn → s.KeepsApart cfg inputs subnet)
    (hinject : s.inject cfg inputs subnet = .ok served) : served.node.KeptAvailable := by
  obtain ⟨l, hl, hsend⟩ := inject_eq_ok hinject
  have hloop := keptAvailable_afterLoop h hl
  unfold sendFlit at hsend
  cases hc : l.f with
  | none =>
      rw [hc] at hsend
      cases hsend
      exact hloop
  | some c =>
      obtain ⟨g, hg, hf⟩ := exists_offered hl hc
      rw [hc] at hsend
      dsimp only at hsend
      rw [hf] at hsend
      dsimp only at hsend
      by_cases hsubnet : (s.offered inputs subnet c g).subnetwork ≠ subnet
      · rw [if_pos hsubnet] at hsend
        cases hsend
      · rw [if_neg hsubnet] at hsend
        by_cases hleaves : ((s.offered inputs subnet c g).head &&
            decide (s.powerState subnet ≠ .powerOn)) = true
        · rw [if_pos hleaves] at hsend
          cases hsend
          exact hloop
        · rw [if_neg hleaves] at hsend
          split at hsend
          · cases hsend
          next interface sent hok =>
            cases hsend
            refine hloop.send hok ?_
            intro f vc hfront hhead hvc d g' hdc hg' hhead' hsubnet' hvc'
            cases hf.symm.trans hfront
            -- the router is on, since a head flit is sent
            have hon : s.powerState subnet = .powerOn := by
              rw [hhead, Bool.true_and] at hleaves
              simpa using hleaves
            obtain ⟨held, hheld, hrun⟩ := selectFlit_eq_ok hl
            have hoff : s.routerOff subnet = false := by simp [routerOff, hon]
            rw [hoff] at hrun
            obtain ⟨hchosen, -⟩ := Interface.run_classes false hheld
            have hforemost := (hchosen c).mp (hrun ▸ hc)
            have hghead : g.head = true := ClassLoop.assignVC_head.symm.trans hhead
            exact hmeets hon held c g vc hheld hforemost hg hghead hvc d hdc
              (Interface.holdsOn_of_afterLoop hheld hrun hg' hsubnet' hhead' hvc')

/-- Every step keeps the invariant. -/
theorem keptAvailable_perform (e : FlovEvent subnets classes vcs) (h : s.KeptAvailable)
    (hmeets : s.Meets cfg e) (hperform : s.perform cfg e = .ok s') : s'.KeptAvailable := by
  cases e with
  | packet c size pid pri subnetwork =>
      cases hperform
      exact h.packet c size pid pri subnetwork
  | credit time subnet credits =>
      obtain ⟨buf, hbuf, hperform⟩ := bind_ok.mp hperform
      cases hperform
      exact h.credit (mapError_ok.mp hbuf)
  | power subnet state =>
      cases hperform
      exact h
  | turn inputs subnet =>
      obtain ⟨served, hserved, rfl⟩ := map_ok.mp hperform
      exact keptAvailable_inject h hmeets hserved

end FlovInterface

/-! ### `NoRDTrafficManager` -/

inductive NoRDEvent (subnets classes vcs : Nat) where
  | packet (c : Fin classes) (size pid : Nat) (pri : Int) (subnetwork : Fin subnets)
  | credit (time : Int) (subnet : Fin subnets) (credits : List (Fin vcs))
  | receive (time : Int) (subnet : Fin subnets) (f : BypassFlit subnets classes vcs)
  | turn (inputs : NoRDInputs subnets classes vcs) (subnet : Fin subnets)

namespace NoRDInterface

variable {s s' : NoRDInterface subnets classes vcs} {cfg : NoRDConfig}

def perform (cfg : NoRDConfig) (s : NoRDInterface subnets classes vcs) :
    NoRDEvent subnets classes vcs → Except Error (NoRDInterface subnets classes vcs)
  | .packet c size pid pri subnetwork =>
      .ok { s with
        partialPackets :=
          Function.update s.partialPackets c
            (s.partialPackets c ++ generatePacket size pid pri subnetwork) }
  | .credit time subnet credits => do
      let buf ← ((s.bufStates subnet).processCredit time credits).mapError .buffer
      pure { s with bufStates := Function.update s.bufStates subnet buf }
  | .receive time subnet f => s.receive subnet time f
  | .turn inputs subnet => (s.inject cfg inputs subnet).map NoRDServed.node

/-- In a turn, no two packets come to have the same virtual channel. A head flit of this
node does not leave a latch (an assertion), so no body flit follows it there. -/
def Meets (cfg : NoRDConfig) (s : NoRDInterface subnets classes vcs) :
    NoRDEvent subnets classes vcs → Prop
  | .receive _ _ f => f.head = false → f.own = false
  | .turn inputs subnet => s.TurnMeets cfg inputs subnet
  | _ => True

theorem keptTidy_perform (e : NoRDEvent subnets classes vcs) (h : s.KeptTidy)
    (hmeets : s.Meets cfg e) (hperform : s.perform cfg e = .ok s') : s'.KeptTidy := by
  cases e with
  | packet c size pid pri subnetwork =>
      cases hperform
      exact ⟨h.queues.packet c size pid pri subnetwork, h.latches⟩
  | credit time subnet credits =>
      obtain ⟨buf, hbuf, hperform⟩ := bind_ok.mp hperform
      cases hperform
      exact ⟨h.queues.credit (mapError_ok.mp hbuf), h.latches⟩
  | receive time subnet f => exact h.receive hmeets hperform
  | turn inputs subnet =>
      obtain ⟨served, hserved, rfl⟩ := map_ok.mp hperform
      exact keptTidy_inject h hmeets hserved

end NoRDInterface

/-! ### Every run -/

theorem Interface.keptAvailable_of_empty {s : Interface subnets classes vcs}
    (h : ∀ c, s.partialPackets c = []) : s.KeptAvailable where
  inOrder := fun c => h c ▸ trivial
  fresh := fun c f hf => by
    rw [h c] at hf
    cases hf
  available := fun c f vc hf => by
    rw [h c] at hf
    cases hf

/-- Runs start with empty queues and latches. As long as no two packets come to have the
same virtual channel in a turn, none is taken that is in use. -/
theorem takesAvailable (subnets classes vcs : Nat) :
    (∀ (cfg : Config) (start s : FlovInterface subnets classes vcs),
      (∀ c, start.partialPackets c = []) →
        Runs.Reaches (FlovInterface.perform cfg) (FlovInterface.Meets cfg) start s →
          ∀ inputs subnet, s.inject cfg inputs subnet ≠ .error (.buffer .takenWhileInUse)) ∧
    ∀ (cfg : NoRDConfig) (start s : NoRDInterface subnets classes vcs),
      (∀ c, start.partialPackets c = []) →
        (∀ subnet vc, start.buffers subnet vc = ⟨.idle, none, []⟩) →
          Runs.Reaches (NoRDInterface.perform cfg) (NoRDInterface.Meets cfg) start s →
            ∀ inputs subnet, s.inject cfg inputs subnet ≠ .error (.buffer .takenWhileInUse) := by
  constructor
  · intro cfg start s hempty hreaches inputs subnet
    have hkept : s.KeptAvailable :=
      hreaches.invariant (P := fun s => s.KeptAvailable) (Interface.keptAvailable_of_empty hempty)
        fun s e s' h hmeets hperform => FlovInterface.keptAvailable_perform e h hmeets hperform
    exact FlovInterface.inject_notInUse hkept
  · intro cfg start s hempty hlatches hreaches inputs subnet
    have hstart : start.KeptTidy := by
      refine ⟨Interface.keptAvailable_of_empty hempty, fun subnet vc => ?_⟩
      rw [hlatches subnet vc]
      exact ⟨Nat.zero_le 1, fun _ _ hf => absurd hf List.not_mem_nil,
        fun _ hf => absurd hf List.not_mem_nil⟩
    have hkept : s.KeptTidy :=
      hreaches.invariant hstart fun s e s' h hmeets hperform =>
        NoRDInterface.keptTidy_perform e h hmeets hperform
    exact NoRDInterface.inject_avoids hkept

/-! ### A virtual channel that is taken twice -/

/-- One virtual channel with room for four flits, given back with the credit of the tail. -/
def emptyInterface (classes : Nat) (last : Fin classes) : Interface 1 classes 1 where
  partialPackets := fun _ => []
  lastClass := fun _ => last
  lastVC := fun _ _ => none
  bufStates := fun _ => BufferState.new ⟨4, -1, true⟩ (.privateBuffer (by decide))

def emptyFlov (classes : Nat) (last : Fin classes) : FlovInterface 1 classes 1 where
  toInterface := emptyInterface classes last
  wakeupHandshakeLatency := false
  powerState := fun _ => .powerOn
  wakeupSignal := fun _ => false

def emptyNoRD (classes : Nat) (last : Fin classes) : NoRDInterface 1 classes 1 where
  toInterface := emptyInterface classes last
  duringBypassing := fun _ => false
  buffers := fun _ _ => ⟨.idle, none, []⟩
  wakeupMonitorVCRequests := 0
  wakeupSignal := false

def oneRange : Inputs 1 1 := ⟨0, fun _ => ⟨0, 0⟩⟩

/-- With a single class, a packet of two flits and a turn. -/
theorem takesAvailable_oneClass :
    (∃ s, Runs.Reaches (FlovInterface.perform ⟨false, false⟩) (FlovInterface.Meets ⟨false, false⟩)
        (emptyFlov 1 0) s ∧
      s.inject ⟨false, false⟩ oneRange 0 ≠ .error (.buffer .takenWhileInUse)) ∧
    (emptyNoRD 1 0).inject ⟨⟨false, false⟩, 0, 0, 1⟩ ⟨oneRange, false, fun _ => [], fun _ _ => false⟩ 0 ≠
      .error (.buffer .takenWhileInUse) := by
  have hapart : ∀ s : FlovInterface 1 1 1,
      s.Meets ⟨false, false⟩ (.turn oneRange 0) := by
    intro s _ held c f vc _ _ _ _ _ d hdc
    exact absurd (Subsingleton.elim d c) hdc
  have hpacket : Runs.Reaches (FlovInterface.perform ⟨false, false⟩)
      (FlovInterface.Meets ⟨false, false⟩) (emptyFlov 1 0) _ :=
    .step (a := .packet 0 2 0 0 0) .refl trivial rfl
  have hturn : Runs.Reaches (FlovInterface.perform ⟨false, false⟩)
      (FlovInterface.Meets ⟨false, false⟩) (emptyFlov 1 0) _ :=
    .step (a := .turn oneRange 0) hpacket (hapart _) rfl
  refine ⟨⟨_, hturn, ?_⟩, ?_⟩
  · exact (takesAvailable 1 1 1).1 _ _ _ (fun _ => rfl) hturn _ _
  · exact (takesAvailable 1 1 1).2 _ _ _ (fun _ => rfl) (fun _ _ => rfl) .refl _ _

/-- Class 1 comes first and is given the virtual channel; class 0 has a higher priority
and takes it. In the next turn class 1 takes it as well. -/
theorem not_takesAvailable : ¬ ∀ (subnets classes vcs : Nat) (cfg : Config)
    (start s : FlovInterface subnets classes vcs), (∀ c, start.partialPackets c = []) →
      Runs.Reaches (FlovInterface.perform cfg) (fun _ _ => True) start s →
        ∀ inputs subnet, s.inject cfg inputs subnet ≠ .error (.buffer .takenWhileInUse) := by
  intro hall
  have hpackets : Runs.Reaches (FlovInterface.perform ⟨false, false⟩) (fun _ _ => True)
      (emptyFlov 2 0) _ :=
    .step (a := .packet 1 1 1 0 0) (.step (a := .packet 0 1 0 1 0) .refl trivial rfl) trivial rfl
  have hturn : Runs.Reaches (FlovInterface.perform ⟨false, false⟩) (fun _ _ => True)
      (emptyFlov 2 0) _ :=
    .step (a := .turn oneRange 0) hpackets trivial rfl
  exact hall 1 2 1 _ _ _ (fun _ => rfl) hturn oneRange 0 rfl

end Flyover.Injection
