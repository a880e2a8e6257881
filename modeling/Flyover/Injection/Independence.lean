import Flyover.Injection.Flov
import Flyover.Injection.Selection
import Mathlib.Data.Fin.VecNotation

/-!
# Injection at different nodes

A node that breaks out of the loop over the nodes keeps the nodes after it from sending.
It does so when the flit that it selects is a head flit, which has kept a virtual channel
from an earlier step, and its router is not on. Otherwise what a node does depends on its
own interface and on the power state of its router only.
-/

namespace Flyover.Injection

variable {subnets classes vcs nodes : Nat}

/-- What a turn leaves of the interface, and what it sends. -/
def Served.own (served : Served subnets classes vcs) :
    Interface subnets classes vcs × Option (Flit subnets vcs) :=
  (served.node.toInterface, served.sent)

def FlovNodes.own (s : FlovNodes nodes subnets classes vcs) (n : Fin nodes) :
    Interface subnets classes vcs × Option (Flit subnets vcs) :=
  ((s.interfaces n).toInterface, s.sent n)

/-- The passes over the subnetworks in one step; what each of them ends with. -/
def FlovNodes.injectStep (cfg : Config) (inputs : Fin nodes → Inputs subnets vcs) :
    List (Fin subnets) → (Fin nodes → FlovInterface subnets classes vcs) →
      Except Error (List (FlovNodes nodes subnets classes vcs))
  | [], _ => .ok []
  | subnet :: rest, interfaces => do
      let pass ← injectInto cfg inputs subnet interfaces
      let passes ← injectStep cfg inputs rest pass.interfaces
      pure (pass :: passes)

namespace FlovInterface

/-- The turns of a node by itself. -/
def injectStep (cfg : Config) (inputs : Inputs subnets vcs) :
    List (Fin subnets) → FlovInterface subnets classes vcs →
      Except Error (List (Served subnets classes vcs))
  | [], _ => .ok []
  | subnet :: rest, s => do
      let served ← s.inject cfg inputs subnet
      let turns ← injectStep cfg inputs rest served.node
      pure (served :: turns)

variable (s : FlovInterface subnets classes vcs) (cfg : Config) (inputs : Inputs subnets vcs)
  (subnet : Fin subnets)

def routerOff : Bool := s.powerState subnet ≠ .powerOn

/-- The flit is the first of highest priority of those that can go. -/
def Selects (f : Flit subnets vcs) : Prop :=
  ∃ held c, s.held cfg inputs subnet = .ok held ∧
    s.Foremost inputs subnet (s.routerOff subnet) held c ∧ (s.partialPackets c).head? = some f

/-- The router is not on, and the flit is a head flit. -/
def LeavesLoop : Prop :=
  s.routerOff subnet = true ∧ ∃ f, s.Selects cfg inputs subnet f ∧ f.head = true

/-- There is no flit to be sent, but for a head flit at a router that is not on. -/
def SendsNothing : Prop :=
  (∃ held, s.held cfg inputs subnet = .ok held) ∧
    ∀ f, s.Selects cfg inputs subnet f → s.routerOff subnet = true ∧ f.head = true

end FlovInterface

/-- In each pass, no node that leaves the loop is before one that has something to send. -/
def NobodyPassedOver (cfg : Config) (inputs : Fin nodes → Inputs subnets vcs) :
    List (Fin subnets) → (Fin nodes → FlovInterface subnets classes vcs) → Prop
  | [], _ => True
  | subnet :: rest, interfaces =>
      (∀ m n, m < n → (interfaces m).LeavesLoop cfg (inputs m) subnet →
        (interfaces n).SendsNothing cfg (inputs n) subnet) ∧
      ∀ pass, FlovNodes.injectInto cfg inputs subnet interfaces = .ok pass →
        NobodyPassedOver cfg inputs rest pass.interfaces

/-- Each node ends every pass as it would by itself. -/
def InjectsAlone (cfg : Config) (inputs : Fin nodes → Inputs subnets vcs)
    (order : List (Fin subnets)) (interfaces : Fin nodes → FlovInterface subnets classes vcs)
    (passes : List (FlovNodes nodes subnets classes vcs)) : Prop :=
  ∀ n, ∃ turns, (interfaces n).injectStep cfg (inputs n) order = .ok turns ∧
    turns.map Served.own = passes.map fun pass => pass.own n

/-! ### A node's turn -/

/-- The loop of `FLOVTrafficManager` differs in what it does to the router only. -/
theorem FlovLoop.foldl_examine {inputs : Inputs subnets vcs} {subnet : Fin subnets}
    {buf : BufferState vcs} {lastVC : Fin classes → Option (Fin vcs)} {powerState : PowerState}
    (order : List (Fin classes)) (l : FlovLoop subnets classes vcs) :
    (l.stopped = true →
      order.foldl (examine inputs subnet buf lastVC powerState) l = l) ∧
    (l.stopped = false →
      (order.foldl (examine inputs subnet buf lastVC powerState) l).toClassLoop =
        l.toClassLoop.run buf inputs subnet lastVC (decide (powerState ≠ .powerOn)) order) := by
  induction order generalizing l with
  | nil => exact ⟨fun _ => rfl, fun _ => rfl⟩
  | cons c order ih =>
      constructor
      · intro hstopped
        have hsame : l.examine inputs subnet buf lastVC powerState c = l := if_pos hstopped
        rw [List.foldl_cons, hsame]
        exact (ih l).1 hstopped
      · intro hgoes
        have hnot : ¬ l.stopped = true := by simp [hgoes]
        rw [List.foldl_cons, examine, if_neg hnot, ClassLoop.run]
        cases hcandidate : l.candidate subnet c with
        | none => exact (ih l).2 hgoes
        | some cf =>
            dsimp only
            rw [Bool.and_comm]
            by_cases hends : (decide (powerState ≠ .powerOn) && cf.needsVC) = true
            · rw [if_pos hends, if_pos hends, (ih _).1 rfl]
              rfl
            · rw [if_neg hends, if_neg hends]
              exact (ih _).2 hgoes

namespace FlovInterface

variable {s : FlovInterface subnets classes vcs} {cfg : Config} {inputs : Inputs subnets vcs}
  {subnet : Fin subnets}

theorem selectFlit_eq_ok {l : FlovLoop subnets classes vcs}
    (h : s.selectFlit cfg inputs subnet = .ok l) :
    ∃ held, s.held cfg inputs subnet = .ok held ∧
      l.toClassLoop = ClassLoop.run (s.bufStates subnet) inputs subnet (s.lastVC subnet)
        (s.routerOff subnet) ⟨s.partialPackets, held⟩ (classOrder (s.lastClass subnet) held) := by
  obtain ⟨held, hheld, h⟩ := bind_ok.mp h
  cases h
  exact ⟨held, hheld, (FlovLoop.foldl_examine _ _).2 rfl⟩

/-- Selection is the loop over the classes. -/
theorem selects_iff {l : FlovLoop subnets classes vcs} {f : Flit subnets vcs}
    (h : s.selectFlit cfg inputs subnet = .ok l) :
    s.Selects cfg inputs subnet f ↔
      ∃ c, l.f = some c ∧ (s.partialPackets c).head? = some f := by
  obtain ⟨held, hheld, hrun⟩ := selectFlit_eq_ok h
  obtain ⟨hchosen, -⟩ := Interface.run_classes (s.routerOff subnet) hheld
  rw [← hrun] at hchosen
  constructor
  · rintro ⟨held', c, hheld', hforemost, hf⟩
    cases hheld.symm.trans hheld'
    exact ⟨c, (hchosen c).mpr hforemost, hf⟩
  · rintro ⟨c, hc, hf⟩
    exact ⟨held, c, hheld, (hchosen c).mp hc, hf⟩

theorem Selects.unique {f f' : Flit subnets vcs} {l : FlovLoop subnets classes vcs}
    (hl : s.selectFlit cfg inputs subnet = .ok l) (h : s.Selects cfg inputs subnet f)
    (h' : s.Selects cfg inputs subnet f') : f = f' := by
  obtain ⟨c, hc, hf⟩ := (selects_iff hl).mp h
  obtain ⟨c', hc', hf'⟩ := (selects_iff hl).mp h'
  cases hc.symm.trans hc'
  exact Option.some.inj (hf.symm.trans hf')

/-- Where nothing is chosen, or the router is not on, the queues are as they were. -/
theorem afterLoop_toInterface (subnet : Fin subnets) {l : FlovLoop subnets classes vcs}
    (h : l.partialPackets = s.partialPackets) :
    (s.afterLoop subnet l).toInterface = s.toInterface := by
  unfold afterLoop
  dsimp only
  rw [h]

theorem partialPackets_of_off {l : FlovLoop subnets classes vcs}
    (h : s.selectFlit cfg inputs subnet = .ok l) (hoff : s.routerOff subnet = true) :
    l.partialPackets = s.partialPackets := by
  obtain ⟨held, -, hrun⟩ := selectFlit_eq_ok h
  rw [hrun, hoff, ClassLoop.run_blocked]

/-- The flit that the loop has chosen, and what it was before. -/
theorem exists_offered {l : FlovLoop subnets classes vcs} {c : Fin classes}
    (h : s.selectFlit cfg inputs subnet = .ok l) (hc : l.f = some c) :
    ∃ g, (s.partialPackets c).head? = some g ∧
      (l.partialPackets c).head? = some (s.offered inputs subnet c g) := by
  obtain ⟨held, hheld, hrun⟩ := selectFlit_eq_ok h
  obtain ⟨-, hfollows⟩ := Interface.run_classes (s.routerOff subnet) hheld
  rw [← hrun] at hfollows
  obtain ⟨hadvanced, g, rest, hqueue, -⟩ := hfollows.chosen c hc
  refine ⟨g, ?_, ?_⟩
  · rw [hqueue, List.head?_cons]
  · rw [hadvanced, Interface.advanced_of_cons hqueue, List.head?_cons]

theorem exists_chosen {l : FlovLoop subnets classes vcs} {c : Fin classes}
    (h : s.selectFlit cfg inputs subnet = .ok l) (hc : l.f = some c) :
    ∃ f g, (l.partialPackets c).head? = some f ∧ (s.partialPackets c).head? = some g ∧
      f.head = g.head ∧ f.subnetwork = g.subnetwork := by
  obtain ⟨g, hg, hchosen⟩ := exists_offered h hc
  exact ⟨_, g, hchosen, hg, ClassLoop.assignVC_head, ClassLoop.assignVC_subnetwork⟩

theorem partialPackets_of_none {l : FlovLoop subnets classes vcs}
    (h : s.selectFlit cfg inputs subnet = .ok l) (hnone : l.f = none) :
    l.partialPackets = s.partialPackets := by
  obtain ⟨held, hheld, hrun⟩ := selectFlit_eq_ok h
  obtain ⟨-, hfollows⟩ := Interface.run_classes (s.routerOff subnet) hheld
  rw [← hrun] at hfollows
  exact hfollows.unchanged hnone

/-- A turn is the loop over the classes and what comes after. -/
theorem inject_eq_ok {served : Served subnets classes vcs}
    (h : s.inject cfg inputs subnet = .ok served) :
    ∃ l, s.selectFlit cfg inputs subnet = .ok l ∧ s.sendFlit cfg inputs subnet l = .ok served :=
  bind_ok.mp h

/-- What a node can do in its turn. -/
inductive Turn (s : FlovInterface subnets classes vcs) (cfg : Config)
    (inputs : Inputs subnets vcs) (subnet : Fin subnets) (served : Served subnets classes vcs) :
    Prop where
  | idle (hnone : ∀ f, ¬ s.Selects cfg inputs subnet f)
      (hown : served.own = (s.toInterface, none)) (hleaves : served.leaves = false)
  | leaves (f : Flit subnets vcs) (hselects : s.Selects cfg inputs subnet f)
      (hoff : s.routerOff subnet = true) (hhead : f.head = true)
      (hown : served.own = (s.toInterface, none)) (hleaves : served.leaves = true)
  | sends (f : Flit subnets vcs) (hselects : s.Selects cfg inputs subnet f)
      (hsent : served.sent ≠ none) (hgoes : ¬ (s.routerOff subnet = true ∧ f.head = true))
      (hleaves : served.leaves = false)

theorem inject_cases {served : Served subnets classes vcs}
    (h : s.inject cfg inputs subnet = .ok served) : s.Turn cfg inputs subnet served := by
  obtain ⟨l, hl, h⟩ := inject_eq_ok h
  unfold sendFlit at h
  cases hf : l.f with
  | none =>
      rw [hf] at h
      cases h
      refine .idle ?_ ?_ rfl
      · intro f hselects
        obtain ⟨c, hc, -⟩ := (selects_iff hl).mp hselects
        cases hf.symm.trans hc
      · exact Prod.ext (afterLoop_toInterface subnet (partialPackets_of_none hl hf)) rfl
  | some c =>
      obtain ⟨f, g, hchosen, hg, hhead, -⟩ := exists_chosen hl hf
      have hselects : s.Selects cfg inputs subnet g := (selects_iff hl).mpr ⟨c, hf, hg⟩
      rw [hf] at h
      dsimp only at h
      rw [hchosen] at h
      dsimp only at h
      by_cases hsubnet : f.subnetwork ≠ subnet
      · rw [if_pos hsubnet] at h
        cases h
      · rw [if_neg hsubnet] at h
        by_cases hoff : (f.head && decide (s.powerState subnet ≠ .powerOn)) = true
        · rw [if_pos hoff] at h
          cases h
          rw [Bool.and_eq_true, hhead] at hoff
          have hsame : l.partialPackets = s.partialPackets := partialPackets_of_off hl hoff.2
          have hkept : l.wakeUp.partialPackets = s.partialPackets := hsame
          exact .leaves g hselects hoff.2 hoff.1
            (Prod.ext (afterLoop_toInterface subnet hkept) rfl) rfl
        · rw [if_neg hoff] at h
          split at h
          · cases h
          · cases h
            refine .sends g hselects (Option.some_ne_none _) ?_ rfl
            rintro ⟨hoff', hhead'⟩
            rw [hhead, hhead', Bool.true_and] at hoff
            exact hoff hoff'

/-- A turn that leaves the loop, or has nothing to send, has no assertion that fails. -/
theorem SendsNothing.inject (h : s.SendsNothing cfg inputs subnet) :
    ∃ served, s.inject cfg inputs subnet = .ok served := by
  obtain ⟨⟨held, hheld⟩, hnothing⟩ := h
  obtain ⟨l, hl⟩ : ∃ l, s.selectFlit cfg inputs subnet = .ok l := by
    unfold selectFlit
    rw [hheld]
    exact ⟨_, rfl⟩
  unfold FlovInterface.inject
  rw [hl]
  show ∃ served, s.sendFlit cfg inputs subnet l = .ok served
  unfold sendFlit
  cases hf : l.f with
  | none => exact ⟨_, rfl⟩
  | some c =>
      obtain ⟨f, g, hchosen, hg, hhead, hsubnetwork⟩ := exists_chosen hl hf
      have hselects : s.Selects cfg inputs subnet g := (selects_iff hl).mpr ⟨c, hf, hg⟩
      obtain ⟨hoff, hghead⟩ := hnothing g hselects
      have hsubnet : ¬ f.subnetwork ≠ subnet := by
        obtain ⟨held', c', hheld', hforemost, hg'⟩ := hselects
        rw [hsubnetwork, not_not]
        exact hforemost.subnetwork hheld' hg' hghead
      have hleaves : (f.head && decide (s.powerState subnet ≠ .powerOn)) = true := by
        rw [hhead, hghead, Bool.true_and]
        exact hoff
      dsimp only
      rw [hchosen]
      dsimp only
      rw [if_neg hsubnet, if_pos hleaves]
      exact ⟨_, rfl⟩

theorem Turn.own_of_sendsNothing {served : Served subnets classes vcs}
    (h : s.Turn cfg inputs subnet served) (hnothing : s.SendsNothing cfg inputs subnet) :
    served.own = (s.toInterface, none) := by
  cases h with
  | idle _ hown _ => exact hown
  | leaves _ _ _ _ hown _ => exact hown
  | sends f hselects _ hgoes _ => exact absurd (hnothing.2 f hselects) hgoes

/-- A turn in which nothing is sent has nothing to send. -/
theorem sendsNothing_of_inject {served : Served subnets classes vcs}
    (h : s.inject cfg inputs subnet = .ok served) (hsent : served.sent = none) :
    s.SendsNothing cfg inputs subnet := by
  obtain ⟨l, hl, -⟩ := inject_eq_ok h
  obtain ⟨held, hheld, -⟩ := selectFlit_eq_ok hl
  refine ⟨⟨held, hheld⟩, ?_⟩
  intro f hselects
  cases inject_cases h with
  | idle hnone _ _ => exact absurd hselects (hnone f)
  | leaves g hg hoff hhead _ _ => exact hg.unique hl hselects ▸ ⟨hoff, hhead⟩
  | sends _ _ hsome _ _ => exact absurd hsent hsome

theorem leaves_iff {served : Served subnets classes vcs}
    (h : s.inject cfg inputs subnet = .ok served) :
    served.leaves = true ↔ s.LeavesLoop cfg inputs subnet := by
  cases inject_cases h with
  | idle hnone _ hleaves =>
      refine iff_of_false (by simp [hleaves]) ?_
      rintro ⟨-, f, hselects, -⟩
      exact hnone f hselects
  | leaves f hselects hoff hhead _ hleaves =>
      exact iff_of_true hleaves ⟨hoff, f, hselects, hhead⟩
  | sends f hselects hsent hgoes hleaves =>
      refine iff_of_false (by simp [hleaves]) ?_
      rintro ⟨hoff, g, hg, hhead⟩
      obtain ⟨l, hl, -⟩ := inject_eq_ok h
      exact hgoes ⟨hoff, hselects.unique hl hg ▸ hhead⟩

/-- The parts on which injection depends. -/
def SameOwn (s s' : FlovInterface subnets classes vcs) : Prop :=
  s.toInterface = s'.toInterface ∧ s.powerState = s'.powerState

theorem inject_powerState {served : Served subnets classes vcs}
    (h : s.inject cfg inputs subnet = .ok served) : served.node.powerState = s.powerState := by
  obtain ⟨l, hl, h⟩ := inject_eq_ok h
  unfold sendFlit at h
  split at h
  · cases h
    rfl
  · split at h
    · cases h
    · split at h
      · cases h
      · split at h
        · cases h
          rfl
        · dsimp only at h
          split at h
          · cases h
          · cases h
            rfl

/-- What a node does in its turn depends on these parts only. -/
theorem inject_congr {s' : FlovInterface subnets classes vcs} {served : Served subnets classes vcs}
    (hsame : s.SameOwn s') (h : s.inject cfg inputs subnet = .ok served) :
    ∃ served', s'.inject cfg inputs subnet = .ok served' ∧ served'.own = served.own := by
  obtain ⟨hinterface, hpower⟩ := hsame
  obtain ⟨l, hl, h⟩ := inject_eq_ok h
  obtain ⟨held, hheld, hrun⟩ := selectFlit_eq_ok hl
  obtain ⟨l', hl'⟩ : ∃ l', s'.selectFlit cfg inputs subnet = .ok l' := by
    unfold selectFlit
    rw [← hinterface, hheld]
    exact ⟨_, rfl⟩
  obtain ⟨held', hheld', hrun'⟩ := selectFlit_eq_ok hl'
  rw [← hinterface, hheld] at hheld'
  cases hheld'
  have hloop : l'.toClassLoop = l.toClassLoop := by
    rw [hrun, hrun', routerOff, routerOff, hinterface, hpower]
  have hafter : ∀ m m' : FlovLoop subnets classes vcs, m'.partialPackets = m.partialPackets →
      (s'.afterLoop subnet m').toInterface = (s.afterLoop subnet m).toInterface := by
    intro m m' hm
    unfold afterLoop
    dsimp only
    rw [hm, hinterface]
  unfold FlovInterface.inject
  rw [hl']
  show ∃ served', s'.sendFlit cfg inputs subnet l' = .ok served' ∧ served'.own = served.own
  unfold sendFlit at h ⊢
  rw [hloop, ← hpower]
  cases hf : l.f with
  | none =>
      rw [hf] at h
      cases h
      exact ⟨_, rfl, Prod.ext (hafter l l' (congrArg _ hloop)) rfl⟩
  | some c =>
      rw [hf] at h
      dsimp only at h ⊢
      cases hhead : (l.partialPackets c).head? with
      | none =>
          rw [hhead] at h
          cases h
      | some f =>
          rw [hhead] at h
          dsimp only at h ⊢
          by_cases hsubnet : f.subnetwork ≠ subnet
          · rw [if_pos hsubnet] at h
            cases h
          · rw [if_neg hsubnet] at h ⊢
            by_cases hoff : (f.head && decide (s.powerState subnet ≠ .powerOn)) = true
            · rw [if_pos hoff] at h ⊢
              cases h
              exact ⟨_, rfl, Prod.ext (hafter l.wakeUp l'.wakeUp (congrArg _ hloop)) rfl⟩
            · rw [if_neg hoff] at h ⊢
              have hsend := hafter
                { l with wakeupHandshakeLatency := !f.head && l.wakeupHandshakeLatency }
                { l' with
                  toClassLoop := l.toClassLoop
                  wakeupHandshakeLatency := !f.head && l'.wakeupHandshakeLatency } rfl
              rw [hsend]
              split at h
              · cases h
              · cases h
                exact ⟨_, rfl, rfl⟩

end FlovInterface

/-! ### The loop over the nodes -/

namespace FlovNodes

variable {cfg : Config} {inputs : Fin nodes → Inputs subnets vcs} {subnet : Fin subnets}

/-- The node has had its turn. -/
def ServedIn (s final : FlovNodes nodes subnets classes vcs) (cfg : Config)
    (inputs : Fin nodes → Inputs subnets vcs) (subnet : Fin subnets) (n : Fin nodes) : Prop :=
  ∃ served, (s.interfaces n).inject cfg (inputs n) subnet = .ok served ∧
    final.interfaces n = served.node ∧ final.sent n = served.sent

/-- The node is as it was. -/
def KeptIn (s final : FlovNodes nodes subnets classes vcs) (n : Fin nodes) : Prop :=
  final.interfaces n = s.interfaces n ∧ final.sent n = s.sent n

/-- The loop leaves the nodes alone that come after one which leaves it. -/
theorem injectAll_spec (ns : List (Fin nodes)) :
    ∀ {s final : FlovNodes nodes subnets classes vcs},
      ns.Pairwise (· < ·) → injectAll cfg inputs subnet ns s = .ok final →
      (∀ n, n ∉ ns → KeptIn s final n) ∧
      ∀ n ∈ ns,
        ((∃ m ∈ ns, m < n ∧ (s.interfaces m).LeavesLoop cfg (inputs m) subnet) →
          KeptIn s final n) ∧
        ((∀ m ∈ ns, m < n → ¬ (s.interfaces m).LeavesLoop cfg (inputs m) subnet) →
          ServedIn s final cfg inputs subnet n) := by
  induction ns with
  | nil =>
      intro s final _ h
      cases h
      exact ⟨fun n _ => ⟨rfl, rfl⟩, fun n hn => nomatch hn⟩
  | cons first rest ih =>
      intro s final hsorted h
      obtain ⟨hfirst, hsorted⟩ := List.pairwise_cons.mp hsorted
      rw [injectAll] at h
      cases hinject : (s.interfaces first).inject cfg (inputs first) subnet with
      | error e =>
          rw [hinject] at h
          cases h
      | ok served =>
          rw [hinject] at h
          dsimp only at h
          have hkept : ∀ n, n ≠ first → KeptIn s (s.set first served) n := fun n hne =>
            ⟨Function.update_of_ne hne _ _, Function.update_of_ne hne _ _⟩
          have hserved : ServedIn s (s.set first served) cfg inputs subnet first :=
            ⟨served, hinject, Function.update_self _ _ _, Function.update_self _ _ _⟩
          -- no node is before the first
          have hleast : ∀ m ∈ first :: rest, ¬ m < first := by
            intro m hm hlt
            cases hm with
            | head => exact lt_irrefl _ hlt
            | tail _ hm => exact lt_asymm hlt (hfirst m hm)
          by_cases hleaves : served.leaves = true
          · rw [if_pos hleaves] at h
            cases h
            have hloop := (FlovInterface.leaves_iff hinject).mp hleaves
            refine ⟨fun n hn => hkept n fun heq => hn (heq ▸ List.mem_cons_self), ?_⟩
            intro n hn
            cases hn with
            | head =>
                refine ⟨?_, fun _ => hserved⟩
                rintro ⟨m, hm, hlt, -⟩
                exact absurd hlt (hleast m hm)
            | tail _ hn =>
                refine ⟨fun _ => hkept n (hfirst n hn).ne', ?_⟩
                intro hnobody
                exact absurd hloop (hnobody first List.mem_cons_self (hfirst n hn))
          · rw [if_neg hleaves] at h
            have hstays : ¬ (s.interfaces first).LeavesLoop cfg (inputs first) subnet :=
              mt (FlovInterface.leaves_iff hinject).mpr hleaves
            obtain ⟨houtside, hinside⟩ := ih hsorted h
            have hnot : first ∉ rest := fun hmem => lt_irrefl _ (hfirst first hmem)
            have hsame : ∀ n ∈ rest, (s.set first served).interfaces n = s.interfaces n :=
              fun n hn => (hkept n fun heq => hnot (heq ▸ hn)).1
            refine ⟨?_, ?_⟩
            · intro n hn
              rw [List.mem_cons, not_or] at hn
              obtain ⟨hinterfaces, hsent⟩ := houtside n hn.2
              exact ⟨hinterfaces.trans (hkept n hn.1).1, hsent.trans (hkept n hn.1).2⟩
            · intro n hn
              cases hn with
              | head =>
                  refine ⟨?_, ?_⟩
                  · rintro ⟨m, hm, hlt, -⟩
                    exact absurd hlt (hleast m hm)
                  · intro _
                    obtain ⟨hinterfaces, hsent⟩ := houtside first hnot
                    obtain ⟨served', hinject', hnode, hflit⟩ := hserved
                    exact ⟨served', hinject', hinterfaces.trans hnode, hsent.trans hflit⟩
              | tail _ hn =>
                  have hne : n ≠ first := fun heq => hnot (heq ▸ hn)
                  obtain ⟨hpassed, hturn⟩ := hinside n hn
                  refine ⟨?_, ?_⟩
                  · rintro ⟨m, hm, hlt, hleaves⟩
                    cases hm with
                    | head => exact absurd hleaves hstays
                    | tail _ hm =>
                        rw [← hsame m hm] at hleaves
                        obtain ⟨hinterfaces, hsent⟩ := hpassed ⟨m, hm, hlt, hleaves⟩
                        exact ⟨hinterfaces.trans (hkept n hne).1, hsent.trans (hkept n hne).2⟩
                  · intro hnobody
                    have hrest := hturn fun m hm hlt => by
                      rw [hsame m hm]
                      exact hnobody m (List.mem_cons_of_mem _ hm) hlt
                    unfold ServedIn at hrest
                    rw [hsame n hn] at hrest
                    exact hrest

variable {interfaces : Fin nodes → FlovInterface subnets classes vcs}
  {pass : FlovNodes nodes subnets classes vcs}

/-- In a pass a node is passed over, or has its turn. -/
theorem injectInto_cases (h : injectInto cfg inputs subnet interfaces = .ok pass) (n : Fin nodes) :
    ((∃ m, m < n ∧ (interfaces m).LeavesLoop cfg (inputs m) subnet) ∧
        pass.interfaces n = interfaces n ∧ pass.sent n = none) ∨
      ((∀ m, m < n → ¬ (interfaces m).LeavesLoop cfg (inputs m) subnet) ∧
        ∃ served, (interfaces n).inject cfg (inputs n) subnet = .ok served ∧
          pass.interfaces n = served.node ∧ pass.sent n = served.sent) := by
  obtain ⟨-, hinside⟩ := injectAll_spec _ (List.pairwise_lt_finRange nodes) h
  obtain ⟨hpassed, hturn⟩ := hinside n (List.mem_finRange n)
  by_cases hleaves : ∃ m, m < n ∧ (interfaces m).LeavesLoop cfg (inputs m) subnet
  · obtain ⟨m, hlt, hm⟩ := hleaves
    exact .inl ⟨⟨m, hlt, hm⟩, hpassed ⟨m, List.mem_finRange m, hlt, hm⟩⟩
  · have hnobody : ∀ m, m < n → ¬ (interfaces m).LeavesLoop cfg (inputs m) subnet :=
      fun m hlt hm => hleaves ⟨m, hlt, hm⟩
    exact .inr ⟨hnobody, hturn fun m _ hlt => hnobody m hlt⟩

theorem injectInto_powerState (h : injectInto cfg inputs subnet interfaces = .ok pass)
    (n : Fin nodes) : (pass.interfaces n).powerState = (interfaces n).powerState := by
  obtain ⟨-, hkept, -⟩ | ⟨-, served, hinject, hnode, -⟩ := injectInto_cases h n
  · rw [hkept]
  · rw [hnode, FlovInterface.inject_powerState hinject]

theorem injectInto_alone_iff (h : injectInto cfg inputs subnet interfaces = .ok pass) :
    (∀ n, ∃ served, (interfaces n).inject cfg (inputs n) subnet = .ok served ∧
        served.own = pass.own n) ↔
      ∀ m n, m < n → (interfaces m).LeavesLoop cfg (inputs m) subnet →
        (interfaces n).SendsNothing cfg (inputs n) subnet := by
  constructor
  · intro halone m n hlt hleaves
    obtain ⟨served, hinject, hown⟩ := halone n
    obtain ⟨-, -, hsent⟩ | ⟨hnobody, -⟩ := injectInto_cases h n
    · exact FlovInterface.sendsNothing_of_inject hinject
        ((congrArg Prod.snd hown).trans hsent)
    · exact absurd hleaves (hnobody m hlt)
  · intro hnobody n
    obtain ⟨⟨m, hlt, hleaves⟩, hkept, hsent⟩ | ⟨-, served, hinject, hnode, hsent⟩ :=
      injectInto_cases h n
    · have hnothing := hnobody m n hlt hleaves
      obtain ⟨served, hinject⟩ := hnothing.inject
      refine ⟨served, hinject, ?_⟩
      rw [(FlovInterface.inject_cases hinject).own_of_sendsNothing hnothing, own, hkept, hsent]
    · refine ⟨served, hinject, ?_⟩
      rw [own, hnode, hsent]
      rfl

end FlovNodes

open FlovInterface FlovNodes

variable {cfg : Config} {inputs : Fin nodes → Inputs subnets vcs}

theorem injectStep_cons_eq_ok {subnet : Fin subnets} {rest : List (Fin subnets)}
    {interfaces : Fin nodes → FlovInterface subnets classes vcs}
    {passes : List (FlovNodes nodes subnets classes vcs)}
    (h : FlovNodes.injectStep cfg inputs (subnet :: rest) interfaces = .ok passes) :
    ∃ pass others, injectInto cfg inputs subnet interfaces = .ok pass ∧
      FlovNodes.injectStep cfg inputs rest pass.interfaces = .ok others ∧ passes = pass :: others := by
  rw [FlovNodes.injectStep] at h
  obtain ⟨pass, hpass, h⟩ := bind_ok.mp h
  obtain ⟨others, hothers, h⟩ := bind_ok.mp h
  cases h
  exact ⟨pass, others, hpass, hothers, rfl⟩

theorem turns_cons_eq_ok {subnet : Fin subnets} {rest : List (Fin subnets)}
    {s : FlovInterface subnets classes vcs} {inputs : Inputs subnets vcs}
    {turns : List (Served subnets classes vcs)}
    (h : FlovInterface.injectStep cfg inputs (subnet :: rest) s = .ok turns) :
    ∃ served others, s.inject cfg inputs subnet = .ok served ∧
      FlovInterface.injectStep cfg inputs rest served.node = .ok others ∧
      turns = served :: others := by
  rw [FlovInterface.injectStep] at h
  obtain ⟨served, hserved, h⟩ := bind_ok.mp h
  obtain ⟨others, hothers, h⟩ := bind_ok.mp h
  cases h
  exact ⟨served, others, hserved, hothers, rfl⟩

/-- The induction is on the subnetworks; by itself a node need not go through the same
states, but they agree in what injection depends on. -/
theorem injectsAlone_iff_of_sameOwn (order : List (Fin subnets)) :
    ∀ {interfaces alone : Fin nodes → FlovInterface subnets classes vcs}
      {passes : List (FlovNodes nodes subnets classes vcs)},
      (∀ n, (alone n).SameOwn (interfaces n)) →
      FlovNodes.injectStep cfg inputs order interfaces = .ok passes →
      (InjectsAlone cfg inputs order alone passes ↔ NobodyPassedOver cfg inputs order interfaces) := by
  induction order with
  | nil =>
      intro interfaces alone passes _ h
      cases h
      exact iff_of_true (fun n => ⟨[], rfl, rfl⟩) trivial
  | cons subnet rest ih =>
      intro interfaces alone passes hsame h
      obtain ⟨pass, others, hpass, hothers, rfl⟩ := injectStep_cons_eq_ok h
      have hsame' : ∀ n, (interfaces n).SameOwn (alone n) := fun n =>
        ⟨(hsame n).1.symm, (hsame n).2.symm⟩
      -- after a turn by itself with the result of the pass
      have hnext : ∀ {n served}, (alone n).inject cfg (inputs n) subnet = .ok served →
          served.own = pass.own n → served.node.SameOwn (pass.interfaces n) := by
        intro n served hinject hown
        refine ⟨congrArg Prod.fst hown, ?_⟩
        rw [inject_powerState hinject, injectInto_powerState hpass, (hsame n).2]
      have hpassAlone := injectInto_alone_iff hpass
      constructor
      · intro halone
        choose turns hturns hown using halone
        have hfirst : ∀ n, ∃ served others', (alone n).inject cfg (inputs n) subnet = .ok served ∧
            FlovInterface.injectStep cfg (inputs n) rest served.node = .ok others' ∧
            turns n = served :: others' := by
          intro n
          exact turns_cons_eq_ok (hturns n)
        choose served others' hserved hrest hcons using hfirst
        have hownFirst : ∀ n, (served n).own = pass.own n ∧
            (others' n).map Served.own = others.map fun p => p.own n := by
          intro n
          have := hown n
          rw [hcons n, List.map_cons, List.map_cons, List.cons.injEq] at this
          exact this
        refine ⟨hpassAlone.mp fun n => ?_, ?_⟩
        · obtain ⟨served', hinject', hown'⟩ := inject_congr (hsame n) (hserved n)
          exact ⟨served', hinject', hown'.trans (hownFirst n).1⟩
        · intro pass' hpass'
          cases hpass.symm.trans hpass'
          refine (ih (fun n => hnext (hserved n) (hownFirst n).1) hothers).mp ?_
          exact fun n => ⟨others' n, hrest n, (hownFirst n).2⟩
      · rintro ⟨hnobody, hlater⟩
        have hturn : ∀ n, ∃ served, (alone n).inject cfg (inputs n) subnet = .ok served ∧
            served.own = pass.own n := by
          intro n
          obtain ⟨served, hinject, hown⟩ := hpassAlone.mpr hnobody n
          obtain ⟨served', hinject', hown'⟩ := inject_congr (hsame' n) hinject
          exact ⟨served', hinject', hown'.trans hown⟩
        choose served hserved hownFirst using hturn
        have hrest := (ih (fun n => hnext (hserved n) (hownFirst n)) hothers).mpr
          (hlater pass hpass)
        intro n
        obtain ⟨others', hturns, hownRest⟩ := hrest n
        refine ⟨served n :: others', ?_, ?_⟩
        · rw [FlovInterface.injectStep, hserved n]
          show (FlovInterface.injectStep cfg (inputs n) rest (served n).node).map (served n :: ·) = _
          rw [hturns]
          rfl
        · rw [List.map_cons, List.map_cons, hownFirst n, hownRest]

/-- In a step without a failing assertion each node injects what it would by itself,
exactly if no node that leaves the loop is before one with something to send. -/
theorem injectsAlone_iff (cfg : Config) (inputs : Fin nodes → Inputs subnets vcs)
    (order : List (Fin subnets)) (interfaces : Fin nodes → FlovInterface subnets classes vcs)
    (passes : List (FlovNodes nodes subnets classes vcs))
    (h : FlovNodes.injectStep cfg inputs order interfaces = .ok passes) :
    InjectsAlone cfg inputs order interfaces passes ↔
      NobodyPassedOver cfg inputs order interfaces :=
  injectsAlone_iff_of_sameOwn order (fun _ => ⟨rfl, rfl⟩) h

/-! ### A node that is passed over -/

/-- A packet of one flit. -/
def singleFlit (vc : Option (Fin 1)) : Flit 1 1 := ⟨0, true, true, 0, 0, vc⟩

def oneClass (cf : Flit 1 1) (powerState : PowerState) : FlovInterface 1 2 1 where
  partialPackets := fun c => if c = 0 then [cf] else []
  lastClass := fun _ => 0
  lastVC := fun _ _ => none
  bufStates := fun _ => BufferState.new ⟨4, -1, false⟩ (.privateBuffer (by decide))
  wakeupHandshakeLatency := false
  powerState := fun _ => powerState
  wakeupSignal := fun _ => false

/-- The flit of the first node has kept a virtual channel, that of the second has none yet. -/
def twoNodes (powerState : PowerState) : Fin 2 → FlovInterface 1 2 1 :=
  ![oneClass (singleFlit (some 0)) powerState, oneClass (singleFlit none) .powerOn]

def firstStep : Fin 2 → Inputs 1 1 := fun _ => ⟨0, fun _ => ⟨0, 0⟩⟩

theorem injectsAlone_twoNodes : ∃ passes,
    FlovNodes.injectStep ⟨false, false⟩ firstStep [0] (twoNodes .powerOff) = .ok passes ∧
      (InjectsAlone ⟨false, false⟩ firstStep [0] (twoNodes .powerOff) passes ↔
        NobodyPassedOver ⟨false, false⟩ firstStep [0] (twoNodes .powerOff)) :=
  ⟨_, rfl, injectsAlone_iff _ _ _ _ _ rfl⟩

/-- What the second node sends depends on the router of the first. -/
theorem not_independent : ¬ ∀ (nodes subnets classes vcs : Nat) (cfg : Config)
    (inputs : Fin nodes → Inputs subnets vcs) (order : List (Fin subnets))
    (interfaces interfaces' : Fin nodes → FlovInterface subnets classes vcs)
    (passes passes' : List (FlovNodes nodes subnets classes vcs)) (n : Fin nodes),
    interfaces n = interfaces' n →
      FlovNodes.injectStep cfg inputs order interfaces = .ok passes →
      FlovNodes.injectStep cfg inputs order interfaces' = .ok passes' →
      passes.map (fun pass => pass.own n) = passes'.map fun pass => pass.own n := by
  intro hall
  have heq := hall 2 1 2 1 ⟨false, false⟩ firstStep [0] (twoNodes .powerOff) (twoNodes .powerOn)
    _ _ 1 rfl rfl rfl
  have hsent := congrArg (List.map Prod.snd) heq
  exact absurd hsent (by decide)

end Flyover.Injection
