import Flyover.Injection.Bypass

/-!
# A turn of `NoRDTrafficManager`

What a turn does to the queues, the latches and the buffer state, step by step.
-/

namespace Flyover.Injection

variable {subnets classes vcs : Nat}

namespace NoRDInterface

variable (s : NoRDInterface subnets classes vcs) (cfg : NoRDConfig)
  (inputs : NoRDInputs subnets classes vcs) (subnet : Fin subnets)

/-- What is kept is available, and no head flit waits in a latch with a virtual channel. -/
structure KeptTidy : Prop where
  queues : s.KeptAvailable
  latches : ∀ subnet vc, (s.buffers subnet vc).Tidy

/-- The flit of the latch is the first in the loop that can go. -/
def Proceeds (vc : Fin vcs) (f : BypassFlit subnets classes vcs) (outVC : Fin vcs) : Prop :=
  ∃ held before after, s.heldLatch cfg inputs subnet = .ok held ∧
    latchOrder (s.lastClassVC subnet) held.isSome = before ++ vc :: after ∧
    (s.startLoop subnet held).Ready inputs (s.bufStates subnet) (s.lastClassVC subnet) vc f outVC ∧
    ∀ b ∈ before, ∀ f' v,
      ¬ (s.startLoop subnet held).Ready inputs (s.bufStates subnet) (s.lastClassVC subnet) b f' v

/-- Where a head flit goes from its latch, its class is bypassing, and no waiting head
flit has kept its virtual channel. -/
def BypassesApart : Prop :=
  ∀ vc f outVC, s.Proceeds cfg inputs subnet vc f outVC → f.head = true →
    s.duringBypassing f.cl = true ∧
      ∀ d g, s.waiting subnet d = some g → g.head = true → g.vc ≠ some outVC

variable {s cfg inputs subnet} {s' : NoRDInterface subnets classes vcs}
  {f : BypassFlit subnets classes vcs} {vc : Fin vcs} {bypassVC : Option (Fin vcs)}

/-! ### The steps of sending -/

/-- The queues and the latches are as they were. -/
structure SameFlits (s s' : NoRDInterface subnets classes vcs) : Prop where
  queues : s'.partialPackets = s.partialPackets
  latches : s'.buffers = s.buffers
  bypassing : s'.duringBypassing = s.duringBypassing

theorem takeVC_ok (h : s.takeVC subnet f vc = .ok s') :
    SameFlits s s' ∧ ∃ buf, s.takeBuffer subnet f.toFlit vc = .ok buf ∧
      s'.bufStates = Function.update s.bufStates subnet buf := by
  obtain ⟨buf, hbuf, h⟩ := bind_ok.mp h
  cases h
  exact ⟨⟨rfl, rfl, rfl⟩, buf, mapError_ok.mp hbuf, rfl⟩

theorem sendingFlitFor_ok (h : s.sendingFlitFor inputs subnet f vc = .ok s') :
    SameFlits s s' ∧ ∃ buf, (s.bufStates subnet).sendingFlit inputs.time vc f.tail = .ok buf ∧
      s'.bufStates = Function.update s.bufStates subnet buf := by
  obtain ⟨buf, hbuf, h⟩ := bind_ok.mp h
  cases h
  exact ⟨⟨rfl, rfl, rfl⟩, buf, mapError_ok.mp hbuf, rfl⟩

/-- The flit leaves its latch, or a flit leaves the queue of its class. -/
inductive Removes (s s' : NoRDInterface subnets classes vcs) (subnet : Fin subnets)
    (c : Fin classes) (bypassVC : Option (Fin vcs)) : Prop where
  | latch (vc : Fin vcs) (hvc : bypassVC = some vc) (hduring : s.duringBypassing c = true)
      (heq : s' = s.setLatch subnet vc
        { s.buffers subnet vc with flits := (s.buffers subnet vc).flits.tail })
  | queue (f : Flit subnets vcs) (rest : List (Flit subnets vcs))
      (hduring : s.duringBypassing c = false) (hqueue : s.partialPackets c = f :: rest)
      (heq : s' = { s with partialPackets := Function.update s.partialPackets c rest })

theorem removeFlit_ok {c : Fin classes} (h : s.removeFlit subnet c bypassVC = .ok s') :
    Removes s s' subnet c bypassVC := by
  unfold removeFlit at h
  by_cases hduring : s.duringBypassing c = true
  · rw [if_pos hduring] at h
    split at h
    · cases h
    · cases hvc : bypassVC with
      | none =>
          rw [hvc] at h
          cases h
      | some vc =>
          rw [hvc] at h
          dsimp only at h
          cases hflits : (s.buffers subnet vc).flits with
          | nil =>
              rw [hflits] at h
              cases h
          | cons f rest =>
              rw [hflits] at h
              cases h
              refine .latch vc rfl hduring ?_
              rw [hflits, List.tail_cons]
  · rw [if_neg hduring] at h
    cases hqueue : s.partialPackets c with
    | nil =>
        rw [hqueue] at h
        cases h
    | cons f rest =>
        rw [hqueue] at h
        cases h
        exact .queue f rest (Bool.eq_false_of_not_eq_true hduring) hqueue rfl

theorem passBack_ok (h : s.passBack f = .ok s') :
    s'.bufStates = s.bufStates ∧ s'.buffers = s.buffers ∧
      s'.duringBypassing = s.duringBypassing ∧
      (f.own = false → s'.partialPackets = s.partialPackets) ∧
      (f.own = true → s'.partialPackets = Function.update s.partialPackets f.cl
        (Interface.passBack f.toFlit (s.partialPackets f.cl))) := by
  unfold passBack at h
  cases hqueue : s.partialPackets f.cl with
  | nil =>
      rw [hqueue] at h
      cases h
      refine ⟨rfl, rfl, rfl, fun _ => rfl, fun _ => ?_⟩
      rw [Interface.passBack, ← hqueue, Function.update_eq_self]
  | cons nf rest =>
      rw [hqueue] at h
      dsimp only at h
      by_cases hback : (f.own && !f.tail) = true
      · rw [if_pos hback] at h
        rw [Bool.and_eq_true] at hback
        split at h
        · cases h
          refine ⟨rfl, rfl, rfl, ?_, fun _ => ?_⟩
          · intro hown
            rw [hown] at hback
            cases hback.1
          · have htail : f.tail = false := by simpa using hback.2
            rw [Interface.passBack, htail]
            rfl
        · cases h
      · rw [if_neg hback] at h
        cases h
        refine ⟨rfl, rfl, rfl, fun _ => rfl, ?_⟩
        intro hown
        have htail : f.tail = true := by
          rw [hown, Bool.true_and] at hback
          simpa using hback
        rw [Interface.passBack, htail, if_pos rfl, ← hqueue, Function.update_eq_self]

theorem endPacket_ok (h : s.endPacket subnet f bypassVC = .ok s') :
    s'.partialPackets = s.partialPackets ∧ s'.bufStates = s.bufStates ∧
      (s'.buffers = s.buffers ∨ ∃ vc, bypassVC = some vc ∧
        s'.buffers = (s.setLatch subnet vc { s.buffers subnet vc with state := .idle }).buffers) := by
  unfold endPacket at h
  by_cases htail : f.tail = true
  · rw [if_pos htail] at h
    obtain ⟨s₁, hclose, h⟩ := bind_ok.mp h
    cases h
    unfold closeLatch at hclose
    split at hclose
    · cases hvc : bypassVC with
      | none =>
          rw [hvc] at hclose
          cases hclose
      | some vc =>
          rw [hvc] at hclose
          cases hclose
          exact ⟨rfl, rfl, .inr ⟨vc, rfl, rfl⟩⟩
    · split at hclose
      · cases hclose
        exact ⟨rfl, rfl, .inl rfl⟩
      · cases hclose
  · rw [if_neg htail] at h
    cases h
    exact ⟨rfl, rfl, .inl rfl⟩

/-- The steps of sending, one after the other. -/
theorem sendFlit_ok {served : NoRDServed subnets classes vcs}
    (h : s.sendFlit cfg inputs subnet f bypassVC = .ok served) :
    f.subnetwork = subnet ∧ ∃ vc buf s₁ s₂ s₃ s₄, f.vc = some vc ∧
      s.sendingFlit inputs.toInputs subnet f.toFlit vc = .ok buf ∧
      SameFlits s s₁ ∧ Removes s₁ s₂ subnet f.cl bypassVC ∧ SameFlits s₂ s₃ ∧
      s₃.passBack f = .ok s₄ ∧ s₄.endPacket subnet f bypassVC = .ok served.node ∧
      served.node.bufStates = Function.update s.bufStates subnet buf := by
  unfold sendFlit at h
  by_cases hsubnet : f.subnetwork ≠ subnet
  · rw [if_pos hsubnet] at h
    cases h
  · rw [if_neg hsubnet] at h
    refine ⟨not_not.mp hsubnet, ?_⟩
    cases hvc : f.vc with
    | none =>
        rw [hvc] at h
        cases h
    | some vc =>
        rw [hvc] at h
        obtain ⟨s₁, htake, h⟩ := bind_ok.mp h
        obtain ⟨s₂, hremove, h⟩ := bind_ok.mp h
        obtain ⟨s₃, hsending, h⟩ := bind_ok.mp h
        obtain ⟨s₄, hback, h⟩ := bind_ok.mp h
        obtain ⟨s₅, hend, h⟩ := bind_ok.mp h
        cases h
        obtain ⟨hsame₁, taken, htaken, hbufs₁⟩ := takeVC_ok htake
        have hremoves := removeFlit_ok hremove
        obtain ⟨hsame₃, buf, hbuf, hbufs₃⟩ := sendingFlitFor_ok hsending
        obtain ⟨hbufs₄, -⟩ := passBack_ok hback
        obtain ⟨-, hbufs₅, -⟩ := endPacket_ok hend
        have hbufs₂ : s₂.bufStates = s₁.bufStates := by
          cases hremoves with
          | latch _ _ _ heq => rw [heq]; rfl
          | queue _ _ _ _ heq => rw [heq]
        rw [hbufs₂, hbufs₁, Function.update_self] at hbuf
        refine ⟨vc, buf, s₁, s₂, s₃, s₄, rfl, bind_ok.mpr ⟨taken, htaken, hbuf⟩, hsame₁, hremoves,
          hsame₃, hback, hend, ?_⟩
        rw [hbufs₅, hbufs₄, hbufs₃, hbufs₂, hbufs₁, Function.update_idem]

/-- The flit of a latch has been sent. -/
theorem keptTidy_sendBypass {served : NoRDServed subnets classes vcs} (h : s.KeptAvailable)
    (hothers : ∀ other v, other ≠ subnet ∨ bypassVC ≠ some v → (s.buffers other v).Tidy)
    (hlatch : ∀ v, bypassVC = some v → (s.buffers subnet v).flits = [f])
    (hbody : f.head = false → ∀ v, bypassVC = some v → (s.buffers subnet v).Tidy)
    (hown : f.own = false)
    (hapart : f.head = true → s.duringBypassing f.cl = true ∧
      ∀ d g, s.waiting subnet d = some g → g.head = true → g.vc ≠ f.vc)
    (hsend : s.sendFlit cfg inputs subnet f bypassVC = .ok served) : served.node.KeptTidy := by
  obtain ⟨-, vc, buf, s₁, s₂, s₃, s₄, hvc, hsending, hsame₁, hremoves, hsame₃, hback, hend, hbufs⟩ :=
    sendFlit_ok hsend
  obtain ⟨-, hlatches₄, -, hqueues₄, -⟩ := passBack_ok hback
  obtain ⟨hqueues₅, -, hlatches₅⟩ := endPacket_ok hend
  have hqueues : served.node.partialPackets = s₂.partialPackets := by
    rw [hqueues₅, hqueues₄ hown, hsame₃.queues]
  have hlatches : s₄.buffers = s₂.buffers := by rw [hlatches₄, hsame₃.latches]
  have htidy₂ : ∀ other v, (s₂.buffers other v).Tidy := by
    intro other v
    cases hremoves with
    | latch v' hv' _ heq =>
        rw [heq, setLatch]
        dsimp only
        rw [hsame₁.latches]
        by_cases hother : other = subnet
        · subst hother
          rw [Function.update_self]
          by_cases hv : v = v'
          · subst hv
            rw [Function.update_self, hlatch v hv']
            exact ⟨Nat.zero_le 1, fun _ _ hg => absurd hg List.not_mem_nil,
              fun _ hg => absurd hg List.not_mem_nil⟩
          · rw [Function.update_of_ne hv]
            refine hothers other v (.inr fun heq' => hv ?_)
            exact Option.some.inj (heq'.symm.trans hv')
        · rw [Function.update_of_ne hother]
          exact hothers other v (.inl hother)
    | queue g rest hduring hqueue heq =>
        rw [heq]
        dsimp only
        rw [hsame₁.latches]
        rw [hsame₁.bypassing] at hduring
        -- the class of a head flit is bypassing
        have hfbody : f.head = false := by
          cases hhead : f.head with
          | false => rfl
          | true =>
              rw [(hapart hhead).1] at hduring
              cases hduring
        by_cases hthis : other = subnet ∧ bypassVC = some v
        · rw [hthis.1]
          exact hbody hfbody v hthis.2
        · rw [not_and_or] at hthis
          exact hothers other v hthis
  constructor
  · refine h.of_sending hsending hbufs ?_ ?_
    · intro d
      rw [hqueues]
      cases hremoves with
      | latch v _ _ heq =>
          left
          rw [heq, ← hsame₁.queues]
          rfl
      | queue g rest _ hqueue heq =>
          rw [hsame₁.queues] at hqueue
          rw [heq]
          dsimp only
          rw [hsame₁.queues]
          by_cases hd : d = f.cl
          · subst hd
            right
            rw [Function.update_self]
            have horder : InOrder (g :: rest) := hqueue ▸ h.inOrder f.cl
            have hfresh : ∀ g ∈ rest, g.head = true → g.vc = none := by
              have := h.fresh f.cl
              rw [hqueue] at this
              exact this
            exact ⟨horder.2, fun g hg => hfresh g (List.mem_of_mem_tail hg),
              fun g hg => hfresh g (List.mem_of_mem_head? hg)⟩
          · left
            rw [Function.update_of_ne hd]
    · intro hhead d g _ hg hghead hsubnet
      rw [← hvc]
      exact (hapart hhead).2 d g
        (Option.filter_eq_some_iff.mpr ⟨hg, decide_eq_true hsubnet⟩) hghead
  · intro other v
    obtain hsame | ⟨v', hv', hidle⟩ := hlatches₅
    · rw [hsame, hlatches]
      exact htidy₂ other v
    · rw [hidle, setLatch, hlatches]
      dsimp only
      by_cases hother : other = subnet
      · subst hother
        rw [Function.update_self]
        by_cases hv : v = v'
        · subst hv
          rw [Function.update_self]
          exact (htidy₂ other v).setState fun heq => nomatch heq
        · rw [Function.update_of_ne hv]
          exact htidy₂ other v
      · rw [Function.update_of_ne hother]
        exact htidy₂ other v

/-- The first flit of a queue has been sent. -/
theorem keptTidy_sendQueue {served : NoRDServed subnets classes vcs} {c : Fin classes}
    {g : Flit subnets vcs} (h : s.KeptTidy) (hg : (s.partialPackets c).head? = some g)
    (hapart : g.head = true → ∀ d g', d ≠ c → (s.partialPackets d).head? = some g' →
      g'.head = true → g'.subnetwork = subnet → g'.vc ≠ g.vc)
    (hsend : s.sendFlit cfg inputs subnet (.ofQueue c g) none = .ok served) :
    served.node.KeptTidy := by
  obtain ⟨-, vc, buf, s₁, s₂, s₃, s₄, hvc, hsending, hsame₁, hremoves, hsame₃, hback, hend, hbufs⟩ :=
    sendFlit_ok hsend
  obtain ⟨-, hlatches₄, -, -, hqueues₄⟩ := passBack_ok hback
  obtain ⟨hqueues₅, -, hlatches₅⟩ := endPacket_ok hend
  cases hremoves with
  | latch v hv _ _ => cases hv
  | queue g' rest _ hqueue heq =>
      have hlatches : served.node.buffers = s.buffers := by
        obtain hsame | ⟨v, hv, -⟩ := hlatches₅
        · rw [hsame, hlatches₄, hsame₃.latches, heq, ← hsame₁.latches]
        · cases hv
      have hqueue : s.partialPackets c = g :: rest := by
        replace hqueue : s₁.partialPackets c = g' :: rest := hqueue
        rw [hsame₁.queues] at hqueue
        rw [hqueue, List.head?_cons, Option.some.injEq] at hg
        rw [hqueue, hg]
      have hqueues : served.node.partialPackets =
          Function.update s.partialPackets c (Interface.passBack g rest) := by
        rw [hqueues₅, hqueues₄ rfl, hsame₃.queues, heq]
        dsimp only [BypassFlit.ofQueue]
        rw [Function.update_self, Function.update_idem, hsame₁.queues]
      have hlength : Interface.passBack g rest ≠ s.partialPackets c := by
        intro hsame
        have := congrArg List.length hsame
        rw [Interface.length_passBack, hqueue, List.length_cons] at this
        omega
      refine ⟨h.queues.of_sending hsending hbufs ?_ ?_, fun other v => hlatches ▸ h.latches other v⟩
      · intro d
        rw [hqueues]
        by_cases hdc : d = c
        · subst hdc
          rw [Function.update_self]
          exact .inr (h.queues.passBack hqueue)
        · exact .inl (Function.update_of_ne hdc _ _)
      · intro hhead d g' hsame
        replace hvc : g.vc = some vc := hvc
        rw [← hvc]
        refine hapart hhead d g' ?_
        rintro rfl
        rw [hqueues, Function.update_self] at hsame
        exact hlength hsame

/-! ### Selection -/

theorem heldLatch_ok {held : Option (Fin vcs × BypassFlit subnets classes vcs)}
    (h : s.heldLatch cfg inputs subnet = .ok held) :
    ∀ vc f, held = some (vc, f) → s.lastClassVC subnet = some vc ∧
      (s.buffers subnet vc).state = .active ∧
      ∃ g outVC, (s.buffers subnet vc).flits.head? = some g ∧
        (s.buffers subnet vc).outputVC = some outVC ∧
        (s.bufStates subnet).isFullFor inputs.time outVC = false ∧
        f = { g with vc := some outVC } := by
  intro vc f hheld
  subst hheld
  unfold heldLatch at h
  cases hlast : s.lastClassVC subnet with
  | none =>
      rw [hlast] at h
      cases h
  | some last =>
      rw [hlast] at h
      dsimp only at h
      split at h
      next hactive =>
        rw [Bool.and_eq_true, Bool.and_eq_true, decide_eq_true_iff] at hactive
        cases hout : (s.buffers subnet last).outputVC with
        | none =>
            rw [hout] at h
            cases h
        | some outVC =>
            rw [hout] at h
            dsimp only at h
            split at h
            · cases h
            next hroom =>
              obtain ⟨g, hg, heq⟩ := Option.map_eq_some_iff.mp (Except.ok.inj h)
              cases heq
              exact ⟨rfl, hactive.1.2, g, outVC, (Option.filter_eq_some_iff.mp hg).1, hout,
                Bool.eq_false_of_not_eq_true hroom, rfl⟩
      next => cases h

theorem nodup_latchOrder (lastVC : Option (Fin vcs)) (held : Bool) :
    (latchOrder lastVC held).Nodup := by
  cases lastVC with
  | none => exact List.nodup_finRange vcs
  | some lvc => exact nodup_classOrder _ _

/-- The loop over the latches starts in order. -/
theorem KeptTidy.startLoop (h : s.KeptTidy)
    {held : Option (Fin vcs × BypassFlit subnets classes vcs)}
    (hheld : s.heldLatch cfg inputs subnet = .ok held) (vc : Fin vcs) :
    ((s.startLoop subnet held).latches vc).Tidy := by
  unfold NoRDInterface.startLoop
  cases held with
  | none => exact h.latches subnet vc
  | some pair =>
      obtain ⟨last, f⟩ := pair
      obtain ⟨-, -, g, outVC, hg, -, -, rfl⟩ := heldLatch_ok hheld last f rfl
      dsimp only
      by_cases hvc : vc = last
      · subst hvc
        rw [Function.update_self]
        exact (h.latches subnet vc).replace hg rfl rfl (.inl rfl)
      · rw [Function.update_of_ne hvc]
        exact h.latches subnet vc

/-- What the loop over the latches selects, and what it leaves behind. -/
inductive SelectsBypass (s : NoRDInterface subnets classes vcs) (cfg : NoRDConfig)
    (inputs : NoRDInputs subnets classes vcs) (subnet : Fin subnets)
    (l : BypassLoop subnets classes vcs) : Prop where
  | nothing (hf : l.f = none) (htidy : ∀ vc, (l.latches vc).Tidy)
  | flit (vc : Fin vcs) (f : BypassFlit subnets classes vcs) (hbypass : l.bypassVC = some vc)
      (hlatch : (l.latches vc).flits = [f]) (hown : f.own = false)
      (hothers : ∀ other, other ≠ vc → (l.latches other).Tidy)
      (hbody : f.head = false → (l.latches vc).Tidy)
      (hhead : f.head = true → ∃ f₀ outVC, s.Proceeds cfg inputs subnet vc f₀ outVC ∧
        f₀.head = true ∧ f₀.cl = f.cl ∧ f.vc = some outVC ∧
        (s.bufStates subnet).takes inputs.time outVC = true)

theorem selectBypass_ok {l : BypassLoop subnets classes vcs} (h : s.KeptTidy)
    (hl : s.selectBypass cfg inputs subnet = .ok l) : SelectsBypass s cfg inputs subnet l := by
  obtain ⟨held, hheld, hrun⟩ := bind_ok.mp hl
  have hlast := heldLatch_ok hheld
  have hnotHeld : ∀ v ∈ latchOrder (s.lastClassVC subnet) held.isSome,
      (s.startLoop subnet held).bypassVC ≠ some v := by
    intro v hv hbypass
    obtain ⟨⟨last, f⟩, rfl, rfl⟩ := Option.map_eq_some_iff.mp hbypass
    rw [(hlast last f rfl).1] at hv
    exact not_mem_classOrder last hv
  cases BypassLoop.run_ok hrun (nodup_latchOrder _ _) hnotHeld (h.startLoop hheld) with
  | nobody hsame htidy hkept =>
      cases held with
      | none =>
          refine .nothing ?_ htidy
          rw [BypassLoop.f, hsame]
          rfl
      | some pair =>
          obtain ⟨vc, f⟩ := pair
          obtain ⟨hvc, hactive, g, outVC, hg, -, -, rfl⟩ := hlast vc f rfl
          have hnot : vc ∉ latchOrder (s.lastClassVC subnet) true := by
            rw [hvc]
            exact not_mem_classOrder vc
          have hmem : g ∈ (s.buffers subnet vc).flits := List.mem_of_mem_head? hg
          have hgbody : g.head = false := (h.latches subnet vc).body hactive g hmem
          refine .flit vc { g with vc := some outVC } hsame ?_ ((h.latches subnet vc).foreign g hmem hgbody)
            (fun other _ => htidy other) (fun _ => htidy vc) ?_
          · rw [hkept vc hnot, NoRDInterface.startLoop]
            dsimp only
            rw [Function.update_self, (h.latches subnet vc).tail_eq_nil]
          · intro hhead
            rw [hgbody] at hhead
            cases hhead
  | latch before vc after cf outVC output horder hready hbefore hbypass hlatch hown htakes htidy =>
      refine .flit vc { cf with vc := some outVC } hbypass (by rw [hlatch]) hown htidy ?_ ?_
      · intro hbody
        rw [hlatch]
        refine ⟨le_rfl, fun _ f hf => ?_, fun f hf _ => ?_⟩
        · rw [List.mem_singleton.mp hf]
          exact hbody
        · rw [List.mem_singleton.mp hf]
          exact hown
      · intro hhead
        exact ⟨cf, outVC, ⟨held, before, after, hheld, horder, hready, hbefore⟩, hhead, rfl, rfl,
          htakes hhead⟩

/-! ### The whole turn -/

/-- In a turn, no two packets come to have the same virtual channel. -/
def TurnMeets (s : NoRDInterface subnets classes vcs) (cfg : NoRDConfig)
    (inputs : NoRDInputs subnets classes vcs) (subnet : Fin subnets) : Prop :=
  if s.duringBypassing (s.lastClass subnet) then s.BypassesApart cfg inputs subnet
  else s.KeepsApart cfg.toConfig inputs.toInputs subnet

theorem keptTidy_inject {served : NoRDServed subnets classes vcs} (h : s.KeptTidy)
    (hmeets : s.TurnMeets cfg inputs subnet) (hinject : s.inject cfg inputs subnet = .ok served) :
    served.node.KeptTidy := by
  unfold inject at hinject
  unfold TurnMeets at hmeets
  by_cases hduring : s.duringBypassing (s.lastClass subnet) = true
  · rw [if_pos hduring] at hinject hmeets
    obtain ⟨l, hl, hsend⟩ := bind_ok.mp hinject
    unfold injectBypass at hsend
    dsimp only at hsend
    cases selectBypass_ok h hl with
    | nothing hf htidy =>
        rw [hf] at hsend
        cases hsend
        refine ⟨h.queues, fun other v => ?_⟩
        dsimp only
        by_cases hother : other = subnet
        · subst hother
          rw [Function.update_self]
          exact htidy v
        · rw [Function.update_of_ne hother]
          exact h.latches other v
    | flit vc f hbypass hlatch hown hothers hbody hhead =>
        have hf : l.f = some f := by
          rw [BypassLoop.f, hbypass, Option.bind_some, hlatch, List.head?_cons]
        rw [hf] at hsend
        replace hsend : ({ s with
            buffers := Function.update s.buffers subnet l.latches
            wakeupMonitorVCRequests := l.wakeupMonitorVCRequests
            wakeupSignal := l.wakeupSignal } : NoRDInterface subnets classes vcs).sendFlit
          cfg inputs subnet f l.bypassVC = .ok served := hsend
        refine keptTidy_sendBypass ?_ ?_ ?_ ?_ hown ?_ hsend
        · exact h.queues
        · intro other v hne
          dsimp only
          by_cases hother : other = subnet
          · subst hother
            rw [Function.update_self]
            refine hothers v fun heq => ?_
            obtain hne | hne := hne
            · exact hne rfl
            · exact hne (heq ▸ hbypass)
          · rw [Function.update_of_ne hother]
            exact h.latches other v
        · intro v hv
          cases hbypass.symm.trans hv
          dsimp only
          rw [Function.update_self]
          exact hlatch
        · intro hfbody v hv
          cases hbypass.symm.trans hv
          dsimp only
          rw [Function.update_self]
          exact hbody hfbody
        · intro hfhead
          obtain ⟨f₀, outVC, hproceeds, hhead₀, hcl, hvc, -⟩ := hhead hfhead
          rw [← hcl, hvc]
          exact hmeets vc f₀ outVC hproceeds hhead₀
  · rw [if_neg hduring] at hinject hmeets
    obtain ⟨l, hl, hsend⟩ := bind_ok.mp hinject
    obtain ⟨held, hheld, hrun⟩ := bind_ok.mp hl
    cases hrun
    obtain ⟨hchosen, hfollows⟩ := Interface.run_classes false hheld
    have hloop := h.queues.afterLoop hheld rfl
    unfold injectQueue at hsend
    dsimp only at hsend
    cases hc : (ClassLoop.run (s.bufStates subnet) inputs.toInputs subnet (s.lastVC subnet) false
        ⟨s.partialPackets, held⟩ (classOrder (s.lastClass subnet) held)).f with
    | none =>
        rw [hc] at hsend
        cases hsend
        exact ⟨hloop, h.latches⟩
    | some c =>
        obtain ⟨hadvanced, g, rest, hqueue, -⟩ := hfollows.chosen c hc
        have hg : ((ClassLoop.run (s.bufStates subnet) inputs.toInputs subnet (s.lastVC subnet) false
            ⟨s.partialPackets, held⟩ (classOrder (s.lastClass subnet) held)).partialPackets c).head? =
            some (s.offered inputs.toInputs subnet c g) := by
          rw [hadvanced, Interface.advanced_of_cons hqueue, List.head?_cons]
        rw [hc] at hsend
        dsimp only at hsend
        rw [hg] at hsend
        have hkept : ({ s with
            partialPackets := (ClassLoop.run (s.bufStates subnet) inputs.toInputs subnet
              (s.lastVC subnet) false ⟨s.partialPackets, held⟩
              (classOrder (s.lastClass subnet) held)).partialPackets } :
            NoRDInterface subnets classes vcs).KeptTidy := ⟨hloop, h.latches⟩
        refine keptTidy_sendQueue hkept hg ?_ hsend
        intro hhead d g' hdc hg' hhead' hsubnet'
        have hghead : g.head = true := ClassLoop.assignVC_head.symm.trans hhead
        intro hvc
        cases hvc' : (s.offered inputs.toInputs subnet c g).vc with
        | none =>
            -- a flit that is sent has a virtual channel
            obtain ⟨-, vc, buf, -, -, -, -, hsome, -⟩ := sendFlit_ok hsend
            cases hvc'.symm.trans hsome
        | some vc =>
            have hfront : (s.partialPackets c).head? = some g := by
              rw [hqueue, List.head?_cons]
            refine hmeets held c g vc hheld ((hchosen c).mp hc) hfront hghead hvc' d hdc ?_
            exact Interface.holdsOn_of_afterLoop hheld rfl hg' hsubnet' hhead' (hvc.trans hvc')

/-! ### Errors -/

theorem buffer_injective : Function.Injective Error.buffer := fun _ _ h => Error.buffer.inj h

theorem heldLatch_avoids {e : BufferError} :
    Avoids (.buffer e) (s.heldLatch cfg inputs subnet) := by
  unfold heldLatch
  split
  · exact .ok _
  · dsimp only
    split
    · split
      · exact .error fun h => nomatch h
      · split
        · exact .ok _
        · exact .ok _
    · exact .ok _

theorem removeFlit_avoids {e : BufferError} {c : Fin classes} :
    Avoids (.buffer e) (s.removeFlit subnet c bypassVC) := by
  unfold removeFlit
  split
  · split
    · exact .error fun h => nomatch h
    · split
      · exact .error fun h => nomatch h
      · split
        · exact .error fun h => nomatch h
        · exact .ok _
  · split
    · exact .error fun h => nomatch h
    · exact .ok _

theorem passBack_avoids {e : BufferError} : Avoids (.buffer e) (s.passBack f) := by
  unfold passBack
  split
  · exact .ok _
  · split
    · split
      · exact .ok _
      · exact .error fun h => nomatch h
    · exact .ok _

theorem endPacket_avoids {e : BufferError} :
    Avoids (.buffer e) (s.endPacket subnet f bypassVC) := by
  unfold endPacket
  split
  · refine Avoids.bind ?_ fun _ _ => .ok _
    unfold closeLatch
    split
    · split
      · exact .error fun h => nomatch h
      · exact .ok _
    · split
      · exact .ok _
      · exact .error fun h => nomatch h
  · exact .ok _

theorem sendFlit_avoids
    (htake : ∀ vc, f.subnetwork = subnet → f.vc = some vc → f.head = true →
      (s.bufStates subnet).isAvailableFor vc = true) :
    Avoids (.buffer .takenWhileInUse) (s.sendFlit cfg inputs subnet f bypassVC) := by
  unfold sendFlit
  by_cases hsubnet : f.subnetwork ≠ subnet
  · rw [if_pos hsubnet]
    exact .error fun h => nomatch h
  · rw [if_neg hsubnet]
    cases hvc : f.vc with
    | none => exact .error fun h => nomatch h
    | some vc =>
        refine Avoids.bind (Avoids.bind (Avoids.mapError buffer_injective ?_) fun _ _ => .ok _)
          fun s₁ _ => removeFlit_avoids.bind fun s₂ _ => ?_
        · unfold Interface.takeBuffer
          split
          next hhead =>
            exact BufferState.takeBuffer_notInUse (htake vc (not_not.mp hsubnet) hvc hhead)
          next => exact .ok _
        · refine Avoids.bind (Avoids.bind (Avoids.mapError buffer_injective ?_) fun _ _ => .ok _)
            fun s₃ _ => passBack_avoids.bind fun s₄ _ => endPacket_avoids.bind fun _ _ => .ok _
          exact BufferState.sendingFlit_notInUse

/-- A turn takes available virtual channels only. -/
theorem inject_avoids (h : s.KeptTidy) :
    Avoids (.buffer .takenWhileInUse) (s.inject cfg inputs subnet) := by
  unfold inject
  split
  · refine Avoids.bind (heldLatch_avoids.bind fun _ _ => BypassLoop.run_avoids _) fun l hl => ?_
    unfold injectBypass
    dsimp only
    cases selectBypass_ok h hl with
    | nothing hf _ =>
        rw [hf]
        exact .ok _
    | flit vc f hbypass hlatch _ _ _ hhead =>
        have hf : l.f = some f := by
          rw [BypassLoop.f, hbypass, Option.bind_some, hlatch, List.head?_cons]
        rw [hf]
        refine sendFlit_avoids ?_
        intro vc' _ hvc' hfhead
        obtain ⟨-, outVC, -, -, -, hvc, htakes⟩ := hhead hfhead
        cases hvc.symm.trans hvc'
        rw [BufferState.takes, Bool.and_eq_true] at htakes
        exact htakes.1
  · refine Avoids.bind (Interface.held_avoids.bind fun _ _ => .ok _) fun l hl => ?_
    obtain ⟨held, hheld, hrun⟩ := bind_ok.mp hl
    have hloop := h.queues.afterLoop hheld (Except.ok.inj hrun).symm
    unfold injectQueue
    dsimp only
    split
    · exact .ok _
    next c _ =>
      split
      · exact .error fun h => by cases h
      next f hf =>
        refine sendFlit_avoids ?_
        intro vc hsubnet hvc hhead
        have havailable := hloop.available c f vc hf hhead hvc
        replace hsubnet : f.subnetwork = subnet := hsubnet
        rw [hsubnet] at havailable
        exact havailable

/-! ### What happens between the turns -/

theorem KeptTidy.receive {time : Int} (h : s.KeptTidy) (hforeign : f.head = false → f.own = false)
    (hreceive : s.receive subnet time f = .ok s') : s'.KeptTidy := by
  unfold NoRDInterface.receive at hreceive
  cases hvc : f.vc with
  | none =>
      rw [hvc] at hreceive
      cases hreceive
  | some vc =>
      rw [hvc] at hreceive
      dsimp only at hreceive
      split at hreceive
      · cases hreceive
      · cases hreceive
        refine ⟨h.queues, ?_⟩
        intro other v
        show (Function.update s.buffers subnet _ other v).Tidy
        by_cases hother : other = subnet
        · subst hother
          rw [Function.update_self]
          by_cases hv : v = vc
          · subst hv
            rw [Function.update_self]
            refine ⟨le_rfl, fun hactive g hg => ?_, fun g hg hbody => ?_⟩
            · rw [List.mem_singleton.mp hg]
              show f.head = false
              by_contra hhead
              rw [Bool.not_eq_false] at hhead
              rw [if_pos hhead] at hactive
              cases hactive
            · rw [List.mem_singleton.mp hg] at hbody ⊢
              exact hforeign hbody
          · rw [Function.update_of_ne hv]
            exact h.latches other v
        · rw [Function.update_of_ne hother]
          exact h.latches other v

end NoRDInterface

end Flyover.Injection
