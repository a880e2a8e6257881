import Flyover.Injection.TakeBuffer

/-!
# Injection after bypassing

A class begins to bypass when a flit of another node arrives, or when a tail goes while
a latch is in use. Nothing ends that: the latches may be free again, and the class stays
with the loop over them. As long as the last packet in the latches does not leave, this
makes no difference.
-/

namespace Flyover.Injection

variable {subnets classes vcs : Nat}

/-- No packet is in progress in the latch. -/
structure Latch.Free (latch : Latch subnets classes vcs) : Prop where
  idle : latch.state = .idle
  empty : latch.flits = []

/-! ### The loop over the latches -/

namespace BypassLoop

variable {l l' : BypassLoop subnets classes vcs} {cfg : NoRDConfig}
  {inputs : NoRDInputs subnets classes vcs} {buf : BufferState vcs} {lastVC : Option (Fin vcs)}
  {vc : Fin vcs} {leaves : Bool}

/-- The first flit of the latch goes, on `outVC`. -/
structure Goes (l l' : BypassLoop subnets classes vcs) (inputs : NoRDInputs subnets classes vcs)
    (buf : BufferState vcs) (lastVC : Option (Fin vcs)) (vc : Fin vcs)
    (cf : BypassFlit subnets classes vcs) (outVC : Fin vcs) : Prop where
  front : (l.latches vc).flits.head? = some cf
  next : l.nextVC inputs buf lastVC vc cf = some outVC
  room : buf.isFullFor inputs.time outVC = false
  bypassVC : l'.bypassVC = some vc
  active : (l'.latches vc).state = .active
  sent : (l'.latches vc).flits.head? = some { cf with vc := some outVC }

/-- An iteration touches its own latch only. -/
theorem examine_others (h : l.examine cfg inputs buf lastVC vc = .ok (l', leaves)) {other : Fin vcs}
    (hne : other ≠ vc) : l'.latches other = l.latches other := by
  obtain ⟨-, rfl, -⟩ | ⟨cf, l₁, -, hcf, -, hallocate, hdecide⟩ := examine_ok h
  · rfl
  · obtain ⟨hvisits, -⟩ := allocate_ok hcf hallocate
    obtain ⟨cf', -, ⟨-, rfl, -⟩ | ⟨-, rfl, -⟩⟩ := decideOn_ok hdecide
    · exact hvisits.others other hne
    · exact (hvisits.trans retry_ok.1).others other hne

/-- No iteration frees a latch. -/
theorem examine_keeps (h : l.examine cfg inputs buf lastVC vc = .ok (l', leaves))
    (hbusy : ¬ (l.latches vc).Free) : ¬ (l'.latches vc).Free := by
  obtain ⟨-, rfl, -⟩ | ⟨cf, l₁, hidle, hcf, -, hallocate, hdecide⟩ := examine_ok h
  · exact hbusy
  · obtain ⟨-, hallocates⟩ := allocate_ok hcf hallocate
    have hstate : (l₁.latches vc).state ≠ .idle := by
      cases hallocates with
      | found v _ _ _ hactivate =>
          rw [hactivate]
          exact fun heq => nomatch heq
      | notFound _ _ hsame => rwa [hsame]
      | had hhad => rwa [hhad]
    obtain ⟨cf', -, ⟨-, rfl, -⟩ | ⟨-, rfl, -⟩⟩ := decideOn_ok hdecide
    · exact fun hfree => hstate hfree.idle
    · have hretry : (l₁.retry inputs.time vc cf').latches vc = l₁.latches vc ∨
          (l₁.retry inputs.time vc cf').latches vc = { l₁.latches vc with state := .vcAlloc } :=
        retry_ok.2
      obtain hlatch | hlatch := hretry
      · exact fun hfree => hstate (hlatch ▸ hfree.idle)
      · intro hfree
        have hidle' := hfree.idle
        rw [hlatch] at hidle'
        cases hidle'

theorem examine_goes (h : l.examine cfg inputs buf lastVC vc = .ok (l', true)) :
    ∃ cf outVC, Goes l l' inputs buf lastVC vc cf outVC := by
  obtain ⟨hfalse, -⟩ | ⟨cf, l₁, -, hcf, -, hallocate, hdecide⟩ := examine_ok h
  · cases hfalse
  · obtain ⟨-, hallocates⟩ := allocate_ok hcf hallocate
    obtain ⟨cf', hcf', ⟨-, rfl, hactive, ⟨outVC, hvc, hroom⟩, -⟩ | ⟨hfalse, -⟩⟩ :=
      decideOn_ok hdecide
    · cases hallocates with
      | found v _ hnext _ hactivate =>
          rw [hactivate] at hcf'
          cases hcf'
          cases hvc
          refine ⟨cf, outVC, hcf, hnext, hroom, rfl, hactive, ?_⟩
          dsimp only
          rw [hactivate]
          rfl
      | notFound _ hstate hsame =>
          rw [hsame, hstate] at hactive
          cases hactive
      | had hhad =>
          have hfront := hcf'
          rw [hhad] at hfront
          cases hfront
          have hnext : l.nextVC inputs buf lastVC vc cf = some outVC := hvc
          refine ⟨cf, outVC, hcf, hnext, hroom, rfl, hactive, ?_⟩
          rw [hnext] at hcf'
          exact hcf'
    · cases hfalse

/-- The loop goes to its end, or a flit goes from a latch. -/
inductive Picks (l l' : BypassLoop subnets classes vcs) (inputs : NoRDInputs subnets classes vcs)
    (buf : BufferState vcs) (lastVC : Option (Fin vcs)) (order : List (Fin vcs)) : Prop where
  | nobody (hsame : l'.bypassVC = l.bypassVC) (hkept : ∀ vc ∉ order, l'.latches vc = l.latches vc)
  | latch (vc : Fin vcs) (cf : BypassFlit subnets classes vcs) (outVC : Fin vcs) (hmem : vc ∈ order)
      (hgoes : Goes l l' inputs buf lastVC vc cf outVC)

theorem run_keeps {order : List (Fin vcs)} (h : l.run cfg inputs buf lastVC order = .ok l') {v : Fin vcs}
    (hbusy : ¬ (l.latches v).Free) : ¬ (l'.latches v).Free := by
  induction order generalizing l with
  | nil =>
      cases h
      exact hbusy
  | cons vc order ih =>
      obtain ⟨⟨l₁, leaves⟩, hexamine, h⟩ := bind_ok.mp h
      have hbusy₁ : ¬ (l₁.latches v).Free := by
        by_cases hv : v = vc
        · subst hv
          exact examine_keeps hexamine hbusy
        · rwa [examine_others hexamine hv]
      cases leaves with
      | true =>
          cases h
          exact hbusy₁
      | false => exact ih h hbusy₁

theorem run_picks {order : List (Fin vcs)} (h : l.run cfg inputs buf lastVC order = .ok l')
    (hnodup : order.Nodup) : Picks l l' inputs buf lastVC order := by
  induction order generalizing l with
  | nil =>
      cases h
      exact .nobody rfl fun _ _ => rfl
  | cons vc order ih =>
      obtain ⟨hnot, hnodup⟩ := List.nodup_cons.mp hnodup
      obtain ⟨⟨l₁, leaves⟩, hexamine, h⟩ := bind_ok.mp h
      cases leaves with
      | true =>
          cases h
          obtain ⟨cf, outVC, hgoes⟩ := examine_goes hexamine
          exact .latch vc cf outVC List.mem_cons_self hgoes
      | false =>
          cases ih h hnodup with
          | nobody hsame hkept =>
              refine .nobody (hsame.trans (examine_stays hexamine).1.bypassVC) fun b hb => ?_
              rw [List.mem_cons, not_or] at hb
              rw [hkept b hb.2, examine_others hexamine hb.1]
          | latch b cf outVC hmem hgoes =>
              have hne : b ≠ vc := fun heq => hnot (heq ▸ hmem)
              have hlatch := examine_others hexamine hne
              refine .latch b cf outVC (List.mem_cons_of_mem _ hmem)
                ⟨hlatch ▸ hgoes.front, ?_, hgoes.room, hgoes.bypassVC, hgoes.active, hgoes.sent⟩
              rw [nextVC, ← hlatch]
              exact hgoes.next

end BypassLoop

namespace NoRDInterface

variable {s s' : NoRDInterface subnets classes vcs} {cfg : NoRDConfig}
  {inputs : NoRDInputs subnets classes vcs} {subnet : Fin subnets}
  {f : BypassFlit subnets classes vcs} {bypassVC : Option (Fin vcs)}

/-- The tail of a packet is in the latch, and its virtual channel has room. -/
def Ends (s : NoRDInterface subnets classes vcs) (inputs : NoRDInputs subnets classes vcs)
    (subnet : Fin subnets) (vc : Fin vcs) : Prop :=
  ∃ f outVC, (s.buffers subnet vc).flits.head? = some f ∧ f.tail = true ∧
    ((s.startLoop subnet none).nextVC inputs (s.bufStates subnet) (s.lastClassVC subnet) vc f =
        some outVC ∨
      (s.buffers subnet vc).state = .active ∧ (s.buffers subnet vc).outputVC = some outVC) ∧
    (s.bufStates subnet).isFullFor inputs.time outVC = false

theorem startLoop_latches {held : Option (Fin vcs × BypassFlit subnets classes vcs)} {vc : Fin vcs}
    (hvc : ∀ f, held ≠ some (vc, f)) :
    (s.startLoop subnet held).latches vc = s.buffers subnet vc := by
  cases held with
  | none => rfl
  | some pair =>
      obtain ⟨last, f⟩ := pair
      refine Function.update_of_ne (fun heq => hvc f ?_) _ _
      rw [heq]

theorem startLoop_keeps {held : Option (Fin vcs × BypassFlit subnets classes vcs)} {vc : Fin vcs}
    (hbusy : ¬ (s.buffers subnet vc).Free) : ¬ ((s.startLoop subnet held).latches vc).Free := by
  by_cases hvc : ∃ f, held = some (vc, f)
  · obtain ⟨f, rfl⟩ := hvc
    intro hfree
    have hempty := hfree.empty
    rw [startLoop] at hempty
    dsimp only at hempty
    rw [Function.update_self] at hempty
    cases hempty
  · rw [startLoop_latches (not_exists.mp hvc)]
    exact hbusy

/-- The loop over the latches leaves those in use in use, and the flit that it selects is
in an active latch, which its packet may leave. -/
theorem selectBypass_keeps {l : BypassLoop subnets classes vcs}
    (h : s.selectBypass cfg inputs subnet = .ok l) :
    (∀ v, ¬ (s.buffers subnet v).Free → ¬ (l.latches v).Free) ∧
      ∀ f, l.f = some f → ∃ vc, l.bypassVC = some vc ∧ (l.latches vc).state = .active ∧
        (s.buffers subnet vc).flits ≠ [] ∧ (f.tail = true → s.Ends inputs subnet vc) := by
  obtain ⟨held, hheld, hrun⟩ := bind_ok.mp h
  refine ⟨fun v hbusy => BypassLoop.run_keeps hrun (startLoop_keeps hbusy), fun f hf => ?_⟩
  have hlast := heldLatch_ok hheld
  cases BypassLoop.run_picks hrun (nodup_latchOrder _ _) with
  | nobody hsame hkept =>
      cases held with
      | none =>
          rw [BypassLoop.f, hsame] at hf
          cases hf
      | some pair =>
          obtain ⟨vc, g⟩ := pair
          obtain ⟨hvc, hactive, g', outVC, hg, hout, hroom, rfl⟩ := hlast vc g rfl
          have hnot : vc ∉ latchOrder (s.lastClassVC subnet) true := by
            rw [hvc]
            exact not_mem_classOrder vc
          have hlatch : l.latches vc = { s.buffers subnet vc with
              flits := { g' with vc := some outVC } :: (s.buffers subnet vc).flits.tail } := by
            rw [hkept vc hnot, startLoop]
            exact Function.update_self _ _ _
          rw [BypassLoop.f, hsame, startLoop, Option.map_some, Option.bind_some, hlatch] at hf
          cases hf
          refine ⟨vc, hsame, by rw [hlatch]; exact hactive,
            List.ne_nil_of_mem (List.mem_of_mem_head? hg), fun htail => ?_⟩
          exact ⟨g', outVC, hg, htail, .inr ⟨hactive, hout⟩, hroom⟩
  | latch vc cf outVC hmem hgoes =>
      rw [BypassLoop.f, hgoes.bypassVC, Option.bind_some, hgoes.sent] at hf
      cases hf
      have hstart : (s.startLoop subnet held).latches vc = s.buffers subnet vc := by
        refine startLoop_latches fun g hg => ?_
        rw [hg, (hlast vc g hg).1] at hmem
        exact not_mem_classOrder vc hmem
      have hfront : (s.buffers subnet vc).flits.head? = some cf := hstart ▸ hgoes.front
      refine ⟨vc, hgoes.bypassVC, hgoes.active, List.ne_nil_of_mem (List.mem_of_mem_head? hfront),
        fun htail => ?_⟩
      refine ⟨cf, outVC, hfront, htail, .inl ?_, hgoes.room⟩
      have hnext := hgoes.next
      rw [BypassLoop.nextVC, hstart] at hnext
      exact hnext

/-! ### Sending -/

theorem setLatch_others {vc : Fin vcs} {latch : Latch subnets classes vcs} {other : Fin subnets}
    {v : Fin vcs} (hne : other ≠ subnet ∨ v ≠ vc) :
    (s.setLatch subnet vc latch).buffers other v = s.buffers other v := by
  dsimp only [setLatch]
  by_cases hother : other = subnet
  · subst hother
    rw [Function.update_self]
    exact Function.update_of_ne (hne.resolve_left fun hne => hne rfl) _ _
  · rw [Function.update_of_ne hother]

theorem setLatch_self {vc : Fin vcs} {latch : Latch subnets classes vcs} :
    (s.setLatch subnet vc latch).buffers subnet vc = latch := by
  dsimp only [setLatch]
  rw [Function.update_self, Function.update_self]

/-- Whether a class is bypassing stays, and a latch keeps its state. -/
theorem Removes.same {c : Fin classes} (h : Removes s s' subnet c bypassVC) :
    s'.duringBypassing = s.duringBypassing ∧
      ∀ other v, (s'.buffers other v).state = (s.buffers other v).state := by
  cases h with
  | latch vc _ _ heq =>
      subst heq
      refine ⟨rfl, fun other v => ?_⟩
      by_cases hlatch : other = subnet ∧ v = vc
      · obtain ⟨rfl, rfl⟩ := hlatch
        rw [setLatch_self]
      · rw [setLatch_others (not_and_or.mp hlatch)]
  | queue g rest _ _ heq =>
      subst heq
      exact ⟨rfl, fun _ _ => rfl⟩

theorem Removes.others {c : Fin classes} (h : Removes s s' subnet c bypassVC) {other : Fin subnets}
    {v : Fin vcs} (hne : other ≠ subnet ∨ bypassVC ≠ some v) :
    s'.buffers other v = s.buffers other v := by
  cases h with
  | latch vc hvc _ heq =>
      subst heq hvc
      exact setLatch_others (hne.imp_right fun hne heq => hne (congrArg some heq.symm))
  | queue g rest _ _ heq => rw [heq]

theorem Removes.queues {c : Fin classes} (h : Removes s s' subnet c bypassVC)
    (hduring : s.duringBypassing c = false) : s'.buffers = s.buffers := by
  cases h with
  | latch vc _ hbypassing _ =>
      rw [hduring] at hbypassing
      cases hbypassing
  | queue g rest _ _ heq => rw [heq]

/-- After a tail the latch is idle, or the flit was this node's own. -/
inductive Closes (s s' : NoRDInterface subnets classes vcs) (subnet : Fin subnets) (c : Fin classes)
    (bypassVC : Option (Fin vcs)) : Prop where
  | latch (vc : Fin vcs) (hvc : bypassVC = some vc) (hduring : s.duringBypassing c = true)
      (heq : s' = s.setLatch subnet vc { s.buffers subnet vc with state := .idle })
  | own (hduring : s.duringBypassing c = false) (heq : s' = s)

theorem closeLatch_ok (h : s.closeLatch subnet f bypassVC = .ok s') :
    Closes s s' subnet f.cl bypassVC := by
  unfold closeLatch at h
  cases hduring : s.duringBypassing f.cl with
  | true =>
      rw [hduring, if_pos rfl] at h
      cases hvc : bypassVC with
      | none =>
          rw [hvc] at h
          cases h
      | some vc =>
          rw [hvc] at h
          exact .latch vc rfl hduring (Except.ok.inj h).symm
  | false =>
      rw [hduring, if_neg Bool.false_ne_true] at h
      split at h
      · exact .own hduring (Except.ok.inj h).symm
      · cases h

theorem Closes.others {c : Fin classes} (h : Closes s s' subnet c bypassVC) {other : Fin subnets}
    {v : Fin vcs} (hne : other ≠ subnet ∨ bypassVC ≠ some v) :
    s'.buffers other v = s.buffers other v := by
  cases h with
  | latch vc hvc _ heq =>
      subst heq hvc
      exact setLatch_others (hne.imp_right fun hne heq => hne (congrArg some heq.symm))
  | own _ heq => rw [heq]

theorem Closes.duringBypassing {c : Fin classes} (h : Closes s s' subnet c bypassVC) :
    s'.duringBypassing = s.duringBypassing := by
  cases h with
  | latch vc _ _ heq =>
      subst heq
      rfl
  | own _ heq => rw [heq]

theorem Closes.queues {c : Fin classes} (h : Closes s s' subnet c bypassVC)
    (hduring : s.duringBypassing c = false) : s'.buffers = s.buffers := by
  cases h with
  | latch vc _ hbypassing _ =>
      rw [hduring] at hbypassing
      cases hbypassing
  | own _ heq => rw [heq]

/-- To raise one flag lowers none. -/
theorem raise_stays {flags : Fin classes → Bool} {raises : Prop} [Decidable raises] {c d : Fin classes}
    (hc : flags c = true) : (if raises then Function.update flags d true else flags) c = true := by
  split
  · by_cases hcd : c = d
    · rw [hcd, Function.update_self]
    · rw [Function.update_of_ne hcd, hc]
  · exact hc

/-- What sending does to the latches and to the classes that are bypassing. -/
structure Sends (s s' : NoRDInterface subnets classes vcs) (subnet : Fin subnets)
    (f : BypassFlit subnets classes vcs) (bypassVC : Option (Fin vcs)) : Prop where
  others : ∀ other v, other ≠ subnet ∨ bypassVC ≠ some v → s'.buffers other v = s.buffers other v
  body : f.tail = false → ∀ other v, (s'.buffers other v).state = (s.buffers other v).state
  queues : s.duringBypassing f.cl = false → s'.buffers = s.buffers
  stays : ∀ c, s.duringBypassing c = true → s'.duringBypassing c = true
  bypassing : ∀ c, s'.duringBypassing c = true →
    s.duringBypassing c = true ∨ ∃ other v, ¬ (s'.buffers other v).Free

theorem sendFlit_sends {served : NoRDServed subnets classes vcs}
    (h : s.sendFlit cfg inputs subnet f bypassVC = .ok served) :
    Sends s served.node subnet f bypassVC := by
  obtain ⟨-, vc, buf, s₁, s₂, s₃, s₄, -, -, hsame₁, hremoves, hsame₃, hback, hend, -⟩ :=
    sendFlit_ok h
  obtain ⟨-, hlatches₄, hduring₄, -⟩ := passBack_ok hback
  obtain ⟨hduring₂, hstates₂⟩ := hremoves.same
  have hduring : s₄.duringBypassing = s.duringBypassing := by
    rw [hduring₄, hsame₃.bypassing, hduring₂, hsame₁.bypassing]
  have hlatches : s₄.buffers = s₂.buffers := hlatches₄.trans hsame₃.latches
  have hothers : ∀ other v, other ≠ subnet ∨ bypassVC ≠ some v →
      s₄.buffers other v = s.buffers other v := by
    intro other v hne
    rw [hlatches, hremoves.others hne, hsame₁.latches]
  have hqueues : s.duringBypassing f.cl = false → s₄.buffers = s.buffers := by
    intro hidle
    rw [hlatches, hremoves.queues (by rw [hsame₁.bypassing, hidle]), hsame₁.latches]
  unfold endPacket at hend
  by_cases htail : f.tail = true
  · rw [if_pos htail] at hend
    obtain ⟨s₅, hclose, hend⟩ := bind_ok.mp hend
    have hnode := pure_ok.mp hend
    have hcloses := closeLatch_ok hclose
    rw [← hnode]
    refine ⟨?_, ?_, ?_, ?_, ?_⟩
    · intro other v hne
      exact (hcloses.others hne).trans (hothers other v hne)
    · intro hbody
      rw [htail] at hbody
      cases hbody
    · intro hidle
      exact (hcloses.queues (by rw [hduring, hidle])).trans (hqueues hidle)
    · intro c hc
      exact raise_stays (by rw [hcloses.duringBypassing, hduring, hc])
    · intro c hc
      dsimp only at hc
      split at hc
      next hbusy =>
        obtain ⟨v, hv⟩ := hbusy
        exact .inr ⟨subnet, v, fun hfree => hv hfree.idle⟩
      next =>
        rw [hcloses.duringBypassing, hduring] at hc
        exact .inl hc
  · rw [if_neg htail] at hend
    have hnode := Except.ok.inj hend
    rw [← hnode]
    refine ⟨hothers, ?_, hqueues, fun c hc => by rw [hduring, hc], ?_⟩
    · intro _ other v
      rw [hlatches, hstates₂, hsame₁.latches]
    · intro c hc
      rw [hduring] at hc
      exact .inl hc

/-! ### Every step -/

/-- A class is bypassing only while some latch is in use. -/
def InProgress (s : NoRDInterface subnets classes vcs) : Prop :=
  ∀ c, s.duringBypassing c = true → ∃ subnet vc, ¬ (s.buffers subnet vc).Free

/-- In a turn, the tail of the last packet in the latches does not go. -/
def Outlasts (s : NoRDInterface subnets classes vcs) : NoRDEvent subnets classes vcs → Prop
  | .turn inputs subnet =>
      s.duringBypassing (s.lastClass subnet) = true → ∀ vc, s.Ends inputs subnet vc →
        ∃ other v, (other ≠ subnet ∨ v ≠ vc) ∧ ¬ (s.buffers other v).Free
  | _ => True

theorem InProgress.receive {time : Int} (h : s.receive subnet time f = .ok s') : s'.InProgress := by
  unfold NoRDInterface.receive at h
  cases hvc : f.vc with
  | none =>
      rw [hvc] at h
      cases h
  | some vc =>
      rw [hvc] at h
      dsimp only at h
      split at h
      · cases h
      · cases h
        refine fun c _ => ⟨subnet, vc, fun hfree => ?_⟩
        have hempty := hfree.empty
        dsimp only at hempty
        rw [setLatch_self] at hempty
        cases hempty

/-- A flit of the queues goes past the latches. -/
theorem InProgress.sendQueue {served : NoRDServed subnets classes vcs} (h : s.InProgress)
    (hsend : s.sendFlit cfg inputs subnet f none = .ok served) : served.node.InProgress := by
  have hsends := sendFlit_sends hsend
  intro c hc
  obtain hc | hbusy := hsends.bypassing c hc
  · obtain ⟨other, v, hbusy⟩ := h c hc
    refine ⟨other, v, ?_⟩
    rwa [hsends.others other v (.inr fun heq => nomatch heq)]
  · exact hbusy

/-- A flit of a latch leaves another latch in use, or does not end its packet. -/
theorem InProgress.sendBypass {served : NoRDServed subnets classes vcs} {vc : Fin vcs}
    (hactive : (s.buffers subnet vc).state = .active)
    (houtlasts : f.tail = true →
      ∃ other v, (other ≠ subnet ∨ v ≠ vc) ∧ ¬ (s.buffers other v).Free)
    (hsend : s.sendFlit cfg inputs subnet f (some vc) = .ok served) : served.node.InProgress := by
  have hsends := sendFlit_sends hsend
  cases htail : f.tail with
  | true =>
      obtain ⟨other, v, hne, hbusy⟩ := houtlasts htail
      refine fun c _ => ⟨other, v, ?_⟩
      rwa [hsends.others other v (hne.imp_right fun hne heq => hne (Option.some.inj heq).symm)]
  | false =>
      refine fun c _ => ⟨subnet, vc, fun hfree => ?_⟩
      have hidle := hfree.idle
      rw [hsends.body htail, hactive] at hidle
      cases hidle

theorem InProgress.inject {served : NoRDServed subnets classes vcs} (h : s.InProgress)
    (hmeets : s.Outlasts (.turn inputs subnet)) (hinject : s.inject cfg inputs subnet = .ok served) :
    served.node.InProgress := by
  unfold NoRDInterface.inject at hinject
  by_cases hduring : s.duringBypassing (s.lastClass subnet) = true
  · rw [if_pos hduring] at hinject
    obtain ⟨l, hl, hsend⟩ := bind_ok.mp hinject
    obtain ⟨hkeeps, hselected⟩ := selectBypass_keeps hl
    have hbusy : ∀ other v, ¬ (s.buffers other v).Free →
        ¬ (Function.update s.buffers subnet l.latches other v).Free := by
      intro other v hbusy
      by_cases hother : other = subnet
      · subst hother
        rw [Function.update_self]
        exact hkeeps v hbusy
      · rwa [Function.update_of_ne hother]
    have hloop : ({ s with
        buffers := Function.update s.buffers subnet l.latches
        wakeupMonitorVCRequests := l.wakeupMonitorVCRequests
        wakeupSignal := l.wakeupSignal } : NoRDInterface subnets classes vcs).InProgress := by
      intro c hc
      obtain ⟨other, v, hused⟩ := h c hc
      exact ⟨other, v, hbusy other v hused⟩
    unfold injectBypass at hsend
    dsimp only at hsend
    cases hf : l.f with
    | none =>
        rw [hf] at hsend
        cases hsend
        exact hloop
    | some f =>
        obtain ⟨vc, hbypass, hactive, -, hends⟩ := hselected f hf
        rw [hf, hbypass] at hsend
        refine .sendBypass ?_ ?_ hsend
        · dsimp only
          rw [Function.update_self]
          exact hactive
        · intro htail
          obtain ⟨other, v, hne, hused⟩ := hmeets hduring vc (hends htail)
          exact ⟨other, v, hne, hbusy other v hused⟩
  · rw [if_neg hduring] at hinject
    obtain ⟨l, hl, hsend⟩ := bind_ok.mp hinject
    have hqueues : ({ s with partialPackets := l.partialPackets } :
        NoRDInterface subnets classes vcs).InProgress := h
    unfold injectQueue at hsend
    dsimp only at hsend
    split at hsend
    · cases hsend
      exact hqueues
    · split at hsend
      · cases hsend
      · exact hqueues.sendQueue hsend

theorem InProgress.perform (e : NoRDEvent subnets classes vcs) (h : s.InProgress)
    (hmeets : s.Outlasts e) (hperform : s.perform cfg e = .ok s') : s'.InProgress := by
  cases e with
  | packet c size pid pri subnetwork =>
      cases hperform
      exact h
  | credit time subnet credits =>
      obtain ⟨buf, -, hperform⟩ := bind_ok.mp hperform
      cases hperform
      exact h
  | receive time subnet f => exact .receive hperform
  | turn inputs subnet =>
      obtain ⟨served, hserved, rfl⟩ := map_ok.mp hperform
      exact h.inject hmeets hserved

/-! ### What stays behind -/

/-- Nothing ends bypassing. -/
theorem bypassing_perform (e : NoRDEvent subnets classes vcs) (hperform : s.perform cfg e = .ok s')
    {c : Fin classes} (hc : s.duringBypassing c = true) : s'.duringBypassing c = true := by
  cases e with
  | packet c size pid pri subnetwork =>
      cases hperform
      exact hc
  | credit time subnet credits =>
      obtain ⟨buf, -, hperform⟩ := bind_ok.mp hperform
      cases hperform
      exact hc
  | receive time subnet f =>
      replace hperform : s.receive subnet time f = .ok s' := hperform
      unfold NoRDInterface.receive at hperform
      split at hperform
      · cases hperform
      · dsimp only at hperform
        split at hperform
        · cases hperform
        · cases hperform
          exact raise_stays hc
  | turn inputs subnet =>
      obtain ⟨served, hinject, rfl⟩ := map_ok.mp hperform
      unfold NoRDInterface.inject at hinject
      split at hinject
      · obtain ⟨l, -, hsend⟩ := bind_ok.mp hinject
        unfold injectBypass at hsend
        dsimp only at hsend
        split at hsend
        · cases hsend
          exact hc
        · exact (sendFlit_sends hsend).stays c hc
      · obtain ⟨l, -, hsend⟩ := bind_ok.mp hinject
        unfold injectQueue at hsend
        dsimp only at hsend
        split at hsend
        · cases hsend
          exact hc
        · split at hsend
          · cases hsend
          · exact (sendFlit_sends hsend).stays c hc

/-- While the class that sent last is bypassing and the latches are free, a turn sends nothing. -/
theorem sent_of_free {served : NoRDServed subnets classes vcs}
    (hduring : s.duringBypassing (s.lastClass subnet) = true)
    (hfree : ∀ vc, (s.buffers subnet vc).Free)
    (hinject : s.inject cfg inputs subnet = .ok served) : served.sent = none := by
  unfold NoRDInterface.inject at hinject
  rw [if_pos hduring] at hinject
  obtain ⟨l, hl, hsend⟩ := bind_ok.mp hinject
  obtain ⟨-, hselected⟩ := selectBypass_keeps hl
  unfold injectBypass at hsend
  dsimp only at hsend
  cases hf : l.f with
  | none =>
      rw [hf] at hsend
      cases hsend
      rfl
  | some f =>
      obtain ⟨vc, -, -, hfull, -⟩ := hselected f hf
      exact absurd (hfree vc).empty hfull

/-! ### A node that has not bypassed -/

/-- The node as it would be if no packet had passed it. -/
def neverBypassed (s : NoRDInterface subnets classes vcs) : NoRDInterface subnets classes vcs :=
  { s with
    duringBypassing := fun _ => false
    buffers := fun _ _ => ⟨.idle, none, []⟩ }

/-- The node with other latches. -/
def withLatches (latches : Fin subnets → Fin vcs → Latch subnets classes vcs)
    (s : NoRDInterface subnets classes vcs) : NoRDInterface subnets classes vcs :=
  { s with buffers := latches }

/-- No class is bypassing, and the latches are idle. -/
structure Quiet (s : NoRDInterface subnets classes vcs) : Prop where
  bypassing : ∀ c, s.duringBypassing c = false
  idle : ∀ subnet vc, (s.buffers subnet vc).state = .idle

section Latches

variable {latches : Fin subnets → Fin vcs → Latch subnets classes vcs}

theorem takeVC_withLatches {vc : Fin vcs} :
    (s.withLatches latches).takeVC subnet f vc = (s.takeVC subnet f vc).map (withLatches latches) := by
  have hbuf : (s.withLatches latches).takeBuffer subnet f.toFlit vc =
      s.takeBuffer subnet f.toFlit vc := rfl
  unfold takeVC
  rw [hbuf]
  cases s.takeBuffer subnet f.toFlit vc <;> rfl

theorem removeFlit_withLatches {c : Fin classes} (hquiet : s.Quiet) :
    (s.withLatches latches).removeFlit subnet c none =
      (s.removeFlit subnet c none).map (withLatches latches) := by
  have hduring : (s.withLatches latches).duringBypassing c = false := hquiet.bypassing c
  unfold removeFlit
  rw [hduring, hquiet.bypassing c, if_neg Bool.false_ne_true, if_neg Bool.false_ne_true]
  cases hqueue : s.partialPackets c <;> simp only [withLatches, hqueue] <;> rfl

theorem sendingFlitFor_withLatches {vc : Fin vcs} :
    (s.withLatches latches).sendingFlitFor inputs subnet f vc =
      (s.sendingFlitFor inputs subnet f vc).map (withLatches latches) := by
  unfold sendingFlitFor
  dsimp only [withLatches]
  cases (s.bufStates subnet).sendingFlit inputs.time vc f.tail <;> rfl

theorem passBack_withLatches :
    (s.withLatches latches).passBack f = (s.passBack f).map (withLatches latches) := by
  unfold passBack
  cases hqueue : s.partialPackets f.cl with
  | nil =>
      simp only [withLatches, hqueue]
      rfl
  | cons nf rest =>
      simp only [withLatches, hqueue]
      split
      · split <;> rfl
      · rfl

theorem endPacket_withLatches (hquiet : s.Quiet) (hlatches : ∀ v, (latches subnet v).state = .idle) :
    (s.withLatches latches).endPacket subnet f none =
      (s.endPacket subnet f none).map (withLatches latches) := by
  have hduring : (s.withLatches latches).duringBypassing f.cl = false := hquiet.bypassing f.cl
  unfold endPacket closeLatch
  rw [hduring, hquiet.bypassing f.cl]
  split
  · cases f.own
    · rfl
    · have hleft : ¬ ∃ v, ((s.withLatches latches).buffers subnet v).state ≠ .idle :=
        fun ⟨v, hv⟩ => hv (hlatches v)
      have hright : ¬ ∃ v, (s.buffers subnet v).state ≠ .idle :=
        fun ⟨v, hv⟩ => hv (hquiet.idle subnet v)
      show Except.ok _ = Except.ok _
      rw [if_neg hleft, if_neg hright]
  · rfl

theorem Quiet.of_sameFlits (h : s.Quiet) (hsame : SameFlits s s') : s'.Quiet :=
  ⟨fun c => by rw [hsame.bypassing]; exact h.bypassing c, fun other v => by
    rw [hsame.latches]; exact h.idle other v⟩

theorem Quiet.removes {c : Fin classes} (h : s.Quiet) (hremoves : Removes s s' subnet c bypassVC) :
    s'.Quiet := by
  obtain ⟨hduring, hstates⟩ := hremoves.same
  exact ⟨fun c => by rw [hduring]; exact h.bypassing c, fun other v => by
    rw [hstates]; exact h.idle other v⟩

theorem Quiet.passBack (h : s.Quiet) (hback : s.passBack f = .ok s') : s'.Quiet := by
  obtain ⟨-, hlatches, hduring, -⟩ := passBack_ok hback
  exact ⟨fun c => by rw [hduring]; exact h.bypassing c, fun other v => by
    rw [hlatches]; exact h.idle other v⟩

theorem sendFlit_withLatches (hquiet : s.Quiet)
    (hlatches : ∀ other v, (latches other v).state = .idle) :
    (s.withLatches latches).sendFlit cfg inputs subnet f none =
      (s.sendFlit cfg inputs subnet f none).map fun served =>
        { served with node := served.node.withLatches latches } := by
  unfold sendFlit
  split
  · rfl
  cases f.vc with
  | none => rfl
  | some vc =>
      dsimp only
      rw [takeVC_withLatches]
      cases htake : s.takeVC subnet f vc with
      | error e => rfl
      | ok s₁ =>
          have hquiet₁ := hquiet.of_sameFlits (takeVC_ok htake).1
          show ((s₁.withLatches latches).removeFlit subnet f.cl none >>= _) =
            Except.map _ (s₁.removeFlit subnet f.cl none >>= _)
          rw [removeFlit_withLatches hquiet₁]
          cases hremove : s₁.removeFlit subnet f.cl none with
          | error e => rfl
          | ok s₂ =>
              have hquiet₂ := hquiet₁.removes (removeFlit_ok hremove)
              show ((s₂.withLatches latches).sendingFlitFor inputs subnet f vc >>= _) =
                Except.map _ (s₂.sendingFlitFor inputs subnet f vc >>= _)
              rw [sendingFlitFor_withLatches]
              cases hsending : s₂.sendingFlitFor inputs subnet f vc with
              | error e => rfl
              | ok s₃ =>
                  have hquiet₃ := hquiet₂.of_sameFlits (sendingFlitFor_ok hsending).1
                  show ((s₃.withLatches latches).passBack f >>= _) =
                    Except.map _ (s₃.passBack f >>= _)
                  rw [passBack_withLatches]
                  cases hback : s₃.passBack f with
                  | error e => rfl
                  | ok s₄ =>
                      have hquiet₄ := hquiet₃.passBack hback
                      show ((s₄.withLatches latches).endPacket subnet f none >>= _) =
                        Except.map _ (s₄.endPacket subnet f none >>= _)
                      rw [endPacket_withLatches hquiet₄ (hlatches subnet)]
                      cases s₄.endPacket subnet f none <;> rfl

end Latches

/-- A turn of a node that is not bypassing does not depend on the contents of its latches. -/
theorem inject_withLatches {latches : Fin subnets → Fin vcs → Latch subnets classes vcs}
    (hquiet : s.Quiet) (hlatches : ∀ other v, (latches other v).state = .idle) :
    (s.withLatches latches).inject cfg inputs subnet =
      (s.inject cfg inputs subnet).map fun served =>
        { served with node := served.node.withLatches latches } := by
  have hduring : (s.withLatches latches).duringBypassing ((s.withLatches latches).lastClass subnet) =
      false := hquiet.bypassing _
  have hselect : (s.withLatches latches).selectQueue cfg inputs subnet =
      s.selectQueue cfg inputs subnet := rfl
  unfold inject
  rw [hduring, hquiet.bypassing, if_neg Bool.false_ne_true, if_neg Bool.false_ne_true, hselect]
  cases s.selectQueue cfg inputs subnet with
  | error e => rfl
  | ok l =>
      show (s.withLatches latches).injectQueue cfg inputs subnet l =
        Except.map _ (s.injectQueue cfg inputs subnet l)
      unfold injectQueue
      dsimp only
      cases l.f with
      | none => rfl
      | some c =>
          dsimp only
          cases (l.partialPackets c).head? with
          | none => rfl
          | some f =>
              have hquiet' : ({ s with partialPackets := l.partialPackets } :
                  NoRDInterface subnets classes vcs).Quiet := ⟨hquiet.bypassing, hquiet.idle⟩
              exact sendFlit_withLatches hquiet' hlatches

/-- What a turn does to the queues and to the buffer state, and what it sends. -/
def injects (s : NoRDInterface subnets classes vcs) (cfg : NoRDConfig)
    (inputs : NoRDInputs subnets classes vcs) (subnet : Fin subnets) :
    Except Error (Interface subnets classes vcs × Option (BypassFlit subnets classes vcs) ×
      Option (Fin vcs)) :=
  (s.inject cfg inputs subnet).map fun served =>
    (served.node.toInterface, served.sent, served.credit)

/-- What bypassing leaves behind does not disable injection: a class is bypassing only while
some latch is in use, and while none is, every turn is that of a node that has not bypassed. -/
structure Undisturbed (s : NoRDInterface subnets classes vcs) (cfg : NoRDConfig) : Prop where
  inProgress : s.InProgress
  injects : (∀ subnet vc, (s.buffers subnet vc).Free) → ∀ inputs subnet,
    s.injects cfg inputs subnet = s.neverBypassed.injects cfg inputs subnet

theorem InProgress.undisturbed (h : s.InProgress) : s.Undisturbed cfg where
  inProgress := h
  injects := by
    intro hfree inputs subnet
    have hduring : s.duringBypassing = fun _ => false := by
      funext c
      by_contra hc
      obtain ⟨other, v, hbusy⟩ := h c (Bool.eq_true_of_not_eq_false hc)
      exact hbusy (hfree other v)
    have hquiet : s.neverBypassed.Quiet := ⟨fun _ => rfl, fun _ _ => rfl⟩
    have hs : s = s.neverBypassed.withLatches s.buffers := by
      rw [neverBypassed, withLatches, ← hduring]
    have hinject : s.inject cfg inputs subnet =
        (s.neverBypassed.inject cfg inputs subnet).map fun served =>
          { served with node := served.node.withLatches s.buffers } := by
      rw [← inject_withLatches hquiet fun other v => (hfree other v).idle, ← hs]
    unfold NoRDInterface.injects
    rw [hinject]
    cases s.neverBypassed.inject cfg inputs subnet <;> rfl

/-! ### Every run -/

/-- A packet of another node that is offered the only virtual channel. -/
def passing (pid : Nat) (tail : Bool) : BypassFlit 1 1 1 where
  pid := pid
  head := true
  tail := tail
  pri := 0
  subnetwork := 0
  vc := some 0
  cl := 0
  own := false
  rtime := 0
  bypassVC := none

def oneBypassRange : NoRDInputs 1 1 1 where
  toInputs := oneRange
  performanceCentricRouter := false
  bypassRanges := fun _ => [⟨0, 0⟩]
  found := fun _ _ => false

end NoRDInterface

end Flyover.Injection
