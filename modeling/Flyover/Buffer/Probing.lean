import Flyover.Buffer.ComesBack

/-!
# Probes of the simple feedback policy

One flit at a time is a probe on each virtual channel: its round trip is to be
measured. The policy does not look at the credits; it counts off those of the
flits that were outstanding when the probe was sent. Here the outstanding flits
are written down as they are sent, and since credits come back in order, the
probe whose credit is due is found where the count says.
-/

namespace Flyover

variable {vcs : Nat}

/-- A flit whose credit is still to come, and whether it was sent as a probe. -/
structure SentFlit where
  time : Int
  probe : Bool
  deriving DecidableEq, Repr

/-- The credits that come before that of the probe. -/
def creditsBeforeProbe (flits : List SentFlit) : Nat :=
  if flits.any (·.probe) then flits.findIdx (·.probe) else 0

/-- When the probes among the flits were sent. -/
def probeTimes (flits : List SentFlit) : List Int :=
  (flits.filter (·.probe)).map (·.time)

section SentFlits

variable {flits rest : List SentFlit} {f : SentFlit} {time : Int}

theorem probeTimes_eq_nil : probeTimes flits = [] ↔ flits.any (·.probe) = false := by
  simp [probeTimes]

theorem creditsBeforeProbe_of_none (h : flits.any (·.probe) = false) :
    creditsBeforeProbe flits = 0 := by
  simp [creditsBeforeProbe, h]

/-- A probe that is sent has all outstanding flits before it. -/
theorem creditsBeforeProbe_probe (h : flits.any (·.probe) = false) :
    creditsBeforeProbe (flits ++ [⟨time, true⟩]) = flits.length := by
  have hnone : flits.findIdx (·.probe) = flits.length := by
    apply List.findIdx_eq_length.mpr
    simpa using h
  simp [creditsBeforeProbe, List.findIdx_append, hnone]

theorem creditsBeforeProbe_other (h : flits.any (·.probe) = true) :
    creditsBeforeProbe (flits ++ [⟨time, false⟩]) = creditsBeforeProbe flits := by
  have hlt : flits.findIdx (·.probe) < flits.length := by
    apply List.findIdx_lt_length.mpr
    simpa using h
  simp [creditsBeforeProbe, List.findIdx_append, hlt, h]

theorem creditsBeforeProbe_cons (hf : f.probe = false) :
    creditsBeforeProbe (f :: rest) =
      if rest.any (·.probe) then creditsBeforeProbe rest + 1 else 0 := by
  by_cases hprobe : ∃ g ∈ rest, g.probe = true
  · simp [creditsBeforeProbe, List.findIdx_cons, hf, hprobe]
  · simp [creditsBeforeProbe, hf, hprobe]

theorem creditsBeforeProbe_head (hf : f.probe = true) : creditsBeforeProbe (f :: rest) = 0 := by
  simp [creditsBeforeProbe, List.findIdx_cons, hf]

end SentFlits

/-! ### The records of the policy -/

namespace SimpleFeedbackSharedBufferPolicy

variable {config : FeedbackConfig} {p p' : SimpleFeedbackSharedBufferPolicy vcs}
  {outstanding : Fin vcs → List SentFlit} {time : Int} {vc : Fin vcs}

/-- The records are those of the probes among the outstanding flits. -/
structure Probes (p : SimpleFeedbackSharedBufferPolicy vcs)
    (outstanding : Fin vcs → List SentFlit) : Prop where
  times : ∀ vc, p.flitSentTime vc = probeTimes (outstanding vc)
  one : ∀ vc, (probeTimes (outstanding vc)).length ≤ 1
  pending : ∀ vc, p.pendingCredits vc = creditsBeforeProbe (outstanding vc)
  mapped : p.totalMappedSize = ∑ vc, p.occupancyLimit vc

/-- The round trip that `FreeSlotFor` takes for that of the probe. -/
def sample (p : SimpleFeedbackSharedBufferPolicy vcs) (time : Int) (vc : Fin vcs) : Option Int :=
  match p.flitSentTime vc with
  | [] => none
  | sent :: _ => if p.pendingCredits vc = 0 then some (time - sent) else none

/-- The estimate after `FreeSlotFor`, with the round trip that was taken. -/
def measured (config : FeedbackConfig) (p : SimpleFeedbackSharedBufferPolicy vcs) (time : Int)
    (vc : Fin vcs) : Int :=
  match p.sample time vc with
  | none => p.roundTripTime vc
  | some rtt => p.toFeedbackSharedBufferPolicy.computeRTT config vc rtt

theorem probes_new (bufSize : Int) :
    (new bufSize : SimpleFeedbackSharedBufferPolicy vcs).Probes fun _ => [] where
  times _ := rfl
  one _ := Nat.zero_le 1
  pending _ := rfl
  mapped := by
    show bufSize * vcs = ∑ _vc : Fin vcs, bufSize
    simp [mul_comm]

theorem Probes.sendingFlit (h : p.Probes outstanding)
    (hsend : p.sendingFlit ((outstanding vc).length + 1) time vc = .ok p') :
    p'.Probes (Function.update outstanding vc
      (outstanding vc ++ [⟨time, (p.flitSentTime vc).isEmpty⟩])) := by
  unfold SimpleFeedbackSharedBufferPolicy.sendingFlit at hsend
  split at hsend
  next hnil =>
    obtain ⟨-, hsend⟩ := ensure_bind_ok.mp hsend
    obtain rfl := pure_ok.mp hsend
    have hnone : (outstanding vc).any (·.probe) = false := by
      rw [← probeTimes_eq_nil, ← h.times vc, hnil]
    have hempty : probeTimes (outstanding vc) = [] := probeTimes_eq_nil.mpr hnone
    rw [hnil, List.isEmpty_nil]
    have htimes : probeTimes (outstanding vc ++ [⟨time, true⟩]) = [time] := by
      rw [probeTimes, List.filter_append, List.map_append]
      simpa [probeTimes] using hempty
    constructor
    case times =>
      intro u
      dsimp only [FeedbackSharedBufferPolicy.sendingFlit]
      by_cases hu : u = vc
      · subst hu
        simp [hnil, htimes]
      · simp [hu, h.times u]
    case one =>
      intro u
      by_cases hu : u = vc
      · subst hu
        simp [htimes]
      · simpa [hu] using h.one u
    case pending =>
      intro u
      by_cases hu : u = vc
      · subst hu
        simp [creditsBeforeProbe_probe hnone]
      · simp [hu, h.pending u]
    case mapped => exact h.mapped
  next sent rest hcons =>
    obtain rfl := Except.ok.inj hsend
    have hprobe : (outstanding vc).any (·.probe) = true := by
      by_contra hnone
      have hnil := probeTimes_eq_nil.mpr (Bool.eq_false_of_not_eq_true hnone)
      rw [← h.times vc, hcons] at hnil
      cases hnil
    have htimes : probeTimes (outstanding vc ++ [⟨time, false⟩]) = probeTimes (outstanding vc) := by
      simp [probeTimes]
    rw [hcons, List.isEmpty_cons]
    constructor
    case times =>
      intro u
      by_cases hu : u = vc
      · subst hu
        simp [htimes, h.times u]
      · simp [hu, h.times u]
    case one =>
      intro u
      by_cases hu : u = vc
      · subst hu
        simpa [htimes] using h.one u
      · simpa [hu] using h.one u
    case pending =>
      intro u
      by_cases hu : u = vc
      · subst hu
        simp [creditsBeforeProbe_other hprobe, h.pending u]
      · simp [hu, h.pending u]
    case mapped => exact h.mapped

theorem probeTimes_cons_probe {f : SentFlit} {rest : List SentFlit} (hf : f.probe = true) :
    probeTimes (f :: rest) = f.time :: probeTimes rest := by
  simp [probeTimes, hf]

theorem probeTimes_cons_other {f : SentFlit} {rest : List SentFlit} (hf : f.probe = false) :
    probeTimes (f :: rest) = probeTimes rest := by
  simp [probeTimes, hf]

/-- A round trip is taken exactly if the credit is that of the probe, and it is the probe's. -/
theorem Probes.sample_eq (h : p.Probes outstanding) {f : SentFlit} {rest : List SentFlit}
    (hcons : outstanding vc = f :: rest) (time : Int) :
    p.sample time vc = if f.probe then some (time - f.time) else none := by
  have htimes := h.times vc
  have hpending := h.pending vc
  rw [hcons] at htimes hpending
  cases hf : f.probe with
  | true =>
      rw [creditsBeforeProbe_head hf] at hpending
      rw [probeTimes_cons_probe hf] at htimes
      simp [sample, htimes, hpending]
  | false =>
      rw [creditsBeforeProbe_cons hf] at hpending
      rw [probeTimes_cons_other hf] at htimes
      by_cases hrest : rest.any (·.probe) = true
      · rw [if_pos hrest] at hpending
        have hne : p.pendingCredits vc ≠ 0 := by
          rw [hpending]
          exact Int.natCast_ne_zero.mpr (Nat.succ_ne_zero _)
        unfold sample
        split
        next => rfl
        next => simp [hne]
      · have hnone := probeTimes_eq_nil.mpr (Bool.eq_false_of_not_eq_true hrest)
        simp [sample, htimes, hnone]

/-- The flits that are outstanding decide which round trip is taken. -/
theorem Probes.sample_congr {outstanding' : Fin vcs → List SentFlit} (h : p.Probes outstanding)
    (h' : p'.Probes outstanding') (heq : outstanding' vc = outstanding vc) (time : Int) :
    p'.sample time vc = p.sample time vc := by
  rw [sample, sample, h.times vc, h'.times vc, h.pending vc, h'.pending vc, heq]

theorem sample_isSome :
    (p.sample time vc).isSome = true ↔ p.flitSentTime vc ≠ [] ∧ p.pendingCredits vc = 0 := by
  unfold sample
  split
  next hnil => simp [hnil]
  next hcons => simp [hcons]

theorem Probes.freeSlotFor (h : p.Probes outstanding) {f : SentFlit} {rest : List SentFlit}
    (hcons : outstanding vc = f :: rest) (hfree : p.freeSlotFor config time vc = .ok p') :
    p'.Probes (Function.update outstanding vc rest) ∧
      p'.roundTripTime =
        Function.update p.roundTripTime vc (p.measured config time vc) := by
  have hsample := h.sample_eq hcons time
  have hdue : (p.sample time vc).isSome = true ↔ p.flitSentTime vc ≠ [] ∧ p.pendingCredits vc = 0 :=
    sample_isSome
  have htimes := h.times vc
  have hone := h.one vc
  have hpending := h.pending vc
  rw [hcons] at htimes hone hpending
  unfold SimpleFeedbackSharedBufferPolicy.freeSlotFor at hfree
  cases hf : f.probe with
  | true =>
      rw [if_pos (hdue.mp (by simp [hsample, hf]))] at hfree
      obtain ⟨feedback, hfeedback, hp'⟩ := bind_ok.mp hfree
      obtain rfl := pure_ok.mp hp'
      rw [probeTimes_cons_probe hf] at htimes hone
      rw [FeedbackSharedBufferPolicy.freeSlotFor, htimes] at hfeedback
      obtain rfl := Except.ok.inj hfeedback
      have hrest : probeTimes rest = [] := List.length_eq_zero_iff.mp (Nat.le_zero.mp
        (Nat.le_of_succ_le_succ hone))
      refine ⟨?_, by simp [measured, hsample, hf]⟩
      constructor
      case times =>
        intro u
        by_cases hu : u = vc
        · subst hu
          simp
        · simp [hu, h.times u]
      case one =>
        intro u
        by_cases hu : u = vc
        · subst hu
          simp [hrest]
        · simpa [hu] using h.one u
      case pending =>
        intro u
        by_cases hu : u = vc
        · subst hu
          rw [Function.update_self, hpending, creditsBeforeProbe_head hf,
            creditsBeforeProbe_of_none (probeTimes_eq_nil.mp hrest)]
        · simp [hu, h.pending u]
      case mapped =>
        dsimp only
        rw [h.mapped, Pool.sum_update]
  | false =>
      rw [if_neg (mt hdue.mpr (by simp [hsample, hf]))] at hfree
      rw [probeTimes_cons_other hf] at htimes hone
      rw [creditsBeforeProbe_cons hf] at hpending
      have hsame : Function.update p.roundTripTime vc (p.measured config time vc) =
          p.roundTripTime := by
        have hmeasured : p.measured config time vc = p.roundTripTime vc := by
          simp [measured, hsample, hf]
        rw [hmeasured, Function.update_eq_self]
      rw [hsame]
      have hkept : p'.toFeedbackSharedBufferPolicy = p.toFeedbackSharedBufferPolicy ∧
          p'.pendingCredits = Function.update p.pendingCredits vc (creditsBeforeProbe rest) := by
        split at hfree
        next hpos =>
          obtain ⟨-, hp'⟩ := ensure_bind_ok.mp hfree
          obtain rfl := pure_ok.mp hp'
          refine ⟨rfl, ?_⟩
          rw [hpending] at hpos ⊢
          by_cases hrest : rest.any (·.probe) = true
          · simp [hrest]
          · simp [hrest] at hpos
        next hzero =>
          obtain rfl := pure_ok.mp hfree
          refine ⟨rfl, ?_⟩
          rw [hpending] at hzero
          by_cases hrest : rest.any (·.probe) = true
          · rw [if_pos hrest] at hzero
            omega
          · rw [if_neg hrest] at hpending
            rw [creditsBeforeProbe_of_none (Bool.eq_false_of_not_eq_true hrest), ← hpending,
              Function.update_eq_self]
      refine ⟨?_, congrArg FeedbackSharedBufferPolicy.roundTripTime hkept.1⟩
      constructor
      case times =>
        intro u
        rw [hkept.1]
        by_cases hu : u = vc
        · subst hu
          simp [htimes]
        · simp [hu, h.times u]
      case one =>
        intro u
        by_cases hu : u = vc
        · subst hu
          simpa using hone
        · simpa [hu] using h.one u
      case pending =>
        intro u
        rw [hkept.2]
        by_cases hu : u = vc
        · subst hu
          simp
        · simp [hu, h.pending u]
      case mapped =>
        rw [hkept.1]
        exact h.mapped

end SimpleFeedbackSharedBufferPolicy

namespace CreditLink

open BufferState SimpleFeedbackSharedBufferPolicy

variable {link next : CreditLink vcs} {outstanding : Fin vcs → List SentFlit}
  {L : SharedLayout vcs} {config : FeedbackConfig}

/-! ### Runs -/

/-- The policy is about to send a probe on the virtual channel. -/
def probesNext (link : CreditLink vcs) (vc : Fin vcs) : Bool :=
  match link.buffer.policy with
  | .sharedBuffer _ _ (.simpleFeedback _ p) => (p.flitSentTime vc).isEmpty
  | _ => false

/-- The outstanding flits after an operation; credits come back in the order of the flits. -/
def nextOutstanding (link : CreditLink vcs) (outstanding : Fin vcs → List SentFlit) :
    CreditOp vcs → Fin vcs → List SentFlit
  | .sendingFlit time vc _ =>
      Function.update outstanding vc (outstanding vc ++ [⟨time, link.probesNext vc⟩])
  | .processCredit _ credits =>
      fun vc => if vc ∈ credits then (outstanding vc).tail else outstanding vc
  | _ => outstanding

/-- The links reached by the sender's operations, with the flits that are outstanding. -/
inductive Observes (start : CreditLink vcs) :
    CreditLink vcs → (Fin vcs → List SentFlit) → Prop
  | refl : Observes start start fun _ => []
  | step {link next : CreditLink vcs} {outstanding : Fin vcs → List SentFlit}
      (op : CreditOp vcs) : Observes start link outstanding → op.FromSender → link.Guarded op →
        link.step op = .ok next → Observes start next (link.nextOutstanding outstanding op)

/-- The policy has on record what the outstanding flits are. -/
structure Records (s : BufferState vcs) (L : SharedLayout vcs) (config : FeedbackConfig)
    (p : SimpleFeedbackSharedBufferPolicy vcs) (outstanding : Fin vcs → List SentFlit) :
    Prop where
  policy : ∃ shared, s.policy = .sharedBuffer L shared (.simpleFeedback config p)
  counted : ∀ vc, s.vcOccupancy vc = (outstanding vc).length
  probes : p.Probes outstanding

variable {s s' : BufferState vcs} {p : SimpleFeedbackSharedBufferPolicy vcs} {time : Int}
  {vc : Fin vcs}

theorem Records.creditFor (h : Records s L config p outstanding)
    (hok : s.processCreditFor time vc = .ok s') :
    ∃ p', Records s' L config p' (Function.update outstanding vc (outstanding vc).tail) ∧
      p'.roundTripTime =
        Function.update p.roundTripTime vc (p.measured config time vc) := by
  obtain ⟨shared, hpolicy⟩ := h.policy
  obtain ⟨-, -, hocc, -, policy, hfree, rfl⟩ := processCreditFor_ok.mp hok
  rw [hpolicy] at hfree
  obtain ⟨shared', -, hfree⟩ := bind_ok.mp hfree
  obtain ⟨ext', hext', hpolicy'⟩ := bind_ok.mp hfree
  obtain rfl := pure_ok.mp hpolicy'
  obtain ⟨p', hp', hext⟩ := bind_ok.mp hext'
  obtain rfl := pure_ok.mp hext
  obtain ⟨f, rest, hcons⟩ : ∃ f rest, outstanding vc = f :: rest := by
    apply List.exists_cons_of_ne_nil
    intro hnil
    have hzero := h.counted vc
    rw [hnil, List.length_nil] at hzero
    exact absurd hzero hocc.ne'
  obtain ⟨hprobes, hmeasured⟩ := h.probes.freeSlotFor hcons hp'
  refine ⟨p', ⟨⟨shared', rfl⟩, ?_, ?_⟩, hmeasured⟩
  · intro u
    dsimp only [withPolicy, credited]
    by_cases hu : u = vc
    · subst hu
      simp [h.counted u, hcons]
    · simp [hu, h.counted u]
  · rw [hcons]
    exact hprobes

/-- The credits of a set are those of its virtual channels, one after another. -/
theorem Records.processCredit {credits : List (Fin vcs)} (hnodup : credits.Nodup)
    (h : Records s L config p outstanding) (hok : s.processCredit time credits = .ok s') :
    ∃ p', Records s' L config p'
        (fun vc => if vc ∈ credits then (outstanding vc).tail else outstanding vc) ∧
      p'.roundTripTime = fun vc =>
        if vc ∈ credits then p.measured config time vc
        else p.roundTripTime vc := by
  induction credits generalizing s p outstanding with
  | nil =>
      obtain rfl := Except.ok.inj hok
      exact ⟨p, by simpa using h, by simp⟩
  | cons vc rest ih =>
      obtain ⟨hvc, hnodup⟩ := List.nodup_cons.mp hnodup
      obtain ⟨t, ht, hok⟩ := bind_ok.mp hok
      obtain ⟨q, hq, hqtimes⟩ := h.creditFor ht
      obtain ⟨p', hp', htimes⟩ := ih hnodup hq hok
      refine ⟨p', ?_, ?_⟩
      · convert hp' using 1
        funext u
        by_cases hu : u = vc
        · subst hu
          simp [hvc]
        · simp [hu]
      · rw [htimes]
        funext u
        by_cases hu : u = vc
        · subst hu
          simp [hvc, hqtimes]
        · -- the estimate of another virtual channel is not touched before its turn
          have hsample : q.sample time u = p.sample time u :=
            h.probes.sample_congr hq.probes (Function.update_of_ne hu _ _) time
          have hsame : q.measured config time u = p.measured config time u := by
            simp [measured, hsample, FeedbackSharedBufferPolicy.computeRTT, hqtimes, hu]
          simp [hu, hqtimes, hsame]

theorem Records.step {link next : CreditLink vcs} {op : CreditOp vcs}
    (h : Records link.buffer L config p outstanding) (hsender : op.FromSender)
    (hguard : link.Guarded op) (hstep : link.step op = .ok next) :
    ∃ p', Records next.buffer L config p' (link.nextOutstanding outstanding op) := by
  obtain ⟨hperform, -⟩ := step_ok.mp hstep
  obtain ⟨shared, hpolicy⟩ := h.policy
  cases op with
  | takeBuffer vc tag =>
      obtain ⟨-, policy, htake, hbuffer⟩ := takeBuffer_ok.mp hperform
      rw [hpolicy] at htake
      obtain rfl := pure_ok.mp htake
      rw [hbuffer]
      exact ⟨p, ⟨shared, rfl⟩, h.counted, h.probes⟩
  | sendingFlit time vc tail =>
      obtain ⟨-, -, policy, hsend, hbuffer⟩ := sendingFlit_ok.mp hperform
      rw [hpolicy] at hsend
      obtain ⟨shared', -, hsend⟩ := bind_ok.mp hsend
      obtain ⟨ext', hext', hpolicy'⟩ := bind_ok.mp hsend
      obtain rfl := pure_ok.mp hpolicy'
      obtain ⟨p', hp', hext⟩ := bind_ok.mp hext'
      obtain rfl := pure_ok.mp hext
      rw [h.counted vc] at hp'
      have hnext : link.probesNext vc = (p.flitSentTime vc).isEmpty := by
        rw [probesNext, hpolicy]
      rw [hbuffer]
      refine ⟨p', ⟨shared', rfl⟩, ?_, ?_⟩
      · intro u
        dsimp only [withPolicy, sent, nextOutstanding]
        by_cases hu : u = vc
        · subst hu
          simp [h.counted u]
        · simp [hu, h.counted u]
      · rw [nextOutstanding, hnext]
        exact h.probes.sendingFlit hp'
  | returnBuffer vc =>
      obtain ⟨-, policy, hreturn, hbuffer⟩ := returnBuffer_ok.mp hperform
      rw [hpolicy] at hreturn
      obtain rfl := pure_ok.mp hreturn
      rw [hbuffer]
      exact ⟨p, ⟨shared, rfl⟩, h.counted, h.probes⟩
  | processCredit time credits =>
      obtain ⟨p', hp', -⟩ := h.processCredit hguard.1 hperform
      exact ⟨p', hp'⟩
  | clearCredits => exact hsender.elim
  | fullCredits => exact hsender.elim
  | fillCredits => exact hsender.elim

/-- In every run of the sender's operations, with credits that come back in the
order of the flits: at most one probe is outstanding on a virtual channel, the
credits before its own are counted, the mapped size is that of the limits, and
`FreeSlotFor` takes a round trip exactly if the credit is that of the probe, from
the sending of the probe to now. -/
theorem probes_measured {setup : BufferConfig vcs} (L : SharedLayout vcs)
    (hsize : L.bufSize = setup.size) (config : FeedbackConfig)
    (hrun : Observes (new setup (.sharedBuffer L hsize (.simpleFeedback config))) link
      outstanding) :
    ∃ shared p, link.buffer.policy = .sharedBuffer L shared (.simpleFeedback config p) ∧
      (∀ vc, ((outstanding vc).filter (·.probe)).length ≤ 1) ∧
      (∀ vc, p.pendingCredits vc = creditsBeforeProbe (outstanding vc)) ∧
      p.totalMappedSize = ∑ vc, p.occupancyLimit vc ∧
      (∀ time vc, 0 < link.buffer.vcOccupancy vc → ∃ f rest, outstanding vc = f :: rest ∧
        p.sample time vc = if f.probe then some (time - f.time) else none) ∧
      ∀ time credits next, link.Guarded (.processCredit time credits) →
        link.step (.processCredit time credits) = .ok next →
        ∃ shared' p', next.buffer.policy = .sharedBuffer L shared' (.simpleFeedback config p') ∧
          p'.roundTripTime = fun vc =>
            if vc ∈ credits then p.measured config time vc else p.roundTripTime vc := by
  obtain ⟨p, h⟩ : ∃ p, Records link.buffer L config p outstanding := by
    induction hrun with
    | refl =>
        exact ⟨.new L.bufSize, ⟨.new L, rfl⟩, fun _ => rfl, probes_new L.bufSize⟩
    | step op _ hsender hguard hstep ih =>
        obtain ⟨p, h⟩ := ih
        exact h.step hsender hguard hstep
  obtain ⟨shared, hpolicy⟩ := h.policy
  refine ⟨shared, p, hpolicy, ?_, h.probes.pending, h.probes.mapped, ?_, ?_⟩
  · intro vc
    have hone := h.probes.one vc
    rw [probeTimes, List.length_map] at hone
    exact hone
  · intro time vc hocc
    rw [h.counted vc] at hocc
    obtain ⟨f, rest, hcons⟩ :=
      List.exists_cons_of_ne_nil (List.length_pos_iff.mp (Int.natCast_pos.mp hocc))
    exact ⟨f, rest, hcons, h.probes.sample_eq hcons time⟩
  · intro time credits next hguard hstep
    obtain ⟨p', hp', htimes⟩ := h.processCredit hguard.1 (step_ok.mp hstep).1
    obtain ⟨shared', hpolicy'⟩ := hp'.policy
    exact ⟨shared', p', hpolicy', htimes⟩

/-- The settings of a policy whose output channel takes two cycles. -/
def twoCycles : FeedbackConfig where
  agingScale := 0
  offset := 0
  minLatency := 2
  minLatency_nonneg := by decide

/-- A probe and another flit are sent on the first of two virtual channels. -/
theorem probes_measured_twoShared :
    ∃ (link : CreditLink 2) (outstanding : Fin 2 → List SentFlit)
        (shared : SharedBufferPolicy twoSharedLayout) (p : SimpleFeedbackSharedBufferPolicy 2),
      outstanding 0 = [⟨1, true⟩, ⟨2, false⟩] ∧
      link.buffer.policy = .sharedBuffer twoSharedLayout shared (.simpleFeedback twoCycles p) ∧
      (∀ vc, ((outstanding vc).filter (·.probe)).length ≤ 1) ∧
      (∀ vc, p.pendingCredits vc = creditsBeforeProbe (outstanding vc)) ∧
      p.totalMappedSize = ∑ vc, p.occupancyLimit vc := by
  have htake : Observes
      (new twoShared (.sharedBuffer twoSharedLayout rfl (.simpleFeedback twoCycles))) _ _ :=
    .step (.takeBuffer 0 0) .refl trivial rfl rfl
  have hhead := Observes.step (.sendingFlit 1 0 false) htake trivial ⟨nofun, rfl⟩ rfl
  have htail := Observes.step (.sendingFlit 2 0 true) hhead trivial ⟨nofun, rfl⟩ rfl
  obtain ⟨shared, p, hpolicy, hone, hpending, hmapped, -⟩ :=
    probes_measured twoSharedLayout rfl twoCycles htail
  exact ⟨_, _, shared, p, rfl, hpolicy, hone, hpending, hmapped⟩

end CreditLink

end Flyover
