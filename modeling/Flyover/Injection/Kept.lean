import Flyover.Buffer.InUse
import Flyover.Injection.Selection
import Mathlib.Data.List.Basic

/-!
# Virtual channels that are kept

A head flit to which the loop over the classes has given a virtual channel, and which is
not sent, keeps it. As long as no other flit is sent that takes it, it stays available.
-/

namespace Flyover.Injection

variable {subnets classes vcs : Nat}

/-! ### The order of the flits in a queue -/

/-- The flits that `_GeneratePacket` appends to the queue of the class. -/
def generatePacket (size pid : Nat) (pri : Int) (subnetwork : Fin subnets) :
    List (Flit subnets vcs) :=
  (List.range size).map fun i =>
    { pid := pid
      head := i = 0
      tail := i = size - 1
      pri := pri
      subnetwork := subnetwork
      vc := none }

/-- After a flit that is not a tail comes one that is not a head. -/
def InOrder : List (Flit subnets vcs) → Prop
  | [] => True
  | f :: rest => (f.tail = false → ∃ g ∈ rest.head?, g.head = false) ∧ InOrder rest

namespace InOrder

variable {queue : List (Flit subnets vcs)}

theorem append {queue' : List (Flit subnets vcs)} (h : InOrder queue) (h' : InOrder queue') :
    InOrder (queue ++ queue') := by
  induction queue with
  | nil => exact h'
  | cons f rest ih =>
      refine ⟨?_, ih h.2⟩
      intro htail
      obtain ⟨g, hg, hbody⟩ := h.1 htail
      refine ⟨g, ?_, hbody⟩
      show (rest ++ queue').head? = some g
      rw [List.head?_append, Option.mem_def.mp hg, Option.some_or]

theorem tail (h : InOrder queue) : InOrder queue.tail := by
  cases queue with
  | nil => exact h
  | cons f rest => exact h.2

/-- Only the marks of the first flit matter. -/
theorem cons_congr {f g : Flit subnets vcs} (h : InOrder (f :: queue)) (hmark : g.tail = f.tail) :
    InOrder (g :: queue) :=
  ⟨fun htail => h.1 (hmark ▸ htail), h.2⟩

/-- The induction is on the number of flits from the `i`-th on. -/
theorem map_range' {size : Nat} {flit : Nat → Flit subnets vcs} (n : Nat) :
    ∀ i, i + n = size → (∀ i, (flit i).head = decide (i = 0)) →
      (∀ i, (flit i).tail = decide (i = size - 1)) → InOrder ((List.range' i n).map flit) := by
  induction n with
  | zero => exact fun _ _ _ _ => trivial
  | succ n ih =>
      intro i hi hhead htail
      refine ⟨?_, ih (i + 1) (by omega) hhead htail⟩
      intro hbody
      rw [htail, decide_eq_false_iff_not] at hbody
      cases n with
      | zero => omega
      | succ n => exact ⟨flit (i + 1), rfl, by simp [hhead]⟩

theorem generatePacket (size pid : Nat) (pri : Int) (subnetwork : Fin subnets) :
    InOrder (generatePacket size pid pri subnetwork : List (Flit subnets vcs)) := by
  unfold Injection.generatePacket
  rw [List.range_eq_range']
  exact map_range' size 0 (Nat.zero_add size) (fun _ => rfl) fun _ => rfl

end InOrder

theorem vc_of_mem_generatePacket {size pid : Nat} {pri : Int} {subnetwork : Fin subnets}
    {f : Flit subnets vcs} (h : f ∈ generatePacket size pid pri subnetwork) : f.vc = none := by
  obtain ⟨i, -, rfl⟩ := List.mem_map.mp h
  rfl

/-! ### The invariant -/

namespace Interface

variable (s : Interface subnets classes vcs)

/-- What a waiting head flit keeps is available, and only the first of a class keeps any. -/
structure KeptAvailable : Prop where
  inOrder : ∀ c, InOrder (s.partialPackets c)
  fresh : ∀ c, ∀ f ∈ (s.partialPackets c).tail, f.head = true → f.vc = none
  available : ∀ c f vc, (s.partialPackets c).head? = some f → f.head = true → f.vc = some vc →
    (s.bufStates f.subnetwork).isAvailableFor vc = true

variable (cfg : Config) (inputs : Inputs subnets vcs) (subnet : Fin subnets)

/-- The loop over the classes gets to look at the flit of the class. -/
def Considered (held : Option (Fin classes)) (c : Fin classes) : Prop :=
  ∃ before after, s.contenders subnet held = before ++ c :: after ∧
    Scan.Overtakes (s.contends inputs subnet false held) s.priority before c

/-- After the loop over the classes the head flit of the class has the virtual channel: it
has kept it, or has been given it. -/
def HoldsOn (held : Option (Fin classes)) (c : Fin classes) (vc : Fin vcs) : Prop :=
  ∃ g, s.waiting subnet c = some g ∧ g.head = true ∧
    (g.vc = some vc ∨
      s.Considered inputs subnet held c ∧ (s.offered inputs subnet c g).vc = some vc)

/-- Where the head flit of a class is the one to go, that of no other class has its virtual
channel. -/
def KeepsApart : Prop :=
  ∀ held c f vc, s.held cfg inputs subnet = .ok held →
    s.Foremost inputs subnet false held c → (s.partialPackets c).head? = some f →
    f.head = true → (s.offered inputs subnet c f).vc = some vc →
    ∀ d, d ≠ c → ¬ s.HoldsOn inputs subnet held d vc

variable {s cfg inputs subnet}

/-- A queue changes only if its flit is looked at and can go. -/
theorem Follows.run_queue {l : ClassLoop subnets classes vcs} {order seen : List (Fin classes)}
    {held : Option (Fin classes)} (h : s.Follows inputs subnet l order) (hnodup : order.Nodup)
    (hbest : l.f = Scan.best (s.contends inputs subnet false held) s.priority seen)
    (hsplit : s.contenders subnet held = seen ++ order)
    (hcontends : ∀ c ∈ order, s.contends inputs subnet false held c = s.canGo inputs subnet false c)
    (d : Fin classes) :
    (l.run (s.bufStates subnet) inputs subnet (s.lastVC subnet) false order).partialPackets d =
        l.partialPackets d ∨
      ∃ g, s.waiting subnet d = some g ∧ s.Considered inputs subnet held d ∧
        (l.run (s.bufStates subnet) inputs subnet (s.lastVC subnet) false order).partialPackets d =
          s.offered inputs subnet d g :: (s.partialPackets d).tail := by
  induction order generalizing l seen with
  | nil => exact .inl rfl
  | cons c order ih =>
      obtain ⟨hnot, hnodup⟩ := List.nodup_cons.mp hnodup
      have hrest : ∀ d ∈ order,
          s.contends inputs subnet false held d = s.canGo inputs subnet false d :=
        fun d hd => hcontends d (List.mem_cons_of_mem _ hd)
      have hc := hcontends c List.mem_cons_self
      have hsplit' : s.contenders subnet held = (seen ++ [c]) ++ order := by
        rw [hsplit, List.append_cons]
      -- a class that cannot go makes no difference to the scan
      have hskip : s.contends inputs subnet false held c = false →
          l.f = Scan.best (s.contends inputs subnet false held) s.priority (seen ++ [c]) := by
        intro hcannot
        rw [Scan.best_append_singleton, Scan.improve, hcannot, Bool.false_and]
        exact hbest
      rw [ClassLoop.run, h.candidate_eq]
      by_cases hbetter : (l.f.all fun d => decide (s.priority d < s.priority c)) = true
      · have hovertakes := Scan.all_best_iff.mp (hbest ▸ hbetter)
        rw [if_pos hbetter]
        cases hwaiting : s.waiting subnet c with
        | none =>
            have hcannot : s.contends inputs subnet false held c = false := by
              simp [hc, canGo, hwaiting]
            exact ih h.tail hnodup (hskip hcannot) hsplit' hrest
        | some cf =>
            have hcanGo : s.contends inputs subnet false held c =
                ClassLoop.ready (s.bufStates subnet) inputs.time (s.offered inputs subnet c cf) := by
              simp [hc, canGo, halts, hwaiting]
            dsimp only
            rw [Bool.false_and, if_neg Bool.false_ne_true]
            by_cases hready : ClassLoop.ready (s.bufStates subnet) inputs.time
                (s.offered inputs subnet c cf) = true
            · obtain ⟨hf, hfollows⟩ := h.consider hnot hwaiting hready
              have hbest' : (l.consider (s.bufStates subnet) inputs (s.lastVC subnet c) c cf).f =
                  Scan.best (s.contends inputs subnet false held) s.priority (seen ++ [c]) := by
                rw [hf, Scan.best_append_singleton, Scan.improve, hcanGo, hready, Bool.true_and,
                  ← hbest, if_pos hbetter]
              obtain hsame | hchanged := ih hfollows hnodup hbest' hsplit' hrest
              · by_cases hdc : d = c
                · subst hdc
                  refine .inr ⟨cf, hwaiting, ⟨seen, order, hsplit, hovertakes⟩, ?_⟩
                  rw [hsame, ClassLoop.consider]
                  dsimp only
                  rw [Function.update_self, h.unseen d List.mem_cons_self]
                  rfl
                · refine .inl (hsame.trans ?_)
                  exact Function.update_of_ne hdc _ _
              · exact .inr hchanged
            · rw [h.consider_of_not_ready hwaiting hready]
              have hcannot : s.contends inputs subnet false held c = false := by
                rw [hcanGo, Bool.eq_false_of_not_eq_true hready]
              exact ih h.tail hnodup (hskip hcannot) hsplit' hrest
      · have hbest' : l.f =
            Scan.best (s.contends inputs subnet false held) s.priority (seen ++ [c]) := by
          rw [Scan.best_append_singleton, Scan.improve, ← hbest,
            Bool.eq_false_of_not_eq_true hbetter, Bool.and_false]
          rfl
        rw [if_neg hbetter]
        exact ih h.tail hnodup hbest' hsplit' hrest

/-- What the loop over the classes leaves of a queue. -/
theorem run_classes_queue {held : Option (Fin classes)} (h : s.held cfg inputs subnet = .ok held)
    (d : Fin classes) :
    (ClassLoop.run (s.bufStates subnet) inputs subnet (s.lastVC subnet) false
        ⟨s.partialPackets, held⟩ (classOrder (s.lastClass subnet) held)).partialPackets d =
        s.partialPackets d ∨
      ∃ g, s.waiting subnet d = some g ∧ s.Considered inputs subnet held d ∧
        (ClassLoop.run (s.bufStates subnet) inputs subnet (s.lastVC subnet) false
          ⟨s.partialPackets, held⟩ (classOrder (s.lastClass subnet) held)).partialPackets d =
          s.offered inputs subnet d g :: (s.partialPackets d).tail := by
  have hbest : held =
      Scan.best (s.contends inputs subnet false held) s.priority held.toList := by
    cases held with
    | none => rfl
    | some c => simp [Scan.best, Scan.improve, contends]
  exact (follows_start h _).run_queue (nodup_classOrder _ _) hbest rfl (contends_classOrder false h) d

/-- The loop over the classes gives out available virtual channels only. -/
theorem KeptAvailable.afterLoop {l : ClassLoop subnets classes vcs} {held : Option (Fin classes)}
    (h : s.KeptAvailable) (hheld : s.held cfg inputs subnet = .ok held)
    (hl : l = ClassLoop.run (s.bufStates subnet) inputs subnet (s.lastVC subnet) false
      ⟨s.partialPackets, held⟩ (classOrder (s.lastClass subnet) held)) :
    ({ s with partialPackets := l.partialPackets } : Interface subnets classes vcs).KeptAvailable := by
  have hqueue := fun d => run_classes_queue hheld d
  rw [← hl] at hqueue
  have hwaiting : ∀ {d g}, s.waiting subnet d = some g →
      s.partialPackets d = g :: (s.partialPackets d).tail ∧ g.subnetwork = subnet := by
    intro d g hg
    obtain ⟨hhead, hsubnet⟩ := Option.filter_eq_some_iff.mp hg
    exact ⟨List.eq_cons_of_mem_head? hhead, of_decide_eq_true hsubnet⟩
  constructor
  · intro d
    dsimp only
    obtain hsame | ⟨g, hg, -, hchanged⟩ := hqueue d
    · rw [hsame]
      exact h.inOrder d
    · have horder := h.inOrder d
      rw [(hwaiting hg).1] at horder
      rw [hchanged]
      exact horder.cons_congr ClassLoop.assignVC_tail
  · intro d
    dsimp only
    obtain hsame | ⟨g, hg, -, hchanged⟩ := hqueue d
    · rw [hsame]
      exact h.fresh d
    · rw [hchanged]
      exact h.fresh d
  · intro d f vc hf hhead hvc
    dsimp only at hf ⊢
    obtain hsame | ⟨g, hg, -, hchanged⟩ := hqueue d
    · rw [hsame] at hf
      exact h.available d f vc hf hhead hvc
    · obtain ⟨hfront, hsubnet⟩ := hwaiting hg
      rw [hchanged, List.head?_cons, Option.some.injEq] at hf
      subst hf
      rw [offered, ClassLoop.assignVC_subnetwork]
      rw [offered, ClassLoop.assignVC_head] at hhead
      obtain hkept | hfound := ClassLoop.vc_assignVC hvc
      · refine h.available d g vc ?_ hhead hkept
        rw [hfront, List.head?_cons]
      · rw [hsubnet]
        rw [BufferState.takes, Bool.and_eq_true] at hfound
        exact hfound.1

/-- What a class has after the loop. -/
theorem holdsOn_of_afterLoop {l : ClassLoop subnets classes vcs} {held : Option (Fin classes)}
    (hheld : s.held cfg inputs subnet = .ok held)
    (hl : l = ClassLoop.run (s.bufStates subnet) inputs subnet (s.lastVC subnet) false
      ⟨s.partialPackets, held⟩ (classOrder (s.lastClass subnet) held))
    {d : Fin classes} {g : Flit subnets vcs} {vc : Fin vcs}
    (hg : (l.partialPackets d).head? = some g) (hsubnet : g.subnetwork = subnet)
    (hhead : g.head = true) (hvc : g.vc = some vc) : s.HoldsOn inputs subnet held d vc := by
  have hqueue := run_classes_queue hheld d
  rw [← hl] at hqueue
  obtain hsame | ⟨g', hg', hconsidered, hchanged⟩ := hqueue
  · rw [hsame] at hg
    refine ⟨g, ?_, hhead, .inl hvc⟩
    exact Option.filter_eq_some_iff.mpr ⟨hg, decide_eq_true hsubnet⟩
  · rw [hchanged, List.head?_cons, Option.some.injEq] at hg
    subst hg
    rw [offered, ClassLoop.assignVC_head] at hhead
    exact ⟨g', hg', hhead, .inr ⟨hconsidered, hvc⟩⟩

/-! ### Sending -/

/-- Only the virtual channel that a head flit takes becomes unavailable. -/
theorem isAvailableFor_sendingFlit {f : Flit subnets vcs} {vc v : Fin vcs} {buf : BufferState vcs}
    (h : s.sendingFlit inputs subnet f vc = .ok buf) (hne : f.head = true → v ≠ vc)
    (havailable : (s.bufStates subnet).isAvailableFor v = true) : buf.isAvailableFor v = true := by
  obtain ⟨taken, htake, hsend⟩ := bind_ok.mp h
  refine BufferState.isAvailableFor_sendingFlit hsend ?_
  unfold takeBuffer at htake
  split at htake
  next hhead => rw [BufferState.isAvailableFor_takeBuffer htake (hne hhead), havailable]
  next =>
    cases htake
    exact havailable

theorem sendingFlit_notInUse {f : Flit subnets vcs} {vc : Fin vcs}
    (h : f.head = true → (s.bufStates subnet).isAvailableFor vc = true) :
    NotInUse (s.sendingFlit inputs subnet f vc) := by
  refine Avoids.bind ?_ fun buf _ => BufferState.sendingFlit_notInUse
  unfold takeBuffer
  split
  next hhead => exact BufferState.takeBuffer_notInUse (h hhead)
  next => exact .ok _

/-- What is sent, and the buffer state after that. -/
theorem send_eq_ok {c : Fin classes} {s' : Interface subnets classes vcs} {sent : Flit subnets vcs}
    (h : s.send cfg inputs subnet c = .ok (s', sent)) :
    ∃ f rest vc buf, s.partialPackets c = f :: rest ∧ f.vc = some vc ∧
      s.sendingFlit inputs subnet f vc = .ok buf ∧
      s'.partialPackets = Function.update s.partialPackets c (passBack f rest) ∧
      s'.bufStates = Function.update s.bufStates subnet buf := by
  unfold send at h
  cases hqueue : s.partialPackets c with
  | nil =>
      rw [hqueue] at h
      cases h
  | cons f rest =>
      rw [hqueue] at h
      dsimp only at h
      cases hvc : f.vc with
      | none =>
          rw [hvc] at h
          cases h
      | some vc =>
          rw [hvc] at h
          dsimp only at h
          cases hsending : s.sendingFlit inputs subnet f vc with
          | error e =>
              rw [hsending] at h
              cases h
          | ok buf =>
              rw [hsending] at h
              cases h
              exact ⟨f, rest, vc, buf, rfl, hvc, hsending, rfl, rfl⟩

theorem InOrder.passBack {f : Flit subnets vcs} {rest : List (Flit subnets vcs)}
    (h : InOrder (f :: rest)) : InOrder (Interface.passBack f rest) := by
  cases rest with
  | nil => trivial
  | cons g rest =>
      rw [Interface.passBack]
      split
      · exact h.2
      · exact h.2.cons_congr rfl

theorem tail_passBack {f : Flit subnets vcs} {rest : List (Flit subnets vcs)} :
    (passBack f rest).tail = rest.tail := by
  cases rest with
  | nil => rfl
  | cons g rest =>
      rw [passBack]
      split <;> rfl

theorem length_passBack {f : Flit subnets vcs} {rest : List (Flit subnets vcs)} :
    (passBack f rest).length = rest.length := by
  cases rest with
  | nil => rfl
  | cons g rest =>
      rw [passBack]
      split <;> rfl

/-- A head flit at the front of what remains has no virtual channel. -/
theorem vc_of_passBack {f g : Flit subnets vcs} {rest : List (Flit subnets vcs)}
    (h : InOrder (f :: rest)) (hfresh : ∀ g ∈ rest, g.head = true → g.vc = none)
    (hg : (passBack f rest).head? = some g) (hhead : g.head = true) : g.vc = none := by
  cases rest with
  | nil => cases hg
  | cons g' rest =>
      rw [passBack] at hg
      split at hg
      next =>
        cases hg
        exact hfresh g List.mem_cons_self hhead
      next htail =>
        cases hg
        obtain ⟨g'', hg'', hbody⟩ := h.1 (Bool.eq_false_of_not_eq_true htail)
        cases hg''
        rw [hbody] at hhead
        cases hhead

theorem KeptAvailable.send_notInUse {c : Fin classes} (h : s.KeptAvailable)
    (hsubnet : ∀ f, (s.partialPackets c).head? = some f → f.subnetwork = subnet) :
    Avoids (.buffer .takenWhileInUse) (s.send cfg inputs subnet c) := by
  intro hsend
  unfold send at hsend
  cases hqueue : s.partialPackets c with
  | nil =>
      rw [hqueue] at hsend
      cases hsend
  | cons f rest =>
      have hf : (s.partialPackets c).head? = some f := by rw [hqueue, List.head?_cons]
      rw [hqueue] at hsend
      dsimp only at hsend
      cases hvc : f.vc with
      | none =>
          rw [hvc] at hsend
          cases hsend
      | some vc =>
          rw [hvc] at hsend
          dsimp only at hsend
          cases hsending : s.sendingFlit inputs subnet f vc with
          | error e =>
              rw [hsending] at hsend
              cases hsend
              refine sendingFlit_notInUse ?_ hsending
              intro hhead
              rw [← hsubnet f hf]
              exact h.available c f vc hf hhead hvc
          | ok buf =>
              rw [hsending] at hsend
              cases hsend

/-- A flit is sent, and some queues lose their first flit. No head flit behind a first one
has a virtual channel, so only those of the queues that stay matter. -/
theorem KeptAvailable.of_sending {s' : Interface subnets classes vcs} {f : Flit subnets vcs}
    {vc : Fin vcs} {buf : BufferState vcs} (h : s.KeptAvailable)
    (hsending : s.sendingFlit inputs subnet f vc = .ok buf)
    (hbufs : s'.bufStates = Function.update s.bufStates subnet buf)
    (hqueues : ∀ d, s'.partialPackets d = s.partialPackets d ∨
      InOrder (s'.partialPackets d) ∧
        (∀ g ∈ (s'.partialPackets d).tail, g.head = true → g.vc = none) ∧
        ∀ g, (s'.partialPackets d).head? = some g → g.head = true → g.vc = none)
    (hapart : f.head = true → ∀ d g, s'.partialPackets d = s.partialPackets d →
      (s.partialPackets d).head? = some g → g.head = true → g.subnetwork = subnet →
        g.vc ≠ some vc) : s'.KeptAvailable := by
  constructor
  · intro d
    obtain hsame | ⟨horder, -, -⟩ := hqueues d
    · rw [hsame]
      exact h.inOrder d
    · exact horder
  · intro d
    obtain hsame | ⟨-, hfresh, -⟩ := hqueues d
    · rw [hsame]
      exact h.fresh d
    · exact hfresh
  · intro d g v hg hhead hv
    obtain hsame | ⟨-, -, hnone⟩ := hqueues d
    · rw [hsame] at hg
      have havailable := h.available d g v hg hhead hv
      rw [hbufs]
      by_cases hsubnet : g.subnetwork = subnet
      · rw [hsubnet] at havailable ⊢
        rw [Function.update_self]
        refine isAvailableFor_sendingFlit hsending ?_ havailable
        rintro hfhead rfl
        exact hapart hfhead d g hsame hg hhead hsubnet hv
      · rw [Function.update_of_ne hsubnet]
        exact havailable
    · rw [hnone g hg hhead] at hv
      cases hv

/-- What remains of a queue when its first flit has been sent. -/
theorem KeptAvailable.passBack {c : Fin classes} {f : Flit subnets vcs}
    {rest : List (Flit subnets vcs)} (h : s.KeptAvailable) (hqueue : s.partialPackets c = f :: rest) :
    InOrder (passBack f rest) ∧ (∀ g ∈ (Interface.passBack f rest).tail, g.head = true → g.vc = none) ∧
      ∀ g, (Interface.passBack f rest).head? = some g → g.head = true → g.vc = none := by
  have horder : InOrder (f :: rest) := hqueue ▸ h.inOrder c
  have hfresh : ∀ g ∈ rest, g.head = true → g.vc = none := by
    have := h.fresh c
    rw [hqueue] at this
    exact this
  refine ⟨InOrder.passBack horder, ?_, fun g hg hhead => vc_of_passBack horder hfresh hg hhead⟩
  intro g hg
  rw [tail_passBack] at hg
  exact hfresh g (List.mem_of_mem_tail hg)

/-- Sending takes no virtual channel that another class has kept. -/
theorem KeptAvailable.send {c : Fin classes} {s' : Interface subnets classes vcs}
    {sent : Flit subnets vcs} (h : s.KeptAvailable)
    (hsend : s.send cfg inputs subnet c = .ok (s', sent))
    (hapart : ∀ f vc, (s.partialPackets c).head? = some f → f.head = true → f.vc = some vc →
      ∀ d g, d ≠ c → (s.partialPackets d).head? = some g → g.head = true →
        g.subnetwork = subnet → g.vc ≠ some vc) : s'.KeptAvailable := by
  obtain ⟨f, rest, vc, buf, hqueue, hvc, hsending, hqueues, hbufs⟩ := send_eq_ok hsend
  have hf : (s.partialPackets c).head? = some f := by rw [hqueue, List.head?_cons]
  have hlength : Interface.passBack f rest ≠ s.partialPackets c := by
    intro heq
    have := congrArg List.length heq
    rw [length_passBack, hqueue, List.length_cons] at this
    omega
  refine h.of_sending hsending hbufs ?_ ?_
  · intro d
    rw [hqueues]
    by_cases hdc : d = c
    · subst hdc
      rw [Function.update_self]
      exact .inr (h.passBack hqueue)
    · exact .inl (Function.update_of_ne hdc _ _)
  · intro hhead d g hsame
    refine hapart f vc hf hhead hvc d g ?_
    rintro rfl
    rw [hqueues, Function.update_self] at hsame
    exact hlength hsame

/-! ### What happens between the turns -/

/-- A packet is generated. -/
theorem KeptAvailable.packet (h : s.KeptAvailable) (c : Fin classes) (size pid : Nat) (pri : Int)
    (subnetwork : Fin subnets) :
    ({ s with
        partialPackets :=
          Function.update s.partialPackets c
            (s.partialPackets c ++ generatePacket size pid pri subnetwork) } :
      Interface subnets classes vcs).KeptAvailable := by
  have hnew : ∀ f ∈ (generatePacket size pid pri subnetwork : List (Flit subnets vcs)),
      f.vc = none := fun f hf => vc_of_mem_generatePacket hf
  constructor
  · intro d
    dsimp only
    by_cases hdc : d = c
    · subst hdc
      rw [Function.update_self]
      exact (h.inOrder d).append (InOrder.generatePacket _ _ _ _)
    · rw [Function.update_of_ne hdc]
      exact h.inOrder d
  · intro d
    dsimp only
    by_cases hdc : d = c
    · subst hdc
      rw [Function.update_self]
      intro f hf hhead
      have hfresh := h.fresh d f
      cases hqueue : s.partialPackets d with
      | nil =>
          rw [hqueue] at hf
          exact hnew f (List.mem_of_mem_tail hf)
      | cons g rest =>
          rw [hqueue] at hf hfresh
          obtain hf | hf := List.mem_append.mp hf
          · exact hfresh hf hhead
          · exact hnew f hf
    · rw [Function.update_of_ne hdc]
      exact h.fresh d
  · intro d f vc hf hhead hvc
    dsimp only at hf ⊢
    by_cases hdc : d = c
    · subst hdc
      rw [Function.update_self, List.head?_append] at hf
      cases hfront : (s.partialPackets d).head? with
      | none =>
          rw [hfront, Option.none_or] at hf
          rw [hnew f (List.mem_of_mem_head? hf)] at hvc
          cases hvc
      | some g =>
          rw [hfront, Option.some_or] at hf
          cases hf
          exact h.available d f vc hfront hhead hvc
    · rw [Function.update_of_ne hdc] at hf
      exact h.available d f vc hf hhead hvc

/-- Credits arrive. -/
theorem KeptAvailable.credit (h : s.KeptAvailable) {buf : BufferState vcs} {time : Int}
    {credits : List (Fin vcs)}
    (hbuf : (s.bufStates subnet).processCredit time credits = .ok buf) :
    ({ s with bufStates := Function.update s.bufStates subnet buf } :
      Interface subnets classes vcs).KeptAvailable where
  inOrder := h.inOrder
  fresh := h.fresh
  available := by
    intro d f vc hf hhead hvc
    have havailable := h.available d f vc hf hhead hvc
    dsimp only
    by_cases hsubnet : f.subnetwork = subnet
    · rw [hsubnet] at havailable ⊢
      rw [Function.update_self]
      exact BufferState.isAvailableFor_processCredit hbuf havailable
    · rw [Function.update_of_ne hsubnet]
      exact havailable

theorem held_avoids {e : BufferError} : Avoids (.buffer e) (s.held cfg inputs subnet) := by
  have hheld : Error.heldVC ≠ .buffer e := fun h => nomatch h
  unfold held
  dsimp only
  split
  · exact .ok _
  · split
    · split
      · exact .error hheld
      · split
        · exact .ok _
        · split
          · exact .ok _
          · exact .error hheld
    · exact .ok _

end Interface

end Flyover.Injection
