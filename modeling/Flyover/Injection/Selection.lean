import Flyover.Injection.Interface
import Flyover.Matching.StoppedScan
import Mathlib.Data.Nat.ModEq

/-!
# The flit that the class loop selects

The loop over the classes is a scan, of the class that holds the switch and then of the
others in turn. The candidates are the classes whose first flit can go, and the scan is
stopped by a flit for which no virtual channel is to be looked for.
-/

namespace Flyover.Injection

variable {subnets classes vcs : Nat}

/-! ### The order of the classes -/

theorem classAt_inj {last : Fin classes} {i j : Nat} (h : classAt last i = classAt last j)
    (hi : i < classes) (hj : j < classes) : i = j := by
  have hmod : Nat.ModEq classes (last.val + i) (last.val + j) := congrArg Fin.val h
  exact Nat.ModEq.eq_of_lt_of_lt (Nat.ModEq.add_left_cancel' _ hmod) hi hj

theorem classAt_zero (last : Fin classes) : classAt last 0 = last :=
  Fin.ext (Nat.mod_eq_of_lt last.isLt)

/-- The class that holds the switch is not in the order. -/
theorem not_mem_classOrder (last : Fin classes) : last ∉ classOrder last (some last) := by
  intro h
  obtain ⟨i, hi, heq⟩ := List.mem_map.mp h
  have hlt : i + 1 < classes := by
    have := List.mem_range.mp hi
    simp only [Option.isSome_some, if_true] at this
    omega
  have heq := classAt_inj (heq.trans (classAt_zero last).symm) hlt last.pos
  exact absurd heq (Nat.succ_ne_zero i)

theorem nodup_classOrder (last : Fin classes) (held : Option (Fin classes)) :
    (classOrder last held).Nodup := by
  refine List.Nodup.map_on ?_ List.nodup_range
  intro i hi j hj heq
  have hlimit : (if held.isSome then classes - 1 else classes) ≤ classes := by
    split <;> omega
  have hi := (List.mem_range.mp hi).trans_le hlimit
  have hj := (List.mem_range.mp hj).trans_le hlimit
  have hmod : Nat.ModEq classes (last.val + (i + 1)) (last.val + (j + 1)) := congrArg Fin.val heq
  rw [← Nat.add_assoc, ← Nat.add_assoc] at hmod
  have hcancel : Nat.ModEq classes (last.val + i) (last.val + j) := Nat.ModEq.add_right_cancel' 1 hmod
  exact Nat.ModEq.eq_of_lt_of_lt (Nat.ModEq.add_left_cancel' _ hcancel) hi hj

/-! ### Assigning a virtual channel -/

namespace ClassLoop

variable {buf : BufferState vcs} {inputs : Inputs subnets vcs} {lastVC : Option (Fin vcs)}
  {cf : Flit subnets vcs}

theorem takes_of_findVC {s : BufferState vcs} {time : Int} {r : InjectRange vcs} {vc : Fin vcs}
    (h : s.findVC time r lastVC = some vc) : s.takes time vc = true := by
  obtain ⟨i, -, -, htakes, -⟩ := BufferState.findVC_eq_some h
  exact htakes

@[simp] theorem assignVC_pri : (assignVC buf inputs lastVC cf).pri = cf.pri := by
  unfold assignVC
  split <;> rfl

@[simp] theorem assignVC_head : (assignVC buf inputs lastVC cf).head = cf.head := by
  unfold assignVC
  split <;> rfl

@[simp] theorem assignVC_subnetwork :
    (assignVC buf inputs lastVC cf).subnetwork = cf.subnetwork := by
  unfold assignVC
  split <;> rfl

@[simp] theorem assignVC_tail : (assignVC buf inputs lastVC cf).tail = cf.tail := by
  unfold assignVC
  split <;> rfl

/-- A virtual channel that the flit has after the search was there before, or can be taken. -/
theorem vc_assignVC {vc : Fin vcs} (h : (assignVC buf inputs lastVC cf).vc = some vc) :
    cf.vc = some vc ∨ buf.takes inputs.time vc = true := by
  unfold assignVC at h
  split at h
  · exact .inr (takes_of_findVC h)
  · exact .inl h

theorem assignVC_of_head (h : cf.head = false) : assignVC buf inputs lastVC cf = cf := by
  unfold assignVC
  rw [if_neg]
  simp [Flit.needsVC, h]

/-- A flit that is not ready has not been assigned a virtual channel. -/
theorem assignVC_of_not_ready (h : ready buf inputs.time (assignVC buf inputs lastVC cf) ≠ true) :
    assignVC buf inputs lastVC cf = cf := by
  unfold assignVC at h ⊢
  by_cases hneeds : cf.needsVC = true
  · rw [if_pos hneeds] at h ⊢
    cases hfind : buf.findVC inputs.time (inputs.range cf) lastVC with
    | none =>
        have hvc : cf.vc = none := by
          simpa using (Bool.and_eq_true_iff.mp hneeds).2
        rw [← hvc]
    | some vc =>
        rw [hfind] at h
        have htakes := takes_of_findVC hfind
        rw [BufferState.takes, Bool.and_eq_true] at htakes
        exact absurd htakes.2 h
  · rw [if_neg hneeds]

variable (subnet : Fin subnets) (buf inputs) (lastVC : Fin classes → Option (Fin vcs))
  (blocked : Bool)

/-- The loop over the classes; if `blocked`, a head flit that needs a virtual channel
ends it. -/
def run : ClassLoop subnets classes vcs → List (Fin classes) → ClassLoop subnets classes vcs
  | l, [] => l
  | l, c :: rest =>
      match l.candidate subnet c with
      | none => run l rest
      | some cf =>
          if blocked && cf.needsVC then l
          else run (l.consider buf inputs (lastVC c) c cf) rest

end ClassLoop

/-! ### What a class has to offer -/

namespace Interface

variable (s : Interface subnets classes vcs) (cfg : Config) (inputs : Inputs subnets vcs)
  (subnet : Fin subnets) (blocked : Bool)

/-- The first flit of the class, if it is for the subnetwork. -/
def waiting (c : Fin classes) : Option (Flit subnets vcs) :=
  (s.partialPackets c).head?.filter fun cf => cf.subnetwork = subnet

/-- The first flit of the class, with a virtual channel if there is one for it. -/
def offered (c : Fin classes) (cf : Flit subnets vcs) : Flit subnets vcs :=
  ClassLoop.assignVC (s.bufStates subnet) inputs (s.lastVC subnet c) cf

/-- No virtual channel is looked for. -/
def halts (c : Fin classes) : Bool := blocked && (s.waiting subnet c).any Flit.needsVC

/-- The flit has or finds a virtual channel that is not full. -/
def canGo (c : Fin classes) : Bool :=
  !s.halts subnet blocked c &&
    (s.waiting subnet c).any fun cf =>
      ClassLoop.ready (s.bufStates subnet) inputs.time (s.offered inputs subnet c cf)

def priority (c : Fin classes) : Int := (s.partialPackets c).head?.elim 0 Flit.pri

/-- The class that holds the switch, and the others. -/
def contenders (held : Option (Fin classes)) : List (Fin classes) :=
  held.toList ++ classOrder (s.lastClass subnet) held

/-- The flit that holds the switch need not be for the subnetwork. -/
def contends (held : Option (Fin classes)) (c : Fin classes) : Bool :=
  held = some c || s.canGo inputs subnet blocked c

/-- Of the classes before the first that ends the loop, the class is the first of highest
priority whose flit can go. -/
def Foremost (held : Option (Fin classes)) (c : Fin classes) : Prop :=
  ∃ seen, Scan.Seen (s.contends inputs subnet blocked held) (s.halts subnet blocked) s.priority
      (s.contenders subnet held) seen ∧
    Scan.best (s.contends inputs subnet blocked held) s.priority seen = some c

variable {s cfg inputs subnet blocked}

/-- What `held` says of the class that holds the switch. -/
theorem held_eq_some {c : Fin classes} (h : s.held cfg inputs subnet = .ok (some c)) :
    c = s.lastClass subnet ∧ ∃ f rest, s.partialPackets c = f :: rest ∧ f.head = false ∧
      ClassLoop.ready (s.bufStates subnet) inputs.time f = true := by
  unfold held at h
  dsimp only at h
  cases hqueue : s.partialPackets (s.lastClass subnet) with
  | nil =>
      rw [hqueue] at h
      cases h
  | cons f rest =>
      rw [hqueue, List.head?_cons] at h
      dsimp only at h
      by_cases hhold : (cfg.holdSwitchForPacket && !f.head) = true
      · rw [if_pos hhold] at h
        cases hvc : f.vc with
        | none =>
            rw [hvc] at h
            cases h
        | some vc =>
            rw [hvc] at h
            dsimp only at h
            by_cases hfull : (s.bufStates subnet).isFullFor inputs.time vc = true
            · rw [if_pos hfull] at h
              cases h
            · rw [if_neg hfull] at h
              split at h
              · cases h
                refine ⟨rfl, f, rest, hqueue, by simpa using (Bool.and_eq_true_iff.mp hhold).2, ?_⟩
                simp [ClassLoop.ready, hvc, hfull]
              · cases h
      · rw [if_neg hhold] at h
        cases h

/-! ### The loop is a scan -/

/-- The queue of the class after it has been looked at, if its flit can go. -/
def advanced (s : Interface subnets classes vcs) (inputs : Inputs subnets vcs)
    (subnet : Fin subnets) (c : Fin classes) : List (Flit subnets vcs) :=
  match s.partialPackets c with
  | [] => []
  | cf :: rest => s.offered inputs subnet c cf :: rest

theorem advanced_of_cons {c : Fin classes} {f : Flit subnets vcs} {rest : List (Flit subnets vcs)}
    (h : s.partialPackets c = f :: rest) :
    s.advanced inputs subnet c = s.offered inputs subnet c f :: rest := by
  rw [advanced, h]

/-- The loop over the classes has come to those of `todo`. -/
structure Follows (s : Interface subnets classes vcs) (inputs : Inputs subnets vcs)
    (subnet : Fin subnets) (l : ClassLoop subnets classes vcs) (todo : List (Fin classes)) :
    Prop where
  unseen : ∀ c ∈ todo, l.partialPackets c = s.partialPackets c
  chosen : ∀ c, l.f = some c → l.partialPackets c = s.advanced inputs subnet c ∧
    ∃ f rest, s.partialPackets c = f :: rest ∧
      ClassLoop.ready (s.bufStates subnet) inputs.time (s.offered inputs subnet c f) = true
  unchanged : l.f = none → l.partialPackets = s.partialPackets

namespace Follows

variable {l : ClassLoop subnets classes vcs} {todo : List (Fin classes)} {c : Fin classes}

theorem tail (h : s.Follows inputs subnet l (c :: todo)) : s.Follows inputs subnet l todo where
  unseen := fun d hd => h.unseen d (List.mem_cons_of_mem _ hd)
  chosen := h.chosen
  unchanged := h.unchanged

theorem priority {f : Fin classes} (h : s.Follows inputs subnet l todo) (hf : l.f = some f) :
    ∃ g, (l.partialPackets f).head? = some g ∧ g.pri = s.priority f := by
  obtain ⟨hadvanced, g, rest, hqueue, -⟩ := h.chosen f hf
  refine ⟨s.offered inputs subnet f g, ?_, ?_⟩
  · rw [hadvanced, advanced_of_cons hqueue, List.head?_cons]
  · rw [offered, ClassLoop.assignVC_pri, Interface.priority, hqueue]
    rfl

/-- The loop compares the priorities of the first flits. -/
theorem outranks_eq {cf : Flit subnets vcs} (h : s.Follows inputs subnet l todo)
    (hcf : s.waiting subnet c = some cf) :
    l.outranks cf = !l.f.all fun d => decide (s.priority d < s.priority c) := by
  have hpri : s.priority c = cf.pri := by
    obtain ⟨hhead, -⟩ := Option.filter_eq_some_iff.mp hcf
    simp [Interface.priority, hhead]
  unfold ClassLoop.outranks
  cases hf : l.f with
  | none => rfl
  | some d =>
      obtain ⟨g, hhead, hg⟩ := h.priority hf
      rw [Option.any_some, hhead, Option.any_some, Option.all_some, hg, hpri, ← decide_not]
      exact decide_eq_decide.mpr not_lt.symm

theorem candidate_eq (h : s.Follows inputs subnet l (c :: todo)) :
    l.candidate subnet c =
      if l.f.all fun d => decide (s.priority d < s.priority c) then s.waiting subnet c else none := by
  have hsame := h.unseen c List.mem_cons_self
  cases hwaiting : s.waiting subnet c with
  | none =>
      have hnone : l.candidate subnet c = none := by
        unfold waiting at hwaiting
        rw [Option.filter_eq_none_iff] at hwaiting
        rw [ClassLoop.candidate, hsame, Option.filter_eq_none_iff]
        intro cf hcf
        have := hwaiting cf hcf
        simp_all
      simp [hnone]
  | some cf =>
      obtain ⟨hhead, hsubnet⟩ := Option.filter_eq_some_iff.mp hwaiting
      have houtranks := h.outranks_eq hwaiting
      unfold ClassLoop.candidate
      rw [hsame, hhead, Option.filter_some, houtranks, Bool.not_not, hsubnet, Bool.true_and]

/-- A flit that cannot go leaves the loop as it was. -/
theorem consider_of_not_ready {cf : Flit subnets vcs} (h : s.Follows inputs subnet l (c :: todo))
    (hcf : s.waiting subnet c = some cf)
    (hready : ClassLoop.ready (s.bufStates subnet) inputs.time (s.offered inputs subnet c cf) ≠ true) :
    l.consider (s.bufStates subnet) inputs (s.lastVC subnet c) c cf = l := by
  obtain ⟨hhead, -⟩ := Option.filter_eq_some_iff.mp hcf
  have hqueue : cf :: (l.partialPackets c).tail = l.partialPackets c := by
    rw [h.unseen c List.mem_cons_self]
    exact (List.eq_cons_of_mem_head? hhead).symm
  unfold ClassLoop.consider
  unfold offered at hready
  dsimp only
  rw [if_neg hready, ClassLoop.assignVC_of_not_ready hready, hqueue, Function.update_eq_self]

/-- A flit that can go is chosen. -/
theorem consider {cf : Flit subnets vcs} (h : s.Follows inputs subnet l (c :: todo))
    (hnot : c ∉ todo) (hcf : s.waiting subnet c = some cf)
    (hready : ClassLoop.ready (s.bufStates subnet) inputs.time (s.offered inputs subnet c cf) = true) :
    (l.consider (s.bufStates subnet) inputs (s.lastVC subnet c) c cf).f = some c ∧
      s.Follows inputs subnet (l.consider (s.bufStates subnet) inputs (s.lastVC subnet c) c cf)
        todo := by
  obtain ⟨hhead, -⟩ := Option.filter_eq_some_iff.mp hcf
  have hqueue : s.partialPackets c = cf :: (s.partialPackets c).tail :=
    List.eq_cons_of_mem_head? hhead
  have hf : (l.consider (s.bufStates subnet) inputs (s.lastVC subnet c) c cf).f = some c :=
    if_pos hready
  refine ⟨hf, ?_, ?_, ?_⟩
  · intro d hd
    have hne : d ≠ c := fun heq => hnot (heq ▸ hd)
    exact (Function.update_of_ne hne _ _).trans (h.unseen d (List.mem_cons_of_mem _ hd))
  · intro d hd
    cases hf.symm.trans hd
    refine ⟨?_, cf, _, hqueue, hready⟩
    rw [advanced_of_cons hqueue, ClassLoop.consider]
    dsimp only
    rw [Function.update_self, h.unseen c List.mem_cons_self]
    rfl
  · intro hnone
    cases hf.symm.trans hnone

/-- The loop is the scan; the induction is on the classes to come. -/
theorem run {candidate : Fin classes → Bool} {order : List (Fin classes)}
    (h : s.Follows inputs subnet l order) (hnodup : order.Nodup)
    (hcandidate : ∀ c ∈ order, candidate c = s.canGo inputs subnet blocked c) :
    (ClassLoop.run (s.bufStates subnet) inputs subnet (s.lastVC subnet) blocked l order).f =
        Scan.scanFrom candidate (s.halts subnet blocked) s.priority l.f order ∧
      s.Follows inputs subnet
        (ClassLoop.run (s.bufStates subnet) inputs subnet (s.lastVC subnet) blocked l order) [] := by
  induction order generalizing l with
  | nil => exact ⟨rfl, h⟩
  | cons c order ih =>
      obtain ⟨hnot, hnodup⟩ := List.nodup_cons.mp hnodup
      have hrest : ∀ d ∈ order, candidate d = s.canGo inputs subnet blocked d :=
        fun d hd => hcandidate d (List.mem_cons_of_mem _ hd)
      have hc : candidate c = s.canGo inputs subnet blocked c := hcandidate c List.mem_cons_self
      rw [ClassLoop.run, Scan.scanFrom, h.candidate_eq]
      by_cases hbetter : (l.f.all fun d => decide (s.priority d < s.priority c)) = true
      · rw [if_pos hbetter, if_pos hbetter]
        cases hwaiting : s.waiting subnet c with
        | none =>
            have hhalts : s.halts subnet blocked c = false := by simp [halts, hwaiting]
            have hcanGo : candidate c = false := by simp [hc, canGo, hwaiting]
            rw [hhalts, hcanGo]
            exact ih h.tail hnodup hrest
        | some cf =>
            have hhalts : s.halts subnet blocked c = (blocked && cf.needsVC) := by
              simp [halts, hwaiting]
            dsimp only
            rw [hhalts]
            by_cases hends : (blocked && cf.needsVC) = true
            · rw [if_pos hends, if_pos hends]
              refine ⟨rfl, ?_, h.chosen, h.unchanged⟩
              exact fun d hd => absurd hd List.not_mem_nil
            · rw [if_neg hends, if_neg hends]
              have hcanGo : candidate c =
                  ClassLoop.ready (s.bufStates subnet) inputs.time (s.offered inputs subnet c cf) := by
                rw [hc, canGo, hhalts, hwaiting, Bool.eq_false_of_not_eq_true hends]
                rfl
              rw [hcanGo]
              by_cases hready : ClassLoop.ready (s.bufStates subnet) inputs.time
                  (s.offered inputs subnet c cf) = true
              · obtain ⟨hf, hfollows⟩ := h.consider hnot hwaiting hready
                rw [if_pos hready, ← hf]
                exact ih hfollows hnodup hrest
              · rw [if_neg hready, h.consider_of_not_ready hwaiting hready]
                exact ih h.tail hnodup hrest
      · rw [if_neg hbetter, if_neg hbetter]
        exact ih h.tail hnodup hrest

end Follows

/-- The loop begins with the class that holds the switch. -/
theorem follows_start {held : Option (Fin classes)} (h : s.held cfg inputs subnet = .ok held)
    (order : List (Fin classes)) : s.Follows inputs subnet ⟨s.partialPackets, held⟩ order where
  unseen := fun _ _ => rfl
  chosen := by
    rintro c rfl
    obtain ⟨-, f, rest, hqueue, hbody, hready⟩ := held_eq_some h
    have hsame : s.offered inputs subnet c f = f := ClassLoop.assignVC_of_head hbody
    refine ⟨?_, f, rest, hqueue, hsame.symm ▸ hready⟩
    rw [advanced_of_cons hqueue, hsame]
    exact hqueue
  unchanged := fun _ => rfl

/-- The first flit of the class that holds the switch does not end the loop. -/
theorem halts_of_held {c : Fin classes} (h : s.held cfg inputs subnet = .ok (some c)) :
    s.halts subnet blocked c = false := by
  obtain ⟨-, f, rest, hqueue, hbody, -⟩ := held_eq_some h
  have hneeds : f.needsVC = false := by simp [Flit.needsVC, hbody]
  have hany : (s.waiting subnet c).any Flit.needsVC = false := by
    rw [Option.any_eq_false]
    intro cf hcf
    obtain ⟨hhead, -⟩ := Option.filter_eq_some_iff.mp hcf
    rw [hqueue, List.head?_cons, Option.some.injEq] at hhead
    simp [← hhead, hneeds]
  rw [halts, hany, Bool.and_false]

/-- The class that holds the switch is not looked at again. -/
theorem contends_classOrder (blocked : Bool) {held : Option (Fin classes)}
    (h : s.held cfg inputs subnet = .ok held) :
    ∀ c ∈ classOrder (s.lastClass subnet) held,
      s.contends inputs subnet blocked held c = s.canGo inputs subnet blocked c := by
  intro c hc
  have hne : held ≠ some c := by
    rintro rfl
    rw [← (held_eq_some h).1] at hc
    exact not_mem_classOrder c hc
  simp [contends, hne]

/-- What the loop over the classes chooses. -/
theorem run_classes (blocked : Bool) {held : Option (Fin classes)}
    (h : s.held cfg inputs subnet = .ok held) :
    (∀ c, (ClassLoop.run (s.bufStates subnet) inputs subnet (s.lastVC subnet) blocked
          ⟨s.partialPackets, held⟩ (classOrder (s.lastClass subnet) held)).f = some c ↔
        s.Foremost inputs subnet blocked held c) ∧
      s.Follows inputs subnet (ClassLoop.run (s.bufStates subnet) inputs subnet (s.lastVC subnet)
        blocked ⟨s.partialPackets, held⟩ (classOrder (s.lastClass subnet) held)) [] := by
  obtain ⟨hf, hfollows⟩ := (follows_start h _).run (nodup_classOrder _ _) (contends_classOrder blocked h)
  refine ⟨fun c => ?_, hfollows⟩
  have hscan : Scan.scanFrom (s.contends inputs subnet blocked held) (s.halts subnet blocked)
      s.priority none (s.contenders subnet held) =
      Scan.scanFrom (s.contends inputs subnet blocked held) (s.halts subnet blocked) s.priority
        held (classOrder (s.lastClass subnet) held) := by
    cases held with
    | none => rfl
    | some d =>
        rw [contenders, Option.toList_some, List.singleton_append, Scan.scanFrom,
          halts_of_held h]
        simp [contends]
  rw [hf, ← hscan]
  constructor
  · intro hc
    obtain ⟨seen, hseen, hbest⟩ := Scan.exists_seen (s.contenders subnet held)
    exact ⟨seen, hseen, hbest ▸ hc⟩
  · rintro ⟨seen, hseen, hbest⟩
    rw [hseen.scanFrom_eq, hbest]

/-- A head flit that is chosen is for the subnetwork. -/
theorem Foremost.subnetwork {held : Option (Fin classes)} {c : Fin classes} {f : Flit subnets vcs}
    (h : s.Foremost inputs subnet blocked held c) (hheld : s.held cfg inputs subnet = .ok held)
    (hf : (s.partialPackets c).head? = some f) (hhead : f.head = true) : f.subnetwork = subnet := by
  obtain ⟨seen, -, hbest⟩ := h
  have hcontends := (Scan.mem_of_best hbest).2
  rw [contends, Bool.or_eq_true, decide_eq_true_iff] at hcontends
  obtain rfl | hcanGo := hcontends
  · obtain ⟨-, g, rest, hqueue, hbody, -⟩ := held_eq_some hheld
    rw [hqueue, List.head?_cons, Option.some.injEq] at hf
    rw [← hf, hbody] at hhead
    cases hhead
  · rw [canGo, Bool.and_eq_true, Option.any_eq_true] at hcanGo
    obtain ⟨-, g, hwaiting, -⟩ := hcanGo
    obtain ⟨hg, hsubnet⟩ := Option.filter_eq_some_iff.mp hwaiting
    rw [hf, Option.some.injEq] at hg
    exact hg ▸ of_decide_eq_true hsubnet

end Interface

/-- No virtual channel is assigned at a router that is not on. -/
theorem ClassLoop.run_blocked {buf : BufferState vcs} {inputs : Inputs subnets vcs}
    {subnet : Fin subnets} {lastVC : Fin classes → Option (Fin vcs)} (order : List (Fin classes))
    (l : ClassLoop subnets classes vcs) :
    (l.run buf inputs subnet lastVC true order).partialPackets = l.partialPackets := by
  induction order generalizing l with
  | nil => rfl
  | cons c order ih =>
      rw [ClassLoop.run]
      cases hcandidate : l.candidate subnet c with
      | none => exact ih l
      | some cf =>
          dsimp only
          by_cases hneeds : (true && cf.needsVC) = true
          · rw [if_pos hneeds]
          · rw [if_neg hneeds, ih]
            obtain ⟨hhead, -⟩ := Option.filter_eq_some_iff.mp hcandidate
            have hsame : ClassLoop.assignVC buf inputs (lastVC c) cf = cf := if_neg hneeds
            have hqueue : cf :: (l.partialPackets c).tail = l.partialPackets c :=
              (List.eq_cons_of_mem_head? hhead).symm
            unfold ClassLoop.consider
            dsimp only
            rw [hsame, hqueue, Function.update_eq_self]

end Flyover.Injection
