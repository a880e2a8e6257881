import Flyover.Allocator.Arbiter
import Flyover.Matching.Scan

/-!
# Arbiters over whole histories

The calls of an arbiter come in any order, and a call whose assertion fails ends the run. The
law of runs says what holds of every state that is reached: an arbitration, whenever it comes
to its end, has chosen a request of highest priority.
-/

namespace Flyover

variable {σ : Type}

/-- A call of an arbiter. -/
inductive ArbiterCall where
  | addRequest (input : Nat) (e : Entry)
  | arbitrate
  | updateState
  | clear

namespace ArbiterOps

variable (ops : ArbiterOps σ)

def perform (s : σ) : ArbiterCall → Option σ
  | .addRequest input e => ops.addRequest s input e
  | .arbitrate => (ops.arbitrate s).map Prod.fst
  | .updateState => ops.updateState s
  | .clear => some (ops.clear s)

/-- The states that histories of an arbiter of this size reach. -/
inductive Reached (size : Nat) : σ → Prop
  | new {s : σ} (h : ops.new size = some s) : Reached size s
  | call {s s' : σ} (c : ArbiterCall) (h : Reached size s) (hcall : ops.perform s c = some s') :
      Reached size s'

/-- Add requests one after the other. -/
def addAll (s : σ) : List (Nat × Entry) → Option σ
  | [] => some s
  | r :: rest => do
      let s ← ops.addRequest s r.1 r.2
      addAll s rest

end ArbiterOps

/-- Requests that can be added to an arbiter without any: for valid inputs, one for each. -/
structure ValidRequests (size : Nat) (requests : List (Nat × Entry)) : Prop where
  lt : ∀ r ∈ requests, r.1 < size
  nodup : (requests.map Prod.fst).Nodup

/-- The choice is a request of highest priority; there is none only without requests. -/
def TopChoice (req : Nat → Option Entry) : Option (Nat × Entry) → Prop
  | none => req = fun _ => none
  | some (i, e) => req i = some e ∧ ∀ j e', req j = some e' → e'.pri ≤ e.pri

/-- What holds over whole histories, and where a round begins. -/
structure RunLaw (ops : ArbiterOps σ) where
  law : ArbiterLaw ops
  /-- a state that may be reached, and the requests in it -/
  Sound : σ → Nat → (Nat → Option Entry) → Prop
  new : ∀ {s n}, ops.new n = some s → Sound s n fun _ => none
  addRequest : ∀ {s s' n req i e}, Sound s n req → ops.addRequest s i e = some s' →
    i < n ∧ req i = none ∧ Sound s' n (Function.update req i (some e))
  arbitrate : ∀ {s s' n req winner}, Sound s n req → ops.arbitrate s = some (s', winner) →
    Sound s' n req ∧ TopChoice req winner ∧ ops.lastWinner s' = winner.map Prod.fst
  updateState : ∀ {s s' n req}, Sound s n req → ops.updateState s = some s' → Sound s' n req
  clear : ∀ {s n req}, Sound s n req → Sound (ops.clear s) n fun _ => none
  idle : ∀ {s n req}, Sound s n req → (ops.numReqs s = 0 ↔ req = fun _ => none)
  filling : ∀ {s n}, Sound s n (fun _ => none) → law.Filling s n fun _ => none

namespace RunLaw

variable {ops : ArbiterOps σ} (run : RunLaw ops) {s s' : σ} {n size : Nat}
  {req : Nat → Option Entry} {requests : List (Nat × Entry)}

/-- Every state that is reached is sound. -/
theorem sound_of_reached (h : ops.Reached size s) : ∃ req, run.Sound s size req := by
  induction h with
  | new h => exact ⟨_, run.new h⟩
  | call c _ hcall ih =>
      obtain ⟨req, hsound⟩ := ih
      cases c with
      | addRequest input e => exact ⟨_, (run.addRequest hsound hcall).2.2⟩
      | arbitrate =>
          obtain ⟨⟨s', winner⟩, harbitrate, rfl⟩ := Option.map_eq_some_iff.mp hcall
          exact ⟨req, (run.arbitrate hsound harbitrate).1⟩
      | updateState => exact ⟨req, run.updateState hsound hcall⟩
      | clear =>
          cases hcall
          exact ⟨_, run.clear hsound⟩

/-- The requests of an arbiter to which these were added. -/
def afterAll (req : Nat → Option Entry) : List (Nat × Entry) → Nat → Option Entry
  | [] => req
  | r :: rest => afterAll (Function.update req r.1 (some r.2)) rest

theorem sound_addAll (h : run.Sound s n req) (hadd : ops.addAll s requests = some s') :
    run.Sound s' n (afterAll req requests) := by
  induction requests generalizing s req with
  | nil =>
      cases hadd
      exact h
  | cons r rest ih =>
      obtain ⟨s₁, hs₁, hadd⟩ := Option.bind_eq_some_iff.mp hadd
      exact ih (run.addRequest h hs₁).2.2 hadd

theorem exists_addAll (h : run.law.Filling s n req) (hvalid : ValidRequests n requests)
    (hfree : ∀ r ∈ requests, req r.1 = none) :
    ∃ s', ops.addAll s requests = some s' ∧ run.law.Filling s' n (afterAll req requests) := by
  induction requests generalizing s req with
  | nil => exact ⟨s, rfl, h⟩
  | cons r rest ih =>
      obtain ⟨hnot, hnodup⟩ := List.nodup_cons.mp hvalid.nodup
      obtain ⟨s₁, hs₁, hfilling⟩ := run.law.filling_addRequest r.2 h (hvalid.lt r List.mem_cons_self)
        (hfree r List.mem_cons_self)
      obtain ⟨s', hs', hfilling'⟩ := ih hfilling
        ⟨fun q hq => hvalid.lt q (List.mem_cons_of_mem r hq), hnodup⟩ (by
          intro q hq
          have hne : q.1 ≠ r.1 := fun heq => hnot (heq ▸ List.mem_map_of_mem hq)
          rw [Function.update_of_ne hne]
          exact hfree q (List.mem_cons_of_mem r hq))
      refine ⟨s', ?_, hfilling'⟩
      rw [ArbiterOps.addAll, hs₁]
      exact hs'

/-- The added requests are those that the arbiter has. -/
theorem afterAll_eq_some_iff (hnodup : (requests.map Prod.fst).Nodup)
    (hfree : ∀ r ∈ requests, req r.1 = none) {i : Nat} {e : Entry} :
    afterAll req requests i = some e ↔ (i, e) ∈ requests ∨ req i = some e := by
  induction requests generalizing req with
  | nil => simp [afterAll]
  | cons r rest ih =>
      obtain ⟨hnot, hnodup⟩ := List.nodup_cons.mp hnodup
      have hrest : ∀ q ∈ rest, Function.update req r.1 (some r.2) q.1 = none := by
        intro q hq
        have hne : q.1 ≠ r.1 := fun heq => hnot (heq ▸ List.mem_map_of_mem hq)
        rw [Function.update_of_ne hne]
        exact hfree q (List.mem_cons_of_mem r hq)
      rw [afterAll, ih hnodup hrest, List.mem_cons]
      by_cases hi : i = r.1
      · subst hi
        rw [Function.update_self, hfree r List.mem_cons_self, Option.some.injEq]
        constructor
        · rintro (hmem | rfl)
          · exact .inl (.inr hmem)
          · exact .inl (.inl rfl)
        · rintro ((heq | hmem) | hnone)
          · exact .inr (congrArg Prod.snd heq).symm
          · exact .inl hmem
          · cases hnone
      · rw [Function.update_of_ne hi]
        have hne : (i, e) ≠ r := fun heq => hi (congrArg Prod.fst heq)
        simp [hne]

/-- A round from a reached state without requests: they are added and one is chosen. -/
theorem exists_round (h : ops.Reached size s) (hidle : ops.numReqs s = 0)
    (hvalid : ValidRequests size requests) :
    ∃ s₁ s₂ winner, ops.addAll s requests = some s₁ ∧ ops.arbitrate s₁ = some (s₂, winner) ∧
      run.Sound s₁ size (afterAll (fun _ => none) requests) ∧
      TopChoice (afterAll (fun _ => none) requests) winner := by
  obtain ⟨req, hsound⟩ := run.sound_of_reached h
  obtain rfl := (run.idle hsound).mp hidle
  obtain ⟨s₁, hadd, hfilling⟩ := run.exists_addAll (run.filling hsound) hvalid fun _ _ => rfl
  obtain ⟨s₂, winner, harbitrate, -⟩ := run.law.decided_arbitrate hfilling
  have hsound₁ := run.sound_addAll hsound hadd
  exact ⟨s₁, s₂, winner, hadd, harbitrate, hsound₁, (run.arbitrate hsound₁ harbitrate).2.1⟩

end RunLaw

/-! ### Arbiters that choose among their own requests -/

/-- Such an arbiter over whole histories: nothing but `AddRequest` asserts anything, and the
choice is of highest priority. -/
structure FlatRun (ops : ArbiterOps σ) (base : σ → Arbiter)
    (Holds : σ → Nat → (Nat → Option Entry) → Prop) : Prop where
  flat : FlatLaw ops base Holds
  addRequest : ∀ {s s' i e}, ops.addRequest s i e = some s' →
    i < (base s).size ∧ (base s).request i = none
  top : ∀ {s s' n req i e}, Holds s n req → ops.arbitrate s = some (s', some (i, e)) →
    ∀ j e', req j = some e' → e'.pri ≤ e.pri

section Flat

variable {ops : ArbiterOps σ} {base : σ → Arbiter} {Holds : σ → Nat → (Nat → Option Entry) → Prop}

/-- Without requests nothing is selected, and what is selected is an input. -/
structure FlatSound (base : σ → Arbiter) (Holds : σ → Nat → (Nat → Option Entry) → Prop) (s : σ)
    (n : Nat) (req : Nat → Option Entry) : Prop where
  holds : Holds s n req
  idle : (base s).numReqs = 0 → (base s).selected = none
  lt : ∀ i, (base s).selected = some i → i < n

def FlatRun.runLaw (run : FlatRun ops base Holds) : RunLaw ops where
  law := run.flat.law
  Sound := FlatSound base Holds
  new := by
    intro s n h
    obtain ⟨hholds, hselected⟩ := run.flat.new h
    exact ⟨hholds, fun _ => hselected, fun i hi => nomatch hselected.symm.trans hi⟩
  addRequest := by
    intro s s' n req i e h hadd
    obtain ⟨hi, hfree⟩ := run.addRequest hadd
    have hpending := run.flat.pending h.holds
    rw [hpending.size] at hi
    rw [hpending.request] at hfree
    obtain ⟨s₁, hs₁, hholds, hselected⟩ := run.flat.addRequest e h.holds hi hfree
    cases hadd.symm.trans hs₁
    refine ⟨hi, hfree, hholds, fun hzero => ?_, fun j hj => h.lt j (hselected ▸ hj)⟩
    have hnone := congrFun ((run.flat.pending hholds).idle.mp hzero) i
    rw [Function.update_self] at hnone
    cases hnone
  arbitrate := by
    intro s s' n req winner h harbitrate
    obtain ⟨s₁, winner₁, hs₁, hholds, hselected, hwinner, hnone⟩ := run.flat.arbitrate h.holds
    cases harbitrate.symm.trans hs₁
    have hpending := run.flat.pending hholds
    refine ⟨⟨hholds, fun hzero => ?_, fun i hi => ?_⟩, ?_, (run.flat.lastWinner s').trans hselected⟩
    · rw [hselected]
      cases winner with
      | none => rfl
      | some w =>
          have hw := hwinner w.1 w.2 rfl
          rw [hpending.idle.mp hzero] at hw
          cases hw
    · rw [hselected] at hi
      obtain ⟨w, rfl, rfl⟩ := Option.map_eq_some_iff.mp hi
      exact hpending.lt w.1 w.2 (hwinner w.1 w.2 rfl)
    · cases winner with
      | none => exact hnone rfl
      | some w => exact ⟨hwinner w.1 w.2 rfl, run.top h.holds hs₁⟩
  updateState := by
    intro s s' n req h hupdate
    obtain ⟨s₁, hs₁, hholds, hbase⟩ := run.flat.updateState h.holds h.lt
    cases hupdate.symm.trans hs₁
    exact ⟨hholds, by rw [hbase]; exact h.idle, by rw [hbase]; exact h.lt⟩
  clear := by
    intro s n req h
    have hselected := run.flat.selected_clear h.holds h.idle
    exact ⟨(run.flat.clear h.holds).1, fun _ => hselected, fun i hi => nomatch hselected.symm.trans hi⟩
  idle h := by
    rw [run.flat.numReqs]
    exact (run.flat.pending h.holds).idle
  filling h := ⟨h.holds, h.idle ((run.flat.pending h.holds).idle.mpr rfl)⟩

end Flat

/-! ### Round robin -/

namespace RoundRobinArbiter

variable {s s' : RoundRobinArbiter} {n i : Nat} {req : Nat → Option Entry} {e : Entry}

/-- How far an input is from the pointer. -/
def distance (offset size input : Nat) : Nat := (input + size - offset) % size

theorem distance_inj {offset size i j : Nat} (hoffset : offset < size) (hi : i < size) (hj : j < size)
    (h : distance offset size i = distance offset size j) : i = j := by
  have hmod {k : Nat} (hk : k < size) :
      distance offset size k = if offset ≤ k then k - offset else k + size - offset := by
    unfold distance
    split
    next hle =>
      have hsub : k + size - offset = k - offset + size := by omega
      rw [hsub, Nat.add_mod_right, Nat.mod_eq_of_lt (by omega)]
    next hgt => exact Nat.mod_eq_of_lt (by omega)
  rw [hmod hi, hmod hj] at h
  split at h <;> split at h <;> omega

/-- The best input has the highest priority, and precedes the others that have it. -/
def Foremost (s : RoundRobinArbiter) (req : Nat → Option Entry) (tie : Nat → Nat → Prop) : Prop :=
  ∀ b, s.bestInput = some b → ∃ e, req b = some e ∧ e.pri = s.highestPri ∧
    ∀ j e', req j = some e' → j ≠ b → e'.pri < e.pri ∨ e'.pri = e.pri ∧ tie b j

theorem supersedes_iff {b : Nat} {pri pri' : Int} {offset size : Nat} :
    supersedes i pri b pri' offset size = true ↔
      pri' < pri ∨ pri = pri' ∧ distance offset size i < distance offset size b := by
  simp [supersedes, distance]

/-- A request replaces the best one exactly if it supersedes it. -/
theorem addRequest_best (h : s.Holds n req) (hadd : s.addRequest i e = some s') :
    i < n ∧ req i = none ∧ s'.pointer = s.pointer ∧
      s'.bestInput = (if s.bestInput.all fun b =>
        supersedes i e.pri b s.highestPri s.pointer n then some i else s.bestInput) ∧
      s'.highestPri = if s.bestInput.all fun b =>
        supersedes i e.pri b s.highestPri s.pointer n then e.pri else s.highestPri := by
  unfold addRequest at hadd
  obtain ⟨a, ha, hadd⟩ := Option.bind_eq_some_iff.mp hadd
  unfold Arbiter.addRequest at ha
  obtain ⟨⟨hi, hfree⟩, -⟩ := Option.ite_none_right_eq_some.mp ha
  have hidle : (s.numReqs == 0) = true → s.bestInput = none := by
    intro hzero
    have hreq := h.pending.idle.mp (by simpa using hzero)
    cases hbest : s.bestInput with
    | none => rfl
    | some b =>
        obtain ⟨e', he'⟩ := h.best b hbest
        rw [hreq] at he'
        cases he'
  have hbetter : ((s.request i).all (fun old => decide (old.pri < e.pri)) &&
      (s.numReqs == 0 || s.bestInput.all fun best =>
        supersedes i e.pri best s.highestPri s.pointer s.size)) =
      s.bestInput.all fun b => supersedes i e.pri b s.highestPri s.pointer n := by
    rw [hfree, Option.all_none, Bool.true_and, h.pending.size]
    cases hzero : s.numReqs == 0 with
    | true => rw [hidle hzero, Option.all_none, Bool.or_true]
    | false => rw [Bool.false_or]
  rw [h.pending.size] at hi
  rw [h.pending.request] at hfree
  rw [hbetter] at hadd
  refine ⟨hi, hfree, ?_⟩
  split at hadd
  next hbetter =>
    cases hadd
    exact ⟨rfl, (if_pos hbetter).symm, (if_pos hbetter).symm⟩
  next hworse =>
    cases hadd
    exact ⟨rfl, (if_neg hworse).symm, (if_neg hworse).symm⟩

/-- A new request keeps the best one foremost, if ties are broken in the order of the pointer. -/
theorem Foremost.addRequest {tie : Nat → Nat → Prop} (h : s.Foremost req tie) (hholds : s.Holds n req)
    (hnearer : ∀ b, distance s.pointer n i < distance s.pointer n b →
      tie i b ∧ ∀ j, tie b j → tie i j)
    (hfarther : ∀ b < n, b ≠ i → ¬ distance s.pointer n i < distance s.pointer n b → tie b i)
    (hadd : s.addRequest i e = some s') :
    s'.Foremost (Function.update req i (some e)) tie := by
  obtain ⟨-, hfree, -, hbest, hpri⟩ := addRequest_best hholds hadd
  intro b hb
  rw [hbest] at hb
  rw [hpri]
  split at hb
  next hbetter =>
    obtain rfl := Option.some.inj hb
    rw [if_pos hbetter]
    refine ⟨e, Function.update_self _ _ _, rfl, fun j e' he' hj => ?_⟩
    rw [Function.update_of_ne hj] at he'
    cases hold : s.bestInput with
    | none =>
        rw [hholds.none hold] at he'
        cases he'
    | some best =>
        obtain ⟨top, htop, hhighest, hothers⟩ := h best hold
        rw [hold, Option.all_some, supersedes_iff, ← hhighest] at hbetter
        have hj : e'.pri < top.pri ∨ e'.pri = top.pri ∧ (j = best ∨ tie best j) := by
          by_cases hjbest : j = best
          · subst hjbest
            cases htop.symm.trans he'
            exact .inr ⟨rfl, .inl rfl⟩
          · exact (hothers j e' he' hjbest).imp_right fun ⟨heq, htie⟩ => ⟨heq, .inr htie⟩
        obtain hlt | ⟨heq, hnear⟩ := hbetter
        · obtain hj | ⟨hj, -⟩ := hj
          · exact .inl (hj.trans hlt)
          · exact .inl (hj ▸ hlt)
        · obtain hj | ⟨hj, rfl | htie⟩ := hj
          · exact .inl (heq ▸ hj)
          · exact .inr ⟨hj.trans heq.symm, (hnearer j hnear).1⟩
          · exact .inr ⟨hj.trans heq.symm, (hnearer best hnear).2 j htie⟩
  next hworse =>
    obtain ⟨top, htop, hhighest, hothers⟩ := h b hb
    rw [hb, Option.all_some, supersedes_iff, ← hhighest, not_or, not_and] at hworse
    have hne : b ≠ i := by
      rintro rfl
      rw [hfree] at htop
      cases htop
    rw [if_neg (by rwa [hb, Option.all_some, supersedes_iff, ← hhighest, not_or, not_and])]
    refine ⟨top, (Function.update_of_ne hne _ _).trans htop, hhighest, fun j e' he' hj => ?_⟩
    by_cases hji : j = i
    · subst hji
      rw [Function.update_self] at he'
      obtain rfl := Option.some.inj he'
      obtain hlt | heq := (not_lt.mp hworse.1).lt_or_eq
      · exact .inl hlt
      · exact .inr ⟨heq, hfarther b (hholds.pending.lt b top htop) hne (hworse.2 heq)⟩
    · rw [Function.update_of_ne hji] at he'
      exact hothers j e' he' hj

/-- The invariant of whole histories: the pointer may move while there are requests. -/
structure Leading (s : RoundRobinArbiter) (n : Nat) (req : Nat → Option Entry) : Prop where
  holds : s.Holds n req
  pointer : 0 < n → s.pointer < n
  top : s.Foremost req fun _ _ => True

theorem Leading.exists_addRequest (h : s.Leading n req) (e : Entry) (hi : i < n)
    (hfree : req i = none) :
    ∃ s', s.addRequest i e = some s' ∧ s'.Leading n (Function.update req i (some e)) ∧
      s'.selected = s.selected := by
  obtain ⟨s', hs', hholds, hselected⟩ := h.holds.exists_addRequest e hi hfree
  obtain ⟨-, -, hpointer, -⟩ := addRequest_best h.holds hs'
  refine ⟨s', hs', ⟨hholds, hpointer ▸ h.pointer, ?_⟩, hselected⟩
  exact h.top.addRequest h.holds (fun _ _ => ⟨trivial, fun _ _ => trivial⟩)
    (fun _ _ _ _ => trivial) hs'

/-- The choice is the best input, whatever it leads in. -/
theorem Foremost.arbitrate {tie : Nat → Nat → Prop} (h : s.Foremost req tie) (hholds : s.Holds n req)
    (harbitrate : s.arbitrate = some (s', some (i, e))) :
    req i = some e ∧ ∀ j e', req j = some e' → j ≠ i → e'.pri < e.pri ∨ e'.pri = e.pri ∧ tie i j := by
  obtain ⟨winner, hs', hbest, hwinner, -⟩ := hholds.arbitrate_eq
  cases harbitrate.symm.trans hs'
  obtain ⟨top, htop, -, hothers⟩ := h i hbest
  have he := hwinner i e rfl
  cases htop.symm.trans he
  exact ⟨he, hothers⟩

theorem flatRun : FlatRun ops toArbiter Leading where
  flat := {
    numReqs := fun _ => rfl
    lastWinner := fun _ => rfl
    pending := fun h => h.holds.pending
    new := by
      intro s n h
      cases h
      exact ⟨⟨(flatLaw.new rfl).1, fun hn => hn, fun b hb => nomatch hb⟩, rfl⟩
    addRequest := fun e h => h.exists_addRequest e
    arbitrate := by
      intro s n req h
      obtain ⟨winner, hs', hselected, hwinner, hnone⟩ := h.holds.arbitrate_eq
      obtain ⟨s₁, winner₁, hs₁, hholds, -⟩ := flatLaw.arbitrate h.holds
      cases hs'.symm.trans hs₁
      exact ⟨_, winner, hs', ⟨hholds, h.pointer, h.top⟩, hselected, hwinner, hnone⟩
    updateState := by
      intro s n req h hlt
      obtain ⟨s', hs', hholds, hbase⟩ := flatLaw.updateState h.holds hlt
      cases hs'
      refine ⟨_, rfl, ⟨hholds, ?_, ?_⟩, hbase⟩
      · intro hn
        unfold RoundRobinArbiter.updateState
        split
        next =>
          dsimp only
          rw [h.holds.pending.size]
          exact Nat.mod_lt _ hn
        next => exact h.pointer hn
      · intro b hb
        unfold RoundRobinArbiter.updateState at hb ⊢
        split at hb
        next => exact h.top b hb
        next => exact h.top b hb
    clear := fun h => ⟨⟨h.holds.clear, h.pointer, fun b hb => nomatch hb⟩, rfl⟩ }
  addRequest := by
    intro s s' i e hadd
    obtain ⟨a, ha, -⟩ := Option.bind_eq_some_iff.mp hadd
    exact (Option.ite_none_right_eq_some.mp ha).1
  top := by
    intro s s' n req i e h harbitrate j e' he'
    obtain ⟨he, hothers⟩ := h.top.arbitrate h.holds harbitrate
    by_cases hj : j = i
    · subst hj
      cases he.symm.trans he'
      exact le_rfl
    · obtain hlt | ⟨heq, -⟩ := hothers j e' he' hj
      · exact hlt.le
      · exact heq.le

/-- A round of requests: the best input breaks ties by the distance from the pointer. -/
theorem Foremost.addAll {requests : List (Nat × Entry)}
    (h : s.Foremost req fun b j => distance s.pointer n b < distance s.pointer n j)
    (hholds : s.Holds n req) (hpointer : 0 < n → s.pointer < n)
    (hadd : ops.addAll s requests = some s') :
    s'.Holds n (RunLaw.afterAll req requests) ∧
      s'.Foremost (RunLaw.afterAll req requests) fun b j =>
        distance s.pointer n b < distance s.pointer n j := by
  induction requests generalizing s req with
  | nil =>
      cases hadd
      exact ⟨hholds, h⟩
  | cons r rest ih =>
      obtain ⟨s₁, hs₁, hadd⟩ := Option.bind_eq_some_iff.mp hadd
      obtain ⟨hi, hfree, hsame, -⟩ := addRequest_best hholds hs₁
      have hforemost := h.addRequest hholds
        (fun b hnear => ⟨hnear, fun j hj => hnear.trans hj⟩) (fun b hb hne hnot => by
          have hinj := mt (distance_inj (hpointer (Nat.zero_lt_of_lt hb)) hb hi) hne
          exact lt_of_le_of_ne (not_lt.mp hnot) hinj) hs₁
      obtain ⟨s₂, hs₂, hholds₁, -⟩ := hholds.exists_addRequest r.2 hi hfree
      cases (show s.addRequest r.1 r.2 = some s₁ from hs₁).symm.trans hs₂
      rw [← hsame] at hforemost ⊢
      exact ih hforemost hholds₁ (hsame ▸ hpointer) hadd

end RoundRobinArbiter

/-! ### Matrix -/

/-- A strict total order on the numbers below `n`. -/
structure StrictTotal (n : Nat) (before : Nat → Nat → Bool) : Prop where
  irrefl : ∀ i < n, before i i = false
  trans : ∀ i < n, ∀ j < n, ∀ k < n, before i j = true → before j k = true → before i k = true
  total : ∀ i < n, ∀ j < n, i ≠ j → before i j = true ∨ before j i = true

namespace MatrixArbiter

variable {s s' : MatrixArbiter} {n i : Nat} {req : Nat → Option Entry} {e : Entry}

/-- The invariant of whole histories: no two inputs have one rank, and a single request is
the last one. -/
structure Tidy (s : MatrixArbiter) (n : Nat) (req : Nat → Option Entry) : Prop where
  holds : s.Holds n req
  total : ∀ i < n, ∀ j < n, i ≠ j → s.matrix i j = true ∨ s.matrix j i = true
  single : s.numReqs < 2 → ∀ j e, req j = some e → s.lastReq = some j

theorem Tidy.strictTotal (h : s.Tidy n req) : StrictTotal n s.matrix where
  irrefl := by
    intro i hi
    obtain ⟨rank, hrank⟩ := h.holds.ranked
    rw [hrank i hi i hi, decide_eq_false_iff_not]
    exact lt_irrefl _
  trans := by
    intro i hi j hj k hk hij hjk
    obtain ⟨rank, hrank⟩ := h.holds.ranked
    rw [hrank i hi j hj, decide_eq_true_iff] at hij
    rw [hrank j hj k hk, decide_eq_true_iff] at hjk
    rw [hrank i hi k hk, decide_eq_true_iff]
    exact hij.trans hjk
  total := h.total

theorem Tidy.exists_addRequest (h : s.Tidy n req) (e : Entry) (hi : i < n) (hfree : req i = none) :
    ∃ s', s.addRequest i e = some s' ∧ s'.Tidy n (Function.update req i (some e)) ∧
      s'.selected = s.selected := by
  obtain ⟨s', hs', hholds, hselected⟩ := h.holds.exists_addRequest e hi hfree
  refine ⟨s', hs', ?_, hselected⟩
  unfold addRequest at hs'
  obtain ⟨a, ha, hs'⟩ := Option.bind_eq_some_iff.mp hs'
  obtain ⟨-, ha⟩ := Option.ite_none_right_eq_some.mp ha
  cases ha
  cases hs'
  refine ⟨hholds, h.total, fun hfew j e' he' => ?_⟩
  -- it was the first one
  have hzero : s.numReqs = 0 := Nat.lt_one_iff.mp (Nat.lt_of_succ_lt_succ hfew)
  by_cases hj : j = i
  · rw [hj]
  · rw [Function.update_of_ne hj, h.holds.pending.idle.mp hzero] at he'
    cases he'

/-- What was selected comes last, and the others stay in order. -/
theorem updateState_last {w : Nat} (hw : s.selected = some w) {i : Nat} (hi : i ≠ w) :
    s.updateState.matrix i w = true := by
  unfold MatrixArbiter.updateState
  rw [hw]
  dsimp only
  rw [if_neg fun h => hi h.1, if_pos ⟨rfl, hi⟩]

theorem Tidy.updateState (h : s.Tidy n req) (hlt : ∀ i, s.selected = some i → i < n) :
    s.updateState.Tidy n req := by
  refine ⟨h.holds.updateState hlt, fun i hi j hj hne => ?_, ?_⟩
  · cases hw : s.selected with
    | none =>
        unfold MatrixArbiter.updateState
        rw [hw]
        exact h.total i hi j hj hne
    | some w =>
        by_cases hiw : i = w
        · subst hiw
          exact .inr (updateState_last hw hne.symm)
        · by_cases hjw : j = w
          · subst hjw
            exact .inl (updateState_last hw hne)
          · unfold MatrixArbiter.updateState
            rw [hw]
            dsimp only
            rw [if_neg fun h => hiw h.1, if_neg fun h => hjw h.1, if_neg fun h => hjw h.1,
              if_neg fun h => hiw h.1]
            exact h.total i hi j hj hne
  · unfold MatrixArbiter.updateState
    split
    next => exact h.single
    next => exact h.single

/-- The request that wins: no other blocks it. -/
def Wins (s : MatrixArbiter) (i : Nat) : Prop :=
  ∃ e, s.request i = some e ∧ ∀ j e', s.request j = some e' →
    e'.pri ≤ e.pri ∧ (e'.pri = e.pri → s.matrix j i = false)

/-- Of two requests of one priority only one can win. -/
theorem Tidy.wins_unique (h : s.Tidy n req) {i j : Nat} (hi : s.Wins i) (hj : s.Wins j) : i = j := by
  obtain ⟨e, he, htop⟩ := hi
  obtain ⟨e', he', htop'⟩ := hj
  obtain ⟨hle, hji⟩ := htop j e' he'
  obtain ⟨hle', hij⟩ := htop' i e he
  have heq : e'.pri = e.pri := le_antisymm hle hle'
  by_contra hne
  rw [h.holds.pending.request] at he he'
  obtain hbefore | hbefore := h.total i (h.holds.pending.lt i e he) j (h.holds.pending.lt j e' he') hne
  · rw [hij heq.symm] at hbefore
    cases hbefore
  · rw [hji heq] at hbefore
    cases hbefore

/-- What is granted wins. -/
theorem Tidy.wins_of_grant (h : s.Tidy n req) (hgrant : s.grant = some i) : s.Wins i := by
  have hfound := List.find?_some hgrant
  rw [Option.any_eq_true] at hfound
  obtain ⟨e, he, hall⟩ := hfound
  refine ⟨e, he, fun j e' he' => ?_⟩
  rw [List.all_eq_true] at hall
  have hj : j < s.size := by
    rw [h.holds.pending.size]
    exact h.holds.pending.lt j e' (h.holds.pending.request ▸ he')
  have hfree := hall j (List.mem_range.mpr hj)
  rw [Bool.not_eq_true', blocks, he', Option.any_some, Bool.or_eq_false_iff,
    decide_eq_false_iff_not] at hfree
  refine ⟨not_lt.mp hfree.2, fun heq => ?_⟩
  simpa [heq] using hfree.1

/-- The arbiter chooses the request that wins. -/
theorem Tidy.wins_of_arbitrate (h : s.Tidy n req) (harbitrate : s.arbitrate = some (s', some (i, e))) :
    req i = some e ∧ s.Wins i := by
  obtain ⟨s₁, winner, hs₁, hholds, hselected, hwinner, -⟩ := h.holds.exists_arbitrate
  cases harbitrate.symm.trans hs₁
  have he := hwinner i e rfl
  refine ⟨he, ?_⟩
  unfold MatrixArbiter.arbitrate at harbitrate
  obtain ⟨winner, -, harbitrate⟩ := Option.bind_eq_some_iff.mp harbitrate
  cases harbitrate
  replace hselected : (if s.numReqs < 2 then s.lastReq else s.grant) = some i := hselected
  split at hselected
  next hfew =>
    refine ⟨e, h.holds.pending.request ▸ he, fun j e' he' => ?_⟩
    rw [h.holds.pending.request] at he'
    -- there is no other request
    have hlast := h.single hfew j e' he'
    cases hselected.symm.trans hlast
    cases he.symm.trans he'
    exact ⟨le_rfl, fun _ => h.strictTotal.irrefl i (h.holds.pending.lt i e he)⟩
  next => exact h.wins_of_grant hselected

theorem flatRun : FlatRun ops toArbiter Tidy where
  flat := {
    numReqs := fun _ => rfl
    lastWinner := fun _ => rfl
    pending := fun h => h.holds.pending
    new := by
      intro s n h
      cases h
      refine ⟨⟨holds_new n, fun i hi j hj hne => ?_, fun _ j e he => nomatch he⟩, rfl⟩
      obtain hlt | hlt := Nat.lt_or_gt_of_ne hne
      · exact .inr (decide_eq_true hlt)
      · exact .inl (decide_eq_true hlt)
    addRequest := fun e h => h.exists_addRequest e
    arbitrate := by
      intro s n req h
      obtain ⟨s', winner, hs', hholds, hselected, hwinner, hnone⟩ := h.holds.exists_arbitrate
      refine ⟨s', winner, hs', ?_, hselected, hwinner, hnone⟩
      unfold MatrixArbiter.arbitrate at hs'
      obtain ⟨winner, -, hs'⟩ := Option.bind_eq_some_iff.mp hs'
      cases hs'
      exact ⟨hholds, h.total, h.single⟩
    updateState := fun h hlt => ⟨_, rfl, h.updateState hlt, updateState_toArbiter _⟩
    clear := fun h => ⟨⟨h.holds.clear, h.total, fun _ j e he => nomatch he⟩, rfl⟩ }
  addRequest := by
    intro s s' i e hadd
    obtain ⟨a, ha, -⟩ := Option.bind_eq_some_iff.mp hadd
    exact (Option.ite_none_right_eq_some.mp ha).1
  top := by
    intro s s' n req i e h harbitrate j e' he'
    obtain ⟨he, e₁, he₁, htop⟩ := h.wins_of_arbitrate harbitrate
    rw [h.holds.pending.request] at he₁ htop
    cases he.symm.trans he₁
    exact (htop j e' he').1

end MatrixArbiter

end Flyover
