import Flyover.Allocator.ArbiterRuns
import Flyover.Allocator.TreeArbiter

/-!
# What arbiters choose

A tree of arbiters that choose requests of highest priority does so, too: the global arbiter
chooses among the requests that its groups have chosen. Once it has asked the groups, it
cannot do so again before it is cleared.
-/

namespace Flyover

namespace TreeArbiter

variable {σ : Type} {groups : Nat} {sub : ArbiterOps σ} {s s' start : TreeArbiter σ} {n i k : Nat}
  {req greq cur : Nat → Option Entry} {e : Entry}

section Runs

variable (run : RunLaw sub)

/-- The requests of the global arbiter are there only after an arbitration, and then a group
that has requests has asked. -/
structure Sound (groups : Nat) (s : TreeArbiter σ) (n : Nat) (req : Nat → Option Entry) : Prop where
  shape : Shape groups s n req
  idle : s.numReqs = 0 → s.selected = none
  group : ∀ g < groups, run.Sound (s.groupArbiters g) s.groupSize (slice req s.groupSize g)
  global : ∃ greq, run.Sound s.globalArbiter groups greq ∧
    (greq = (fun _ => none) ∨
      ∃ g < groups, greq g ≠ none ∧ slice req s.groupSize g ≠ fun _ => none)

variable {run}

theorem Sound.addRequest (h : Sound run groups s n req) (hadd : addRequest sub s i e = some s') :
    i < n ∧ req i = none ∧ Sound run groups s' n (Function.update req i (some e)) := by
  have hadds := h.shape.adds hadd
  refine ⟨hadds.lt, hadds.free, hadds.shape, ?_, ?_, ?_⟩
  · intro hzero
    have hnone := congrFun (hadds.shape.pending.idle.mp hzero) i
    rw [Function.update_self] at hnone
    cases hnone
  · refine hadds.everyGroup h.group fun arbiter harbiter => ?_
    exact (run.addRequest (h.group _ hadds.group_lt) harbiter).2.2
  · obtain ⟨greq, hglobal, hasked⟩ := h.global
    refine ⟨greq, hadds.global ▸ hglobal, hasked.imp_right ?_⟩
    rintro ⟨g, hg, hgreq, hslice⟩
    refine ⟨g, hg, hgreq, fun hnone => hslice ?_⟩
    rw [hadds.groupSize, slice_update hadds.groupSize_pos] at hnone
    split at hnone
    next heq =>
      have hsome := congrFun hnone (i % s.groupSize)
      rw [Function.update_self] at hsome
      cases hsome
    next => exact hnone

/-! ### The groups are asked -/

/-- A group with requests is asked, and the global arbiter gets what it has chosen. -/
theorem collect_busy (hbusy : s.groupReqs i ≠ 0) (h : collect sub s i = some s') :
    ∃ arbiter j e globalArbiter, sub.arbitrate (s.groupArbiters i) = some (arbiter, some (j, e)) ∧
      sub.addRequest s.globalArbiter i e = some globalArbiter ∧
      s' = { s with
        groupArbiters := Function.update s.groupArbiters i arbiter
        globalArbiter := globalArbiter } := by
  rw [TreeArbiter.collect, if_neg hbusy] at h
  cases harbitrate : sub.arbitrate (s.groupArbiters i) with
  | none =>
      rw [harbitrate] at h
      cases h
  | some answer =>
      obtain ⟨arbiter, winner⟩ := answer
      rw [harbitrate] at h
      cases winner with
      | none => cases h
      | some w =>
          simp only [Option.bind_eq_bind, Option.bind_some] at h
          obtain ⟨globalArbiter, hglobal, h⟩ := Option.bind_eq_some_iff.mp h
          exact ⟨arbiter, w.1, w.2, globalArbiter, rfl, hglobal, (Option.some.inj h).symm⟩

/-- The groups below `k` have been asked: what a group has chosen is requested from the global
arbiter, which did not have a request of that group before. -/
structure Gathered (run : RunLaw sub) (groups : Nat) (start : TreeArbiter σ)
    (req greq : Nat → Option Entry) (k : Nat) (s : TreeArbiter σ) (cur : Nat → Option Entry) :
    Prop where
  base : s.toArbiter = start.toArbiter
  groupSize : s.groupSize = start.groupSize
  groupReqs : s.groupReqs = start.groupReqs
  group : ∀ g < groups, run.Sound (s.groupArbiters g) start.groupSize (slice req start.groupSize g)
  asked : ∀ g < groups, g < k → slice req start.groupSize g ≠ (fun _ => none) →
    greq g = none ∧ ∃ j e, cur g = some e ∧ TopChoice (slice req start.groupSize g) (some (j, e)) ∧
      sub.lastWinner (s.groupArbiters g) = some j
  others : ∀ g, (k ≤ g ∨ slice req start.groupSize g = fun _ => none) → cur g = greq g
  global : run.Sound s.globalArbiter groups cur

theorem Gathered.collect (h : Gathered run groups start req greq k s cur)
    (hshape : Shape groups start n req) (hk : k < groups) (hcollect : collect sub s k = some s') :
    ∃ cur', Gathered run groups start req greq (k + 1) s' cur' := by
  have hold {g : Nat} (hg : g < k + 1) (hne : g ≠ k) : g < k := by omega
  by_cases hzero : s.groupReqs k = 0
  · rw [TreeArbiter.collect, if_pos hzero] at hcollect
    cases hcollect
    rw [h.groupReqs, hshape.groupReqs k hk] at hzero
    refine ⟨cur, h.base, h.groupSize, h.groupReqs, h.group, ?_, ?_, h.global⟩
    · intro g hg hlt hslice
      have hne : g ≠ k := fun heq => hslice (heq ▸ hzero)
      exact h.asked g hg (hold hlt hne) hslice
    · rintro g (hle | hnone)
      · exact h.others g (.inl (Nat.le_of_succ_le hle))
      · exact h.others g (.inr hnone)
  · obtain ⟨arbiter, j, e, globalArbiter, harbitrate, hglobal, rfl⟩ := collect_busy hzero hcollect
    obtain ⟨hsound, htop, hlast⟩ := run.arbitrate (h.group k hk) harbitrate
    obtain ⟨-, hfree, hsound'⟩ := run.addRequest h.global hglobal
    refine ⟨Function.update cur k (some e), h.base, h.groupSize, h.groupReqs, ?_, ?_, ?_, hsound'⟩
    · intro g hg
      dsimp only
      by_cases hgk : g = k
      · subst hgk
        rw [Function.update_self]
        exact hsound
      · rw [Function.update_of_ne hgk]
        exact h.group g hg
    · intro g hg hlt hslice
      dsimp only
      by_cases hgk : g = k
      · subst hgk
        rw [Function.update_self, Function.update_self]
        exact ⟨(h.others g (.inl le_rfl)).symm.trans hfree, j, e, rfl, htop, hlast⟩
      · rw [Function.update_of_ne hgk, Function.update_of_ne hgk]
        exact h.asked g hg (hold hlt hgk) hslice
    · rintro g (hle | hnone)
      · rw [Function.update_of_ne (Nat.ne_of_gt hle)]
        exact h.others g (.inl (Nat.le_of_succ_le hle))
      · have hne : g ≠ k := by
          rintro rfl
          rw [h.groupReqs, hshape.groupReqs g hk] at hzero
          exact hzero hnone
        rw [Function.update_of_ne hne]
        exact h.others g (.inr hnone)

theorem gathered_all (h : Sound run groups start n req) (hglobal : run.Sound start.globalArbiter groups greq)
    (hk : k ≤ groups) (hfold : (List.range k).foldlM (collect sub) start = some s) :
    ∃ cur, Gathered run groups start req greq k s cur := by
  induction k generalizing s with
  | zero =>
      cases hfold
      exact ⟨greq, rfl, rfl, rfl, h.group, fun _ _ hlt => absurd hlt (Nat.not_lt_zero _),
        fun _ _ => rfl, hglobal⟩
  | succ k ih =>
      rw [List.range_succ, List.foldlM_append] at hfold
      obtain ⟨s₁, hs₁, hfold⟩ := Option.bind_eq_some_iff.mp hfold
      obtain ⟨cur, hgathered⟩ := ih (Nat.le_of_succ_le hk) hs₁
      have hcollect : collect sub s₁ k = some s := by simpa using hfold
      exact hgathered.collect h.shape hk hcollect

/-! ### The choice of the tree -/

/-- The answers that an arbitration with requests rests on. -/
structure Answers (groups : Nat) (sub : ArbiterOps σ) (s s' t : TreeArbiter σ) (g j : Nat) (e : Entry)
    (winner : Option (Nat × Entry)) : Prop where
  collected : (List.range groups).foldlM (collect sub) s = some t
  global : ∃ globalArbiter, sub.arbitrate t.globalArbiter = some (globalArbiter, some (g, e)) ∧
    s' = { t with
      globalArbiter := globalArbiter
      selected := some (g * t.groupSize + j) }
  group : sub.lastWinner (t.groupArbiters g) = some j
  lt : g < groups ∧ j < t.groupSize
  chosen : (t.request (g * t.groupSize + j)).map (fun e => (g * t.groupSize + j, e)) = winner

theorem arbitrate_busy {winner : Option (Nat × Entry)} (hbusy : s.numReqs ≠ 0)
    (h : arbitrate groups sub s = some (s', winner)) :
    ∃ t g j e, Answers groups sub s s' t g j e winner := by
  rw [TreeArbiter.arbitrate, if_neg hbusy] at h
  obtain ⟨t, ht, h⟩ := Option.bind_eq_some_iff.mp h
  cases hglobal : sub.arbitrate t.globalArbiter with
  | none =>
      rw [hglobal] at h
      cases h
  | some answer =>
      obtain ⟨globalArbiter, choice⟩ := answer
      rw [hglobal] at h
      cases choice with
      | none => cases h
      | some w =>
          simp only [Option.bind_eq_bind, Option.bind_some] at h
          obtain ⟨j, hj, h⟩ := Option.bind_eq_some_iff.mp h
          split at h
          next hlt =>
            obtain ⟨winner', hwinner, h⟩ := Option.bind_eq_some_iff.mp h
            cases h
            obtain ⟨e', he', hwinner⟩ := Option.map_eq_some_iff.mp hwinner
            refine ⟨t, w.1, j, w.2, ht, ⟨globalArbiter, hglobal, rfl⟩, hj, ⟨hlt.1, hlt.2.1⟩, ?_⟩
            have hrequest : t.request (w.1 * t.groupSize + j) = some e' := he'
            rw [hrequest, Option.map_some, ← hwinner]
          next => cases h

/-- Every request belongs to a group. -/
theorem Shape.slice_of_request (h : Shape groups s n req) (hi : req i = some e) :
    i / s.groupSize < groups ∧
      slice req s.groupSize (i / s.groupSize) (i % s.groupSize) = some e := by
  have hlt := h.pending.lt i e hi
  rw [h.size] at hlt
  have hpos : 0 < s.groupSize := by
    by_contra hzero
    rw [Nat.eq_zero_of_not_pos hzero] at hlt
    exact Nat.not_lt_zero i hlt
  refine ⟨(Nat.div_lt_iff_lt_mul hpos).mpr hlt, ?_⟩
  rw [slice, if_pos (Nat.mod_lt i hpos), Nat.div_add_mod', hi]

theorem Sound.arbitrate {winner : Option (Nat × Entry)} (h : Sound run groups s n req)
    (harbitrate : arbitrate groups sub s = some (s', winner)) :
    Sound run groups s' n req ∧ TopChoice req winner ∧ s'.selected = winner.map Prod.fst := by
  by_cases hidle : s.numReqs = 0
  · rw [TreeArbiter.arbitrate, if_pos hidle] at harbitrate
    cases harbitrate
    exact ⟨h, h.shape.pending.idle.mp hidle, h.idle hidle⟩
  · obtain ⟨t, g, j, e, hcollected, ⟨globalArbiter, hglobal, rfl⟩, hgroup, ⟨hg, hj⟩, hchosen⟩ :=
      arbitrate_busy hidle harbitrate
    obtain ⟨greq, hgreq, hfresh⟩ := h.global
    obtain ⟨cur, hgathered⟩ := gathered_all h hgreq le_rfl hcollected
    -- a second arbitration in the same round would have failed
    have hnone : greq = fun _ => none := by
      obtain hnone | ⟨g', hg', hbusy, hslice⟩ := hfresh
      · exact hnone
      · exact absurd (hgathered.asked g' hg' hg' hslice).1 hbusy
    subst hnone
    obtain ⟨hsound, ⟨hcur, htop⟩, -⟩ := run.arbitrate hgathered.global hglobal
    have hslice : slice req s.groupSize g ≠ fun _ => none := by
      intro hempty
      rw [hgathered.others g (.inr hempty)] at hcur
      cases hcur
    obtain ⟨-, j', e', hcur', ⟨hrequest, -⟩, hlast⟩ := hgathered.asked g hg hg hslice
    cases hgroup.symm.trans hlast
    cases hcur.symm.trans hcur'
    have hsize := hgathered.groupSize
    rw [slice, if_pos (hsize ▸ hj), ← hsize] at hrequest
    have hpending : t.toArbiter.Pending n req := hgathered.base ▸ h.shape.pending
    rw [hpending.request, hrequest, Option.map_some] at hchosen
    subst hchosen
    refine ⟨⟨⟨?_, h.shape.groups_pos, ?_, ?_⟩, ?_, ?_, cur, hsound, .inr ⟨g, hg, ?_, ?_⟩⟩, ⟨hrequest, ?_⟩, rfl⟩
    · exact ⟨hpending.size, hpending.request, hpending.lt, hpending.idle⟩
    · exact hsize ▸ h.shape.size
    · intro g' hg'
      dsimp only
      rw [hgathered.groupReqs, hsize]
      exact h.shape.groupReqs g' hg'
    · intro hzero
      have hreq := hpending.idle.mp hzero
      rw [hreq] at hrequest
      cases hrequest
    · intro g' hg'
      dsimp only
      rw [hsize]
      exact hgathered.group g' hg'
    · rw [hcur]
      exact Option.some_ne_none e
    · dsimp only
      rw [hsize]
      exact hslice
    · intro i e' he'
      obtain ⟨hg', hi'⟩ := h.shape.slice_of_request he'
      have hslice' : slice req s.groupSize (i / s.groupSize) ≠ fun _ => none := by
        intro hempty
        rw [hempty] at hi'
        cases hi'
      obtain ⟨-, j', e'', hcur', ⟨-, htop'⟩, -⟩ := hgathered.asked _ hg' hg' hslice'
      exact (htop' _ e' hi').trans (htop _ e'' hcur')

theorem Sound.updateState (h : Sound run groups s n req) (hupdate : updateState groups sub s = some s') :
    Sound run groups s' n req := by
  unfold TreeArbiter.updateState at hupdate
  split at hupdate
  next =>
    cases hupdate
    exact h
  next selected hselected =>
    obtain ⟨last, -, hupdate⟩ := Option.bind_eq_some_iff.mp hupdate
    split at hupdate
    next hlast =>
      obtain ⟨arbiter, harbiter, hupdate⟩ := Option.bind_eq_some_iff.mp hupdate
      obtain ⟨globalArbiter, hglobal, hupdate⟩ := Option.bind_eq_some_iff.mp hupdate
      cases hupdate
      obtain ⟨greq, hgreq, hfresh⟩ := h.global
      refine ⟨⟨h.shape.pending, h.shape.groups_pos, h.shape.size, h.shape.groupReqs⟩, h.idle, ?_, greq,
        run.updateState hgreq hglobal, hfresh⟩
      intro g hg
      dsimp only
      by_cases heq : g = last
      · subst heq
        rw [Function.update_self]
        exact run.updateState (h.group g hg) harbiter
      · rw [Function.update_of_ne heq]
        exact h.group g hg
    next => cases hupdate

theorem Sound.clear (h : Sound run groups s n req) :
    Sound run groups (clear sub s) n fun _ => none := by
  unfold TreeArbiter.clear
  split
  next hidle => exact h.shape.pending.idle.mp hidle ▸ h
  next hbusy =>
    obtain ⟨greq, hgreq, -⟩ := h.global
    refine ⟨⟨h.shape.pending.clear, h.shape.groups_pos, h.shape.size, ?_⟩, ?_, ?_, _, run.clear hgreq,
      .inl rfl⟩
    · intro g _
      rw [slice_none]
      exact iff_of_true rfl rfl
    · intro _
      show s.toArbiter.clear.selected = none
      rw [Arbiter.clear, if_neg hbusy]
    · intro g hg
      rw [slice_none]
      exact run.clear (h.group g hg)

theorem sound_new (h : new groups sub n = some s) : Sound run groups s n fun _ => none := by
  have hfilling : Filling run.law groups s n fun _ => none := filling_new h
  unfold new at h
  split at h
  next =>
    obtain ⟨group, hgroup, h⟩ := Option.bind_eq_some_iff.mp h
    obtain ⟨globalArbiter, hglobal, h⟩ := Option.bind_eq_some_iff.mp h
    cases h
    refine ⟨hfilling.shape, fun _ => rfl, fun g _ => ?_, _, run.new hglobal, .inl rfl⟩
    rw [slice_none]
    exact run.new hgroup
  next => cases h

theorem Sound.filling (h : Sound run groups s n fun _ => none) :
    Filling run.law groups s n fun _ => none := by
  refine ⟨h.shape, h.idle (h.shape.pending.idle.mpr rfl), fun g hg => ?_, ?_⟩
  · have hgroup := h.group g hg
    rw [slice_none] at hgroup ⊢
    exact run.filling hgroup
  · obtain ⟨greq, hgreq, rfl | ⟨g, -, -, hslice⟩⟩ := h.global
    · exact run.filling hgreq
    · exact absurd (slice_none _ _) hslice

end Runs

/-- A tree over whole histories. -/
def runLaw (groups : Nat) (run : RunLaw sub) : RunLaw (ops groups sub) where
  law := treeLaw run.law groups
  Sound := Sound run groups
  new h := sound_new h
  addRequest h hadd := h.addRequest hadd
  arbitrate h harbitrate := h.arbitrate harbitrate
  updateState h hupdate := h.updateState hupdate
  clear h := h.clear
  idle h := h.shape.pending.idle
  filling h := h.filling

end TreeArbiter

/-- Every kind of arbiter over whole histories. -/
def ArbType.runLaw : (type : ArbType) → RunLaw type.ops
  | roundRobin => RoundRobinArbiter.flatRun.runLaw
  | matrix => MatrixArbiter.flatRun.runLaw
  | tree groups sub => TreeArbiter.runLaw groups sub.runLaw

/-! ### A round of requests -/

/-- What was chosen among the requests is a request of highest priority. -/
theorem TopChoice.requests {requests : List (Nat × Entry)} {winner : Option (Nat × Entry)}
    (h : TopChoice (RunLaw.afterAll (fun _ => none) requests) winner)
    (hnodup : (requests.map Prod.fst).Nodup) :
    (winner = none ↔ requests = []) ∧
      ∀ r, winner = some r → r ∈ requests ∧ ∀ q ∈ requests, q.2.pri ≤ r.2.pri := by
  have hmem {i : Nat} {e : Entry} :
      RunLaw.afterAll (fun _ => none) requests i = some e ↔ (i, e) ∈ requests := by
    rw [RunLaw.afterAll_eq_some_iff hnodup fun _ _ => rfl]
    exact or_iff_left fun hnone => nomatch hnone
  cases winner with
  | none =>
      refine ⟨iff_of_true rfl (List.eq_nil_iff_forall_not_mem.mpr fun q hq => ?_), nofun⟩
      have hq' := hmem.mpr hq
      rw [show RunLaw.afterAll (fun _ => none) requests = fun _ => none from h] at hq'
      cases hq'
  | some w =>
      obtain ⟨hw, htop⟩ := h
      have hw := hmem.mp hw
      refine ⟨iff_of_false nofun (List.ne_nil_of_mem hw), fun r hr => ?_⟩
      obtain rfl := Option.some.inj hr
      exact ⟨hw, fun q hq => htop q.1 q.2 (hmem.mpr hq)⟩

theorem ValidRequests.perm {size : Nat} {requests requests' : List (Nat × Entry)}
    (h : ValidRequests size requests) (hperm : requests'.Perm requests) :
    ValidRequests size requests' where
  lt r hr := h.lt r (hperm.mem_iff.mp hr)
  nodup := (hperm.map Prod.fst).nodup_iff.mpr h.nodup

namespace RoundRobinArbiter

/-- The request of highest priority that is nearest to the pointer. -/
def Best (pointer size : Nat) (requests : List (Nat × Entry)) (r : Nat × Entry) : Prop :=
  Scan.Leads (· ∈ requests) (fun r => r.2.pri) (fun r => distance pointer size r.1) r

theorem best_perm {pointer size : Nat} {requests requests' : List (Nat × Entry)} {r : Nat × Entry}
    (hperm : requests'.Perm requests) :
    Best pointer size requests' r ↔ Best pointer size requests r := by
  have hmem : (· ∈ requests') = (· ∈ requests) := funext fun _ => propext hperm.mem_iff
  rw [Best, Best, hmem]

variable {s : RoundRobinArbiter} {size : Nat} {requests : List (Nat × Entry)}

/-- A round from a reached state without requests chooses the best one. -/
theorem round_best (h : ops.Reached size s) (hidle : s.numReqs = 0)
    (hvalid : ValidRequests size requests) :
    ∃ s₁ s₂ winner, ops.addAll s requests = some s₁ ∧ ops.arbitrate s₁ = some (s₂, winner) ∧
      (winner = none ↔ requests = []) ∧ ∀ r, winner = some r ↔ Best s.pointer size requests r := by
  obtain ⟨s₁, s₂, winner, hadd, harbitrate, -, htop⟩ := flatRun.runLaw.exists_round h hidle hvalid
  obtain ⟨hnone, hwinner⟩ := htop.requests hvalid.nodup
  refine ⟨s₁, s₂, winner, hadd, harbitrate, hnone, ?_⟩
  obtain ⟨req, hleading, -, -⟩ := flatRun.runLaw.sound_of_reached h
  obtain rfl := hleading.holds.pending.idle.mp hidle
  -- nothing is best before the first request
  have hforemost : s.Foremost (fun _ => none) fun b j =>
      distance s.pointer size b < distance s.pointer size j := by
    intro b hb
    obtain ⟨e, he⟩ := hleading.holds.best b hb
    cases he
  obtain ⟨hholds, hforemost⟩ := hforemost.addAll hleading.holds hleading.pointer hadd
  have hbest : ∀ r, winner = some r → Best s.pointer size requests r := by
    intro r hr
    subst hr
    obtain ⟨-, hothers⟩ := hforemost.arbitrate hholds harbitrate
    refine ⟨(hwinner r rfl).1, fun q hq hne => ?_⟩
    refine hothers q.1 q.2 ?_ fun heq => hne ?_
    · exact (RunLaw.afterAll_eq_some_iff hvalid.nodup fun _ _ => rfl).mpr (.inl hq)
    · exact List.inj_on_of_nodup_map hvalid.nodup hq (hwinner r rfl).1 heq
  refine fun r => ⟨hbest r, fun hr => ?_⟩
  cases winner with
  | none =>
      have hmem := hr.eligible
      rw [hnone.mp rfl] at hmem
      cases hmem
  | some w => exact congrArg some ((hbest w rfl).unique hr)

end RoundRobinArbiter

namespace MatrixArbiter

variable {s : MatrixArbiter} {size : Nat}

/-- In every reached state the arbitration comes to its end, with the one request that wins. -/
theorem exists_arbitrate (h : ops.Reached size s) :
    ∃ s' winner, ops.arbitrate s = some (s', winner) ∧
      (winner = none ↔ s.request = fun _ => none) ∧
      ∀ i e, winner = some (i, e) → s.request i = some e ∧ s.Wins i ∧ ∀ j, s.Wins j → j = i := by
  obtain ⟨req, htidy, -, -⟩ := flatRun.runLaw.sound_of_reached h
  obtain ⟨s', winner, harbitrate, -, -, hwinner, hnone⟩ := flatRun.flat.arbitrate htidy
  rw [htidy.holds.pending.request]
  refine ⟨s', winner, harbitrate, ⟨hnone, fun hreq => ?_⟩, ?_⟩
  · cases winner with
    | none => rfl
    | some w =>
        have hw := hwinner w.1 w.2 rfl
        rw [hreq] at hw
        cases hw
  · rintro i e rfl
    obtain ⟨he, hwins⟩ := htidy.wins_of_arbitrate harbitrate
    exact ⟨he, hwins, fun j hj => htidy.wins_unique hj hwins⟩

end MatrixArbiter

namespace TreeArbiter

/-- A tree of any number of groups that divides the size can be built. -/
theorem exists_new {σ : Type} {groups size : Nat} {sub : ArbiterOps σ} (hpos : 0 < groups)
    (hdvd : groups ∣ size) (hsub : ∀ n, ∃ s, sub.new n = some s) :
    ∃ s, new groups sub size = some s := by
  obtain ⟨group, hgroup⟩ := hsub (size / groups)
  obtain ⟨globalArbiter, hglobal⟩ := hsub groups
  rw [new, if_pos ⟨Nat.ne_of_gt hpos, Nat.mod_eq_zero_of_dvd hdvd⟩, hgroup, hglobal]
  exact ⟨_, rfl⟩

variable {groups size : Nat} {sub : ArbType} {requests : List (Nat × Entry)}

/-- A round from a reached state without requests chooses one of highest priority. -/
theorem round_top {s : TreeArbiter sub.State} (h : (ops groups sub.ops).Reached size s)
    (hidle : s.numReqs = 0) (hvalid : ValidRequests size requests) :
    ∃ s₁ s₂ winner, (ops groups sub.ops).addAll s requests = some s₁ ∧
      (ops groups sub.ops).arbitrate s₁ = some (s₂, winner) ∧ (winner = none ↔ requests = []) ∧
      ∀ r, winner = some r → r ∈ requests ∧ ∀ q ∈ requests, q.2.pri ≤ r.2.pri := by
  obtain ⟨s₁, s₂, winner, hadd, harbitrate, -, htop⟩ :=
    (runLaw groups sub.runLaw).exists_round h hidle hvalid
  exact ⟨s₁, s₂, winner, hadd, harbitrate, htop.requests hvalid.nodup⟩

/-- Whenever an arbitration comes to its end, a request of highest priority is chosen. -/
theorem topChoice_of_arbitrate {s s' : TreeArbiter sub.State} {winner : Option (Nat × Entry)}
    (h : (ops groups sub.ops).Reached size s)
    (harbitrate : (ops groups sub.ops).arbitrate s = some (s', winner)) :
    TopChoice s.request winner := by
  obtain ⟨req, hsound⟩ := (runLaw groups sub.runLaw).sound_of_reached h
  have hreq : s.request = req := hsound.shape.pending.request
  exact hreq ▸ (hsound.arbitrate harbitrate).2.1

end TreeArbiter

/-- Whatever has been called before: `RoundRobinArbiter` chooses the best request in any order of
the requests; the matrix of `MatrixArbiter` is a strict total order in which exactly one request
wins and what was selected comes to be the last; and `TreeArbiter` chooses a request of highest
priority. -/
theorem arbiters_fair (size : Nat) :
    (∀ s, RoundRobinArbiter.ops.Reached size s → s.numReqs = 0 →
      ∀ requests, ValidRequests size requests → ∃ winner,
        (winner = none ↔ requests = []) ∧
        (∀ r, winner = some r ↔ RoundRobinArbiter.Best s.pointer size requests r) ∧
        ∀ requests', requests'.Perm requests → ∃ s₁ s₂,
          RoundRobinArbiter.ops.addAll s requests' = some s₁ ∧
          RoundRobinArbiter.ops.arbitrate s₁ = some (s₂, winner)) ∧
    (∀ s, MatrixArbiter.ops.Reached size s →
      StrictTotal size s.matrix ∧
      (∃ s' winner, MatrixArbiter.ops.arbitrate s = some (s', winner) ∧
        (winner = none ↔ s.request = fun _ => none) ∧
        ∀ i e, winner = some (i, e) → s.request i = some e ∧ s.Wins i ∧ ∀ j, s.Wins j → j = i) ∧
      ∀ w, s.selected = some w → ∀ i, i ≠ w → s.updateState.matrix i w = true) ∧
    (∀ groups (sub : ArbType), 0 < groups → groups ∣ size → (sub = .roundRobin ∨ sub = .matrix) →
      ∃ s, (ArbType.tree groups sub).ops.new size = some s) ∧
    ∀ groups (sub : ArbType) (s : TreeArbiter sub.State), (TreeArbiter.ops groups sub.ops).Reached size s →
      (∀ s' winner, (TreeArbiter.ops groups sub.ops).arbitrate s = some (s', winner) →
        TopChoice s.request winner) ∧
      (s.numReqs = 0 → ∀ requests, ValidRequests size requests → ∃ s₁ s₂ winner,
        (TreeArbiter.ops groups sub.ops).addAll s requests = some s₁ ∧
        (TreeArbiter.ops groups sub.ops).arbitrate s₁ = some (s₂, winner) ∧
        (winner = none ↔ requests = []) ∧
        ∀ r, winner = some r → r ∈ requests ∧ ∀ q ∈ requests, q.2.pri ≤ r.2.pri) := by
  refine ⟨?_, ?_, ?_, ?_⟩
  · intro s h hidle requests hvalid
    obtain ⟨-, -, winner, -, -, hnone, hbest⟩ := RoundRobinArbiter.round_best h hidle hvalid
    refine ⟨winner, hnone, hbest, fun requests' hperm => ?_⟩
    obtain ⟨s₁, s₂, winner', hadd, harbitrate, hnone', hbest'⟩ :=
      RoundRobinArbiter.round_best h hidle (hvalid.perm hperm)
    have hsame : winner' = winner := by
      apply Option.ext
      intro r
      rw [hbest', hbest]
      exact RoundRobinArbiter.best_perm hperm
    exact ⟨s₁, s₂, hadd, hsame ▸ harbitrate⟩
  · intro s h
    obtain ⟨req, htidy, -, -⟩ := MatrixArbiter.flatRun.runLaw.sound_of_reached h
    exact ⟨htidy.strictTotal, MatrixArbiter.exists_arbitrate h,
      fun w hw i hi => MatrixArbiter.updateState_last hw hi⟩
  · rintro groups sub hpos hdvd (rfl | rfl)
    · exact TreeArbiter.exists_new hpos hdvd fun n => ⟨_, rfl⟩
    · exact TreeArbiter.exists_new hpos hdvd fun n => ⟨_, rfl⟩
  · intro groups sub s h
    refine ⟨fun s' winner harbitrate => TreeArbiter.topChoice_of_arbitrate h harbitrate, ?_⟩
    intro hidle requests hvalid
    exact TreeArbiter.round_top h hidle hvalid

end Flyover
