import Flyover.Buffer.Accounting
import Flyover.Buffer.Room

/-!
# A virtual channel that is given back

A packet that gives its virtual channel back leaves room where there was room. For the
dynamic policies this rests on their bound, which is never above the share of the packets
that are open: with one packet less the share grows.
-/

namespace Flyover

variable {vcs : Nat}

namespace LimitedSharedBufferPolicy

variable {p p' : LimitedSharedBufferPolicy} {held : Int → Int}

/-- The bound is at most the share of the open packets. -/
def WithinShare (held : Int → Int) (p : LimitedSharedBufferPolicy) : Prop :=
  0 < p.activeVCs → p.maxHeldSlots ≤ held p.activeVCs

/-- Fewer packets get a share that is no smaller. -/
def ShareFalls (held : Int → Int) : Prop := ∀ n m : Int, 0 < m → m ≤ n → held n ≤ held m

theorem takeBuffer_ok :
    p.takeBuffer vcs = .ok p' ↔
      p.activeVCs + 1 ≤ vcs ∧ p' = { p with activeVCs := p.activeVCs + 1 } := by
  refine ensure_bind_ok.trans (and_congr (by omega) ?_)
  exact pure_ok.trans eq_comm

theorem returnBuffer_ok :
    p.returnBuffer = .ok p' ↔
      0 < p.activeVCs ∧ p' = { p with activeVCs := p.activeVCs - 1 } := by
  refine ensure_bind_ok.trans (and_congr (by omega) ?_)
  exact pure_ok.trans eq_comm

/-- The bound that a packet less leaves is within the share, and no smaller. -/
theorem WithinShare.returnBuffer (hp : p.WithinShare held) (hheld : ShareFalls held)
    (changed : Int → Bool) (hchanged : ∀ n, 0 ≤ n → (changed n = true ↔ 0 < n))
    (h : (do
      let p ← p.returnBuffer
      p.resize held (changed p.activeVCs)) = .ok p') :
    p'.WithinShare held ∧ p.maxHeldSlots ≤ p'.maxHeldSlots := by
  obtain ⟨q, hq, hp'⟩ := bind_ok.mp h
  obtain ⟨hpos, rfl⟩ := returnBuffer_ok.mp hq
  obtain ⟨-, rfl⟩ := resize_ok.mp hp'
  have hbound := hp hpos
  rcases lt_or_ge 0 (p.activeVCs - 1) with hleft | hlast
  · dsimp only
    rw [if_pos ((hchanged _ hleft.le).mpr hleft)]
    exact ⟨fun _ => le_rfl, hbound.trans (hheld _ _ hleft (by omega))⟩
  · dsimp only
    rw [if_neg fun hmore => not_lt.mpr hlast ((hchanged _ (by omega)).mp hmore)]
    exact ⟨fun hmore => absurd hmore (not_lt.mpr hlast), le_rfl⟩

theorem WithinShare.sendingFlit (hp : p.WithinShare held) {tail : Bool}
    (h : (do
      let p ← p.sendingFlit tail
      p.resize held (tail && p.activeVCs != 0)) = .ok p') : p'.WithinShare held := by
  obtain ⟨q, hq, hp'⟩ := bind_ok.mp h
  obtain ⟨-, rfl⟩ := resize_ok.mp hp'
  cases tail with
  | false =>
      obtain rfl := pure_ok.mp hq
      exact hp
  | true =>
      intro hmore
      have hne : q.activeVCs ≠ 0 := ne_of_gt hmore
      simp [hne]

theorem withinShare_takeBuffer
    (h : p.resize held true = .ok p') : p'.WithinShare held := by
  obtain ⟨-, rfl⟩ := resize_ok.mp h
  exact fun _ => le_rfl

end LimitedSharedBufferPolicy

open LimitedSharedBufferPolicy in
theorem DynamicLimitedSharedBufferPolicy.shareFalls_held {bufSize : Int} (hsize : 0 ≤ bufSize) :
    ShareFalls (held bufSize) := by
  intro n m hm hle
  have hn : 0 < n := lt_of_lt_of_le hm hle
  have hshare : bufSize / n * n ≤ bufSize := Int.ediv_mul_le bufSize (ne_of_gt hn)
  have hnonneg : 0 ≤ bufSize / n := Int.ediv_nonneg hsize hn.le
  apply (Int.le_ediv_iff_mul_le hm).mpr
  exact (Int.mul_le_mul_of_nonneg_left hle hnonneg).trans hshare

open LimitedSharedBufferPolicy in
theorem ShiftingDynamicLimitedSharedBufferPolicy.shareFalls_held {bufSize : Int}
    (hsize : 0 ≤ bufSize) : ShareFalls (held bufSize) := by
  intro n m hm hle
  exact shift_anti hsize (by omega)

namespace SharedExtension

/-- The bound of a dynamic policy is within the share. -/
def WithinShare (bufSize : Int) : SharedExtension vcs → Prop
  | .dynamic p => p.WithinShare (DynamicLimitedSharedBufferPolicy.held bufSize)
  | .shifting p => p.WithinShare (ShiftingDynamicLimitedSharedBufferPolicy.held bufSize)
  | _ => True

variable {bufSize : Int} {ext ext' : SharedExtension vcs} {time occupancy : Int} {vc : Fin vcs}

theorem WithinShare.takeBuffer (h : ext.takeBuffer bufSize = .ok ext') :
    ext'.WithinShare bufSize := by
  cases ext with
  | shared => obtain rfl := pure_ok.mp h; trivial
  | limited p =>
      obtain ⟨p', -, h⟩ := bind_ok.mp h
      obtain rfl := pure_ok.mp h
      trivial
  | dynamic p =>
      obtain ⟨p', hp', h⟩ := bind_ok.mp h
      obtain rfl := pure_ok.mp h
      obtain ⟨q, -, hp'⟩ := bind_ok.mp hp'
      exact LimitedSharedBufferPolicy.withinShare_takeBuffer (ensure_bind_ok.mp hp').2
  | shifting p =>
      obtain ⟨p', hp', h⟩ := bind_ok.mp h
      obtain rfl := pure_ok.mp h
      obtain ⟨q, -, hp'⟩ := bind_ok.mp hp'
      exact LimitedSharedBufferPolicy.withinShare_takeBuffer (ensure_bind_ok.mp hp').2
  | feedback config p => obtain rfl := pure_ok.mp h; trivial
  | simpleFeedback config p => obtain rfl := pure_ok.mp h; trivial

theorem WithinShare.sendingFlit {tail : Bool} (hext : ext.WithinShare bufSize)
    (h : ext.sendingFlit bufSize occupancy time vc tail = .ok ext') : ext'.WithinShare bufSize := by
  cases ext with
  | shared => obtain rfl := pure_ok.mp h; trivial
  | limited p =>
      obtain ⟨p', -, h⟩ := bind_ok.mp h
      obtain rfl := pure_ok.mp h
      trivial
  | dynamic p =>
      obtain ⟨p', hp', h⟩ := bind_ok.mp h
      obtain rfl := pure_ok.mp h
      exact LimitedSharedBufferPolicy.WithinShare.sendingFlit hext hp'
  | shifting p =>
      obtain ⟨p', hp', h⟩ := bind_ok.mp h
      obtain rfl := pure_ok.mp h
      exact LimitedSharedBufferPolicy.WithinShare.sendingFlit hext hp'
  | feedback config p => obtain rfl := pure_ok.mp h; trivial
  | simpleFeedback config p =>
      obtain ⟨p', -, h⟩ := bind_ok.mp h
      obtain rfl := pure_ok.mp h
      trivial

theorem WithinShare.freeSlotFor (hext : ext.WithinShare bufSize)
    (h : ext.freeSlotFor time vc = .ok ext') : ext'.WithinShare bufSize := by
  cases ext with
  | shared => obtain rfl := pure_ok.mp h; trivial
  | limited p => obtain rfl := pure_ok.mp h; trivial
  | dynamic p => obtain rfl := pure_ok.mp h; exact hext
  | shifting p => obtain rfl := pure_ok.mp h; exact hext
  | feedback config p =>
      obtain ⟨p', -, h⟩ := bind_ok.mp h
      obtain rfl := pure_ok.mp h
      trivial
  | simpleFeedback config p =>
      obtain ⟨p', -, h⟩ := bind_ok.mp h
      obtain rfl := pure_ok.mp h
      trivial

/-- A bound that is within the share does not shrink when a virtual channel is given
back. -/
theorem WithinShare.returnBuffer (hext : ext.WithinShare bufSize) (hsize : 0 ≤ bufSize)
    (h : ext.returnBuffer bufSize = .ok ext') :
    ext'.WithinShare bufSize ∧ ∀ time vc, ∀ limit' ∈ ext'.slotLimit time vc,
      ∃ limit ∈ ext.slotLimit time vc, limit ≤ limit' := by
  cases ext with
  | shared => obtain rfl := pure_ok.mp h; exact ⟨trivial, fun _ _ => nofun⟩
  | limited p =>
      obtain ⟨p', hp', h⟩ := bind_ok.mp h
      obtain rfl := pure_ok.mp h
      obtain ⟨-, rfl⟩ := LimitedSharedBufferPolicy.returnBuffer_ok.mp hp'
      exact ⟨trivial, fun _ _ limit' hlimit' => ⟨limit', hlimit', le_rfl⟩⟩
  | dynamic p =>
      obtain ⟨p', hp', h⟩ := bind_ok.mp h
      obtain rfl := pure_ok.mp h
      obtain ⟨hshare, hle⟩ := LimitedSharedBufferPolicy.WithinShare.returnBuffer hext
        (DynamicLimitedSharedBufferPolicy.shareFalls_held hsize)
        (fun n => decide (n > 0)) (fun n _ => decide_eq_true_iff) hp'
      refine ⟨hshare, fun _ _ limit' hlimit' => ⟨p.maxHeldSlots, rfl, ?_⟩⟩
      obtain rfl := Option.some.inj hlimit'
      exact hle
  | shifting p =>
      obtain ⟨p', hp', h⟩ := bind_ok.mp h
      obtain rfl := pure_ok.mp h
      obtain ⟨hshare, hle⟩ := LimitedSharedBufferPolicy.WithinShare.returnBuffer hext
        (ShiftingDynamicLimitedSharedBufferPolicy.shareFalls_held hsize)
        (fun n => n != 0) (fun n hn => bne_iff_ne.trans hn.lt_iff_ne'.symm) hp'
      refine ⟨hshare, fun _ _ limit' hlimit' => ⟨p.maxHeldSlots, rfl, ?_⟩⟩
      obtain rfl := Option.some.inj hlimit'
      exact hle
  | feedback config p =>
      obtain rfl := pure_ok.mp h
      exact ⟨trivial, fun _ _ limit' hlimit' => ⟨limit', hlimit', le_rfl⟩⟩
  | simpleFeedback config p =>
      obtain rfl := pure_ok.mp h
      exact ⟨trivial, fun _ _ limit' hlimit' => ⟨limit', hlimit', le_rfl⟩⟩

end SharedExtension

namespace BufferPolicy

/-- The bound of a dynamic policy is within the share. -/
def WithinShare : BufferPolicy vcs → Prop
  | .privateBuffer _ => True
  | .sharedBuffer L _ ext => ext.WithinShare L.bufSize

variable {policy policy' : BufferPolicy vcs} {time occupancy : Int} {vc : Fin vcs}

theorem WithinShare.takeBuffer (h : policy.takeBuffer = .ok policy') : policy'.WithinShare := by
  cases policy with
  | privateBuffer p => obtain rfl := pure_ok.mp h; trivial
  | sharedBuffer L p ext =>
      obtain ⟨ext', hext', rfl⟩ := takeBuffer_ok h
      exact SharedExtension.WithinShare.takeBuffer hext'

theorem WithinShare.sendingFlit {tail : Bool} (hpolicy : policy.WithinShare)
    (h : policy.sendingFlit occupancy time vc tail = .ok policy') : policy'.WithinShare := by
  cases policy with
  | privateBuffer p =>
      obtain ⟨p', -, h⟩ := bind_ok.mp h
      obtain rfl := pure_ok.mp h
      trivial
  | sharedBuffer L p ext =>
      obtain ⟨p', -, h⟩ := bind_ok.mp h
      obtain ⟨ext', hext', h⟩ := bind_ok.mp h
      obtain rfl := pure_ok.mp h
      exact SharedExtension.WithinShare.sendingFlit hpolicy hext'

theorem WithinShare.freeSlotFor {available empty : Bool} (hpolicy : policy.WithinShare)
    (h : policy.freeSlotFor available empty time vc = .ok policy') : policy'.WithinShare := by
  cases policy with
  | privateBuffer p => obtain rfl := pure_ok.mp h; trivial
  | sharedBuffer L p ext =>
      obtain ⟨p', -, h⟩ := bind_ok.mp h
      obtain ⟨ext', hext', h⟩ := bind_ok.mp h
      obtain rfl := pure_ok.mp h
      exact SharedExtension.WithinShare.freeSlotFor hpolicy hext'

theorem WithinShare.resetVCBufferSize (hpolicy : policy.WithinShare) :
    policy.resetVCBufferSize.WithinShare := by
  cases policy with
  | privateBuffer p => trivial
  | sharedBuffer L p ext => exact hpolicy

theorem WithinShare.returnBuffer (hpolicy : policy.WithinShare)
    (h : policy.returnBuffer = .ok policy') :
    policy'.WithinShare ∧ ∀ occupancy time vc, policy'.isFullFor occupancy time vc = true →
      policy.isFullFor occupancy time vc = true := by
  cases policy with
  | privateBuffer p => obtain rfl := pure_ok.mp h; exact ⟨trivial, fun _ _ _ => id⟩
  | sharedBuffer L p ext =>
      obtain ⟨ext', hext', rfl⟩ := returnBuffer_ok h
      obtain ⟨hshare, hlimit⟩ := SharedExtension.WithinShare.returnBuffer hpolicy
        L.bufSize_nonneg hext'
      refine ⟨hshare, fun occupancy time vc hfull => ?_⟩
      rcases Bool.or_eq_true_iff.mp hfull with hfull | hover
      · exact Bool.or_eq_true_iff.mpr (.inl hfull)
      · obtain ⟨limit', hlimit', hover⟩ := (Option.any_eq_true _ _).mp hover
        obtain ⟨limit, hlim, hle⟩ := hlimit time vc limit' hlimit'
        refine Bool.or_eq_true_iff.mpr (.inr ((Option.any_eq_true _ _).mpr ⟨limit, hlim, ?_⟩))
        exact decide_eq_true (hle.trans (of_decide_eq_true hover))

end BufferPolicy

namespace BufferState

/-- The bound of a dynamic policy is within the share. -/
def WithinShare (s : BufferState vcs) : Prop := s.policy.WithinShare

variable {s s' : BufferState vcs}

theorem WithinShare.perform (op : CreditOp vcs) (hs : s.WithinShare)
    (h : s.perform op = .ok s') : s'.WithinShare := by
  cases op with
  | takeBuffer vc tag =>
      obtain ⟨-, policy, hpolicy, rfl⟩ := takeBuffer_ok.mp h
      exact BufferPolicy.WithinShare.takeBuffer hpolicy
  | sendingFlit time vc tail =>
      obtain ⟨-, -, policy, hpolicy, rfl⟩ := sendingFlit_ok.mp h
      exact BufferPolicy.WithinShare.sendingFlit hs hpolicy
  | returnBuffer vc =>
      obtain ⟨-, policy, hpolicy, rfl⟩ := returnBuffer_ok.mp h
      exact (BufferPolicy.WithinShare.returnBuffer hs hpolicy).1
  | processCredit time credits =>
      induction credits generalizing s with
      | nil =>
          obtain rfl := pure_ok.mp h
          exact hs
      | cons vc rest ih =>
          obtain ⟨t, ht, hrest⟩ := bind_ok.mp h
          obtain ⟨-, -, -, -, policy, hpolicy, rfl⟩ := processCreditFor_ok.mp ht
          have ht : ((s.credited vc).withPolicy policy).WithinShare :=
            BufferPolicy.WithinShare.freeSlotFor hs hpolicy
          exact ih ht hrest
  | clearCredits =>
      obtain rfl := pure_ok.mp h
      exact hs
  | fullCredits =>
      obtain rfl := pure_ok.mp h
      exact BufferPolicy.WithinShare.resetVCBufferSize hs
  | fillCredits =>
      obtain rfl := pure_ok.mp h
      exact BufferPolicy.WithinShare.resetVCBufferSize hs

theorem withinShare_new (config : BufferConfig vcs) (policy : PolicyConfig config) :
    (new config policy).WithinShare := by
  cases policy with
  | privateBuffer pos => trivial
  | sharedBuffer L bufSize_eq name =>
      cases name with
      | dynamic => exact fun hpos => absurd hpos (lt_irrefl 0)
      | shifting => exact fun hpos => absurd hpos (lt_irrefl 0)
      | _ => trivial

/-- Room is left where a virtual channel is given back. -/
theorem WithinShare.room_returnBuffer {vc v : Fin vcs} {time : Int} (hs : s.WithinShare)
    (h : s.returnBuffer vc = .ok s') (havailable : s.isAvailableFor v = true)
    (hfull : s.isFullFor time v = false) :
    s'.isAvailableFor v = true ∧ s'.isFullFor time v = false := by
  obtain ⟨hheld, policy, hpolicy, rfl⟩ := returnBuffer_ok.mp h
  have hne : v ≠ vc := by
    rintro rfl
    exact Bool.false_ne_true (hheld.symm.trans havailable)
  constructor
  · rw [isAvailableFor] at havailable ⊢
    simpa [withPolicy, owned, hne] using havailable
  · have hkeeps := (BufferPolicy.WithinShare.returnBuffer hs hpolicy).2 (s.vcOccupancy v) time v
    apply Bool.eq_false_iff.mpr
    intro hfull'
    exact Bool.false_ne_true (hfull.symm.trans (hkeeps hfull'))

end BufferState

end Flyover
