import Flyover.Buffer.Policy

/-!
# What the subclasses of the shared policy keep

The records of a subclass are sound for a number of packets that are open and
an occupancy of every virtual channel: the limited policies count the packets,
and the feedback policies have the time of every flit that is outstanding. One
lemma for each operation says that it succeeds and leaves sound records.
-/

namespace Flyover

variable {vcs : Nat}

namespace LimitedSharedBufferPolicy

variable {p p' : LimitedSharedBufferPolicy} {n : Nat}

theorem takeBuffer_eq (h : p.activeVCs < vcs) :
    p.takeBuffer vcs = .ok { p with activeVCs := p.activeVCs + 1 } :=
  ensure_bind_ok.mpr ⟨by omega, rfl⟩

theorem returnBuffer_eq (h : 0 < p.activeVCs) :
    p.returnBuffer = .ok { p with activeVCs := p.activeVCs - 1 } :=
  ensure_bind_ok.mpr ⟨by omega, rfl⟩

theorem sendingFlit_eq (tail : Bool) (h : 0 < p.activeVCs) :
    p.sendingFlit tail =
      .ok { p with activeVCs := if tail then p.activeVCs - 1 else p.activeVCs } := by
  cases tail with
  | false => rfl
  | true => exact returnBuffer_eq h

theorem resize_ok {held : Int → Int} {changed : Bool} :
    p.resize held changed = .ok p' ↔
      0 < p'.maxHeldSlots ∧
        p' = { p with maxHeldSlots := if changed then held p.activeVCs else p.maxHeldSlots } := by
  cases changed with
  | false =>
      refine ensure_bind_ok.trans ⟨?_, ?_⟩
      · rintro ⟨hpos, hp⟩
        obtain rfl := pure_ok.mp hp
        exact ⟨hpos, rfl⟩
      · rintro ⟨hpos, rfl⟩
        exact ⟨hpos, rfl⟩
  | true =>
      refine ensure_bind_ok.trans ⟨?_, ?_⟩
      · rintro ⟨hpos, hp⟩
        obtain rfl := pure_ok.mp hp
        exact ⟨hpos, rfl⟩
      · rintro ⟨hpos, rfl⟩
        exact ⟨hpos, rfl⟩

/-- With `n` open packets the bound of a dynamic policy is the one for `n`. -/
structure Follows (held : Int → Int) (n : Nat) (p : LimitedSharedBufferPolicy) : Prop where
  active : p.activeVCs = n
  bound : 0 < n → p.maxHeldSlots = held n
  pos : 0 < n → 0 < held n

/-- An operation after which `m` packets are open leaves the bound for `m`. -/
theorem Follows.exists_resize {held : Int → Int} {changed : Bool} {n m : Nat}
    (hp : p.Follows held n) (hn : changed = false → 0 < n) (hpos : 0 < m → 0 < held m)
    (hchanged : changed = true ↔ m ≠ n ∧ 0 < m) :
    ∃ p', resize held changed { p with activeVCs := m } = .ok p' ∧ p'.Follows held m := by
  cases changed with
  | true =>
      have hm := (hchanged.mp rfl).2
      exact ⟨_, resize_ok.mpr ⟨hpos hm, rfl⟩, rfl, fun _ => rfl, hpos⟩
  | false =>
      have hbound := hp.bound (hn rfl)
      refine ⟨_, resize_ok.mpr ⟨?_, rfl⟩, rfl, ?_, hpos⟩
      · rw [if_neg Bool.false_ne_true]
        dsimp only
        rw [hbound]
        exact hp.pos (hn rfl)
      · intro hm
        have hmn : m = n := by
          by_contra hne
          exact Bool.false_ne_true (hchanged.mpr ⟨hne, hm⟩)
        rw [hmn]
        exact hbound

/-- The packets that are open when a flit is sent. -/
def openAfter (n : Nat) (tail : Bool) : Nat := if tail then n - 1 else n

theorem sendingFlit_open (tail : Bool) (hn : 0 < n) (hactive : p.activeVCs = n) :
    p.sendingFlit tail = .ok { p with activeVCs := (openAfter n tail : Nat) } := by
  rw [sendingFlit_eq tail (by omega), hactive]
  cases tail with
  | false => rfl
  | true =>
      have hpred : (n : Int) - 1 = (n - 1 : Nat) := by omega
      rw [if_pos rfl, hpred]
      rfl

theorem returnBuffer_open (hn : 0 < n) (hactive : p.activeVCs = n) :
    p.returnBuffer = .ok { p with activeVCs := (n - 1 : Nat) } :=
  sendingFlit_open true hn hactive

/-! Both dynamic policies: their bounds differ, the operations do not. -/

section Dynamic

variable (held : Int → Int)

/-- Fewer packets do not leave a smaller bound. -/
def Shrinks : Prop := ∀ n m : Nat, 0 < m → m ≤ n → 0 < held n → 0 < held m

theorem Follows.exists_takeBuffer (hp : p.Follows held n) (hn : n < vcs)
    (hpos : 0 < held (n + 1)) :
    p.takeBuffer vcs = .ok { p with activeVCs := (n + 1 : Nat) } ∧
      ∃ p', resize held true { p with activeVCs := (n + 1 : Nat) } = .ok p' ∧
        p'.Follows held (n + 1) := by
  constructor
  · rw [takeBuffer_eq (by have := hp.active; omega), hp.active]
    rfl
  · exact hp.exists_resize (m := n + 1) nofun (fun _ => hpos) (by simp)

theorem Follows.exists_sendingFlit (hp : p.Follows held n) (hheld : Shrinks held) (hn : 0 < n)
    (tail : Bool) :
    ∃ p', (do
        let p ← p.sendingFlit tail
        p.resize held (tail && p.activeVCs != 0)) = .ok p' ∧
      p'.Follows held (openAfter n tail) := by
  have hchanged : (tail && ((openAfter n tail : Nat) : Int) != 0) = true ↔
      openAfter n tail ≠ n ∧ 0 < openAfter n tail := by
    cases tail with
    | false => simp [openAfter]
    | true =>
        simp [openAfter]
        omega
  have hle : openAfter n tail ≤ n := by
    cases tail
    · exact le_rfl
    · exact Nat.sub_le n 1
  obtain ⟨p', hp', hfollows⟩ := hp.exists_resize (fun _ => hn)
    (fun hm => hheld n _ hm hle (hp.pos hn)) hchanged
  exact ⟨p', bind_ok.mpr ⟨_, sendingFlit_open tail hn hp.active, hp'⟩, hfollows⟩

theorem Follows.exists_returnBuffer (hp : p.Follows held n) (hheld : Shrinks held) (hn : 0 < n)
    (changed : Int → Bool) (hchanged : ∀ m : Nat, changed m = true ↔ 0 < m) :
    ∃ p', (do
        let p ← p.returnBuffer
        p.resize held (changed p.activeVCs)) = .ok p' ∧
      p'.Follows held (n - 1) := by
  obtain ⟨p', hp', hfollows⟩ := hp.exists_resize (m := n - 1) (fun _ => hn)
    (fun hm => hheld n _ hm (Nat.sub_le n 1) (hp.pos hn))
    ((hchanged (n - 1)).trans ⟨fun hm => ⟨by omega, hm⟩, fun hm => hm.2⟩)
  exact ⟨p', bind_ok.mpr ⟨_, returnBuffer_open hn hp.active, hp'⟩, hfollows⟩

end Dynamic

end LimitedSharedBufferPolicy

/-! ### The bounds of the dynamic policies -/

theorem DynamicLimitedSharedBufferPolicy.shrinks_held (bufSize : Int) :
    LimitedSharedBufferPolicy.Shrinks (held bufSize) := by
  intro n m hm hle hpos
  have hn : (n : Int) ≤ bufSize := by
    have := (Int.le_ediv_iff_mul_le (a := 1) (by omega : (0 : Int) < n)).mp hpos
    omega
  exact (Int.le_ediv_iff_mul_le (a := 1) (by omega)).mpr (by omega)

namespace ShiftingDynamicLimitedSharedBufferPolicy

theorem shift_le {m : Int} (hm : 0 ≤ m) (i : Nat) : shift m i ≤ m := by
  induction i using Nat.strong_induction_on generalizing m with
  | _ i ih =>
      rw [shift]
      split
      next => exact le_rfl
      next hi =>
        have hhalf : shift (m / 2) (i / 2) ≤ m / 2 := ih (i / 2) (by omega) (by omega)
        omega

theorem shift_anti {m : Int} (hm : 0 ≤ m) {i j : Nat} (hle : j ≤ i) : shift m i ≤ shift m j := by
  induction i using Nat.strong_induction_on generalizing m j with
  | _ i ih =>
      rw [shift.eq_1 m j]
      split
      next => exact shift_le hm i
      next hj =>
        rw [shift, if_neg (by omega)]
        exact ih (i / 2) (by omega) (by omega) (by omega)

theorem shrinks_held {bufSize : Int} (hsize : 0 ≤ bufSize) :
    LimitedSharedBufferPolicy.Shrinks (held bufSize) := by
  intro n m _ hle hpos
  exact Int.lt_of_lt_of_le hpos (shift_anti hsize (by omega))

end ShiftingDynamicLimitedSharedBufferPolicy

/-! ### The records of the feedback policies -/

theorem FeedbackSharedBufferPolicy.exists_freeSlotFor (config : FeedbackConfig)
    {p : FeedbackSharedBufferPolicy vcs} (time : Int) {vc : Fin vcs}
    (htimes : p.flitSentTime vc ≠ []) :
    ∃ p', p.freeSlotFor config time vc = .ok p' ∧
      p'.flitSentTime = Function.update p.flitSentTime vc (p.flitSentTime vc).tail := by
  obtain ⟨sent, rest, hcons⟩ := List.exists_cons_of_ne_nil htimes
  rw [freeSlotFor, hcons]
  exact ⟨_, rfl, rfl⟩

namespace SimpleFeedbackSharedBufferPolicy

variable {p : SimpleFeedbackSharedBufferPolicy vcs}

/-- Credits are counted off only while a probe is out. -/
def Probing (p : SimpleFeedbackSharedBufferPolicy vcs) : Prop :=
  ∀ vc, 0 < p.pendingCredits vc → p.flitSentTime vc ≠ []

theorem Probing.exists_sendingFlit (hp : p.Probing) {occupancy : Int} (hocc : 0 < occupancy)
    (time : Int) (vc : Fin vcs) :
    ∃ p', p.sendingFlit occupancy time vc = .ok p' ∧ p'.Probing := by
  unfold sendingFlit
  split
  next hnil =>
    refine ⟨_, ensure_bind_ok.mpr ⟨hocc, rfl⟩, ?_⟩
    intro u hu
    dsimp only [FeedbackSharedBufferPolicy.sendingFlit] at hu ⊢
    by_cases huv : u = vc
    · subst huv
      rw [Function.update_self]
      exact List.append_ne_nil_of_right_ne_nil _ (List.cons_ne_nil _ _)
    · rw [Function.update_of_ne huv] at hu ⊢
      exact hp u hu
  next => exact ⟨p, rfl, hp⟩

theorem Probing.exists_freeSlotFor (hp : p.Probing) (config : FeedbackConfig) (time : Int)
    (vc : Fin vcs) : ∃ p', p.freeSlotFor config time vc = .ok p' ∧ p'.Probing := by
  unfold freeSlotFor
  split
  next hprobe =>
    obtain ⟨f, hf, htimes⟩ :=
      FeedbackSharedBufferPolicy.exists_freeSlotFor config time hprobe.1
    refine ⟨_, bind_ok.mpr ⟨f, hf, rfl⟩, ?_⟩
    intro u hu
    dsimp only at hu ⊢
    have huv : u ≠ vc := by
      rintro rfl
      rw [hprobe.2] at hu
      exact Int.lt_irrefl 0 hu
    rw [htimes, Function.update_of_ne huv]
    exact hp u hu
  next =>
    split
    next hpending =>
      refine ⟨_, ensure_bind_ok.mpr ⟨hp vc hpending, rfl⟩, ?_⟩
      intro u hu
      dsimp only at hu ⊢
      by_cases huv : u = vc
      · subst huv
        exact hp u hpending
      · rw [Function.update_of_ne huv] at hu
        exact hp u hu
    next => exact ⟨p, rfl, hp⟩

end SimpleFeedbackSharedBufferPolicy

/-! ### All of them -/

namespace SharedExtension

/-- One more virtual channel can be taken: a dynamic policy still lets every
active one hold a slot. -/
def TakesOneMore (bufSize : Int) : SharedExtension vcs → Prop
  | dynamic p => 0 < DynamicLimitedSharedBufferPolicy.held bufSize (p.activeVCs + 1)
  | shifting p => 0 < ShiftingDynamicLimitedSharedBufferPolicy.held bufSize (p.activeVCs + 1)
  | _ => True

/-- The records are those of `n` open packets and an occupancy. -/
def Sound (bufSize : Int) (n : Nat) (occupancy : Fin vcs → Int) : SharedExtension vcs → Prop
  | shared => True
  | limited p => p.activeVCs = n
  | dynamic p => p.Follows (DynamicLimitedSharedBufferPolicy.held bufSize) n
  | shifting p => p.Follows (ShiftingDynamicLimitedSharedBufferPolicy.held bufSize) n
  | feedback _ p => ∀ vc, occupancy vc ≤ (p.flitSentTime vc).length
  | simpleFeedback _ p => p.Probing

variable {bufSize : Int} {n : Nat} {occupancy : Fin vcs → Int} {ext : SharedExtension vcs}

open LimitedSharedBufferPolicy

theorem Sound.mono {less : Fin vcs → Int} (hsound : ext.Sound bufSize n occupancy)
    (hless : ∀ vc, less vc ≤ occupancy vc) : ext.Sound bufSize n less := by
  cases ext with
  | shared => trivial
  | limited p => exact hsound
  | dynamic p => exact hsound
  | shifting p => exact hsound
  | feedback config p => exact fun vc => (hless vc).trans (hsound vc)
  | simpleFeedback config p => exact hsound

theorem exists_takeBuffer (hsound : ext.Sound bufSize n occupancy) (hn : n < vcs)
    (htakes : ext.TakesOneMore bufSize) :
    ∃ ext', ext.takeBuffer bufSize = .ok ext' ∧ ext'.Sound bufSize (n + 1) occupancy := by
  cases ext with
  | shared => exact ⟨shared, rfl, trivial⟩
  | limited p =>
      have hactive : p.activeVCs = n := hsound
      refine ⟨_, bind_ok.mpr ⟨_, takeBuffer_eq (by omega), rfl⟩, ?_⟩
      exact congrArg (· + 1) hactive
  | dynamic p =>
      rw [TakesOneMore, hsound.active] at htakes
      obtain ⟨htake, p', hp', hfollows⟩ := Follows.exists_takeBuffer _ hsound hn htakes
      refine ⟨dynamic p', bind_ok.mpr ⟨p', bind_ok.mpr ⟨_, htake, ?_⟩, rfl⟩, hfollows⟩
      exact ensure_bind_ok.mpr ⟨by dsimp only; omega, hp'⟩
  | shifting p =>
      rw [TakesOneMore, hsound.active] at htakes
      obtain ⟨htake, p', hp', hfollows⟩ := Follows.exists_takeBuffer _ hsound hn htakes
      refine ⟨shifting p', bind_ok.mpr ⟨p', bind_ok.mpr ⟨_, htake, ?_⟩, rfl⟩, hfollows⟩
      exact ensure_bind_ok.mpr ⟨by dsimp only; omega, hp'⟩
  | feedback config p => exact ⟨feedback config p, rfl, hsound⟩
  | simpleFeedback config p => exact ⟨simpleFeedback config p, rfl, hsound⟩

theorem exists_sendingFlit (hsound : ext.Sound bufSize n occupancy) (hsize : 0 ≤ bufSize)
    (hn : 0 < n) (time : Int) (vc : Fin vcs) (hocc : 0 ≤ occupancy vc) (tail : Bool) :
    ∃ ext', ext.sendingFlit bufSize (occupancy vc + 1) time vc tail = .ok ext' ∧
      ext'.Sound bufSize (openAfter n tail) (Function.update occupancy vc (occupancy vc + 1)) := by
  cases ext with
  | shared => exact ⟨shared, rfl, trivial⟩
  | limited p => exact ⟨_, bind_ok.mpr ⟨_, sendingFlit_open tail hn hsound, rfl⟩, rfl⟩
  | dynamic p =>
      obtain ⟨p', hp', hfollows⟩ := Follows.exists_sendingFlit _ hsound
        (DynamicLimitedSharedBufferPolicy.shrinks_held bufSize) hn tail
      exact ⟨dynamic p', bind_ok.mpr ⟨p', hp', rfl⟩, hfollows⟩
  | shifting p =>
      obtain ⟨p', hp', hfollows⟩ := Follows.exists_sendingFlit _ hsound
        (ShiftingDynamicLimitedSharedBufferPolicy.shrinks_held hsize) hn tail
      exact ⟨shifting p', bind_ok.mpr ⟨p', hp', rfl⟩, hfollows⟩
  | feedback config p =>
      refine ⟨_, rfl, ?_⟩
      intro u
      dsimp only [FeedbackSharedBufferPolicy.sendingFlit]
      by_cases hu : u = vc
      · subst hu
        have := hsound u
        rw [Function.update_self, Function.update_self, List.length_append, List.length_singleton]
        omega
      · rw [Function.update_of_ne hu, Function.update_of_ne hu]
        exact hsound u
  | simpleFeedback config p =>
      obtain ⟨p', hp', hprobing⟩ := hsound.exists_sendingFlit
        (show 0 < occupancy vc + 1 by omega) time vc
      exact ⟨simpleFeedback config p', bind_ok.mpr ⟨p', hp', rfl⟩, hprobing⟩

theorem exists_returnBuffer (hsound : ext.Sound bufSize n occupancy) (hsize : 0 ≤ bufSize)
    (hn : 0 < n) :
    ∃ ext', ext.returnBuffer bufSize = .ok ext' ∧ ext'.Sound bufSize (n - 1) occupancy := by
  cases ext with
  | shared => exact ⟨shared, rfl, trivial⟩
  | limited p => exact ⟨_, bind_ok.mpr ⟨_, returnBuffer_open hn hsound, rfl⟩, rfl⟩
  | dynamic p =>
      obtain ⟨p', hp', hfollows⟩ := Follows.exists_returnBuffer _ hsound
        (DynamicLimitedSharedBufferPolicy.shrinks_held bufSize) hn
        (fun active => decide (active > 0)) (by simp)
      exact ⟨dynamic p', bind_ok.mpr ⟨p', hp', rfl⟩, hfollows⟩
  | shifting p =>
      obtain ⟨p', hp', hfollows⟩ := Follows.exists_returnBuffer _ hsound
        (ShiftingDynamicLimitedSharedBufferPolicy.shrinks_held hsize) hn
        (fun active => active != 0) (by simp [Nat.pos_iff_ne_zero])
      exact ⟨shifting p', bind_ok.mpr ⟨p', hp', rfl⟩, hfollows⟩
  | feedback config p => exact ⟨feedback config p, rfl, hsound⟩
  | simpleFeedback config p => exact ⟨simpleFeedback config p, rfl, hsound⟩

theorem exists_freeSlotFor (hsound : ext.Sound bufSize n occupancy) (time : Int) (vc : Fin vcs)
    (hocc : 0 < occupancy vc) :
    ∃ ext', ext.freeSlotFor time vc = .ok ext' ∧
      ext'.Sound bufSize n (Function.update occupancy vc (occupancy vc - 1)) := by
  cases ext with
  | shared => exact ⟨shared, rfl, trivial⟩
  | limited p => exact ⟨limited p, rfl, hsound⟩
  | dynamic p => exact ⟨dynamic p, rfl, hsound⟩
  | shifting p => exact ⟨shifting p, rfl, hsound⟩
  | feedback config p =>
      have hlen := hsound vc
      have hne : p.flitSentTime vc ≠ [] := by
        intro hnil
        rw [hnil, List.length_nil] at hlen
        omega
      obtain ⟨p', hp', htimes⟩ :=
        FeedbackSharedBufferPolicy.exists_freeSlotFor config time hne
      refine ⟨feedback config p', bind_ok.mpr ⟨p', hp', rfl⟩, ?_⟩
      intro u
      rw [htimes]
      by_cases hu : u = vc
      · subst hu
        rw [Function.update_self, Function.update_self, List.length_tail]
        omega
      · rw [Function.update_of_ne hu, Function.update_of_ne hu]
        exact hsound u
  | simpleFeedback config p =>
      obtain ⟨p', hp', hprobing⟩ := hsound.exists_freeSlotFor config time vc
      exact ⟨simpleFeedback config p', bind_ok.mpr ⟨p', hp', rfl⟩, hprobing⟩

end SharedExtension

end Flyover
