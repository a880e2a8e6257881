import Flyover.Pipeline.Confined

/-!
# Every channel waits once

A round takes away the request that it is about. So a channel never has two requests, and
one that is idle or empty has none.
-/

namespace Flyover

namespace Pipeline

variable {k vcs : Nat} {cfg : PipelineConfig k} {o : Outside k vcs}

/-- A round with its request taken away. -/
structure Settled (input : Fin 5) (vc : Fin vcs) (used : Fin 5 → Prop) (s s' : Pipeline k vcs) :
    Prop where
  now : s'.now = s.now
  buf : ∀ i v, ¬ (i = input ∧ v = vc) → s'.buf i v = s.buf i v
  noq : ∀ i v, ¬ (i = input ∧ v = vc) → s'.noqNext i v = s.noqNext i v
  others : ∀ i v, ¬ (i = input ∧ v = vc) → s'.waits i v = s.waits i v
  own : s'.waits input vc < s.waits input vc ∨
    s'.waits input vc ≤ s.waits input vc ∧ (s'.buf input vc).Busy
  shares : s.FairShares → s'.FairShares
  room : s.FairShares → ∀ out, ¬ used out → ∀ v, s.hasRoom out v = true → s'.hasRoom out v = true

section Rounds

variable {input : Fin 5} {vc : Fin vcs} {used : Fin 5 → Prop} {s t u : Pipeline k vcs}

theorem Proceeds.settled (h : Proceeds input vc used s t) (htouches : Touches input vc s t)
    (hnow : u.now = t.now)
    (hbuf : u.buf = t.buf) (hnext : u.nextBuf = t.nextBuf) (hnoq : u.noqNext = t.noqNext)
    (hwaits : ∀ i v, u.waits i v + (if i = input ∧ v = vc then 1 else 0) = t.waits i v) :
    Settled input vc used s u := by
  have hroom (out : Fin 5) (v : Fin vcs) : u.hasRoom out v = t.hasRoom out v := by
    rw [hasRoom, hasRoom, hnext, hnow]
  have hshares : t.FairShares → u.FairShares := fun ht out => hnext ▸ ht out
  have hothers : ∀ i v, ¬ (i = input ∧ v = vc) → u.waits i v = t.waits i v := by
    intro i v hother
    rw [← hwaits i v, if_neg hother]
    rfl
  have hbuf' : ∀ i v, ¬ (i = input ∧ v = vc) → u.buf i v = s.buf i v :=
    fun i v hother => hbuf ▸ htouches.buf i v hother
  have hown : u.waits input vc + 1 = t.waits input vc := by
    rw [← hwaits input vc, if_pos ⟨rfl, rfl⟩]
  rcases h with h | ⟨h, hbusy⟩
  · refine ⟨hnow.trans htouches.now, hbuf', fun i v hother => by rw [hnoq, h.noq i v hother],
      fun i v hother => (hothers i v hother).trans (h.others i v hother), .inl ?_,
      hshares ∘ h.shares, fun hs out hout v hv => (hroom out v).trans (h.room hs out hout v hv)⟩
    have := h.own
    omega
  · refine ⟨hnow.trans htouches.now, hbuf', fun i v hother => by rw [hnoq, h.noq i v hother],
      fun i v hother => (hothers i v hother).trans (h.others i v hother), .inr ⟨?_, hbuf ▸ hbusy⟩,
      hshares ∘ h.shares, fun hs out hout v hv => (hroom out v).trans (h.room hs out hout v hv)⟩
    have := h.own
    omega

/-- The request in front is taken away. -/
theorem countP_tail {α : Type} {queue : List (Entry vcs α)} {e : Entry vcs α}
    (hhead : queue.head? = some e) (i : Fin 5) (v : Fin vcs) :
    queue.tail.countP (Entry.isFor i v) + (if i = e.input ∧ v = e.vc then 1 else 0) =
      queue.countP (Entry.isFor i v) := by
  obtain ⟨rest, rfl⟩ := List.head?_eq_some_iff.mp hhead
  have hself : e.isFor i v = decide (i = e.input ∧ v = e.vc) := by simp [Entry.isFor, eq_comm]
  rw [List.tail_cons, List.countP_cons, hself]
  simp only [decide_eq_true_eq]

theorem Proceeds.popRoute {e : Entry vcs Unit} (h : Proceeds e.input e.vc used s t)
    (htouches : Touches e.input e.vc s t)
    (hhead : s.routeVCs.head? = some e) :
    Settled e.input e.vc used s { t with routeVCs := t.routeVCs.tail } := by
  refine h.settled htouches rfl rfl rfl rfl fun i v => ?_
  have := countP_tail (head?_of_begins h.appends.route.begins hhead) i v
  simp only [waits]
  omega

theorem Proceeds.popHold {e : Entry vcs Nat} (h : Proceeds e.input e.vc used s t)
    (htouches : Touches e.input e.vc s t)
    (hhead : s.swHoldVCs.head? = some e) :
    Settled e.input e.vc used s { t with swHoldVCs := t.swHoldVCs.tail } := by
  refine h.settled htouches rfl rfl rfl rfl fun i v => ?_
  have := countP_tail (head?_of_begins h.appends.hold.begins hhead) i v
  simp only [waits]
  omega

theorem Proceeds.popSwitch {e : Entry vcs Nat} (h : Proceeds e.input e.vc used s t)
    (htouches : Touches e.input e.vc s t)
    (hhead : s.swAllocVCs.head? = some e) :
    Settled e.input e.vc used s { t with swAllocVCs := t.swAllocVCs.tail } := by
  refine h.settled htouches rfl rfl rfl rfl fun i v => ?_
  have := countP_tail (head?_of_begins h.appends.switch.begins hhead) i v
  simp only [waits]
  omega

/-- The channel of a round has a flit in front. -/
theorem InputVC.buffer_ne_nil {c : InputVC k vcs} {f : Flit k vcs} (h : c.buffer.head? = some f) :
    c.buffer ≠ [] := by
  rintro hnil
  rw [hnil] at h
  exact nomatch h

theorem routeOne_settled {scheme : Scheme} {e : Entry vcs Unit}
    (hhead : s.routeVCs.head? = some e) :
    Yields (scheme.routeOne cfg o e s) fun t => Settled e.input e.vc (fun _ => False) s t ∧
      Lengthens s.swAllocVCs t.swAllocVCs := by
  apply Yields.bind_any; intro _
  apply Yields.bind_eq; intro f hf
  apply Yields.bind_any; intro _
  apply Yields.bind_any; intro _
  apply Yields.bind_any; intro _
  apply Yields.pure
  have hset : Confined e.input e.vc (fun _ => False) 0 s (s.modifyVC e.input e.vc fun c =>
      ((c.setRouteSet (o.route e.input f)).setState .vcAlloc).setRtime s.now) :=
    (Confined.refl s).modifyVC _
  have hrouted : Proceeds e.input e.vc (fun _ => False) s ((s.modifyVC e.input e.vc fun c =>
      ((c.setRouteSet (o.route e.input f)).setState .vcAlloc).setRtime s.now).enterAllocation cfg
        e.input e.vc) := by
    refine .inr ⟨hset.enterAllocation, ?_⟩
    unfold enterAllocation
    rw [modifyVC_self]
    exact Proceeds.setRtime_busy ⟨InputVC.buffer_ne_nil hf, nofun⟩
  have htouches : Touches e.input e.vc s ((s.modifyVC e.input e.vc fun c =>
      ((c.setRouteSet (o.route e.input f)).setState .vcAlloc).setRtime s.now).enterAllocation cfg
        e.input e.vc) := ((Touches.refl s).modifyVC fun _ _ => rfl).enterAllocation
  exact ⟨hrouted.popRoute htouches hhead, hrouted.appends.switch⟩

theorem swHoldOne_settled {e : Entry vcs Nat} (hhead : s.swHoldVCs.head? = some e) :
    Yields (swHoldOne cfg o e s) fun t => Settled e.input e.vc (Holds cfg s) s t ∧
      Lengthens s.swAllocVCs t.swAllocVCs := by
  apply Yields.bind_any; intro _
  apply Yields.bind_eq; intro f hf
  apply Yields.guarded; intro hactive
  apply Yields.bind_any; intro _
  apply Yields.bind_any; intro _
  have hbusy : (s.buf e.input e.vc).Busy :=
    ⟨InputVC.buffer_ne_nil hf, fun hidle => nomatch hactive.symm.trans hidle⟩
  have htouches : Yields (s.holdDecided cfg o e f) (Touches e.input e.vc s) := by
    unfold Pipeline.holdDecided
    split
    · exact Touches.holdSent
    · exact Touches.holdFailed
  refine Yields.bind ((Proceeds.holdDecided hbusy).both htouches) fun t ⟨ht, htouches⟩ => .pure ?_
  exact ⟨ht.popHold htouches hhead, ht.appends.switch⟩

theorem swAllocOne_settled {design : Design} {e : Entry vcs Nat}
    (hhead : s.swAllocVCs.head? = some e) :
    Yields (design.swAllocOne cfg o e s) fun t => Settled e.input e.vc (e.Uses cfg) s t ∧
      Lengthens s.swAllocVCs.tail t.swAllocVCs := by
  apply Yields.bind_any; intro _
  apply Yields.bind_eq; intro f hf
  apply Yields.guarded; intro hstage
  apply Yields.bind_any; intro _
  have hbusy : (s.buf e.input e.vc).Busy := by
    refine ⟨InputVC.buffer_ne_nil hf, fun hidle => ?_⟩
    rcases hstage with hactive | ⟨-, hvcAlloc⟩
    · exact nomatch hactive.symm.trans hidle
    · exact nomatch hvcAlloc.symm.trans hidle
  have htouches : Yields (design.swDecided cfg o e f s) (Touches e.input e.vc s) := by
    unfold Design.swDecided
    split
    · exact Touches.swGranted
    · unfold Design.swFailed
      split
      · exact .some ((Touches.refl s).withSWAlloc rfl rfl rfl rfl (.append _))
      · exact Touches.swFailed
  refine Yields.bind ((Proceeds.swDecided hbusy).both htouches) fun t ⟨ht, htouches⟩ => .pure ?_
  exact ⟨ht.popSwitch htouches hhead, ht.appends.switch.tail hhead⟩

end Rounds

/-! ### The invariant -/

/-- Every channel waits at most once, and one that has nothing to wait for does not. -/
structure Placed (s : Pipeline k vcs) : Prop where
  once : ∀ i v, s.waits i v ≤ 1
  busy : ∀ i v, 0 < s.waits i v → (s.buf i v).Busy
  shares : s.FairShares

namespace Placed

variable {input : Fin 5} {vc : Fin vcs} {used : Fin 5 → Prop} {s t : Pipeline k vcs}

theorem initial (nextBuf : Fin 5 → BufferState vcs) (hshares : ∀ out, (nextBuf out).WithinShare) :
    Placed (Pipeline.initial (k := k) nextBuf) :=
  ⟨fun _ _ => Nat.zero_le 1, fun _ _ hwaits => absurd hwaits (Nat.lt_irrefl 0), hshares⟩

/-- What one round preserves. -/
theorem settled (hs : Placed s) (h : Settled input vc used s t) : Placed t := by
  have hown : t.waits input vc ≤ 1 ∧ (0 < t.waits input vc → (t.buf input vc).Busy) := by
    have honce := hs.once input vc
    rcases h.own with hless | ⟨hle, hbusy⟩
    · exact ⟨by omega, fun hwaits => by omega⟩
    · exact ⟨hle.trans honce, fun _ => hbusy⟩
  refine ⟨fun i v => ?_, fun i v hwaits => ?_, h.shares hs.shares⟩
  · by_cases hself : i = input ∧ v = vc
    · obtain ⟨rfl, rfl⟩ := hself
      exact hown.1
    · rw [h.others i v hself]
      exact hs.once i v
  · by_cases hself : i = input ∧ v = vc
    · obtain ⟨rfl, rfl⟩ := hself
      exact hown.2 hwaits
    · rw [h.buf i v hself]
      rw [h.others i v hself] at hwaits
      exact hs.busy i v hwaits

/-- A channel that does not wait begins to. -/
theorem begins (hs : Placed s) (hfree : s.waits input vc = 0) (h : Proceeds input vc used s t)
    (htouches : Touches input vc s t) : Placed t := by
  have hplaced {n : Nat} (hconfined : Confined input vc used n s t)
      (hown : t.waits input vc ≤ 1 ∧ (0 < t.waits input vc → (t.buf input vc).Busy)) : Placed t := by
    refine ⟨fun i v => ?_, fun i v hwaits => ?_, hconfined.shares hs.shares⟩
    · by_cases hself : i = input ∧ v = vc
      · obtain ⟨rfl, rfl⟩ := hself
        exact hown.1
      · rw [hconfined.others i v hself]
        exact hs.once i v
    · by_cases hself : i = input ∧ v = vc
      · obtain ⟨rfl, rfl⟩ := hself
        exact hown.2 hwaits
      · rw [htouches.buf i v hself]
        rw [hconfined.others i v hself] at hwaits
        exact hs.busy i v hwaits
  rcases h with h | ⟨h, hbusy⟩
  · have hnone := h.own
    rw [hfree] at hnone
    exact hplaced h ⟨by omega, fun hwaits => by omega⟩
  · have hone := h.own
    rw [hfree] at hone
    exact hplaced h ⟨hone, fun _ => hbusy⟩

/-- The packet of a flit begins to wait if it was not on its way before. -/
theorem takeIn {f : Flit k vcs} (hs : Placed s) (hfull : (s.buf input f.vc).buffer ≠ [])
    (hidle : (s.buf input f.vc).state = .idle → s.waits input f.vc = 0)
    (hfirst : (s.buf input f.vc).buffer.length = 1 → s.waits input f.vc = 0) :
    Yields (s.takeIn cfg o input f) Placed := by
  have hown : Confined input f.vc (fun _ => False) 0 s s := .refl s
  refine (Yields.both ?_ (Touches.takeIn (.refl s) rfl)).mono
    (Q := fun t => (t = s ∨ s.waits input f.vc = 0 ∧ Proceeds input f.vc (fun _ => False) s t) ∧
      Touches input f.vc s t) ?_
  · unfold Pipeline.takeIn
    dsimp only
    split
    next hstate =>
      apply Yields.bind_any; intro _
      apply Yields.bind_any; intro _
      apply Yields.bind_any; intro _
      apply Yields.ite
      · exact fun _ => .pure (.inr ⟨hidle hstate, Proceeds.enterRouting hown hfull⟩)
      · intro _
        exact (Proceeds.useLookahead hown hfull).mono fun t ht => .inr ⟨hidle hstate, ht⟩
    next hstate =>
      apply Yields.ite
      · intro hlength
        have hbusy : (s.buf input f.vc).Busy := ⟨hfull, fun h => nomatch hstate.symm.trans h⟩
        apply Yields.ite
        · intro _
          exact .pure (.inr ⟨hfirst hlength, .inr ⟨hown.hold rfl rfl rfl rfl rfl rfl, hbusy⟩⟩)
        · intro _
          exact .pure (.inr ⟨hfirst hlength, .inr ⟨hown.switch rfl rfl rfl rfl rfl rfl, hbusy⟩⟩)
      · exact fun _ => .pure (.inl rfl)
    · exact .pure (.inl rfl)
    · exact .pure (.inl rfl)
  · rintro t ⟨rfl | ⟨hfree, ht⟩, htouches⟩
    · exact hs
    · exact hs.begins hfree ht htouches

theorem queueFlit (hs : Placed s) : Yields (s.queueFlit cfg o input) Placed := by
  unfold Pipeline.queueFlit
  split
  · exact .some hs
  next f hf =>
    apply Yields.bind_any; intro _
    apply Yields.bind_eq; intro c hc
    obtain ⟨pid, rfl⟩ := InputVC.addFlit_eq hc
    have hidle : ¬ (s.buf input f.vc).Busy → s.waits input f.vc = 0 := fun hnot =>
      Nat.eq_zero_of_not_pos fun hpos => hnot (hs.busy input f.vc hpos)
    -- the flit is in the buffer, and the stages do not know of it
    have hadded : Placed (s.modifyVC input f.vc fun _ => { s.buf input f.vc with
        buffer := (s.buf input f.vc).buffer ++ [{ f with rtime := s.now }]
        expectedPid := pid }) := by
      refine ⟨hs.once, fun i v hwaits => ?_, hs.shares⟩
      have hbusy := hs.busy i v hwaits
      by_cases hself : i = input ∧ v = f.vc
      · obtain ⟨rfl, rfl⟩ := hself
        rw [modifyVC_self]
        exact ⟨List.append_ne_nil_of_right_ne_nil _ (List.cons_ne_nil _ _), hbusy.2⟩
      · rw [modifyVC_of_ne s _ hself]
        exact hbusy
    apply takeIn hadded
    · rw [modifyVC_self]
      exact List.append_ne_nil_of_right_ne_nil _ (List.cons_ne_nil _ _)
    · intro hstate
      rw [modifyVC_self] at hstate
      exact hidle fun hbusy => hbusy.2 hstate
    · intro hlength
      rw [modifyVC_self] at hlength
      apply hidle
      rintro ⟨hbuffer, -⟩
      have := List.length_pos_iff.mpr hbuffer
      rw [List.length_append, List.length_singleton] at hlength
      omega

end Placed

end Pipeline

end Flyover
