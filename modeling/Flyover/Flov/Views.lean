import Flyover.Flov.PortMove

/-!
# What routers know of each other

Each router shows its neighbours a view of its side of the mesh: itself while it
is on, and what it knows of the next routers while it is off. The invariant is
that a port's entry, brought up to date with the handshakes still on their way
to it, is what the neighbour shows. Once nothing is on its way and every router
is on or off, the entries are therefore true along every row and column.
-/

namespace Flyover.FLOVRouter

variable {k : Nat}

/-- The logical neighbour of a direction without one is -1. -/
structure View.Valid (v : View) : Prop where
  off : v.downstreamState = .powerOff → v.logicalNeighbor = -1
  on : v.downstreamState = .powerOn ∨ v.downstreamState = .draining → 0 ≤ v.logicalNeighbor

/-- A handshake that may arrive where the downstream state is `ds`. -/
structure Sound (ds : PowerState) (h : Handshake) : Prop where
  off : h.newState = some .powerOff → h.logicalNeighbor < 0
  on : h.newState = some .powerOn ∨ h.newState = some .draining →
    0 ≤ h.logicalNeighbor ∨ ds = .powerOn ∨ ds = .draining
  none : h.newState = none → h.logicalNeighbor < 0 ∨ ds = .wakeup

/-- A row of handshakes, each of which may arrive when it does. -/
def Stream (n : Node k) (v : View) : List Handshake → Prop
  | [] => True
  | h :: rest => Sound v.downstreamState h ∧ Stream n (v.update n h) rest

/-- The entry after a row of handshakes. -/
def updated (n : Node k) (v : View) (msgs : List Handshake) : View :=
  msgs.foldl (View.update n) v

/-- What router `m` in power state `ps` shows of a direction, of which it knows `v`. -/
def shown (m : Node k) (ps : PowerState) (v : View) : View :=
  match ps with
  | .powerOn => ⟨.powerOn, m.val, .powerOn⟩
  | .draining => ⟨.draining, m.val, .draining⟩
  | .wakeup => ⟨.wakeup, -1, .wakeup⟩
  | .powerOff => { v with neighborState := .powerOff }

/-- Two views agree, up to the logical neighbour of a router that wakes up. -/
structure Agrees (w v : View) : Prop where
  downstreamState : w.downstreamState = v.downstreamState
  logicalNeighbor : v.downstreamState ≠ .wakeup → w.logicalNeighbor = v.logicalNeighbor
  neighborState : w.neighborState = v.neighborState

theorem View.Valid.update {n : Node k} {v : View} {h : Handshake} (hv : View.Valid v)
    (hh : Sound v.downstreamState h) : View.Valid (v.update n h) := by
  have hdownstream : (v.update n h).downstreamState = h.newState.getD v.downstreamState := rfl
  have hlogical : (v.update n h).logicalNeighbor =
      if 0 ≤ h.logicalNeighbor then h.logicalNeighbor
      else if h.newState.getD v.downstreamState = .powerOff then -1
      else v.logicalNeighbor := rfl
  constructor
  · intro hoff
    rw [hdownstream] at hoff
    have hnone : h.logicalNeighbor < 0 := by
      cases hnew : h.newState with
      | none =>
          rw [hnew] at hoff
          refine (hh.none hnew).resolve_right fun hwakeup => ?_
          simp [hwakeup] at hoff
      | some s =>
          rw [hnew] at hoff
          exact hh.off (hnew.trans (congrArg some hoff))
    rw [hlogical, if_neg (by omega), if_pos hoff]
  · intro hon
    rw [hdownstream] at hon
    rw [hlogical]
    split
    next hsome => exact hsome
    next hnone =>
      have hknown : v.downstreamState = .powerOn ∨ v.downstreamState = .draining := by
        cases hnew : h.newState with
        | none => simpa [hnew] using hon
        | some s =>
            rw [hnew] at hon
            exact (hh.on (hnew ▸ hon.imp (congrArg some) (congrArg some))).resolve_left hnone
      rw [if_neg (by rcases hon with hon | hon <;> simp [hon])]
      exact hv.on hknown

/-- A handshake that changes no state and names no logical neighbour changes nothing. -/
theorem update_of_none {n : Node k} {v : View} {h : Handshake}
    (hv : v.downstreamState = .powerOff → v.logicalNeighbor = -1) (hnew : h.newState = none) (hlogical : h.logicalNeighbor < 0) : v.update n h = v := by
  have hkept : (if v.downstreamState = .powerOff then -1 else v.logicalNeighbor) =
      v.logicalNeighbor := by
    split
    next hoff => exact (hv hoff).symm
    next => rfl
  unfold View.update
  rw [if_neg (by omega : ¬ 0 ≤ h.logicalNeighbor), hnew]
  simp [hkept]

/-- An off router and its neighbour make the same of a handshake that is relayed. -/
theorem Agrees.relay {n m : Node k} {w v : View} {h t : Handshake}
    (hagree : Agrees w (shown m .powerOff v)) (hh : Sound v.downstreamState h)
    (hnew : t.newState = h.newState) (hlogical : t.logicalNeighbor = h.logicalNeighbor)
    (hfar : Router.adjacentTo n t.id = false) :
    Agrees (w.update n t) (shown m .powerOff (v.update m h)) := by
  have hsame : w.downstreamState = v.downstreamState := hagree.downstreamState
  refine ⟨?_, ?_, ?_⟩
  · simp [shown, View.update, hnew, hsame]
  · simp only [shown, View.update, hnew, hlogical, hsame]
    intro hawake
    split
    next => rfl
    next hnone =>
      split
      next => rfl
      next hon =>
        apply hagree.logicalNeighbor
        intro hwakeup
        have hwakeup : v.downstreamState = .wakeup := hwakeup
        cases hstate : h.newState with
        | none => simp [hstate, hwakeup] at hawake
        | some s =>
            cases s with
            | powerOff => simp [hstate] at hon
            | wakeup => simp [hstate] at hawake
            | powerOn => simpa [hwakeup, hnone] using hh.on (.inl hstate)
            | draining => simpa [hwakeup, hnone] using hh.on (.inr hstate)
  · simp only [shown, View.update, hfar, Bool.and_false, Bool.false_eq_true, if_false]
    exact hagree.neighborState

theorem announcement_sound {m : Node k} {ps ps' : PowerState} {v v' w : View} {t : Handshake}
    {hid : Int} (hagree : Agrees w (shown m ps v)) (hchange : Transition ps ps')
    (hv' : View.Valid v') (hnew : t.newState = (announcement m ps ps' v' hid).newState)
    (hlogical : t.logicalNeighbor = (announcement m ps ps' v' hid).logicalNeighbor) :
    Sound w.downstreamState t := by
  have hown := hagree.downstreamState
  cases hchange <;> simp only [shown] at hown <;>
    constructor <;> simp [hnew, hlogical, announcement, hown]
  case powerDown.off =>
    intro hoff
    rw [hv'.off hoff]
    decide

/-- An announcement tells a neighbour what is shown from now on. -/
theorem Agrees.announce {n m : Node k} {ps ps' : PowerState} {v v' w : View} {t : Handshake}
    {hid : Int} (hagree : Agrees w (shown m ps v)) (hchange : Transition ps ps')
    (hv' : View.Valid v') (hnew : t.newState = (announcement m ps ps' v' hid).newState)
    (hsrc : t.srcState = (announcement m ps ps' v' hid).srcState)
    (hlogical : t.logicalNeighbor = (announcement m ps ps' v' hid).logicalNeighbor)
    (hnear : Router.adjacentTo n t.id = true) :
    Agrees (w.update n t) (shown m ps' v') := by
  have hown := hagree.logicalNeighbor
  cases hchange with
  | startDraining =>
      refine ⟨?_, fun _ => ?_, ?_⟩ <;>
        simp_all [View.update, announcement, shown]
  | stopDraining =>
      refine ⟨?_, fun _ => ?_, ?_⟩ <;>
        simp_all [View.update, announcement, shown]
  | powerDown =>
      refine ⟨?_, fun hawake => ?_, ?_⟩
      · simp [View.update, announcement, shown, hnew]
      · simp only [View.update, announcement, shown, hnew, hlogical, if_true, Option.getD_some]
          at hawake ⊢
        split
        next => rfl
        next hnone =>
          cases hstate : v'.downstreamState with
          | powerOff => simp [hv'.off hstate]
          | wakeup => exact absurd hstate hawake
          | powerOn => exact absurd (hv'.on (.inl hstate)) hnone
          | draining => exact absurd (hv'.on (.inr hstate)) hnone
      · simp [View.update, announcement, shown, hnew, hsrc, hnear]
  | startWakeup =>
      refine ⟨?_, fun hawake => absurd rfl hawake, ?_⟩ <;>
        simp [View.update, announcement, shown, hnew, hsrc, hnear]
  | finishWakeup =>
      refine ⟨?_, fun _ => ?_, ?_⟩ <;>
        simp [View.update, announcement, shown, hnew, hsrc, hlogical, hnear]

/-- A handshake that was queued is sent, up to an acknowledgement. -/
theorem Responds.of_some {n : Node k} {ps : PowerState} {e e' : PortState} {q : Handshake}
    {tx : Option Handshake} (h : Responds n ps e (some q) e' tx) :
    ∃ t, tx = some t ∧ t.newState = q.newState ∧ t.srcState = q.srcState ∧
      t.logicalNeighbor = q.logicalNeighbor ∧ (t.id = q.id ∨ t.id = n.val) := by
  cases h with
  | silent => exact ⟨q, rfl, rfl, rfl, rfl, .inl rfl⟩
  | answer => exact ⟨_, rfl, rfl, rfl, rfl, .inr rfl⟩

/-- With nothing queued, nothing is sent but an acknowledgement. -/
theorem Responds.of_none {n : Node k} {ps : PowerState} {e e' : PortState}
    {tx : Option Handshake} (h : Responds n ps e none e' tx) :
    ∀ t ∈ tx, Waiting e ∧ t.newState = none ∧ t.logicalNeighbor < 0 ∧ t.id = n.val := by
  cases h with
  | silent => nofun
  | answer _ hwaiting =>
      intro t ht
      obtain rfl := Option.mem_some.mp ht
      exact ⟨hwaiting, rfl, (by decide : (-1 : Int) < 0), rfl⟩

/-- A router that is off or wakes up answers nobody. -/
theorem Responds.of_gated {n : Node k} {ps : PowerState} {e e' : PortState}
    {queued tx : Option Handshake} (h : Responds n ps e queued e' tx)
    (hps : ps = .powerOff ∨ ps = .wakeup) : tx = queued := by
  cases h with
  | silent => rfl
  | answer hon => rcases hps with rfl | rfl <;> simp at hon

section Speak

variable {n m : Node k} {p : Port} {w v : View}

/-- Acknowledgements say nothing about states. -/
theorem Agrees.acknowledge {s : View} {tx : Option Handshake} (hagree : Agrees w s)
    (hon : s.downstreamState = .powerOn ∨ s.downstreamState = .draining)
    (htx : ∀ t ∈ tx, t.newState = none ∧ t.logicalNeighbor < 0) :
    (∀ t ∈ tx, Sound w.downstreamState t) ∧ Agrees (tx.elim w (w.update n)) s := by
  have hown := hagree.downstreamState
  cases tx with
  | none => exact ⟨nofun, hagree⟩
  | some t =>
      obtain ⟨hnew, hlogical⟩ := htx t rfl
      constructor
      · intro t' ht'
        obtain rfl := Option.mem_some.mp ht'
        exact ⟨by simp [hnew], by simp [hnew], fun _ => .inl hlogical⟩
      · rw [Option.elim_some, update_of_none ?_ hnew hlogical]
        · exact hagree
        · rw [hown]
          rcases hon with hon | hon <;> simp [hon]

/-- What a waking router forwards leaves it waking. -/
theorem Agrees.forward {tx : Option Handshake} (hagree : Agrees w (shown m .wakeup v))
    (htx : ∀ t ∈ tx, t.newState = none) :
    (∀ t ∈ tx, Sound w.downstreamState t) ∧
      Agrees (tx.elim w (w.update n)) (shown m .wakeup v) := by
  have hown : w.downstreamState = .wakeup := hagree.downstreamState
  cases tx with
  | none => exact ⟨nofun, hagree⟩
  | some t =>
      have hnew := htx t rfl
      constructor
      · intro t' ht'
        obtain rfl := Option.mem_some.mp ht'
        exact ⟨by simp [hnew], by simp [hnew], fun _ => .inr hown⟩
      · refine ⟨?_, fun hawake => absurd rfl hawake, ?_⟩
        · simp [View.update, hnew, hown, shown]
        · simpa [View.update, hnew] using hagree.neighborState

/-- What an off router relays, and what it drops. -/
theorem Agrees.relayed {rx : Option Handshake} {isWaiting : Bool}
    (hagree : Agrees w (shown m .powerOff v)) (hv : View.Valid v)
    (hrx : ∀ h ∈ rx, Sound v.downstreamState h)
    (hfar : ∀ h ∈ rx, Router.adjacentTo n h.id = false) :
    (∀ t ∈ rx.bind (Router.relayed isWaiting), Sound w.downstreamState t) ∧
      Agrees ((rx.bind (Router.relayed isWaiting)).elim w (w.update n))
        (shown m .powerOff (rx.elim v (v.update m))) := by
  have hown : w.downstreamState = v.downstreamState := hagree.downstreamState
  cases rx with
  | none => exact ⟨nofun, hagree⟩
  | some h =>
      have hh := hrx h rfl
      rw [Option.bind_some]
      cases hrelayed : Router.relayed isWaiting h with
      | none =>
          have hnew : h.newState = none := by
            unfold Router.relayed at hrelayed
            dsimp only at hrelayed
            split at hrelayed <;> split at hrelayed <;> simp_all
          refine ⟨nofun, ?_⟩
          by_cases hwakeup : v.downstreamState = .wakeup
          · refine ⟨?_, fun hawake => absurd ?_ hawake, hagree.neighborState⟩
            · simp [shown, View.update, hnew, hown]
            · simp [shown, View.update, hnew, hwakeup]
          · have hlogical := (hh.none hnew).resolve_right hwakeup
            rw [Option.elim_some, update_of_none hv.off hnew hlogical]
            exact hagree
      | some t =>
          obtain ⟨hnew, -, hlogical, hid⟩ := relayed_kept hrelayed
          constructor
          · intro t' ht'
            obtain rfl := Option.mem_some.mp ht'
            rw [hown]
            exact ⟨by rw [hnew, hlogical]; exact hh.off, by rw [hnew, hlogical]; exact hh.on,
              by rw [hnew, hlogical]; exact hh.none⟩
          · exact hagree.relay hh hnew hlogical (hid ▸ hfar h rfl)

/-- One cycle of a router as its neighbour at the inner port `p` sees it; what the
router knows of the routers behind it is at its port `p.opp`. -/
theorem speak {r heard moved r' : Router} {rx tx : Port → Option Handshake}
    (hp : m.edge p = false) (heval : Evaluated m rx r heard) (hpower : PowerMove m heard moved)
    (hresponds : Responds m moved.powerState (moved.ports p) (moved.outQueueHandshakes p)
      (r'.ports p) (tx p))
    (hv : View.Valid (r.ports p.opp).view) (hrx : ∀ h ∈ rx p.opp, Sound (r.ports p.opp).downstreamState h)
    (hnear : Router.adjacentTo n m.val = true)
    (hfar : ∀ h ∈ rx p.opp, Router.adjacentTo n h.id = false)
    (hagree : Agrees w (shown m r.powerState (r.ports p.opp).view)) :
    (∀ t ∈ tx p, Sound w.downstreamState t) ∧
      Agrees ((tx p).elim w (w.update n)) (shown m moved.powerState (heard.ports p.opp).view) := by
  have hview := (heval.received p.opp).view
  have hv' : View.Valid (heard.ports p.opp).view := by
    rw [hview]
    cases hin : rx p.opp with
    | none => exact hv
    | some h => exact hv.update (hrx h hin)
  have hstate : heard.powerState = r.powerState := by rw [heval.same]
  cases hpower with
  | change hchange hannounce =>
      rw [hannounce, if_neg (by simp [hp])] at hresponds
      obtain ⟨t, htx, hnew, hsrc, hlogical, hid⟩ := hresponds.of_some
      have hid : t.id = m.val := hid.elim id id
      rw [htx]
      rw [← hstate] at hagree
      constructor
      · intro t' ht'
        obtain rfl := Option.mem_some.mp ht'
        exact announcement_sound hagree hchange hv' hnew hlogical
      · exact hagree.announce hchange hv' hnew hsrc hlogical (hid ▸ hnear)
  | stay hkept hqueue =>
      have hqueued := heval.queued p
      rw [hkept, hqueue] at hresponds
      rw [hkept, hstate]
      rw [hstate] at hresponds
      cases hps : r.powerState with
      | powerOn =>
          rw [Queued, hstate, hps] at hqueued
          rw [hqueued] at hresponds
          rw [hps] at hagree
          exact hagree.acknowledge (.inl rfl) fun t ht => (hresponds.of_none t ht).2.imp id And.left
      | draining =>
          rw [Queued, hstate, hps] at hqueued
          rw [hqueued] at hresponds
          rw [hps] at hagree
          exact hagree.acknowledge (.inr rfl) fun t ht => (hresponds.of_none t ht).2.imp id And.left
      | wakeup =>
          rw [Queued, hstate, hps] at hqueued
          rw [hresponds.of_gated (.inr hps)]
          rw [hps] at hagree
          exact Agrees.forward (v := (heard.ports p.opp).view) hagree fun t ht => (hqueued t ht).newState
      | powerOff =>
          rw [Queued, hstate, hps] at hqueued
          rw [hresponds.of_gated (.inl hps), hqueued, if_neg (by simp [hp]), hview]
          rw [hps] at hagree
          exact hagree.relayed hv hrx hfar

end Speak

theorem inner_of_msg {n : Node k} {rx : Port → Option Handshake}
    {P : Port → Handshake → Prop} (hrx : ∀ p, ∀ h ∈ rx p, n.edge p = false ∧ P p h) (p : Port)
    (hp : n.edge p = true) : rx p = none := by
  cases hin : rx p with
  | none => rfl
  | some h => simp [(hrx p h hin).1] at hp

/-- Between cycles nothing is queued inside a router; nothing ever comes over the
boundary, and a handshake comes from a router in the direction of its port. -/
def invariant (cfg : Config k) :
    Lockstep.Invariant (Net.wiring k) (Net.move (cycle cfg) Admissible) where
  node n r := (∀ p, r.outQueueHandshakes p = none) ∧ ∀ p, n.edge p = true →
    (r.ports p).downstreamState = .powerOff ∧ (r.ports p).logicalNeighbor = -1
  msg n p h := n.edge p = false ∧ ∃ m : Node k, n.Ahead m p ∧ h.id = m.val
  move_node := by
    rintro n r rx r' tx ⟨-, hedge⟩ hrx ⟨inp, -, hok⟩
    have hinner := inner_of_msg hrx
    obtain ⟨base, heard, moved, hparts⟩ := cycle_ok hinner hok
    refine ⟨hparts.outQueue, fun p hp => ?_⟩
    have hview := hparts.view p
    rw [hinner p hp] at hview
    have hkept := hedge p hp
    exact ⟨(congrArg View.downstreamState hview).trans hkept.1,
      (congrArg View.logicalNeighbor hview).trans hkept.2⟩
  move_msg := by
    rintro n r rx r' tx ⟨-, hedge⟩ hrx ⟨inp, -, hok⟩ p t ht
    have hinner := inner_of_msg hrx
    obtain ⟨base, heard, moved, hparts⟩ := cycle_ok hinner hok
    have hsilent : n.edge p = true → ¬ Waiting (moved.ports p) := by
      intro hp hwaiting
      have hview := (hparts.responds p).kept.1.symm.trans (hparts.view p)
      rw [hinner p hp] at hview
      have hoff := (congrArg View.downstreamState hview).trans (hedge p hp).1
      have hoff : (moved.ports p).downstreamState = .powerOff := hoff
      simp [Waiting, hoff] at hwaiting
    obtain ⟨hp, hid⟩ := hparts.originates hsilent t ht
    have hback : (n.neighbor p).edge p.opp = false := Node.edge_neighbor_eq_false hp
    have hown : (n.neighbor p).Ahead n p.opp := by
      have hahead := Node.ahead_neighbor hback
      rwa [n.neighbor_neighbor p] at hahead
    refine ⟨hback, ?_⟩
    rcases hid with hid | ⟨h, hh, hid⟩
    · exact ⟨n, hown, hid⟩
    · obtain ⟨-, m, hm, hhid⟩ := hrx p.opp h hh
      have hm : ((n.neighbor p).neighbor p.opp).Ahead m p.opp := by rwa [n.neighbor_neighbor p]
      exact ⟨m, hm.of_neighbor hback, hid.trans hhid⟩

/-- The entry of `n` at port `p`, with what is on its way there, is what the
neighbour shows of that direction. -/
structure Mirrors (n : Node k) (p : Port) (r : Router) (i : List Handshake) (s : Router) :
    Prop where
  valid : View.Valid (r.ports p).view
  stream : Stream n (r.ports p).view i
  agrees : Agrees (updated n (r.ports p).view i)
    (shown (n.neighbor p) s.powerState (s.ports p).view)

/-- The near end takes its message. -/
theorem Mirrors.receive {n : Node k} {p : Port} {r r' s : Router} {rx : Option Handshake}
    {i : List Handshake} (h : Mirrors n p r (rx.toList ++ i) s)
    (hview : (r'.ports p).view = rx.elim (r.ports p).view ((r.ports p).view.update n)) :
    Mirrors n p r' i s := by
  cases rx with
  | none =>
      have hview : (r'.ports p).view = (r.ports p).view := hview
      exact ⟨hview ▸ h.valid, hview ▸ h.stream, hview ▸ h.agrees⟩
  | some m =>
      have hview : (r'.ports p).view = (r.ports p).view.update n m := hview
      have hstream := h.stream
      exact ⟨hview ▸ h.valid.update hstream.1, hview ▸ hstream.2, hview ▸ h.agrees⟩

theorem Stream.append {n : Node k} {v : View} {msgs : List Handshake} {tx : Option Handshake}
    (h : Stream n v msgs) (htx : ∀ t ∈ tx, Sound (updated n v msgs).downstreamState t) :
    Stream n v (msgs ++ tx.toList) := by
  induction msgs generalizing v with
  | nil =>
      cases tx with
      | none => trivial
      | some t => exact ⟨htx t rfl, trivial⟩
  | cons m rest ih => exact ⟨h.1, ih h.2 htx⟩

theorem updated_append (n : Node k) (v : View) (msgs : List Handshake) (tx : Option Handshake) :
    updated n v (msgs ++ tx.toList) = tx.elim (updated n v msgs) ((updated n v msgs).update n) := by
  cases tx <;> simp [updated]

/-- The views at both ends of every inner link. -/
def link (cfg : Config k) : Lockstep.LinkInvariant (invariant cfg) where
  on n p := n.edge p = false
  rel n p r i o s := Mirrors n p r.toRouter i s.toRouter ∧
    Mirrors (n.neighbor p) p.opp s.toRouter o r.toRouter
  on_peer hp := Node.edge_neighbor_eq_false hp
  rel_peer := by
    intro n p r i o s h
    simpa [Node.neighbor_neighbor] using h.symm
  move_rel := by
    rintro n p r rx r' tx i o s hp ⟨-, hedge⟩ hrx - hall ⟨inp, -, hok⟩ ⟨hin, hout⟩
    have hinner := inner_of_msg hrx
    obtain ⟨base, heard, moved, hparts⟩ := cycle_ok hinner hok
    refine ⟨hin.receive (hparts.view p), ?_⟩
    have hback : (n.neighbor p).edge p.opp = false := Node.edge_neighbor_eq_false hp
    have hself : (n.neighbor p).neighbor p.opp = n := n.neighbor_neighbor p
    have hbehind : View.Valid (r.ports p.opp).view ∧
        ∀ h ∈ rx p.opp, Sound (r.ports p.opp).downstreamState h := by
      cases hbehind : n.edge p.opp with
      | true =>
          obtain ⟨hoff, hnone⟩ := hedge p.opp hbehind
          refine ⟨⟨fun _ => hnone, fun hon => ?_⟩, by simp [hinner _ hbehind]⟩
          rcases hon with hon | hon <;> exact absurd (hoff.symm.trans hon) (by decide)
      | false =>
          obtain ⟨i', o', s', hmirror, -⟩ := hall p.opp hbehind
          refine ⟨hmirror.valid, fun h hh => ?_⟩
          have hstream := hmirror.stream
          rw [Option.mem_def.mp hh] at hstream
          exact hstream.1
    have hagree := hout.agrees
    rw [hself] at hagree
    have hspeak := speak hp hparts.evaluated hparts.move (hparts.responds p)
      (hparts.ports ▸ hbehind.1) (hparts.ports ▸ hbehind.2)
      (by simpa [hself] using Router.adjacentTo_neighbor hback)
      (fun h hh => by
        obtain ⟨-, m, hm, hid⟩ := hrx p.opp h hh
        rw [hid]
        exact Router.not_adjacentTo_of_ahead hback (by rwa [hself]))
      (by rwa [hparts.powerState, hparts.ports])
    refine ⟨hout.valid, hout.stream.append hspeak.1, ?_⟩
    rw [updated_append, hself, hparts.final]
    have hview : (r'.ports p.opp).view = (heard.ports p.opp).view :=
      (hparts.responds p.opp).kept.1.trans (hparts.move.view p.opp)
    rw [hview]
    exact hspeak.2

theorem Mirrors.initial {n : Node k} {p : Port} (hp : n.edge p = false) :
    Mirrors n p (Router.initial n) [] (Router.initial (n.neighbor p)) := by
  have hid := Router.adjacentId_eq hp
  refine ⟨⟨?_, ?_⟩, trivial, ⟨?_, ?_, ?_⟩⟩ <;>
    simp [PortState.view, Router.initial, hp, hid, updated, shown]

/-- In every reachable state every link is in order. -/
theorem Reachable.link {cfg : Config k} {net : Net k FLOVRouter} (hreach : Reachable cfg net) :
    (invariant cfg).Holds net.view ∧ (FLOVRouter.link cfg).Holds net.view := by
  refine Net.Reachable.view_induction
    (motive := fun s => (invariant cfg).Holds s ∧ (FLOVRouter.link cfg).Holds s)
    hreach ⟨⟨?_, ?_⟩, ?_⟩ ?_
  · intro n
    refine ⟨fun _ => rfl, fun p hp => ?_⟩
    simp [Net.view, start, Router.initial, hp]
  · intro n p h hh
    cases hh
  · intro n p hp
    have hback : (n.neighbor p).edge p.opp = false := Node.edge_neighbor_eq_false hp
    have hfar := Mirrors.initial hback
    rw [n.neighbor_neighbor p] at hfar
    exact ⟨Mirrors.initial hp, hfar⟩
  · rintro s s' ⟨hinv, hlink⟩ hstep
    exact ⟨hinv.step hstep, Lockstep.LinkInvariant.Holds.step hinv hlink hstep⟩

/-- What a router knows of a direction is true. -/
structure KnowsDirection (net : Net k FLOVRouter) (n : Node k) (p : Port) : Prop where
  nearest : ∀ m, Node.Nearest (fun m => (net.router m).powerState = .powerOn) n p m →
    ((net.router n).ports p).logicalNeighbor = m.val ∧
      ((net.router n).ports p).downstreamState = .powerOn
  noneOn : (∀ m, n.Ahead m p → (net.router m).powerState ≠ .powerOn) →
    ((net.router n).ports p).logicalNeighbor = -1 ∧
      ((net.router n).ports p).downstreamState = .powerOff
  neighbor : n.edge p = false →
    ((net.router n).ports p).neighborState = (net.router (n.neighbor p)).powerState

/-- Once no handshake is on its way and every router is on or off, each router
knows its logical neighbours and its mesh neighbours' states. -/
theorem knowsDirection_of_quiet {cfg : Config k} {net : Net k FLOVRouter}
    (hreach : Reachable cfg net) (hquiet : ∀ n p, net.inFlight n p = [])
    (hsettled : ∀ n, (net.router n).powerState = .powerOn ∨ (net.router n).powerState = .powerOff)
    (n : Node k) (p : Port) : KnowsDirection net n p := by
  obtain ⟨hinv, hlink⟩ := hreach.link
  have hagree : ∀ n : Node k, n.edge p = false → Agrees ((net.router n).ports p).view
      (shown (n.neighbor p) (net.router (n.neighbor p)).powerState
        ((net.router (n.neighbor p)).ports p).view) := by
    intro n hp
    have hmirror := (hlink n p hp).1.agrees
    rwa [show net.view.queue n p = [] from hquiet n p] at hmirror
  -- along the row or column, starting at the boundary
  induction hd : n.distance p generalizing n with
  | zero =>
      have hp : n.edge p = true := by
        by_contra hp
        have := Node.distance_pos (Bool.eq_false_iff.mpr hp)
        omega
      obtain ⟨hoff, hnone⟩ := (hinv.node n).2 p hp
      refine ⟨fun m hm => ?_, fun _ => ⟨hnone, hoff⟩, by simp [hp]⟩
      simp [hm.ahead.edge] at hp
  | succ d ih =>
      have hp : n.edge p = false := by
        by_contra hp
        simp [Node.distance_of_edge (by simpa using hp)] at hd
      have hbehind := ih (n.neighbor p) (by rw [Node.distance_neighbor hp] at hd; omega)
      have hview := hagree n hp
      rcases hsettled (n.neighbor p) with hon | hoff
      · rw [hon] at hview
        refine ⟨fun m hm => ?_, fun hnone => ?_, fun _ => ?_⟩
        · obtain rfl := hm.eq_neighbor hon
          exact ⟨hview.logicalNeighbor (by simp [shown]), hview.downstreamState⟩
        · exact absurd hon (hnone _ (Node.ahead_neighbor hp))
        · rw [hon]
          exact hview.neighborState
      · rw [hoff] at hview
        have hsame : ∀ id s, s ≠ .wakeup →
            ((net.router (n.neighbor p)).ports p).logicalNeighbor = id ∧
              ((net.router (n.neighbor p)).ports p).downstreamState = s →
            ((net.router n).ports p).logicalNeighbor = id ∧
              ((net.router n).ports p).downstreamState = s := by
          rintro id s hs ⟨hid, rfl⟩
          exact ⟨(hview.logicalNeighbor hs).trans hid, hview.downstreamState⟩
        refine ⟨fun m hm => ?_, fun hnone => ?_, fun _ => ?_⟩
        · exact hsame _ _ (by decide) (hbehind.nearest m (hm.of_neighbor (by simp [hoff])))
        · exact hsame _ _ (by decide) (hbehind.noneOn fun m hm => hnone m (hm.of_neighbor hp))
        · rw [hoff]
          exact hview.neighborState

/-- Three routers in a row, the middle one off: the outer ones are logical
neighbours. -/
theorem knowsDirection_over_sleeper : ∃ net, Reachable (Config.short 3) net ∧
    (net.router 1).powerState = .powerOff ∧ KnowsDirection net 2 .west := by
  obtain ⟨net, hrun, htest⟩ := exists_of_succeeds
    ((start 3).run (cycle (Config.short 3)) 1
      (List.replicate 9 fun n => { Inputs.quiet (decide (n.val ≠ 1)) with }))
    (fun net => decide ((net.router 1).powerState = .powerOff) &&
      (List.finRange 9).all fun n =>
        (decide ((net.router n).powerState = .powerOn) ||
          decide ((net.router n).powerState = .powerOff)) &&
        Port.all.all fun p => (net.inFlight n p).isEmpty) (by decide +kernel)
  have hreach : Reachable (Config.short 3) net := Net.Reachable.run .initial (by decide) hrun
  simp only [Bool.and_eq_true, Bool.or_eq_true, decide_eq_true_eq, List.all_eq_true,
    List.isEmpty_iff] at htest
  exact ⟨net, hreach, htest.1, knowsDirection_of_quiet hreach
    (fun n p => (htest.2 n (List.mem_finRange n)).2 p (Port.mem_all p))
    (fun n => (htest.2 n (List.mem_finRange n)).1) 2 .west⟩

end Flyover.FLOVRouter
