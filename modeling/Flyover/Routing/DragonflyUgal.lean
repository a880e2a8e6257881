import Flyover.Routing.DragonflyMinimal
import Mathlib.Data.Finite.Prod
import Mathlib.Data.Set.Finite.Basic
import Mathlib.Order.Interval.Set.Basic

/-!
# Adaptive routes in the dragonfly

`ugal_dragonflynew` may send a packet by a node of another group first. It gets to its
destination in any case, over virtual channels that only rise; but while it is on its way
to the node in between, all its hops are in one virtual channel.
-/

namespace Flyover

namespace DragonFly

variable {f : DragonFly} {src dest : Fin f.nodes} {s s' : DragonSpot} {i : Nat}

/-! ### What a call answers -/

/-- What is decided for a packet that has made `i` hops: it is on its way to the node in
between, or to its destination. -/
inductive Plan (src dest : Fin f.nodes) (i : Nat) (router : Nat) (answer : DragonAnswer) : Prop where
  | detour : answer.ph = 0 → answer.intm < f.nodes → answer.intm / f.gP ≠ router →
      answer.offer = ⟨f.port router answer.intm, answer.ph, answer.ph, 0⟩ →
      i + f.hopsFrom router answer.intm = f.hopcnt src answer.intm → Plan src dest i router answer
  | minimal : answer.ph = 1 ∨ answer.ph = 2 →
      answer.offer = ⟨f.port router dest, answer.ph, answer.ph, 0⟩ →
      i + f.hopsFrom router dest = f.hopcnt src dest ∨
        i + f.hopsFrom router dest = f.hopcnt src answer.intm + f.hopcnt answer.intm dest →
      Plan src dest i router answer

/-- Where a packet may be after `i` hops. -/
inductive Phase (src dest : Fin f.nodes) (i : Nat) (s : DragonSpot) : Prop where
  | injected : i = 0 → s.inPort < f.gP → s.router = src / f.gP → Phase src dest i s
  | detour : f.gP ≤ s.inPort → s.ph = 0 → s.intm < f.nodes →
      i + f.hopsFrom s.router s.intm = f.hopcnt src s.intm → Phase src dest i s
  | minimal : f.gP ≤ s.inPort → s.ph = 1 ∨ s.ph = 2 →
      i + f.hopsFrom s.router dest = f.hopcnt src dest ∨
        i + f.hopsFrom s.router dest = f.hopcnt src s.intm + f.hopcnt s.intm dest →
      Phase src dest i s

/-- A packet on its way. -/
structure OnWay (src dest : Fin f.nodes) (i : Nat) (s : DragonSpot) : Prop where
  router : s.router < f.size
  vc : f.gP ≤ s.inPort → s.vc = s.ph
  phase : Phase src dest i s

section Calls

variable {call : DragonCall f}

theorem ugal_detour (hfor : call.For dest s) (hph : call.chosen.1 = 0)
    (haway : call.chosen.2 / f.gP ≠ s.router) : call.ugalDragonflynew =
      some (DragonCall.answer (f.port s.router call.chosen.2) 0 call.chosen.2) := by
  have hphase : call.phase = 0 := by
    rw [DragonCall.phase, hph, if_pos rfl, hfor.id, if_neg haway.symm]
  rw [DragonCall.ugalDragonflynew, hfor.inject, if_neg Bool.false_ne_true, if_pos hphase, hphase,
    hfor.id]

/-- Who does not go to a node in between, or has been there, goes to the destination. -/
theorem ugal_minimal (hfor : call.For dest s) (hphase : call.phase = 1 ∨ call.phase = 2) :
    ∃ answer, call.ugalDragonflynew = some answer ∧ (answer.ph = 1 ∨ answer.ph = 2) ∧
      call.phase ≤ answer.ph ∧ answer.intm = call.chosen.2 ∧
      answer.offer = ⟨f.port s.router dest, answer.ph, answer.ph, 0⟩ := by
  have hanswer : call.ugalDragonflynew = some (DragonCall.answer (f.port s.router dest)
      (if call.phase = 1 ∧ f.port s.router dest ≥ f.gP + ((f.gA : Int) - 1) then 2
        else call.phase) call.chosen.2) := by
    rw [DragonCall.ugalDragonflynew, hfor.inject, if_neg Bool.false_ne_true, if_neg (by omega),
      if_pos hphase, hfor.id, hfor.dest]
  refine ⟨_, hanswer, ?_, ?_, rfl, rfl⟩
  · dsimp only [DragonCall.answer]
    split
    · exact .inr rfl
    · exact hphase
  · dsimp only [DragonCall.answer]
    split
    · omega
    · exact le_refl _

/-- What is chosen at the source router. -/
inductive Chosen (src dest : Fin f.nodes) (chosen : Int × Nat) : Prop where
  | detour : chosen.1 = 0 → chosen.2 < f.nodes →
      chosen.2 / f.grpNumNodes ≠ src / f.gP / f.gA → Chosen src dest chosen
  | minimal : chosen.1 = 1 ∨ chosen.1 = 2 → Chosen src dest chosen

theorem choose_chosen (hfor : call.For dest s) (hrouter : s.router = src / f.gP) :
    Chosen src dest call.choose := by
  unfold DragonCall.choose
  dsimp only
  rw [hfor.id, hrouter]
  split
  next => exact .minimal (.inr rfl)
  next =>
    split
    next => exact .minimal (.inl rfl)
    next hother =>
      split
      next => exact .minimal (.inl rfl)
      next => exact .detour rfl hfor.draw (Ne.symm hother)

theorem phase_of_minimal (h : call.chosen.1 = 1 ∨ call.chosen.1 = 2) :
    call.phase = call.chosen.1 := if_neg (by omega)

/-- Every call answers. -/
theorem OnWay.plan (h : OnWay src dest i s) (hfor : call.For dest s) :
    ∃ answer, call.ugalDragonflynew = some answer ∧ Plan src dest i s.router answer ∧
      (f.gP ≤ s.inPort → s.ph ≤ answer.ph) := by
  have hp := gP_pos dest
  have hminimal : call.phase = 1 ∨ call.phase = 2 →
      (i + f.hopsFrom s.router dest = f.hopcnt src dest ∨ i + f.hopsFrom s.router dest =
        f.hopcnt src call.chosen.2 + f.hopcnt call.chosen.2 dest) →
      (f.gP ≤ s.inPort → s.ph ≤ call.phase) →
      ∃ answer, call.ugalDragonflynew = some answer ∧ Plan src dest i s.router answer ∧
        (f.gP ≤ s.inPort → s.ph ≤ answer.ph) := by
    intro hphase hleft hrises
    obtain ⟨answer, hanswer, hph, hge, hintm, hoffer⟩ := ugal_minimal hfor hphase
    exact ⟨answer, hanswer, .minimal hph hoffer (hintm ▸ hleft), fun hin => (hrises hin).trans hge⟩
  have hdetour : call.chosen.1 = 0 → call.chosen.2 < f.nodes → call.chosen.2 / f.gP ≠ s.router →
      i + f.hopsFrom s.router call.chosen.2 = f.hopcnt src call.chosen.2 →
      (f.gP ≤ s.inPort → s.ph ≤ 0) →
      ∃ answer, call.ugalDragonflynew = some answer ∧ Plan src dest i s.router answer ∧
        (f.gP ≤ s.inPort → s.ph ≤ answer.ph) := fun hph hlt haway hleft hrises =>
    ⟨_, ugal_detour hfor hph haway, .detour rfl hlt haway rfl hleft, hrises⟩
  cases h.phase with
  | injected hi hin hrouter =>
      have hchosen : call.chosen = call.choose := if_pos (hfor.inChannel ▸ hin)
      have hsrc : ∀ node, i + f.hopsFrom s.router node = f.hopcnt src node := by
        intro node
        rw [hi, Nat.zero_add, hrouter, hopcnt_eq hp]
      have hnot : ∀ x : Int, f.gP ≤ s.inPort → s.ph ≤ x := fun _ hge =>
        absurd hin (not_lt.mpr hge)
      cases hchosen ▸ choose_chosen hfor hrouter with
      | detour hzero hlt hother =>
          refine hdetour hzero hlt (fun hthere => hother ?_) (hsrc _) (hnot 0)
          rw [← hrouter, ← hthere, destRouter_div]
      | minimal hph =>
          have hphase := phase_of_minimal hph
          exact hminimal (hphase ▸ hph) (.inl (hsrc _)) (hnot _)
  | detour hin hph hlt hleft =>
      have hchosen : call.chosen = (s.ph, s.intm) := by
        rw [DragonCall.chosen, hfor.inChannel, if_neg (not_lt.mpr hin), hfor.ph, hfor.intm]
      by_cases hthere : s.intm / f.gP = s.router
      · -- it has been to the node in between
        have hone : call.phase = 1 := by
          rw [DragonCall.phase, hchosen, if_pos hph, hfor.id, if_pos hthere.symm]
        rw [hopsFrom_eq_zero_iff.mpr hthere, Nat.add_zero] at hleft
        refine hminimal (.inl hone) (.inr ?_) (fun _ => by omega)
        rw [hchosen, ← hleft, hopcnt_eq hp, hthere]
      · exact hdetour (hchosen ▸ hph) (hchosen ▸ hlt) (hchosen ▸ hthere) (hchosen ▸ hleft)
          (fun _ => hph.le)
  | minimal hin hph hleft =>
      have hchosen : call.chosen = (s.ph, s.intm) := by
        rw [DragonCall.chosen, hfor.inChannel, if_neg (not_lt.mpr hin), hfor.ph, hfor.intm]
      have hphase : call.phase = s.ph := by
        rw [phase_of_minimal (hchosen ▸ hph), hchosen]
      exact hminimal (hphase ▸ hph) (hchosen ▸ hleft) (fun _ => hphase.ge)

end Calls

/-! ### Hops -/

theorem Way.le_inPort {r r' port' node : Nat} (h : Way f node r r' port') : f.gP ≤ port' := by
  cases h with
  | inGroup _ _ _ hin _ => exact hin
  | between _ _ _ hin => omega

section Hops

variable {call : DragonCall f} {answer : DragonAnswer}

theorem OnWay.takes (h : OnWay src dest i s) (hfor : call.For dest s)
    (htakes : call.Takes true s s') : OnWay src dest (i + 1) s' := by
  obtain ⟨answer, hanswer, hplan, -⟩ := h.plan hfor
  obtain ⟨answer', hroute, hr', ⟨port, hport, hfeeds⟩, hge, hle, hph, hintm⟩ := htakes
  obtain rfl := Option.some.inj (hanswer.symm.trans hroute)
  have hp := gP_pos dest
  cases hplan with
  | detour hzero hlt haway hoffer hleft =>
      rw [hoffer] at hport hge hle
      have hway := way_of_feeds hp h.router hr' hlt hport hfeeds
      have hless := hway.hopsFrom_eq hp h.router hlt
      refine ⟨hr', fun _ => (le_antisymm hle hge).trans hph.symm, ?_⟩
      refine .detour hway.le_inPort (hph.trans hzero) (hintm ▸ hlt) ?_
      rw [hintm, ← hleft, hless]
      omega
  | minimal hphase hoffer hleft =>
      rw [hoffer] at hport hge hle
      have hway := way_of_feeds hp h.router hr' dest.isLt hport hfeeds
      have hless := hway.hopsFrom_eq hp h.router dest.isLt
      have hnext : i + 1 + f.hopsFrom s'.router dest = i + f.hopsFrom s.router dest := by
        rw [hless]
        omega
      refine ⟨hr', fun _ => (le_antisymm hle hge).trans hph.symm, ?_⟩
      exact .minimal hway.le_inPort (hph ▸ hphase) (by rwa [hnext, hintm])

theorem Source.onWay (h : Source src s) (dest : Fin f.nodes) : OnWay src dest 0 s where
  router := h.router ▸ node_div_lt src
  vc hge := absurd h.inPort_lt (not_lt.mpr hge)
  phase := .injected rfl h.inPort_lt h.router

theorem walk_onWay {source : DragonSpot} (hsource : Source src source)
    (hwalk : Progress.Walk (Hop true dest) source i s) : OnWay src dest i s :=
  hwalk.invariant (P := OnWay src dest) (hsource.onWay dest) fun h ⟨_, hfor, htakes⟩ =>
    h.takes hfor htakes

theorem exists_takes_of_port {node : Nat} (hr : s.router < f.size) (hnode : node < f.nodes)
    (haway : node / f.gP ≠ s.router) (hanswer : call.ugalDragonflynew = some answer)
    (hoffer : answer.offer = ⟨f.port s.router node, answer.ph, answer.ph, 0⟩) :
    ∃ s', call.Takes true s s' := by
  have hp : 0 < f.gP := by
    refine Nat.pos_of_ne_zero fun hzero => ?_
    rw [nodes, hzero, Nat.mul_zero, Nat.zero_mul] at hnode
    exact absurd hnode (Nat.not_lt_zero _)
  obtain ⟨port, r', port', hport, hr', -, hfeeds⟩ := exists_feeds hp hr hnode haway
  refine ⟨⟨r', port', answer.ph, answer.ph, answer.intm⟩, answer, hanswer, hr',
    ⟨port, ?_, hfeeds⟩, ?_, ?_, rfl, rfl⟩
  · rw [hoffer]
    exact hport
  · rw [hoffer]
  · rw [hoffer]

end Hops

/-- By `ugal_dragonflynew` every call answers, with a virtual channel among three that is not
below the one that a packet comes in. The packet takes a minimal route, or one by a node
in between, and is ejected at its destination when it has made the hops of that. -/
theorem ugal_delivers {source : DragonSpot} (hsource : Source src source)
    (hwalk : Progress.Walk (Hop true dest) source i s) {call : DragonCall f}
    (hfor : call.For dest s) : ∃ answer total, call.ugalDragonflynew = some answer ∧
      (total = f.hopcnt src dest ∨
        total = f.hopcnt src answer.intm + f.hopcnt answer.intm dest) ∧ i ≤ total ∧
      (0 ≤ answer.offer.vcStart ∧ answer.offer.vcEnd ≤ 2) ∧
      (f.gP ≤ s.inPort → s.vc ≤ answer.offer.vcStart) ∧
      (i < total → ∃ s', call.Takes true s s') ∧
      (i = total → dest / f.gP = s.router ∧ answer.offer.outputPort = (dest % f.gP : Nat)) := by
  have hway := walk_onWay hsource hwalk
  have hp := gP_pos dest
  obtain ⟨answer, hanswer, hplan, hrises⟩ := hway.plan hfor
  cases hplan with
  | detour hzero hlt haway hoffer hleft =>
      have hsome : 0 < f.hopsFrom s.router answer.intm :=
        Nat.pos_of_ne_zero (mt hopsFrom_eq_zero_iff.mp haway)
      refine ⟨answer, _, hanswer, .inr rfl, by omega, ?_, fun hin => ?_, fun _ => ?_, fun hi => ?_⟩
      · rw [hoffer, hzero]
        exact ⟨le_refl _, Int.zero_le_ofNat 2⟩
      · rw [hoffer, hway.vc hin]
        exact hrises hin
      · exact exists_takes_of_port hway.router hlt haway hanswer hoffer
      · omega
  | minimal hphase hoffer hleft =>
      refine ⟨answer, i + f.hopsFrom s.router dest, hanswer, hleft, Nat.le_add_right _ _, ?_,
        fun hin => ?_, fun hlt => ?_, fun hi => ?_⟩
      · rw [hoffer]
        dsimp only
        omega
      · rw [hoffer, hway.vc hin]
        exact hrises hin
      · refine exists_takes_of_port hway.router dest.isLt (fun hthere => ?_) hanswer hoffer
        rw [hopsFrom_eq_zero_iff.mpr hthere] at hlt
        exact hlt.ne rfl
      · have hthere : dest / f.gP = s.router := hopsFrom_eq_zero_iff.mp (by omega)
        refine ⟨hthere, ?_⟩
        rw [hoffer]
        exact if_pos ((at_router_iff hp).mpr hthere)

theorem four_lt : 4 < (⟨1⟩ : DragonFly).nodes := by decide

/-- The call for the packet from node 1 where the way to its destination is crowded and node 4
is drawn, -/
def crowded : DragonCall ⟨1⟩ :=
  ⟨1, ⟨2, two_lt⟩, 0, false, 0, 0, fun port => if port = 1 then 31 else 0, 4⟩

theorem crowded_for : crowded.For ⟨2, two_lt⟩ injected :=
  ⟨rfl, rfl, rfl, rfl, rfl, rfl, four_lt⟩

/-- and where it is then. -/
def inBetween : DragonSpot := ⟨4, 2, 0, 0, 4⟩

theorem inBetween_walk :
    Progress.Walk (Hop true (⟨2, two_lt⟩ : Fin (⟨1⟩ : DragonFly).nodes)) injected 1 inBetween :=
  .step .start ⟨crowded, crowded_for, DragonCall.answer 2 0 4, rfl, by decide,
    ⟨2, rfl, 3, by decide, by decide⟩, by decide, by decide, rfl, rfl⟩

theorem ugal_delivers_crowded : ∃ answer total,
    (callFor (⟨2, two_lt⟩ : Fin (⟨1⟩ : DragonFly).nodes) inBetween).ugalDragonflynew = some answer ∧
      (total = (⟨1⟩ : DragonFly).hopcnt 1 2 ∨ total = (⟨1⟩ : DragonFly).hopcnt 1 answer.intm +
        (⟨1⟩ : DragonFly).hopcnt answer.intm 2) ∧ 1 ≤ total ∧
      (0 ≤ answer.offer.vcStart ∧ answer.offer.vcEnd ≤ 2) ∧
      (1 ≤ 2 → 0 ≤ answer.offer.vcStart) ∧
      (1 < total → ∃ s', (callFor ⟨2, two_lt⟩ inBetween).Takes true inBetween s') ∧
      (1 = total → 2 / 1 = 4 ∧ answer.offer.outputPort = (2 % 1 : Nat)) :=
  ugal_delivers injected_source inBetween_walk (callFor_for _ _)

/-! ### Deadlock -/

/-- The router that comes next on the way to a node. -/
def next (f : DragonFly) (r dest : Nat) : Nat :=
  if f.grpRID r dest = r then f.arrival r dest else f.grpRID r dest

section Next

variable {r r' port' node node' : Nat}

theorem Way.next_eq (h : Way f node r r' port') : r' = f.next r node := by
  cases h with
  | inGroup _ hgate hnext => rw [next, if_neg hgate, hnext]
  | between _ hgate hnext => rw [next, if_pos hgate, hnext]

theorem skip_injective {d i j : Nat} (h : skip d i = skip d j) : i = j := by
  unfold skip at h
  split at h <;> split at h <;> omega

/-- The port is that of the next router. -/
theorem port_congr (hp : 0 < f.gP) (hr : r < f.size) (hnode : node < f.nodes)
    (hnode' : node' < f.nodes) (haway : node / f.gP ≠ r) (haway' : node' / f.gP ≠ r)
    (h : f.next r node = f.next r node') : f.port r node = f.port r node' := by
  have hgroup := grpRID_div hp (group_lt hr) hnode
  have hgroup' := grpRID_div hp (group_lt hr) hnode'
  cases portFor hp (group_lt hr) hnode with
  | eject hhere _ => exact absurd hhere haway
  | inGroup _ hgate _ heq hskip =>
      cases portFor hp (group_lt hr) hnode' with
      | eject hhere _ => exact absurd hhere haway'
      | inGroup _ hgate' _ heq' hskip' =>
          rw [next, next, if_neg hgate, if_neg hgate'] at h
          rw [h] at hskip
          rw [heq, heq', skip_injective (hskip.symm.trans hskip')]
      | between hne' hgate' _ _ _ =>
          rw [next, next, if_neg hgate, if_pos hgate'] at h
          rw [h, (arrival_div (group_lt hr) hnode' hne').1] at hgroup
          exact absurd hgroup hne'
  | between hne hgate _ heq houtput =>
      cases portFor hp (group_lt hr) hnode' with
      | eject hhere _ => exact absurd hhere haway'
      | inGroup _ hgate' _ _ _ =>
          rw [next, next, if_pos hgate, if_neg hgate'] at h
          rw [← h, (arrival_div (group_lt hr) hnode hne).1] at hgroup'
          exact absurd hgroup' hne
      | between hne' hgate' _ heq' houtput' =>
          rw [next, next, if_pos hgate, if_pos hgate'] at h
          have hsame := (arrival_div (group_lt hr) hnode hne).1
          rw [h, (arrival_div (group_lt hr) hnode' hne').1] at hsame
          rw [hsame, ← houtput] at houtput'
          rw [heq, heq', Nat.add_left_cancel houtput']

end Next

/-- Four routers in a row: the second is a neighbour of the first and on the way from it to the
third and back, and the first and the third are in different groups. -/
structure InRow (f : DragonFly) (a b c d : Nat) : Prop where
  lt : a < f.size
  step : a ≠ b
  apart : a / f.gA ≠ c / f.gA
  opposite : a ≠ d
  near : f.next a (b * f.gP) = b
  forth : f.next a (c * f.gP) = b
  back : f.next c (a * f.gP) = b

/-- A circle of routers, as they come in turn. -/
def Circle (f : DragonFly) (R : Nat → Nat) : Prop :=
  ∀ k, InRow f (R k) (R (k + 1)) (R (k + 2)) (R (k + 3))

section Circle

variable {R : Nat → Nat} {inPort port k : Nat}

theorem node_lt {r : Nat} (hp : 0 < f.gP) (hr : r < f.size) : r * f.gP < f.nodes := by
  have hswap : f.nodes = f.size * f.gP := by
    rw [nodes, size]
    ring
  rw [hswap]
  exact Nat.mul_lt_mul_of_pos_right hr hp

theorem node_div {r : Nat} (hp : 0 < f.gP) : r * f.gP / f.gP = r := Nat.mul_div_cancel _ hp

theorem node_group {r : Nat} (hp : 0 < f.gP) : r * f.gP / f.grpNumNodes = r / f.gA := by
  rw [← destRouter_div, node_div hp]

/-- Forth and back it goes by different ports. -/
theorem Circle.port_ne (h : Circle f R) (hp : 0 < f.gP) (k : Nat) :
    f.port (R (k + 2)) (R (k + 4) * f.gP) ≠ f.port (R (k + 2)) (R k * f.gP) := by
  intro heq
  have hlt := node_lt hp (h k).lt
  have hne : R k ≠ R (k + 2) := fun hsame => (h k).apart (hsame ▸ rfl)
  obtain ⟨port, r', port', hport, hr', -, hfeeds⟩ :=
    exists_feeds hp (h (k + 2)).lt hlt ((node_div hp).trans_ne hne)
  have hback := (way_of_feeds hp (h (k + 2)).lt hr' hlt hport hfeeds).next_eq
  have hforth := (way_of_feeds hp (h (k + 2)).lt hr' (node_lt hp (h (k + 4)).lt) (heq.trans hport)
    hfeeds).next_eq
  rw [(h k).back] at hback
  rw [(h (k + 2)).forth] at hforth
  exact (h (k + 1)).apart ((hback.symm.trans hforth) ▸ rfl)

/-- The call for a packet from the third router to the first where that way is crowded and the
fifth is drawn. -/
def sentAround (h : Circle f R) (hp : 0 < f.gP) (k : Nat) : DragonCall f :=
  ⟨R (k + 2), ⟨R k * f.gP, node_lt hp (h k).lt⟩, 0, false, 0, 0,
    fun port => if port = f.port (R (k + 2)) (R k * f.gP) then 31 else 0, R (k + 4) * f.gP⟩

theorem sentAround_ugal (h : Circle f R) (hp : 0 < f.gP) (k : Nat) :
    (sentAround h hp k).ugalDragonflynew = some (DragonCall.answer
      (f.port (R (k + 2)) (R (k + 4) * f.gP)) 0 (R (k + 4) * f.gP)) := by
  have hchosen : (sentAround h hp k).chosen = (0, R (k + 4) * f.gP) := by
    refine (if_pos hp).trans ?_
    refine (if_neg ((node_group hp).trans_ne (h k).apart)).trans ?_
    refine (if_neg ((h (k + 2)).apart.trans_eq (node_group hp).symm)).trans (if_neg ?_)
    change ¬ 1 * max (if f.port (R (k + 2)) (R k * f.gP) = f.port (R (k + 2)) (R k * f.gP)
      then 31 else 0 : Int) 0 ≤ 2 * max (if f.port (R (k + 2)) (R (k + 4) * f.gP) =
        f.port (R (k + 2)) (R k * f.gP) then 31 else 0 : Int) 0 + 30
    rw [if_pos rfl, if_neg (h.port_ne hp k)]
    decide
  have haway : R (k + 4) * f.gP / f.gP ≠ R (k + 2) := by
    rw [node_div hp]
    exact fun heq => (h (k + 2)).apart (heq ▸ rfl)
  have hfor : (sentAround h hp k).For ⟨R k * f.gP, node_lt hp (h k).lt⟩ ⟨R (k + 2), 0, 0, 0, 0⟩ :=
    ⟨rfl, rfl, rfl, rfl, rfl, rfl, node_lt hp (h (k + 4)).lt⟩
  rw [ugal_detour hfor (by rw [hchosen]) (by rwa [hchosen]), hchosen]

/-- The packet behind its first hop. -/
def around (f : DragonFly) (R : Nat → Nat) (k inPort : Nat) : DragonSpot :=
  ⟨R (k + 3), inPort, 0, 0, R (k + 4) * f.gP⟩

theorem Circle.exists_waiting (h : Circle f R) (hp : 0 < f.gP)
    (hport : f.port (R (k + 2)) (R (k + 4) * f.gP) = (port : Nat))
    (hfeeds : f.Feeds (R (k + 2)) port (R (k + 3)) inPort) :
    ∃ w : Waiting f true, w.spot = around f R k inPort := by
  have hsource : Source (⟨R (k + 2) * f.gP, node_lt hp (h (k + 2)).lt⟩ : Fin f.nodes)
      ⟨R (k + 2), 0, 0, 0, 0⟩ := ⟨(node_div hp).symm, (Nat.mul_mod_left _ _).symm⟩
  have hwalk : Progress.Walk (Hop true (⟨R k * f.gP, node_lt hp (h k).lt⟩ : Fin f.nodes))
      ⟨R (k + 2), 0, 0, 0, 0⟩ 1 (around f R k inPort) :=
    .step .start ⟨sentAround h hp k, ⟨rfl, rfl, rfl, rfl, rfl, rfl, node_lt hp (h (k + 4)).lt⟩, _,
      sentAround_ugal h hp k, (h (k + 3)).lt, ⟨port, hport, hfeeds⟩, le_refl _, le_refl _, rfl, rfl⟩
  exact ⟨⟨_, _, _, 1, around f R k inPort, callFor _ _, hsource, hwalk, callFor_for _ _,
    (node_div hp).trans_ne (h k).opposite⟩, rfl⟩

/-- The first hop of the packet. -/
theorem Circle.exists_feeds (h : Circle f R) (hp : 0 < f.gP) (k : Nat) : ∃ port inPort,
    f.port (R (k + 2)) (R (k + 4) * f.gP) = (port : Nat) ∧ f.gP ≤ inPort ∧
      f.Feeds (R (k + 2)) port (R (k + 3)) inPort := by
  have hlt := node_lt hp (h (k + 4)).lt
  have hne : R (k + 4) ≠ R (k + 2) := fun heq => (h (k + 2)).apart (heq ▸ rfl)
  obtain ⟨port, r', inPort, hport, hr', -, hfeeds⟩ :=
    DragonFly.exists_feeds hp (h (k + 2)).lt hlt ((node_div hp).trans_ne hne)
  have hway := way_of_feeds hp (h (k + 2)).lt hr' hlt hport hfeeds
  obtain rfl : r' = R (k + 3) := hway.next_eq.trans (h (k + 2)).forth
  exact ⟨port, inPort, hport, hway.le_inPort, hfeeds⟩

/-- The packets that are sent around. -/
def SentAround (R : Nat → Nat) (w : Waiting f true) : Prop :=
  ∃ k inPort, f.gP ≤ inPort ∧ inPort < f.gP + (2 * f.gP - 1) + f.gP ∧ w.spot = around f R k inPort

theorem near_away (h : Circle f R) (hp : 0 < f.gP) (k : Nat) :
    R (k + 1) * f.gP / f.gP ≠ R k := by
  rw [node_div hp]
  exact (h k).step.symm

/-- They go on to the node in between. -/
theorem around_ugal {w : Waiting f true} (h : Circle f R) (hp : 0 < f.gP) (hin : f.gP ≤ inPort)
    (hspot : w.spot = around f R k inPort) : w.call.ugalDragonflynew =
      some (DragonCall.answer (f.port (R (k + 3)) (R (k + 4) * f.gP)) 0 (R (k + 4) * f.gP)) := by
  have hfor := w.routed
  rw [hspot] at hfor
  have hchosen : w.call.chosen = (0, R (k + 4) * f.gP) := by
    refine (if_neg ?_).trans (Prod.ext hfor.ph hfor.intm)
    rw [hfor.inChannel]
    exact not_lt.mpr hin
  have haway := near_away h hp (k + 3)
  rw [ugal_detour hfor (by rw [hchosen]) (by rwa [hchosen]), hchosen]
  rfl

theorem SentAround.vc_eq {w : Waiting f true} (hw : SentAround R w) : w.spot.vc = 0 := by
  obtain ⟨k, inPort, -, -, hspot⟩ := hw
  rw [hspot]
  rfl

theorem SentAround.exists_wants {w : Waiting f true} (h : Circle f R) (hp : 0 < f.gP)
    (hw : SentAround R w) : ∃ buffer, w.wants buffer := by
  obtain ⟨k, inPort, hin, -, hspot⟩ := hw
  obtain ⟨s', htakes⟩ := exists_takes_of_port (s := around f R k inPort) (h (k + 3)).lt
    (node_lt hp (h (k + 4)).lt) (near_away h hp (k + 3)) (around_ugal h hp hin hspot) rfl
  exact ⟨_, s', hspot ▸ htakes, rfl⟩

/-- They wait for each other. -/
theorem Circle.deadlock (h : Circle f R) (hp : 0 < f.gP) :
    Progress.Deadlock Waiting.holds Waiting.wants {w : Waiting f true | SentAround R w} where
  nonempty := by
    obtain ⟨port, inPort, hport, hin, hfeeds⟩ := h.exists_feeds hp 0
    obtain ⟨w, hw⟩ := h.exists_waiting hp hport hfeeds
    exact ⟨w, 0, inPort, hin, inPort_lt_of_feeds hfeeds, hw⟩
  held := by
    rintro w ⟨k, inPort, hin, -, hspot⟩ buffer ⟨s', htakes, rfl⟩
    have hlt := node_lt hp (h (k + 4)).lt
    have hlt' := node_lt hp (h (k + 5)).lt
    have haway := near_away h hp (k + 3)
    have haway' : R (k + 5) * f.gP / f.gP ≠ R (k + 3) := by
      rw [node_div hp]
      exact fun heq => (h (k + 3)).apart (heq ▸ rfl)
    obtain ⟨answer, hroute, hr', ⟨port, hport, hfeeds⟩, hge, hle, -⟩ := htakes
    obtain rfl := Option.some.inj ((around_ugal h hp hin hspot).symm.trans hroute)
    rw [hspot] at hfeeds
    -- the port to the node in between is the one that the next packet has gone by
    have hway := way_of_feeds hp (h (k + 3)).lt hr' hlt hport hfeeds
    have hnext := hway.next_eq.trans (h (k + 3)).near
    have hsame := port_congr hp (h (k + 3)).lt hlt hlt' haway haway'
      ((h (k + 3)).near.trans (h (k + 3)).forth.symm)
    rw [hnext] at hfeeds
    obtain ⟨q, hq⟩ := h.exists_waiting (k := k + 1) hp (hsame.symm.trans hport) hfeeds
    refine ⟨q, ⟨k + 1, _, hway.le_inPort, inPort_lt_of_feeds hfeeds, hq⟩, ?_⟩
    rw [Waiting.holds, hq, hnext, le_antisymm hle hge]
    rfl

end Circle

/-! ### A circle in every dragonfly -/

/-- The router of a group that has the link to another. -/
def gate (f : DragonFly) (g h : Nat) : Nat := grpOutput g h / f.gP

/-- Six routers in three groups, again and again. -/
def ring (f : DragonFly) : Nat → Nat
  | 0 => 0 * f.gA + 1
  | 1 => 0 * f.gA + 0
  | 2 => f.gP * f.gA + 0
  | 3 => f.gP * f.gA + 1
  | 4 => (f.gP + 1) * f.gA + 1
  | 5 => (f.gP + 1) * f.gA + 0
  | k + 6 => ring f k

section Ring

variable {g h l x y z w : Nat}

theorem router_div (hx : x < f.gA) : (g * f.gA + x) / f.gA = g := ((eq_mul_add_iff hx).mp rfl).1

theorem router_mod (hx : x < f.gA) : (g * f.gA + x) % f.gA = x := ((eq_mul_add_iff hx).mp rfl).2

theorem router_eq_iff (hx : x < f.gA) (hy : y < f.gA) :
    g * f.gA + x = h * f.gA + y ↔ g = h ∧ x = y := channel_eq_iff hx hy

/-- To another group it goes over the link between the gates. -/
theorem next_eq_gate (hp : 0 < f.gP) (hx : x < f.gA) (hy : y < f.gA) (hne : g ≠ h) :
    f.next (g * f.gA + x) ((h * f.gA + y) * f.gP) =
      if f.gate g h = x then h * f.gA + f.gate h g else g * f.gA + f.gate g h := by
  have hgroup : (h * f.gA + y) * f.gP / f.grpNumNodes = h := by rw [node_group hp, router_div hy]
  have hgrpRID : f.grpRID (g * f.gA + x) ((h * f.gA + y) * f.gP) = g * f.gA + f.gate g h := by
    rw [grpRID, hgroup, router_div hx, if_neg hne.symm, Nat.add_comm]
    rfl
  have harrival : f.arrival (g * f.gA + x) ((h * f.gA + y) * f.gP) = h * f.gA + f.gate h g := by
    have hback : (if g > h then g - 1 else g) = grpOutput h g := by
      unfold grpOutput
      split <;> split <;> omega
    rw [arrival, hgroup, router_div hx, hback, Nat.add_comm]
    rfl
  simp only [next, hgrpRID, harrival, Nat.add_left_cancel_iff]

theorem next_eq_near (hp : 0 < f.gP) (hx : x < f.gA) (hy : y < f.gA) (hne : x ≠ y) :
    f.next (g * f.gA + x) ((g * f.gA + y) * f.gP) = g * f.gA + y := by
  have hgrpRID : f.grpRID (g * f.gA + x) ((g * f.gA + y) * f.gP) = g * f.gA + y := by
    rw [grpRID, node_group hp, router_div hx, router_div hy, if_pos rfl, node_div hp]
  rw [next, hgrpRID, if_neg (mt (router_eq_iff hy hx).mp fun heq => hne heq.2.symm)]

theorem router_lt (hg : g < f.gG) (hx : x < f.gA) : g * f.gA + x < f.size := by
  refine lt_size (Nat.pos_of_ne_zero fun hzero => ?_) (by rwa [router_div hx])
  rw [gA, hzero] at hx
  exact absurd hx (Nat.not_lt_zero _)

/-- Two routers of a group, and two of another behind the gate. -/
theorem InRow.of_gate (hp : 0 < f.gP) (hg : g < f.gG) (hx : x < f.gA) (hne : g ≠ h) (hw : w < f.gA)
    (hgate : f.gate g h = y) (hgate' : f.gate h g = z) (hy : y < f.gA) (hz : z < f.gA) (hxy : x ≠ y) :
    InRow f (g * f.gA + x) (g * f.gA + y) (h * f.gA + z) (h * f.gA + w) where
  lt := router_lt hg hx
  step := mt (router_eq_iff hx hy).mp fun heq => hxy heq.2
  apart := by rwa [router_div hx, router_div hz]
  opposite := mt (router_eq_iff hx hw).mp fun heq => hne heq.1
  near := next_eq_near hp hx hy hxy
  forth := by rw [next_eq_gate hp hx hz hne, hgate, if_neg hxy.symm]
  back := by rw [next_eq_gate hp hz hx hne.symm, hgate', if_pos rfl, hgate]

/-- A gate, two routers of the group behind it, and one of a third group. -/
theorem InRow.of_link (hp : 0 < f.gP) (hg : g < f.gG) (hne : g ≠ h) (hw : w < f.gA) (hl : g ≠ l)
    (hgate : f.gate g h = x) (hgate' : f.gate h g = y) (hx : x < f.gA) (hy : y < f.gA)
    (hz : z < f.gA) (hyz : y ≠ z) :
    InRow f (g * f.gA + x) (h * f.gA + y) (h * f.gA + z) (l * f.gA + w) where
  lt := router_lt hg hx
  step := mt (router_eq_iff hx hy).mp fun heq => hne heq.1
  apart := by rwa [router_div hx, router_div hz]
  opposite := mt (router_eq_iff hx hw).mp fun heq => hl heq.1
  near := by rw [next_eq_gate hp hx hy hne, hgate, if_pos rfl, hgate']
  forth := by rw [next_eq_gate hp hx hz hne, hgate, if_pos rfl, hgate']
  back := by rw [next_eq_gate hp hz hx hne.symm, hgate', if_neg hyz]

theorem ring_circle (hp : 0 < f.gP) : Circle f (ring f) := by
  have ha : f.gA = 2 * f.gP := rfl
  have hsquare : f.gP ≤ f.gP * f.gP := Nat.le_mul_of_pos_left _ hp
  have htwo : f.gG = 2 * (f.gP * f.gP) + 1 := by rw [gG, ha, Nat.mul_assoc]
  have h0 : 0 < f.gA := by omega
  have h1 : 1 < f.gA := by omega
  have hself : f.gP / f.gP = 1 := Nat.div_self hp
  have hone : f.gate 0 f.gP = 0 := by
    refine Nat.div_eq_of_lt ?_
    rw [grpOutput, if_neg (by omega)]
    omega
  have htwo' : f.gate 0 (f.gP + 1) = 1 := hself
  have hthree : f.gate f.gP 0 = 0 := by
    rw [gate, grpOutput, if_pos hp, Nat.zero_div]
  have hfour : f.gate f.gP (f.gP + 1) = 1 := by
    rw [gate, grpOutput, if_neg (by omega), Nat.add_sub_cancel, hself]
  have hfive : f.gate (f.gP + 1) 0 = 0 := Nat.zero_div _
  have hsix : f.gate (f.gP + 1) f.gP = 1 := by
    rw [gate, grpOutput, if_pos (Nat.lt_succ_self _), hself]
  intro k
  induction k using ring.induct with
  | case1 => exact .of_gate hp (by omega) h1 (by omega) h1 hone hthree h0 h0 (by omega)
  | case2 => exact .of_link hp (by omega) (by omega) h1 (by omega) hone hthree h0 h0 h1 (by omega)
  | case3 => exact .of_gate hp (by omega) h0 (by omega) h0 hfour hsix h1 h1 (by omega)
  | case4 => exact .of_link hp (by omega) (by omega) h1 (by omega) hfour hsix h1 h1 h0 (by omega)
  | case5 => exact .of_gate hp (by omega) h1 (by omega) h0 hfive htwo' h0 h1 (by omega)
  | case6 => exact .of_link hp (by omega) (by omega) h0 (by omega) hfive htwo' h0 h1 h0 (by omega)
  | case7 k ih => exact ih

end Ring

theorem finite_sentAround (h : Circle f R) :
    (Waiting.holds '' {w : Waiting f true | SentAround R w}).Finite := by
  refine Set.Finite.subset ((Set.finite_Iio f.size).prod
    ((Set.finite_Iio (f.gP + (2 * f.gP - 1) + f.gP)).prod (Set.finite_singleton 0))) ?_
  rintro buffer ⟨w, ⟨k, inPort, -, hlt, hspot⟩, rfl⟩
  rw [Waiting.holds, hspot]
  exact ⟨(h (k + 3)).lt, hlt, rfl⟩

/-- In every dragonfly there are packets that wait for each other in a circle: each is on its
way to a node in between, has a buffer of its own, and wants one, but that of another. All
of them are in the first of the three virtual channels that are there against deadlocks. -/
theorem ugal_deadlock (hp : 0 < f.gP) : ∃ S : Set (Waiting f true), S.Finite ∧
    Set.InjOn Waiting.holds S ∧ (∀ w ∈ S, w.spot.vc = 0 ∧ ∃ buffer, w.wants buffer) ∧
      Progress.Deadlock Waiting.holds Waiting.wants S := by
  have hcircle := ring_circle hp
  obtain ⟨S, hsub, hinj, hdead⟩ := (hcircle.deadlock hp).exists_injOn
  have hfinite : (Waiting.holds '' S).Finite :=
    (finite_sentAround hcircle).subset (Set.image_mono hsub)
  refine ⟨S, hfinite.of_finite_image hinj, hinj, fun w hw => ?_, hdead⟩
  exact ⟨(hsub hw).vc_eq, (hsub hw).exists_wants hcircle hp⟩

theorem ugal_deadlock_one : ∃ S : Set (Waiting ⟨1⟩ true), S.Finite ∧
    Set.InjOn Waiting.holds S ∧ (∀ w ∈ S, w.spot.vc = 0 ∧ ∃ buffer, w.wants buffer) ∧
      Progress.Deadlock Waiting.holds Waiting.wants S :=
  ugal_deadlock Nat.one_pos

end DragonFly

end Flyover
