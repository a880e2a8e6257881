import Mathlib.Combinatorics.SimpleGraph.Acyclic
import Flyover.Progress.Inevitable

/-!
# Growing a spanning tree, and going up and down in it

A tree grows from its root by edges to vertices that it has not reached. In a
tree a walk that does not turn back goes towards the root first and then away
from it; so do the dependencies between the edges that such walks take one
after another, and they are acyclic.
-/

namespace Search

variable {V : Type} {G T : SimpleGraph V} {root : V}

/-- A tree that has grown from the root to the visited vertices. -/
structure Grown (G T : SimpleGraph V) (root : V) (visited : V → Prop) : Prop where
  root_visited : visited root
  le : T ≤ G
  inside : ∀ a b, T.Adj a b → visited a
  reach : ∀ a, visited a → T.Reachable root a
  acyclic : T.IsAcyclic

namespace Grown

variable {visited : V → Prop}

theorem start : Grown G ⊥ root (· = root) where
  root_visited := rfl
  le := bot_le
  inside := by
    intro a b hadj
    cases hadj
  reach := by
    rintro a rfl
    exact .refl _
  acyclic := SimpleGraph.isAcyclic_bot

/-- Nothing that has not been visited is reachable in the tree. -/
theorem not_reachable (h : Grown G T root visited) {a b : V} (hb : ¬ visited b) (hne : a ≠ b) :
    ¬ T.Reachable a b := by
  rintro hreach
  obtain ⟨w⟩ := hreach.symm
  cases w with
  | nil => exact hne rfl
  | cons hadj w => exact hb (h.inside _ _ hadj)

/-- Add an edge to a vertex that has not been visited. -/
theorem add [DecidableEq V] (h : Grown G T root visited) {c i : V} (hc : visited c)
    (hi : ¬ visited i) (hadj : G.Adj c i) :
    Grown G (T ⊔ SimpleGraph.edge c i) root (fun v => v = i ∨ visited v) where
  root_visited := .inr h.root_visited
  le := by
    apply sup_le h.le
    intro a b hab
    rw [SimpleGraph.edge_adj] at hab
    rcases hab.1 with ⟨rfl, rfl⟩ | ⟨rfl, rfl⟩
    · exact hadj
    · exact hadj.symm
  inside := by
    intro a b hab
    rcases hab with hab | hab
    · exact .inr (h.inside a b hab)
    · rw [SimpleGraph.edge_adj] at hab
      rcases hab.1 with ⟨rfl, rfl⟩ | ⟨rfl, rfl⟩
      · exact .inr hc
      · exact .inl rfl
  reach := by
    have hmono : ∀ a, visited a → (T ⊔ SimpleGraph.edge c i).Reachable root a := fun a ha =>
      (h.reach a ha).mono le_sup_left
    rintro a (rfl | ha)
    · have hedge : (T ⊔ SimpleGraph.edge c a).Adj c a := by
        right
        rw [SimpleGraph.edge_adj]
        exact ⟨.inl ⟨rfl, rfl⟩, hadj.ne⟩
      exact (hmono c hc).trans hedge.reachable
    · exact hmono a ha
  acyclic := by
    apply h.acyclic.sup_edge_of_not_reachable
    exact h.not_reachable hi hadj.ne

end Grown

/-- A step towards the root. -/
def Up (T : SimpleGraph V) (root n m : V) : Prop := T.dist root n = T.dist root m + 1

/-- A step away from the root. -/
def Down (T : SimpleGraph V) (root n m : V) : Prop := T.dist root m = T.dist root n + 1

/-- In a tree, going down and then up is turning back. -/
theorem eq_of_down_up (hT : T.IsAcyclic) {n m p : V} (hn : T.Reachable root n) (hnm : T.Adj n m)
    (hmp : T.Adj m p) (hdown : Down T root n m) (hup : Up T root m p) : n = p := by
  obtain ⟨w, hw⟩ := hn.exists_walk_length_eq_dist
  obtain ⟨w', hw'⟩ := ((hn.trans hnm.reachable).trans hmp.reachable).exists_walk_length_eq_dist
  have hpath : (w.concat hnm).IsPath := SimpleGraph.Walk.isPath_of_length_eq_dist _ (by
    rw [SimpleGraph.Walk.length_concat, hw]
    exact hdown.symm)
  have hpath' : (w'.concat hmp.symm).IsPath := SimpleGraph.Walk.isPath_of_length_eq_dist _ (by
    rw [SimpleGraph.Walk.length_concat, hw']
    exact hup.symm)
  have heq := congrArg Subtype.val
    ((hT.subsingleton_path root m).elim ⟨_, hpath⟩ ⟨_, hpath'⟩)
  exact (SimpleGraph.Walk.concat_inj heq).1

theorem up_or_down (hT : T.IsAcyclic) {n m : V} (hn : T.Reachable root n) (hnm : T.Adj n m) :
    Up T root n m ∨ Down T root n m :=
  hT.dist_eq_dist_add_one_of_adj_of_reachable root hnm hn

/-- A path in a tree goes up, zero or more steps, and then down, zero or more steps. -/
theorem exists_up_down (hT : T.IsAcyclic) {s d : V} (w : T.Walk s d) (hw : w.IsPath)
    (hs : T.Reachable root s) :
    ∃ (m : V) (up : T.Walk s m) (down : T.Walk m d), w = up.append down ∧
      (∀ e ∈ up.darts, Up T root e.fst e.snd) ∧ ∀ e ∈ down.darts, Down T root e.fst e.snd := by
  induction w with
  | nil => exact ⟨_, .nil, .nil, rfl, by simp, by simp⟩
  | @cons s v d hadj w ih =>
      rw [SimpleGraph.Walk.cons_isPath_iff] at hw
      obtain ⟨m, up, down, rfl, hup, hdown⟩ := ih hw.1 (hs.trans hadj.reachable)
      rcases up_or_down hT hs hadj with hfirst | hfirst
      · refine ⟨m, .cons hadj up, down, rfl, ?_, hdown⟩
        intro e he
        rw [SimpleGraph.Walk.darts_cons, List.mem_cons] at he
        rcases he with rfl | he
        · exact hfirst
        · exact hup e he
      · -- after a step down there is none up, for it would turn back
        cases up with
        | nil =>
            refine ⟨s, .nil, .cons hadj down, rfl, by simp, ?_⟩
            intro e he
            rw [SimpleGraph.Walk.darts_cons, List.mem_cons] at he
            rcases he with rfl | he
            · exact hfirst
            · exact hdown e he
        | @cons _ p _ hadj' up =>
            have hsecond := hup ⟨(v, p), hadj'⟩ (by simp)
            have hback := eq_of_down_up hT hs hadj hadj' hfirst hsecond
            apply absurd _ hw.2
            rw [hback]
            simp

/-- Two steps that follow each other without turning back. -/
structure Onward (T : SimpleGraph V) (root : V) (e e' : V × V) : Prop where
  reach : T.Reachable root e.1
  first : T.Adj e.1 e.2
  second : T.Adj e'.1 e'.2
  joined : e.2 = e'.1
  notBack : e.1 ≠ e'.2

theorem dist_lt_card [Fintype V] (a : V) (ha : T.Reachable root a) :
    T.dist root a < Fintype.card V := by
  obtain ⟨w, hpath, hw⟩ := ha.exists_path_of_dist
  rw [← hw]
  exact hpath.length_lt

open Classical in
/-- A number for each step: up, the nearer to the root the greater; down, greater
than any step up, and the farther the greater. -/
noncomputable def stepRank [Fintype V] (T : SimpleGraph V) (root : V) (e : V × V) : Nat :=
  if Up T root e.1 e.2 then Fintype.card V - T.dist root e.1
  else Fintype.card V + T.dist root e.2

/-- Steps that follow each other without turning back do so acyclically. -/
theorem acyclic_onward [Fintype V] (hT : T.IsAcyclic) : Progress.Acyclic (Onward T root) := by
  apply Progress.acyclic_of_rank (stepRank T root)
  rintro ⟨n, m⟩ ⟨m', p⟩ h
  obtain rfl : m = m' := h.joined
  have hm := h.reach.trans h.first.reachable
  have hn := dist_lt_card n h.reach
  unfold stepRank
  rcases up_or_down hT h.reach h.first with hup | hdown
  · rw [if_pos hup]
    unfold Up at hup
    dsimp only at hup ⊢
    split <;> omega
  · rcases up_or_down hT hm h.second with hup' | hdown'
    · exact absurd (eq_of_down_up hT h.reach h.first h.second hdown hup') h.notBack
    · unfold Down at hdown hdown'
      unfold Up
      dsimp only at hdown hdown' ⊢
      rw [if_neg (by omega), if_neg (by omega)]
      omega

end Search
