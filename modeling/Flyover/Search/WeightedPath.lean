import Mathlib.Data.ENat.Basic
import Mathlib.Data.Fintype.Card
import Mathlib.Order.Bounds.Basic

/-!
# Shortest ways in a weighted graph

Rules for a search that labels the vertices of a directed graph with a distance from a
source and a predecessor. It visits them one at a time, an unvisited vertex of smallest
label, and labels what its edges lead to anew where that is nearer.

The chain of predecessors from a vertex ends at a vertex next to the source, and the way
from there to the vertex is a shortest one as well.
-/

namespace Search

variable {V : Type*} {weight : V → V → Option ℕ} {src u v x : V} {n m w : ℕ}

/-- A way from one vertex to another, with what its edges weigh together. -/
inductive Way (weight : V → V → Option ℕ) (src : V) : V → ℕ → Prop where
  | here : Way weight src src 0
  | step {v x : V} {n w : ℕ} : Way weight src v n → weight v x = some w → Way weight src x (n + w)

namespace Way

theorem cons (hedge : weight u v = some w) (h : Way weight v x n) : Way weight u x (w + n) := by
  induction h with
  | here => simpa using Way.here.step hedge
  | step _ hlast ih => simpa [Nat.add_assoc] using ih.step hlast

end Way

/-- The weight of the shortest ways. -/
def Shortest (weight : V → V → Option ℕ) (src v : V) (n : ℕ) : Prop :=
  IsLeast {n | Way weight src v n} n

/-- What the labels mean while the search goes on. -/
structure Weighed (weight : V → V → Option ℕ) (src : V) (visited : V → Bool) (prev : V → Option V)
    (dist : V → ℕ∞) : Prop where
  source : dist src = 0
  root : prev src = none
  chain : ∀ v, v ≠ src → dist v ≠ ⊤ →
    ∃ u w, prev v = some u ∧ visited u = true ∧ weight u v = some w ∧ dist v = dist u + w
  sound : ∀ v (n : ℕ), dist v = n → Way weight src v n
  relaxed : ∀ u v w, visited u = true → weight u v = some w → dist v ≤ dist u + w
  settled : ∀ v, visited v = true → ∀ n, Way weight src v n → dist v ≤ n

namespace Weighed

variable {visited : V → Bool} {prev : V → Option V} {dist : V → ℕ∞}

theorem initial [DecidableEq V] :
    Weighed weight src (fun _ => false) (fun _ => none) (fun v => if v = src then 0 else ⊤) where
  source := if_pos rfl
  root := rfl
  chain v hv htop := absurd (if_neg hv) htop
  sound := by
    intro v n hn
    by_cases hv : v = src
    · subst hv
      rw [if_pos rfl] at hn
      obtain rfl : n = 0 := by exact_mod_cast hn.symm
      exact .here
    · rw [if_neg hv] at hn
      exact absurd hn.symm (ENat.natCast_ne_top n)
  relaxed := by
    intro u v w hu
    cases hu
  settled := by
    intro v hv
    cases hv

/-- A way that leaves the visited vertices weighs at least the smallest label that is not
visited. -/
theorem le_way (h : Weighed weight src visited prev dist) {c : V}
    (hmin : ∀ v, visited v = false → dist c ≤ dist v) (hway : Way weight src v n) :
    visited v = true ∧ dist v ≤ n ∨ dist c ≤ n := by
  induction hway with
  | here =>
      cases hsrc : visited src with
      | true => exact .inl ⟨rfl, h.source.le⟩
      | false =>
          have hle := hmin src hsrc
          rw [h.source] at hle
          exact .inr hle
  | @step v x n w _ hedge ih =>
      rw [Nat.cast_add]
      rcases ih with ⟨hv, hle⟩ | hle
      · have hx : dist x ≤ n + w := (h.relaxed v x w hv hedge).trans (add_le_add_left hle _)
        cases hvisited : visited x with
        | true => exact .inl ⟨rfl, hx⟩
        | false => exact .inr ((hmin x hvisited).trans hx)
      · exact .inr (hle.trans le_self_add)

/-- An unvisited vertex of smallest label is visited, and its edges are looked at. -/
theorem visit [DecidableEq V] (h : Weighed weight src visited prev dist) {c : V}
    (hc : visited c = false) (hmin : ∀ v, visited v = false → dist c ≤ dist v)
    {prev' : V → Option V} {dist' : V → ℕ∞}
    (hlabels : ∀ v, (∃ w, weight c v = some w ∧ dist c + w < dist v ∧ dist' v = dist c + w ∧
        prev' v = some c) ∨
      (∀ w, weight c v = some w → dist v ≤ dist c + w) ∧ dist' v = dist v ∧ prev' v = prev v) :
    Weighed weight src (Function.update visited c true) prev' dist' := by
  have hsource : dist' src = dist src ∧ prev' src = prev src := by
    rcases hlabels src with ⟨w, -, hless, -⟩ | ⟨-, hsame⟩
    · rw [h.source] at hless
      exact absurd hless not_lt_zero
    · exact hsame
  have hvisited : ∀ v, Function.update visited c true v = true → v = c ∨ visited v = true := by
    intro v hv
    by_cases heq : v = c
    · exact .inl heq
    · exact .inr (by rwa [Function.update_of_ne heq] at hv)
  -- what is visited has its label for good
  have hkept : ∀ v, Function.update visited c true v = true → dist' v = dist v := by
    intro v hv
    rcases hlabels v with ⟨w, hedge, hless, -⟩ | ⟨-, hsame, -⟩
    · refine absurd hless (not_lt.mpr ?_)
      rcases hvisited v hv with rfl | hv
      · exact le_self_add
      · by_cases htop : dist c = ⊤
        · simp [htop]
        · obtain ⟨n, hn⟩ := ENat.ne_top_iff_exists.mp htop
          have hway := (h.sound c n hn.symm).step hedge
          have hle := h.settled v hv _ hway
          rwa [Nat.cast_add, hn] at hle
    · exact hsame
  have hle : ∀ v, dist' v ≤ dist v := by
    intro v
    rcases hlabels v with ⟨w, -, hless, heq, -⟩ | ⟨-, hsame, -⟩
    · rw [heq]
      exact hless.le
    · exact hsame.le
  have hself : Function.update visited c true c = true := Function.update_self ..
  constructor
  case source => rw [hsource.1, h.source]
  case root => rw [hsource.2, h.root]
  case chain =>
    intro v hv htop
    rcases hlabels v with ⟨w, hedge, -, heq, hprev⟩ | ⟨-, hsame, hprev⟩
    · exact ⟨c, w, hprev, hself, hedge, by rw [heq, hkept c hself]⟩
    · rw [hsame] at htop
      obtain ⟨u, w, hu, hvisit, hedge, heq⟩ := h.chain v hv htop
      have hvisit' : Function.update visited c true u = true := by
        by_cases huc : u = c
        · rw [huc, hself]
        · rwa [Function.update_of_ne huc]
      exact ⟨u, w, hprev.trans hu, hvisit', hedge, by rw [hsame, heq, hkept u hvisit']⟩
  case sound =>
    intro v n hn
    rcases hlabels v with ⟨w, hedge, -, heq, -⟩ | ⟨-, hsame, -⟩
    · rw [heq] at hn
      have htop : dist c ≠ ⊤ := by
        intro htop
        rw [htop, top_add] at hn
        exact ENat.natCast_ne_top n hn.symm
      obtain ⟨m, hm⟩ := ENat.ne_top_iff_exists.mp htop
      rw [← hm] at hn
      obtain rfl : n = m + w := by exact_mod_cast hn.symm
      exact (h.sound c m hm.symm).step hedge
    · exact h.sound v n (hsame ▸ hn)
  case relaxed =>
    intro u v w hu hedge
    rw [hkept u hu]
    rcases hvisited u hu with rfl | hu
    · rcases hlabels v with ⟨w', hedge', -, heq, -⟩ | ⟨hnot, hsame, -⟩
      · obtain rfl := Option.some.inj (hedge.symm.trans hedge')
        exact heq.le
      · rw [hsame]
        exact hnot w hedge
    · exact (hle v).trans (h.relaxed u v w hu hedge)
  case settled =>
    intro v hv n hway
    rw [hkept v hv]
    rcases hvisited v hv with rfl | hv
    · rcases h.le_way hmin hway with ⟨hv', -⟩ | hle
      · rw [hc] at hv'
        cases hv'
      · exact hle
    · exact h.settled v hv n hway

/-- When all are visited the labels are the weights of the shortest ways. -/
theorem shortest (h : Weighed weight src visited prev dist) (hall : ∀ v, visited v = true)
    (hn : dist v = n) : Shortest weight src v n := by
  refine ⟨h.sound v n hn, fun m hway => ?_⟩
  have hle := h.settled v (hall v) m hway
  rw [hn] at hle
  exact_mod_cast hle

/-- Where the chain of predecessors is left for the source. -/
inductive Leaves (prev : V → Option V) (src : V) : V → V → ℕ → Prop where
  | here {v : V} : prev v = some src → Leaves prev src v v 0
  | back {v u s : V} {i : ℕ} : prev v = some u → u ≠ src → Leaves prev src u s i →
      Leaves prev src v s (i + 1)

/-- The chain from a vertex leads to a vertex next to the source, in fewer steps than there
are vertices nearer to the source. -/
theorem exists_leaves [Fintype V] (h : Weighed weight src visited prev dist)
    (hpos : ∀ u v w, weight u v = some w → 0 < w) (hv : v ≠ src) (hn : dist v = n) :
    ∃ s i w m, Leaves prev src v s i ∧
      i < (Finset.univ.filter fun x => dist x < dist v).card ∧
      weight src s = some w ∧ Way weight s v m ∧ n = w + m := by
  classical
  induction n using Nat.strongRecOn generalizing v with
  | ind n ih =>
      have htop : dist v ≠ ⊤ := hn ▸ ENat.natCast_ne_top n
      obtain ⟨u, w, hprev, -, hedge, heq⟩ := h.chain v hv htop
      have hw := hpos u v w hedge
      have hu : dist u ≠ ⊤ := by
        intro hu
        rw [heq, hu, top_add] at htop
        exact htop rfl
      obtain ⟨k, hk⟩ := ENat.ne_top_iff_exists.mp hu
      have hnk : n = k + w := by
        rw [hn, ← hk] at heq
        exact_mod_cast heq
      have hless : dist u < dist v := by
        rw [hn, ← hk, hnk]
        exact_mod_cast Nat.lt_add_of_pos_right hw
      by_cases hsrc : u = src
      · subst hsrc
        refine ⟨v, 0, w, 0, .here hprev, ?_, hedge, .here, ?_⟩
        · exact Finset.card_pos.mpr ⟨u, by simpa using hless⟩
        · have hzero : (k : ℕ∞) = 0 := hk.trans h.source
          have hzero : k = 0 := by exact_mod_cast hzero
          rw [hnk, hzero, Nat.zero_add, Nat.add_zero]
      · obtain ⟨s, i, w', m, hleaves, hi, hfirst, hway, hsum⟩ :=
          ih k (hnk ▸ Nat.lt_add_of_pos_right hw) hsrc hk.symm
        refine ⟨s, i + 1, w', m + w, .back hprev hsrc hleaves, ?_, hfirst, hway.step hedge, ?_⟩
        · -- the vertex is nearer than the next one, but not than itself
          refine Nat.lt_of_le_of_lt (Nat.succ_le_of_lt hi) (Finset.card_lt_card ?_)
          refine Finset.ssubset_iff_of_subset (fun x hx => ?_) |>.mpr ⟨u, ?_, ?_⟩
          · simp only [Finset.mem_filter, Finset.mem_univ, true_and] at hx ⊢
            exact hx.trans hless
          · simpa using hless
          · simp
        · rw [hnk, hsum, Nat.add_assoc]

end Weighed

/-- The rest of a shortest way is a shortest way. -/
theorem Shortest.rest (h : Shortest weight src x n) (hedge : weight src v = some w)
    (hway : Way weight v x m) (hn : n = w + m) : Shortest weight v x m := by
  refine ⟨hway, fun k hk => ?_⟩
  have hle := h.2 (hk.cons hedge)
  omega

end Search
