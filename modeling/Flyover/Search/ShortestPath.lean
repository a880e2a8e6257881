import Mathlib.Combinatorics.SimpleGraph.Metric

/-!
# Shortest-path search

Rules for a search that labels the vertices of a graph with a distance from a
source and a predecessor, and visits them one at a time: an unvisited vertex of
smallest label, whose neighbours are then labelled through it. Nothing is said
about how ties are broken or in what order neighbours are looked at.

When every vertex has been visited the labels are the distances, and the chain
of predecessors from a vertex ends at a neighbour of the source that is one
nearer to it.
-/

namespace Search

variable {V : Type} {G : SimpleGraph V} {src : V}

/-- What the labels mean while the search goes on. -/
structure Labels (G : SimpleGraph V) (src : V) (visited : V → Bool) (pred : V → Option V)
    (dist : V → ℕ∞) : Prop where
  source : dist src = 0
  chain : ∀ v, v ≠ src → dist v ≠ ⊤ →
    ∃ u, pred v = some u ∧ visited u = true ∧ G.Adj u v ∧ dist v = dist u + 1
  sound : ∀ v (n : ℕ), dist v = n → ∃ w : G.Walk v src, w.length = n
  relaxed : ∀ u v, visited u = true → G.Adj u v → dist v ≤ dist u + 1
  settled : ∀ v, visited v = true → ∀ w : G.Walk v src, dist v ≤ w.length

namespace Labels

variable {visited : V → Bool} {pred : V → Option V} {dist : V → ℕ∞}

theorem initial [DecidableEq V] :
    Labels G src (fun _ => false) (fun _ => none) (fun v => if v = src then 0 else ⊤) where
  source := if_pos rfl
  chain := by
    intro v hv htop
    exact absurd (if_neg hv) htop
  sound := by
    intro v n hn
    by_cases hv : v = src
    · subst hv
      rw [if_pos rfl] at hn
      exact ⟨.nil, by exact_mod_cast hn⟩
    · rw [if_neg hv] at hn
      exact absurd hn.symm (ENat.natCast_ne_top n)
  relaxed := by
    intro u v hu
    cases hu
  settled := by
    intro v hv
    cases hv

/-- Every walk to the source from an unvisited vertex is at least as long as the
smallest label of an unvisited vertex. -/
theorem le_length (h : Labels G src visited pred dist) {c : V}
    (hmin : ∀ v, visited v = false → dist c ≤ dist v) {v s : V} (w : G.Walk v s) (hs : s = src) :
    visited v = true ∧ dist v ≤ w.length ∨ dist c ≤ w.length := by
  induction w with
  | nil =>
      rename_i v
      subst hs
      cases hv : visited v with
      | true => exact .inl ⟨rfl, h.settled v hv .nil⟩
      | false =>
          have hle := hmin v hv
          rw [h.source] at hle
          exact .inr hle
  | @cons v u s hadj w ih =>
      rw [SimpleGraph.Walk.length_cons, Nat.cast_add, Nat.cast_one]
      rcases ih hs with ⟨hu, hle⟩ | hle
      · have hv : dist v ≤ w.length + 1 :=
          (h.relaxed u v hu hadj.symm).trans (add_le_add_left hle 1)
        cases hvisited : visited v with
        | true => exact .inl ⟨rfl, hv⟩
        | false => exact .inr ((hmin v hvisited).trans hv)
      · exact .inr (hle.trans le_self_add)

/-- While a vertex that reaches the source has not been visited, one with a finite
label comes next. -/
theorem ne_top (h : Labels G src visited pred dist) {c : V} (hc : visited c = false)
    (hmin : ∀ v, visited v = false → dist c ≤ dist v) (hreach : G.Reachable c src) :
    dist c ≠ ⊤ := by
  intro htop
  obtain ⟨w⟩ := hreach
  rcases h.le_length hmin w rfl with ⟨hvisited, -⟩ | hle
  · rw [hc] at hvisited
    cases hvisited
  · rw [htop] at hle
    exact ENat.natCast_ne_top _ (top_le_iff.mp hle)

/-- Visit an unvisited vertex of smallest label. -/
theorem visit (h : Labels G src visited pred dist) {c : V} (hc : visited c = false)
    (hmin : ∀ v, visited v = false → dist c ≤ dist v) {visited' : V → Bool}
    {pred' : V → Option V} {dist' : V → ℕ∞}
    (hvisited : ∀ v, visited' v = true ↔ v = c ∨ visited v = true)
    (hnew : ∀ v, visited' v = false → G.Adj c v → dist c + 1 < dist v →
      dist' v = dist c + 1 ∧ pred' v = some c)
    (hold : ∀ v, ¬ (visited' v = false ∧ G.Adj c v ∧ dist c + 1 < dist v) →
      dist' v = dist v ∧ pred' v = pred v) :
    Labels G src visited' pred' dist' := by
  have hkept : ∀ v, visited' v = true → dist' v = dist v ∧ pred' v = pred v := fun v hv =>
    hold v fun hcond => by rw [hv] at hcond; cases hcond.1
  have hstill : ∀ v, visited v = true → visited' v = true := fun v hv => (hvisited v).mpr (.inr hv)
  have hcVisited : visited' c = true := (hvisited c).mpr (.inl rfl)
  have hcKept := (hkept c hcVisited).1
  -- the smallest label is the distance
  have hcSettled : ∀ w : G.Walk c src, dist c ≤ w.length := by
    intro w
    rcases h.le_length hmin w rfl with ⟨hvisited, -⟩ | hle
    · rw [hc] at hvisited
      cases hvisited
    · exact hle
  constructor
  case source =>
    have hnot : ¬ (visited' src = false ∧ G.Adj c src ∧ dist c + 1 < dist src) := by
      rw [h.source]
      exact fun hcond => not_lt_bot hcond.2.2
    rw [(hold src hnot).1, h.source]
  case chain =>
    intro v hv htop
    by_cases hcond : visited' v = false ∧ G.Adj c v ∧ dist c + 1 < dist v
    · obtain ⟨hdist, hpred⟩ := hnew v hcond.1 hcond.2.1 hcond.2.2
      exact ⟨c, hpred, hcVisited, hcond.2.1, by rw [hdist, hcKept]⟩
    · obtain ⟨hdist, hpred⟩ := hold v hcond
      rw [hdist] at htop
      obtain ⟨u, hu, huVisited, hadj, heq⟩ := h.chain v hv htop
      refine ⟨u, hpred.trans hu, hstill u huVisited, hadj, ?_⟩
      rw [hdist, (hkept u (hstill u huVisited)).1, heq]
  case sound =>
    intro v n hn
    by_cases hcond : visited' v = false ∧ G.Adj c v ∧ dist c + 1 < dist v
    · rw [(hnew v hcond.1 hcond.2.1 hcond.2.2).1] at hn
      obtain ⟨m, hm⟩ : ∃ m : ℕ, dist c = m :=
        (ENat.ne_top_iff_exists.mp fun htop => by simp [htop] at hn).imp fun _ hm => hm.symm
      obtain ⟨w, hw⟩ := h.sound c m hm
      refine ⟨.cons hcond.2.1.symm w, ?_⟩
      rw [hm] at hn
      rw [SimpleGraph.Walk.length_cons, hw]
      exact_mod_cast hn
    · rw [(hold v hcond).1] at hn
      exact h.sound v n hn
  case relaxed =>
    intro u v hu hadj
    rw [(hkept u hu).1]
    by_cases hcond : visited' v = false ∧ G.Adj c v ∧ dist c + 1 < dist v
    · rw [(hnew v hcond.1 hcond.2.1 hcond.2.2).1]
      rcases (hvisited u).mp hu with rfl | huVisited
      · exact le_refl _
      · exact (le_of_lt hcond.2.2).trans (h.relaxed u v huVisited hadj)
    · rw [(hold v hcond).1]
      rcases (hvisited u).mp hu with rfl | huVisited
      · -- the neighbour is visited and its label cannot be improved, or it is small enough
        cases hv : visited' v with
        | false => exact not_lt.mp fun hlt => hcond ⟨hv, hadj, hlt⟩
        | true =>
            rcases (hvisited v).mp hv with rfl | hvVisited
            · exact absurd hadj (G.irrefl)
            · by_cases htop : dist u = ⊤
              · simp [htop]
              · obtain ⟨m, hm⟩ := ENat.ne_top_iff_exists.mp htop
                obtain ⟨w, hw⟩ := h.sound u m hm.symm
                have hle := h.settled v hvVisited (.cons hadj.symm w)
                rw [SimpleGraph.Walk.length_cons, hw] at hle
                rw [← hm]
                exact_mod_cast hle
      · exact h.relaxed u v huVisited hadj
  case settled =>
    intro v hv w
    rw [(hkept v hv).1]
    rcases (hvisited v).mp hv with rfl | hvVisited
    · exact hcSettled w
    · exact h.settled v hvVisited w

/-- When all vertices have been visited the labels are the distances. -/
theorem dist_eq (h : Labels G src visited pred dist) {v : V} (hv : visited v = true)
    (hreach : G.Reachable v src) : dist v = G.dist v src := by
  obtain ⟨w, hw⟩ := hreach.exists_walk_length_eq_dist
  have hle := h.settled v hv w
  rw [hw] at hle
  obtain ⟨n, hn⟩ := ENat.ne_top_iff_exists.mp fun htop : dist v = ⊤ =>
    ENat.natCast_ne_top _ (top_le_iff.mp (htop ▸ hle))
  obtain ⟨w', hw'⟩ := h.sound v n hn.symm
  have hge : G.dist v src ≤ n := hw' ▸ G.dist_le w'
  rw [← hn] at hle ⊢
  exact congrArg Nat.cast (Nat.le_antisymm (by exact_mod_cast hle) hge)

/-- The predecessor of a vertex is one nearer to the source. -/
theorem pred_closer (h : Labels G src visited pred dist) (hall : ∀ v, visited v = true) {v : V}
    (hreach : G.Reachable v src) (hne : v ≠ src) :
    ∃ u, pred v = some u ∧ G.Adj u v ∧ G.dist v src = G.dist u src + 1 := by
  have hdist := h.dist_eq (hall v) hreach
  obtain ⟨u, hpred, -, hadj, heq⟩ := h.chain v hne (hdist ▸ ENat.natCast_ne_top _)
  refine ⟨u, hpred, hadj, ?_⟩
  rw [hdist, h.dist_eq (hall u) (hadj.reachable.trans hreach)] at heq
  exact_mod_cast heq

end Labels

/-- Go from vertex to vertex, as long as there is a next one. -/
def follow (next : V → Option V) : Nat → V → List V
  | 0, v => [v]
  | n + 1, v =>
      match next v with
      | none => [v]
      | some u => v :: follow next n u

/-- If every vertex has a next one that is one nearer to `dest`, then following
them is a shortest walk, and it stops there. -/
theorem follow_eq_support {next : V → Option V} {dest : V} (hdest : next dest = none)
    (hnext : ∀ v, G.Reachable v dest → v ≠ dest →
      ∃ u, next v = some u ∧ G.Adj v u ∧ G.dist v dest = G.dist u dest + 1)
    {v : V} (hreach : G.Reachable v dest) :
    ∃ w : G.Walk v dest, w.length = G.dist v dest ∧
      ∀ n, G.dist v dest ≤ n → follow next n v = w.support := by
  generalize hlength : G.dist v dest = length
  induction length generalizing v with
  | zero =>
      obtain rfl := hreach.dist_eq_zero_iff.mp hlength
      refine ⟨.nil, rfl, ?_⟩
      intro n _
      cases n with
      | zero => rfl
      | succ n => rw [follow, hdest, SimpleGraph.Walk.support_nil]
  | succ length ih =>
      have hne : v ≠ dest := by
        rintro rfl
        rw [SimpleGraph.dist_self] at hlength
        cases hlength
      obtain ⟨u, hu, hadj, hcloser⟩ := hnext v hreach hne
      obtain ⟨w, hw, hfollow⟩ := ih (hadj.symm.reachable.trans hreach) (by omega)
      refine ⟨.cons hadj w, by rw [SimpleGraph.Walk.length_cons, hw], ?_⟩
      intro n hn
      obtain ⟨n, rfl⟩ := Nat.exists_eq_add_of_le' (Nat.lt_of_lt_of_le (Nat.succ_pos _) hn)
      rw [follow, hu, SimpleGraph.Walk.support_cons]
      exact congrArg _ (hfollow n (Nat.le_of_succ_le_succ hn))

/-- Vertices that come nearer to `dest` one by one stand on a shortest walk. -/
theorem dist_of_nearer (spots : Nat → V) {dest : V} {n : Nat}
    (hhop : ∀ i < n, G.Adj (spots i) (spots (i + 1)) ∧
      G.dist (spots i) dest = G.dist (spots (i + 1)) dest + 1)
    (hreach : G.Reachable (spots n) dest) :
    G.dist (spots 0) (spots n) = n ∧ G.dist (spots 0) dest = n + G.dist (spots n) dest := by
  have hwalk : ∃ w : G.Walk (spots 0) (spots n), w.length = n := by
    clear hreach
    induction n with
    | zero => exact ⟨.nil, rfl⟩
    | succ n ih =>
        obtain ⟨w, hw⟩ := ih fun i hi => hhop i (Nat.lt_succ_of_lt hi)
        refine ⟨w.append (.cons (hhop n (Nat.lt_succ_self n)).1 .nil), ?_⟩
        rw [SimpleGraph.Walk.length_append, hw]
        rfl
  have htotal : G.dist (spots 0) dest = n + G.dist (spots n) dest := by
    clear hreach hwalk
    induction n with
    | zero => exact (Nat.zero_add _).symm
    | succ n ih =>
        rw [ih fun i hi => hhop i (Nat.lt_succ_of_lt hi), (hhop n (Nat.lt_succ_self n)).2]
        omega
  obtain ⟨w, hw⟩ := hwalk
  obtain ⟨short, hshort⟩ := SimpleGraph.Reachable.exists_walk_length_eq_dist ⟨w⟩
  obtain ⟨rest, hrest⟩ := hreach.exists_walk_length_eq_dist
  have hle := SimpleGraph.dist_le w
  have hdetour := SimpleGraph.dist_le (short.append rest)
  rw [SimpleGraph.Walk.length_append, hshort, hrest] at hdetour
  exact ⟨by omega, htotal⟩

end Search
