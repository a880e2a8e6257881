import Mathlib.Algebra.BigOperators.Fin
import Mathlib.Algebra.BigOperators.Intervals
import Flyover.Flov.Router

/-!
# The latency votes

`FLOVTrafficManager` samples the latency of the packets that reach each node. Once
every epoch it sweeps the rows and columns of the mesh, one number a cycle: the
nodes whose row or column has the cycle's number vote, and their samples are
cleared. At the number `gK` the votes change the policies of the routers and are
reset.
-/

namespace Flyover

/-- `Stats`: what `NumSamples` and `Average` read. -/
structure Stats where
  numSamples : Nat := 0
  sampleSum : Int := 0
  deriving DecidableEq, Repr

/-- `Stats::AddSample` -/
def Stats.addSample (stats : Stats) (val : Int) : Stats where
  numSamples := stats.numSamples + 1
  sampleSum := stats.sampleSum + val

theorem Stats.numSamples_addSamples (stats : Stats) (vals : List Int) :
    (vals.foldl addSample stats).numSamples = stats.numSamples + vals.length := by
  induction vals generalizing stats with
  | nil => rfl
  | cons val rest ih =>
      rw [List.foldl_cons, ih, List.length_cons]
      dsimp only [addSample]
      omega

/-- The configuration. The averages are compared in floating point, so the two
comparisons stand for themselves. -/
structure MonitorConfig where
  /-- `_monitor_epoch` -/
  monitorEpoch : Int
  /-- `avg_plat < _plat_low_watermark` -/
  belowLow : Stats → Bool
  /-- `avg_plat > _plat_high_watermark` -/
  aboveHigh : Stats → Bool

/-- `vote` -/
def MonitorConfig.vote (cfg : MonitorConfig) (plat : Stats) : Int :=
  if cfg.belowLow plat then 1
  else if cfg.aboveHigh plat then -1
  else 0

/-- The state of the votes. -/
structure Monitor (k : Nat) where
  /-- `_monitor_counter` -/
  monitorCounter : Nat := 0
  /-- `_power_state_votes` -/
  powerStateVotes : Node k → Int := fun _ => 0
  /-- `_per_node_plat` -/
  perNodePlat : Node k → Stats := fun _ => {}

namespace Node

variable {k : Nat}

/-- The loop over the columns `c ≠ col` of one row. -/
def rowPeers (n : Node k) : List (Node k) :=
  (List.finRange (k * k)).filter fun node => node.y = n.y ∧ node.x ≠ n.x

/-- The loop over the rows `r ≠ row` of one column. -/
def columnPeers (n : Node k) : List (Node k) :=
  (List.finRange (k * k)).filter fun node => node.x = n.x ∧ node.y ≠ n.y

/-- `row == turn || col == turn` -/
def HasTurn (turn : Int) (n : Node k) : Prop := (n.y : Int) = turn ∨ (n.x : Int) = turn

instance (turn : Int) (n : Node k) : Decidable (n.HasTurn turn) :=
  inferInstanceAs (Decidable (_ ∨ _))

/-- The nodes whose totals a node's vote is added to, in the order of the additions. -/
def receivers (turn : Int) (n : Node k) : List (Node k) :=
  (if (n.y : Int) = turn then n.rowPeers else []) ++
    (if (n.x : Int) = turn then n.columnPeers else []) ++ [n]

theorem count_rowPeers (n node : Node k) :
    n.rowPeers.count node = if node.y = n.y ∧ node.x ≠ n.x then 1 else 0 := by
  split
  next hpeer =>
    exact List.count_eq_one_of_mem ((List.nodup_finRange _).filter _)
      (List.mem_filter.mpr ⟨List.mem_finRange _, decide_eq_true hpeer⟩)
  next hpeer =>
    exact List.count_eq_zero.mpr fun hmem => hpeer (of_decide_eq_true (List.mem_filter.mp hmem).2)

theorem count_columnPeers (n node : Node k) :
    n.columnPeers.count node = if node.x = n.x ∧ node.y ≠ n.y then 1 else 0 := by
  split
  next hpeer =>
    exact List.count_eq_one_of_mem ((List.nodup_finRange _).filter _)
      (List.mem_filter.mpr ⟨List.mem_finRange _, decide_eq_true hpeer⟩)
  next hpeer =>
    exact List.count_eq_zero.mpr fun hmem => hpeer (of_decide_eq_true (List.mem_filter.mp hmem).2)

/-- What a node adds to its own total, to a row peer and to a column peer. -/
theorem count_receivers (turn : Int) (n node : Node k) :
    (n.receivers turn).count node =
      (if (n.y : Int) = turn ∧ node.y = n.y ∧ node.x ≠ n.x then 1 else 0) +
        (if (n.x : Int) = turn ∧ node.x = n.x ∧ node.y ≠ n.y then 1 else 0) +
          (if node = n then 1 else 0) := by
  rw [receivers, List.count_append, List.count_append]
  congr 1
  · congr 1
    · by_cases hrow : (n.y : Int) = turn
      · simp [hrow, count_rowPeers]
      · simp [hrow]
    · by_cases hcol : (n.x : Int) = turn
      · simp [hcol, count_columnPeers]
      · simp [hcol]
  · by_cases hself : node = n
    · simp [hself]
    · simp [hself, Ne.symm hself]

end Node

namespace Monitor

variable {k : Nat} {cfg : MonitorConfig}

/-- The `if` for one node of the sweep. -/
def examine (cfg : MonitorConfig) (turn : Int) (s : Monitor k) (n : Node k) : Monitor k :=
  if n.HasTurn turn then
    if (s.perNodePlat n).numSamples = 0 then s
    else
      { s with
        powerStateVotes := (n.receivers turn).foldl
          (fun votes node => Function.update votes node
            (votes node + cfg.vote (s.perNodePlat n))) s.powerStateVotes
        perNodePlat := Function.update s.perNodePlat n {} }
  else s

/-- The loops over `row` and `col`. -/
def sweep (cfg : MonitorConfig) (turn : Int) (s : Monitor k) : Monitor k :=
  (List.finRange (k * k)).foldl (examine cfg turn) s

/-- The call that a total asks for. -/
def policyFor (total : Int) : List PolicyCall :=
  if total > 0 then [.aggress] else if total < 0 then [.regress] else []

/-- `_monitor_counter / _monitor_epoch > 0` -/
def Sweeps (cfg : MonitorConfig) (s : Monitor k) : Prop :=
  (s.monitorCounter : Int).tdiv cfg.monitorEpoch > 0

instance (cfg : MonitorConfig) (s : Monitor k) : Decidable (s.Sweeps cfg) :=
  inferInstanceAs (Decidable (_ > _))

/-- `turn` -/
def turn (cfg : MonitorConfig) (s : Monitor k) : Int :=
  (s.monitorCounter : Int).tmod cfg.monitorEpoch

/-- The adaptive power gating of one cycle, with the calls it makes when the sweep
is over. The routers of the bottom row are passed over. -/
def regulate (cfg : MonitorConfig) (s : Monitor k) :
    Monitor k × Option (Node k → List PolicyCall) :=
  if s.Sweeps cfg then
    let swept := s.sweep cfg (s.turn cfg)
    if s.turn cfg = k then
      ({ swept with monitorCounter := 0, powerStateVotes := fun _ => 0 },
        some fun n => if Router.bottomRow n then [] else policyFor (swept.powerStateVotes n))
    else (swept, none)
  else (s, none)

/-- One cycle, with the latencies of the packets it retires. The division by an
epoch of 0 and a counter that leaves the range of an `int` are undefined. -/
def step (cfg : MonitorConfig) (retired : Node k → List Int) (s : Monitor k) :
    Option (Monitor k) :=
  if cfg.monitorEpoch = 0 then none
  else
    let s := (s.regulate cfg).1
    if s.monitorCounter + 1 < 2 ^ 31 then
      some { s with
        monitorCounter := s.monitorCounter + 1
        perNodePlat := fun n => (retired n).foldl Stats.addSample (s.perNodePlat n) }
    else none

/-- The state before each cycle. -/
def before (cfg : MonitorConfig) (retired : Nat → Node k → List Int) : Nat → Option (Monitor k)
  | 0 => some {}
  | i + 1 => (before cfg retired i).bind (step cfg (retired i))

/-- Some sample of the node has not been cleared. -/
def Sampled (s : Monitor k) (n : Node k) : Prop := (s.perNodePlat n).numSamples ≠ 0

instance (s : Monitor k) (n : Node k) : Decidable (s.Sampled n) :=
  inferInstanceAs (Decidable (_ ≠ _))

/-- How often the sweep adds the vote of `n` to the total of `node`. -/
def castsIn (turn : Int) (s : Monitor k) (n node : Node k) : Nat :=
  if n.HasTurn turn ∧ s.Sampled n then (n.receivers turn).count node else 0

/-- How often the cycle adds the vote of `n` to the total of `node`. -/
def casts (cfg : MonitorConfig) (s : Monitor k) (n node : Node k) : Nat :=
  if s.Sweeps cfg then castsIn (s.turn cfg) s n node else 0

/-! ## One sweep -/

theorem addVote_apply {α : Type*} [DecidableEq α] (votes : α → Int) (nodes : List α) (vote : Int)
    (node : α) :
    nodes.foldl (fun votes node => Function.update votes node (votes node + vote)) votes node =
      votes node + nodes.count node * vote := by
  induction nodes generalizing votes with
  | nil => simp
  | cons first rest ih =>
      rw [List.foldl_cons, ih]
      by_cases hfirst : first = node
      · subst hfirst
        rw [Function.update_self, List.count_cons_self]
        push_cast
        ring
      · rw [Function.update_of_ne (Ne.symm hfirst), List.count_cons_of_ne hfirst]

theorem examine_votes (turn : Int) (s : Monitor k) (n node : Node k) :
    (s.examine cfg turn n).powerStateVotes node =
      s.powerStateVotes node + castsIn turn s n node * cfg.vote (s.perNodePlat n) := by
  unfold examine castsIn Sampled
  by_cases hturn : n.HasTurn turn
  · by_cases hnone : (s.perNodePlat n).numSamples = 0
    · simp [hturn, hnone]
    · simp [hturn, hnone, addVote_apply]
  · simp [hturn]

theorem examine_plat (turn : Int) (s : Monitor k) (n node : Node k) :
    (s.examine cfg turn n).perNodePlat node =
      if node = n ∧ n.HasTurn turn ∧ s.Sampled n then {} else s.perNodePlat node := by
  unfold examine Sampled
  by_cases hturn : n.HasTurn turn
  · by_cases hnone : (s.perNodePlat n).numSamples = 0
    · simp [hturn, hnone]
    · by_cases hnode : node = n
      · subst hnode
        simp [hturn, hnone]
      · simp [hturn, hnone, hnode]
  · simp [hturn]

/-- A node's turn changes the samples of no other node. -/
theorem examine_plat_of_ne (cfg : MonitorConfig) (turn : Int) (s : Monitor k) {n node : Node k} (hne : node ≠ n) :
    (s.examine cfg turn n).perNodePlat node = s.perNodePlat node := by
  rw [examine_plat, if_neg fun h => hne h.1]

@[simp] theorem examine_counter (turn : Int) (s : Monitor k) (n : Node k) :
    (s.examine cfg turn n).monitorCounter = s.monitorCounter := by
  unfold examine
  split
  · split <;> rfl
  · rfl

theorem sampled_congr {s t : Monitor k} {n : Node k}
    (hplat : t.perNodePlat n = s.perNodePlat n) : t.Sampled n ↔ s.Sampled n := by
  rw [Sampled, Sampled, hplat]

theorem castsIn_congr {turn : Int} {s t : Monitor k} {n : Node k}
    (hplat : t.perNodePlat n = s.perNodePlat n) (node : Node k) :
    castsIn turn t n node = castsIn turn s n node := by
  simp only [castsIn, sampled_congr hplat]

/-- The totals after some nodes have been examined. Each node is examined once, so it
votes with the samples it had before the sweep. -/
theorem foldl_examine_votes (turn : Int) (node : Node k) {nodes : List (Node k)}
    (hnodup : nodes.Nodup) (s : Monitor k) :
    (nodes.foldl (examine cfg turn) s).powerStateVotes node =
      s.powerStateVotes node +
        (nodes.map fun n => (castsIn turn s n node : Int) * cfg.vote (s.perNodePlat n)).sum := by
  induction nodes generalizing s with
  | nil => simp
  | cons first rest ih =>
      obtain ⟨hfirst, hrest⟩ := List.nodup_cons.mp hnodup
      have hsame : ∀ n ∈ rest,
          (castsIn turn (s.examine cfg turn first) n node : Int) *
              cfg.vote ((s.examine cfg turn first).perNodePlat n) =
            castsIn turn s n node * cfg.vote (s.perNodePlat n) := by
        intro n hn
        have hplat := examine_plat_of_ne cfg turn s
          (fun h => hfirst (h ▸ hn) : n ≠ first)
        rw [castsIn_congr hplat, hplat]
      rw [List.foldl_cons, ih hrest, examine_votes, List.map_congr_left hsame, List.map_cons,
        List.sum_cons, add_assoc]

theorem foldl_examine_plat (turn : Int) (node : Node k) (nodes : List (Node k)) (s : Monitor k) :
    (nodes.foldl (examine cfg turn) s).perNodePlat node =
      if node ∈ nodes ∧ node.HasTurn turn ∧ s.Sampled node then {} else s.perNodePlat node := by
  induction nodes generalizing s with
  | nil => simp
  | cons first rest ih =>
      rw [List.foldl_cons, ih]
      by_cases hfirst : node = first
      · subst hfirst
        by_cases hclear : node.HasTurn turn ∧ s.Sampled node
        · have hempty : (s.examine cfg turn node).perNodePlat node = {} := by
            rw [examine_plat, if_pos ⟨rfl, hclear⟩]
          rw [hempty, ite_self, if_pos ⟨List.mem_cons_self, hclear⟩]
        · have hkept : (s.examine cfg turn node).perNodePlat node = s.perNodePlat node := by
            rw [examine_plat, if_neg fun h => hclear h.2]
          simp only [sampled_congr hkept, hkept, hclear, and_false, if_false]
      · have hkept := examine_plat_of_ne cfg turn s hfirst
        simp only [sampled_congr hkept, hkept, List.mem_cons, hfirst, false_or]

theorem sweep_votes (turn : Int) (s : Monitor k) (node : Node k) :
    (s.sweep cfg turn).powerStateVotes node =
      s.powerStateVotes node +
        ∑ n, (castsIn turn s n node : Int) * cfg.vote (s.perNodePlat n) := by
  rw [sweep, foldl_examine_votes turn node (List.nodup_finRange _), Fin.sum_univ_def]

theorem sweep_plat (turn : Int) (s : Monitor k) (node : Node k) :
    (s.sweep cfg turn).perNodePlat node =
      if node.HasTurn turn ∧ s.Sampled node then {} else s.perNodePlat node := by
  rw [sweep, foldl_examine_plat]
  simp only [List.mem_finRange, true_and]

@[simp] theorem sweep_counter (turn : Int) (s : Monitor k) :
    (s.sweep cfg turn).monitorCounter = s.monitorCounter := by
  have hfold : ∀ (nodes : List (Node k)) (t : Monitor k),
      (nodes.foldl (examine cfg turn) t).monitorCounter = t.monitorCounter := by
    intro nodes
    induction nodes with
    | nil => exact fun _ => rfl
    | cons first rest ih => exact fun t => (ih _).trans (examine_counter turn t first)
  exact hfold _ s

/-! ## One cycle -/

theorem sweeps_iff (s : Monitor k) :
    s.Sweeps cfg ↔ 0 < cfg.monitorEpoch ∧ cfg.monitorEpoch ≤ s.monitorCounter := by
  have hcounter : (0 : Int) ≤ s.monitorCounter := Int.natCast_nonneg _
  rw [Sweeps, Int.tdiv_eq_ediv_of_nonneg hcounter, gt_iff_lt]
  rcases Int.lt_or_le 0 cfg.monitorEpoch with hpos | hneg
  · simp only [hpos, true_and]
    have hle := Int.le_ediv_iff_mul_le (a := 1) (b := s.monitorCounter) hpos
    rw [one_mul] at hle
    exact hle
  · have hquot := Int.ediv_nonpos_of_nonneg_of_nonpos hcounter hneg
    exact iff_of_false (not_lt.mpr hquot) fun h => not_lt.mpr hneg h.1

theorem turn_eq (s : Monitor k) : s.turn cfg = s.monitorCounter % cfg.monitorEpoch :=
  Int.tmod_eq_emod_of_nonneg (Int.natCast_nonneg _)

/-- In the first round of a sweep the turns are counted from the epoch on. -/
theorem turn_eq_sub {s : Monitor k} (hsweeps : s.Sweeps cfg)
    (hround : (s.monitorCounter : Int) < 2 * cfg.monitorEpoch) :
    s.turn cfg = s.monitorCounter - cfg.monitorEpoch := by
  obtain ⟨hpos, hle⟩ := (sweeps_iff s).mp hsweeps
  rw [turn_eq, ← Int.sub_emod_right]
  exact Int.emod_eq_of_lt (by omega) (by omega)

/-- A sweep reaches the turn `gK` only in an epoch longer than `gK`. -/
theorem counter_of_turn {s : Monitor k} (hsweeps : s.Sweeps cfg) (hturn : s.turn cfg = k) :
    (k : Int) < cfg.monitorEpoch ∧ cfg.monitorEpoch + k ≤ s.monitorCounter := by
  obtain ⟨hpos, hle⟩ := (sweeps_iff s).mp hsweeps
  rw [turn_eq] at hturn
  have hlt := Int.emod_lt_of_pos s.monitorCounter hpos
  have hquot : 1 ≤ (s.monitorCounter : Int) / cfg.monitorEpoch :=
    (Int.le_ediv_iff_mul_le hpos).mpr (by omega)
  have hdiv := Int.mul_ediv_add_emod s.monitorCounter cfg.monitorEpoch
  have hmul := Int.mul_le_mul_of_nonneg_left hquot hpos.le
  omega

theorem regulate_of_not_sweeps {s : Monitor k} (hsweeps : ¬ s.Sweeps cfg) :
    s.regulate cfg = (s, none) := if_neg hsweeps

theorem regulate_of_turn_ne {s : Monitor k} (hsweeps : s.Sweeps cfg) (hturn : s.turn cfg ≠ k) :
    s.regulate cfg = (s.sweep cfg (s.turn cfg), none) :=
  (if_pos hsweeps).trans (if_neg hturn)

theorem regulate_of_turn_eq {s : Monitor k} (hsweeps : s.Sweeps cfg) (hturn : s.turn cfg = k) :
    s.regulate cfg =
      ({ s.sweep cfg (s.turn cfg) with monitorCounter := 0, powerStateVotes := fun _ => 0 },
        some fun n =>
          if Router.bottomRow n then []
          else policyFor ((s.sweep cfg (s.turn cfg)).powerStateVotes n)) :=
  (if_pos hsweeps).trans (if_pos hturn)

theorem regulate_plat (s : Monitor k) (n : Node k) :
    (s.regulate cfg).1.perNodePlat n =
      if s.Sweeps cfg ∧ n.HasTurn (s.turn cfg) ∧ s.Sampled n then {} else s.perNodePlat n := by
  by_cases hsweeps : s.Sweeps cfg
  · simp only [hsweeps, true_and]
    by_cases hturn : s.turn cfg = k
    · rw [regulate_of_turn_eq hsweeps hturn]
      exact sweep_plat _ s n
    · rw [regulate_of_turn_ne hsweeps hturn]
      exact sweep_plat _ s n
  · rw [regulate_of_not_sweeps hsweeps, if_neg fun h => hsweeps h.1]

/-- What the votes of one cycle add to a total. -/
def gathered (cfg : MonitorConfig) (s : Monitor k) (node : Node k) : Int :=
  ∑ n, (s.casts cfg n node : Int) * cfg.vote (s.perNodePlat n)

theorem sweep_votes_eq_gathered {s : Monitor k} (hsweeps : s.Sweeps cfg) (node : Node k) :
    (s.sweep cfg (s.turn cfg)).powerStateVotes node =
      s.powerStateVotes node + s.gathered cfg node := by
  simp only [sweep_votes, gathered, casts, if_pos hsweeps]

/-- A cycle without a decision adds its votes and keeps the counter. -/
theorem regulate_open {s : Monitor k} (hopen : (s.regulate cfg).2 = none) :
    (s.regulate cfg).1.monitorCounter = s.monitorCounter ∧
      ∀ node, (s.regulate cfg).1.powerStateVotes node =
        s.powerStateVotes node + s.gathered cfg node := by
  by_cases hsweeps : s.Sweeps cfg
  · by_cases hturn : s.turn cfg = k
    · rw [regulate_of_turn_eq hsweeps hturn] at hopen
      cases hopen
    · rw [regulate_of_turn_ne hsweeps hturn]
      exact ⟨sweep_counter _ s, sweep_votes_eq_gathered hsweeps⟩
  · rw [regulate_of_not_sweeps hsweeps]
    refine ⟨rfl, fun node => ?_⟩
    simp [gathered, casts, hsweeps]

/-- A decision goes by the totals with the votes of its own cycle, and resets them. -/
theorem regulate_closed {s : Monitor k} {calls : Node k → List PolicyCall}
    (hclosed : (s.regulate cfg).2 = some calls) :
    s.Sweeps cfg ∧ s.turn cfg = k ∧ (s.regulate cfg).1.monitorCounter = 0 ∧
      (∀ node, (s.regulate cfg).1.powerStateVotes node = 0) ∧
      ∀ n, calls n =
        if Router.bottomRow n then []
        else policyFor (s.powerStateVotes n + s.gathered cfg n) := by
  by_cases hsweeps : s.Sweeps cfg
  · by_cases hturn : s.turn cfg = k
    · rw [regulate_of_turn_eq hsweeps hturn] at hclosed ⊢
      cases hclosed
      refine ⟨hsweeps, hturn, rfl, fun _ => rfl, fun n => ?_⟩
      rw [← sweep_votes_eq_gathered hsweeps]
    · rw [regulate_of_turn_ne hsweeps hturn] at hclosed
      cases hclosed
  · rw [regulate_of_not_sweeps hsweeps] at hclosed
    cases hclosed

theorem isSome_regulate_iff (s : Monitor k) :
    (s.regulate cfg).2.isSome ↔ s.Sweeps cfg ∧ s.turn cfg = k := by
  constructor
  · intro hsome
    obtain ⟨calls, hclosed⟩ := Option.isSome_iff_exists.mp hsome
    exact ⟨(regulate_closed hclosed).1, (regulate_closed hclosed).2.1⟩
  · rintro ⟨hsweeps, hturn⟩
    rw [regulate_of_turn_eq hsweeps hturn]
    rfl

/-- What one cycle does to the counter, the totals and the samples. -/
theorem step_cases {retired : Node k → List Int} {s t : Monitor k}
    (hstep : step cfg retired s = some t) :
    t.monitorCounter = (s.regulate cfg).1.monitorCounter + 1 ∧ t.monitorCounter < 2 ^ 31 ∧
      t.powerStateVotes = (s.regulate cfg).1.powerStateVotes ∧
      ∀ n, t.Sampled n ↔
        (s.Sampled n ∧ ¬ (s.Sweeps cfg ∧ n.HasTurn (s.turn cfg))) ∨ retired n ≠ [] := by
  unfold step at hstep
  split at hstep
  next => cases hstep
  next hepoch =>
    dsimp only at hstep
    split at hstep
    next hint =>
      cases hstep
      refine ⟨rfl, hint, rfl, fun n => ?_⟩
      rw [Sampled, Stats.numSamples_addSamples, regulate_plat, ← List.length_pos_iff]
      by_cases hclear : s.Sweeps cfg ∧ n.HasTurn (s.turn cfg)
      · have hempty : (if s.Sweeps cfg ∧ n.HasTurn (s.turn cfg) ∧ s.Sampled n then {}
            else s.perNodePlat n).numSamples = 0 := by
          split
          next => rfl
          next hnone => exact not_not.mp fun h => hnone ⟨hclear.1, hclear.2, h⟩
        rw [hempty, zero_add, Nat.pos_iff_ne_zero]
        simp [hclear]
      · rw [if_neg fun h => hclear ⟨h.1, h.2.1⟩, Nat.pos_iff_ne_zero, Ne, Nat.add_eq_zero_iff,
          not_and_or]
        simp [hclear, Sampled]
    next => cases hstep

theorem step_defined (retired : Node k → List Int) {s : Monitor k} (hepoch : cfg.monitorEpoch ≠ 0)
    (hint : (s.regulate cfg).1.monitorCounter + 1 < 2 ^ 31) :
    ∃ t, step cfg retired s = some t := by
  unfold step
  rw [if_neg hepoch]
  dsimp only
  rw [if_pos hint]
  exact ⟨_, rfl⟩

end Monitor

end Flyover
