import Flyover.Adaptive.Monitor

/-!
# The votes of an epoch

Every node with a sample should vote once for itself and once for each peer of its row
and column. A diagonal node has one turn and does both in it. Any other node has two,
and loses the samples it votes with in the first of them.
-/

namespace Flyover.Monitor

variable {k : Nat} {cfg : MonitorConfig} {retired : Nat → Node k → List Int}

section Epochs

variable (cfg : MonitorConfig) (retired : Nat → Node k → List Int)

/-- The sweep is over in the cycle, and these are the calls to the routers. -/
def Decides (i : Nat) (calls : Node k → List PolicyCall) : Prop :=
  ∃ s, before cfg retired i = some s ∧ (s.regulate cfg).2 = some calls

/-- The first epoch begins with the run, every other one after a decision. -/
def Begins (first : Nat) : Prop :=
  first = 0 ∨ ∃ last calls, first = last + 1 ∧ Decides cfg retired last calls

/-- The epoch that begins at `first` ends with a decision at `last`. -/
structure Closes (first last : Nat) (calls : Node k → List PolicyCall) : Prop where
  le : first ≤ last
  decides : Decides cfg retired last calls
  open_until : ∀ i, first ≤ i → i < last → ∀ calls', ¬ Decides cfg retired i calls'

def SampledAt (i : Nat) (n : Node k) : Prop := ∃ s, before cfg retired i = some s ∧ s.Sampled n

/-- How often the cycle adds the vote of `n` to the total of `node`. -/
def castsAt (i : Nat) (n node : Node k) : Nat :=
  (before cfg retired i).elim 0 fun s => s.casts cfg n node

/-- The vote of a node by its samples before the cycle. -/
def voteAt (i : Nat) (n : Node k) : Int :=
  (before cfg retired i).elim 0 fun s => cfg.vote (s.perNodePlat n)

/-- How often the vote of `n` is added to the total of `node` in these cycles. -/
def contributions (first last : Nat) (n node : Node k) : Nat :=
  ∑ i ∈ Finset.Ico first (last + 1), castsAt cfg retired i n node

/-- The sum of the votes for `node` in these cycles. -/
def total (first last : Nat) (node : Node k) : Int :=
  ∑ i ∈ Finset.Ico first (last + 1),
    ∑ n, (castsAt cfg retired i n node : Int) * voteAt cfg retired i n

/-- The epoch ends; each node with a sample in it has voted once for itself and once for
each peer, the routers above the bottom row have been called by the sign of their totals,
and the totals are reset. -/
def VotedOnce (first : Nat) : Prop :=
  ∃ last calls, Closes cfg retired first last calls ∧
    (∀ n, (∃ i, first ≤ i ∧ i ≤ last ∧ SampledAt cfg retired i n) →
      contributions cfg retired first last n n = 1 ∧
        ∀ node, node ≠ n → node.y = n.y ∨ node.x = n.x →
          contributions cfg retired first last n node = 1) ∧
    (∀ n, Router.bottomRow n = false →
      calls n = policyFor (total cfg retired first last n)) ∧
    ∃ s, before cfg retired (last + 1) = some s ∧ ∀ n, s.powerStateVotes n = 0

/-- The counter at the beginning of an epoch: a decision resets it before it is
incremented. -/
def firstCounter (first : Nat) : Nat := if first = 0 then 0 else 1

/-- The cycle of a turn of the sweep. -/
def turnCycle (first turn : Nat) : Nat :=
  first + cfg.monitorEpoch.toNat + turn - firstCounter first

/-- Before the cycle `last` the node has a sample in the epoch: one that the last epoch
left, or one of a packet retired since. -/
def Receives (first last : Nat) (n : Node k) : Prop :=
  SampledAt cfg retired first n ∨ ∃ i, first ≤ i ∧ i < last ∧ retired i n ≠ []

end Epochs

theorem before_succ {i : Nat} {t : Monitor k} (ht : before cfg retired (i + 1) = some t) :
    ∃ s, before cfg retired i = some s ∧ step cfg (retired i) s = some t :=
  Option.bind_eq_some_iff.mp ht

theorem before_counter_lt {i : Nat} {s : Monitor k} (hs : before cfg retired i = some s) :
    s.monitorCounter < 2 ^ 31 := by
  cases i with
  | zero =>
      cases hs
      exact Nat.two_pow_pos 31
  | succ i =>
      obtain ⟨_, -, hstep⟩ := before_succ hs
      exact (step_cases hstep).2.1

theorem before_of_closed {i : Nat} {s : Monitor k} {calls : Node k → List PolicyCall}
    (hs : before cfg retired i = some s) (hclosed : (s.regulate cfg).2 = some calls) :
    ∃ t, before cfg retired (i + 1) = some t ∧ t.monitorCounter = 1 ∧
      ∀ n, t.powerStateVotes n = 0 := by
  obtain ⟨hsweeps, -, hcounter, hvotes, -⟩ := regulate_closed hclosed
  have hepoch := ((sweeps_iff s).mp hsweeps).1
  obtain ⟨t, hstep⟩ := step_defined (retired i) hepoch.ne' (by rw [hcounter]; decide)
  obtain ⟨hcounter', -, hvotes', -⟩ := step_cases hstep
  refine ⟨t, Option.bind_eq_some_iff.mpr ⟨s, hs, hstep⟩, by rw [hcounter', hcounter], fun n => ?_⟩
  rw [hvotes']
  exact hvotes n

/-- The counter and the totals at the beginning of an epoch. -/
theorem Begins.before {first : Nat} (h : Begins cfg retired first) :
    ∃ s, before cfg retired first = some s ∧ s.monitorCounter = firstCounter first ∧
      ∀ n, s.powerStateVotes n = 0 := by
  rcases h with rfl | ⟨last, calls, rfl, s, hs, hclosed⟩
  · exact ⟨{}, rfl, rfl, fun _ => rfl⟩
  · exact before_of_closed hs hclosed

/-! ## Samples -/

theorem Receives.mono {first i last : Nat} {n : Node k} (h : Receives cfg retired first i n)
    (hle : i ≤ last) : Receives cfg retired first last n := by
  rcases h with hpending | ⟨j, hfirst, hlt, hretired⟩
  · exact .inl hpending
  · exact .inr ⟨j, hfirst, by omega, hretired⟩

theorem receives_succ {first i : Nat} {n : Node k} (h : Receives cfg retired first (i + 1) n) :
    Receives cfg retired first i n ∨ retired i n ≠ [] := by
  rcases h with hpending | ⟨j, hfirst, hlt, hretired⟩
  · exact .inl (.inl hpending)
  · rcases Nat.lt_succ_iff_lt_or_eq.mp hlt with hlt | rfl
    · exact .inl (.inr ⟨j, hfirst, hlt, hretired⟩)
    · exact .inr hretired

/-- A sample is one that was left or one of a retired packet. -/
theorem SampledAt.receives {first i : Nat} {n : Node k} (hle : first ≤ i)
    (h : SampledAt cfg retired i n) : Receives cfg retired first i n := by
  induction i, hle using Nat.le_induction with
  | base => exact .inl h
  | succ i hle ih =>
      obtain ⟨t, ht, hsampled⟩ := h
      obtain ⟨s, hs, hstep⟩ := before_succ ht
      rcases ((step_cases hstep).2.2.2 n).mp hsampled with ⟨hold, -⟩ | hnew
      · exact (ih ⟨s, hs, hold⟩).mono (Nat.le_succ i)
      · exact .inr ⟨i, hle, Nat.lt_succ_self i, hnew⟩

theorem sampledAt_succ_of_retired {i : Nat} {n : Node k} {t : Monitor k}
    (ht : before cfg retired (i + 1) = some t) (hretired : retired i n ≠ []) :
    SampledAt cfg retired (i + 1) n := by
  obtain ⟨s, -, hstep⟩ := before_succ ht
  exact ⟨t, ht, ((step_cases hstep).2.2.2 n).mpr (.inr hretired)⟩

/-! ## Totals -/

/-- As long as no decision is made, a total is the sum of the votes for it. -/
theorem votes_eq_sum {first i : Nat} {s t : Monitor k} (hle : first ≤ i)
    (hs : before cfg retired first = some s) (ht : before cfg retired i = some t)
    (hopen : ∀ j, first ≤ j → j < i → ∀ calls, ¬ Decides cfg retired j calls) (node : Node k) :
    t.powerStateVotes node = s.powerStateVotes node +
      ∑ j ∈ Finset.Ico first i,
        ∑ n, (castsAt cfg retired j n node : Int) * voteAt cfg retired j n := by
  induction i, hle using Nat.le_induction generalizing t with
  | base =>
      cases hs.symm.trans ht
      simp
  | succ i hle ih =>
      obtain ⟨u, hu, hstep⟩ := before_succ ht
      have hnone : (u.regulate cfg).2 = none := by
        cases hcalls : (u.regulate cfg).2 with
        | none => rfl
        | some calls => exact absurd ⟨u, hu, hcalls⟩ (hopen i hle (Nat.lt_succ_self i) calls)
      rw [(step_cases hstep).2.2.1, (regulate_open hnone).2 node,
        ih hu fun j hj hlt => hopen j hj (Nat.lt_succ_of_lt hlt), Finset.sum_Ico_succ_top hle,
        add_assoc]
      simp only [gathered, castsAt, voteAt, hu, Option.elim_some]

/-- The decision goes by the totals of its epoch. -/
theorem Closes.calls {first last : Nat} {calls : Node k → List PolicyCall}
    (h : Closes cfg retired first last calls) (hbegins : Begins cfg retired first) {n : Node k}
    (hrow : Router.bottomRow n = false) : calls n = policyFor (total cfg retired first last n) := by
  obtain ⟨s, hs, -, hzero⟩ := hbegins.before
  obtain ⟨t, ht, hclosed⟩ := h.decides
  have hvotes := votes_eq_sum h.le hs ht h.open_until n
  rw [hzero, zero_add] at hvotes
  rw [(regulate_closed hclosed).2.2.2.2 n, hrow, hvotes, total, Finset.sum_Ico_succ_top h.le]
  simp only [Bool.false_eq_true, if_false, gathered, castsAt, voteAt, ht, Option.elim_some]

/-! ## The cycles of an epoch -/

theorem firstCounter_le (first : Nat) : firstCounter first ≤ 1 := by
  unfold firstCounter
  split <;> decide

/-- Only an epoch longer than `gK` ends, and only if its last count is an `int`. -/
theorem Closes.epoch {first last : Nat} {calls : Node k → List PolicyCall}
    (h : Closes cfg retired first last calls) :
    (k : Int) < cfg.monitorEpoch ∧ cfg.monitorEpoch + k < 2 ^ 31 := by
  obtain ⟨s, hs, hclosed⟩ := h.decides
  obtain ⟨hsweeps, hturn, -⟩ := regulate_closed hclosed
  obtain ⟨hlong, hle⟩ := counter_of_turn hsweeps hturn
  have hlt := before_counter_lt hs
  exact ⟨hlong, by omega⟩

section LongEpochs

variable {first : Nat} (hlong : (k : Int) < cfg.monitorEpoch)

include hlong

/-- The counter tells the turns of the sweep. -/
theorem turn_at {s : Monitor k} {i d : Nat}
    (hcounter : s.monitorCounter + first = i + firstCounter first)
    (hend : i ≤ turnCycle cfg first k) :
    s.Sweeps cfg ∧ s.turn cfg = d ↔ i = turnCycle cfg first d := by
  have hfirst := firstCounter_le first
  unfold turnCycle at hend ⊢
  constructor
  · rintro ⟨hsweeps, hturn⟩
    rw [turn_eq_sub hsweeps (by omega)] at hturn
    omega
  · intro hi
    by_cases hd : d ≤ k
    · have hsweeps : s.Sweeps cfg := (sweeps_iff s).mpr ⟨by omega, by omega⟩
      refine ⟨hsweeps, ?_⟩
      rw [turn_eq_sub hsweeps (by omega)]
      omega
    · omega

theorem turn_iff_sampled {s : Monitor k} {i : Nat} {n : Node k} (hdiagonal : n.x = n.y)
    (hcounter : s.monitorCounter + first = i + firstCounter first)
    (hend : i ≤ turnCycle cfg first k) :
    s.Sweeps cfg ∧ n.HasTurn (s.turn cfg) ↔ i = turnCycle cfg first n.y := by
  rw [← turn_at hlong hcounter hend, Node.HasTurn, hdiagonal, or_self, eq_comm (a := (n.y : Int))]

variable (hint : cfg.monitorEpoch + k < 2 ^ 31) (hbegins : Begins cfg retired first)

include hint hbegins

/-- The counter of every cycle up to the end of the epoch. -/
theorem counter_at {i : Nat} (hle : first ≤ i) (hend : i ≤ turnCycle cfg first k) :
    ∃ s, before cfg retired i = some s ∧
      s.monitorCounter + first = i + firstCounter first := by
  induction i, hle using Nat.le_induction with
  | base =>
      obtain ⟨s, hs, hcounter, -⟩ := hbegins.before
      exact ⟨s, hs, by omega⟩
  | succ i hle ih =>
      obtain ⟨s, hs, hcounter⟩ := ih (by omega)
      have hopen : (s.regulate cfg).2 = none := by
        rw [← Option.not_isSome_iff_eq_none, isSome_regulate_iff,
          turn_at hlong hcounter (by omega)]
        omega
      have hkept := (regulate_open hopen).1
      have hfirst := firstCounter_le first
      unfold turnCycle at hend
      have hcount : (s.regulate cfg).1.monitorCounter + 1 < 2 ^ 31 := by omega
      obtain ⟨t, hstep⟩ := step_defined (retired i) (by omega) hcount
      refine ⟨t, Option.bind_eq_some_iff.mpr ⟨s, hs, hstep⟩, ?_⟩
      rw [(step_cases hstep).1, hkept]
      omega

theorem decides_iff {i : Nat} (hle : first ≤ i) (hend : i ≤ turnCycle cfg first k) :
    (∃ calls, Decides cfg retired i calls) ↔ i = turnCycle cfg first k := by
  obtain ⟨s, hs, hcounter⟩ := counter_at hlong hint hbegins hle hend
  rw [← turn_at hlong hcounter hend, ← isSome_regulate_iff, Option.isSome_iff_exists]
  constructor
  · rintro ⟨calls, t, ht, hclosed⟩
    cases hs.symm.trans ht
    exact ⟨calls, hclosed⟩
  · rintro ⟨calls, hclosed⟩
    exact ⟨calls, s, hs, hclosed⟩

omit hint hbegins in
theorem first_le_turnCycle (first d : Nat) : first ≤ turnCycle cfg first d := by
  have hfirst := firstCounter_le first
  unfold turnCycle
  omega

theorem exists_closes : ∃ calls, Closes cfg retired first (turnCycle cfg first k) calls := by
  have hle := first_le_turnCycle hlong first k
  obtain ⟨calls, hdecides⟩ := (decides_iff hlong hint hbegins hle le_rfl).mpr rfl
  refine ⟨calls, hle, hdecides, fun i hfirst hlt calls' hearlier => ?_⟩
  exact hlt.ne ((decides_iff hlong hint hbegins hfirst hlt.le).mp ⟨calls', hearlier⟩)

/-- Every epoch ends in the cycle of the turn `gK`. -/
theorem Closes.last_eq {last : Nat} {calls : Node k → List PolicyCall}
    (h : Closes cfg retired first last calls) : last = turnCycle cfg first k := by
  obtain ⟨calls', hclosed⟩ := exists_closes hlong hint hbegins
  rcases Nat.lt_trichotomy last (turnCycle cfg first k) with hlt | heq | hgt
  · exact absurd h.decides (hclosed.open_until last h.le hlt calls)
  · exact heq
  · exact absurd hclosed.decides (h.open_until _ hclosed.le hgt calls')

/-! ## Who votes -/

/-- A node with a sample before the end of the epoch has it in some cycle of the epoch. -/
theorem exists_sampledAt {n : Node k} (h : Receives cfg retired first (turnCycle cfg first k) n) :
    ∃ i, first ≤ i ∧ i ≤ turnCycle cfg first k ∧ SampledAt cfg retired i n := by
  rcases h with hpending | ⟨i, hle, hlt, hretired⟩
  · exact ⟨first, le_rfl, first_le_turnCycle hlong first k, hpending⟩
  · obtain ⟨t, ht, -⟩ := counter_at hlong hint hbegins (hle.trans (Nat.le_succ i)) hlt
    exact ⟨i + 1, by omega, hlt, sampledAt_succ_of_retired ht hretired⟩

/-- A diagonal node keeps its samples up to its turn. -/
theorem sampledAt_of_receives {i : Nat} {n : Node k} (hdiagonal : n.x = n.y) (hle : first ≤ i)
    (hend : i ≤ turnCycle cfg first n.y) (h : Receives cfg retired first i n) :
    SampledAt cfg retired i n := by
  have hturns : turnCycle cfg first n.y ≤ turnCycle cfg first k := by
    have hy := n.y_lt
    unfold turnCycle
    omega
  induction i, hle using Nat.le_induction with
  | base =>
      rcases h with hpending | ⟨j, hfirst, hlt, -⟩
      · exact hpending
      · exact absurd hlt (not_lt.mpr hfirst)
  | succ i hle ih =>
      obtain ⟨t, ht, -⟩ := counter_at hlong hint hbegins (by omega) (hend.trans hturns)
      rcases receives_succ h with hearlier | hretired
      · obtain ⟨s, hs, hsampled⟩ := ih (by omega) hearlier
        obtain ⟨u, hu, hcounter⟩ := counter_at hlong hint hbegins hle (by omega)
        obtain ⟨v, hv, hstep⟩ := before_succ ht
        cases hs.symm.trans hu
        cases hs.symm.trans hv
        refine ⟨t, ht, ((step_cases hstep).2.2.2 n).mpr (.inl ⟨hsampled, ?_⟩)⟩
        rw [turn_iff_sampled hlong hdiagonal hcounter (by omega)]
        omega
      · exact sampledAt_succ_of_retired ht hretired

end LongEpochs

theorem castsAt_eq {i : Nat} {s : Monitor k} (hs : before cfg retired i = some s)
    (n node : Node k) :
    castsAt cfg retired i n node =
      if (s.Sweeps cfg ∧ n.HasTurn (s.turn cfg)) ∧ s.Sampled n then
        (n.receivers (s.turn cfg)).count node
      else 0 := by
  simp only [castsAt, hs, Option.elim_some, casts, castsIn, and_assoc, ← ite_and]

theorem count_receivers_diagonal {n node : Node k} (hdiagonal : n.x = n.y)
    (hpeer : node = n ∨ node.y = n.y ∨ node.x = n.x) : (n.receivers n.y).count node = 1 := by
  rw [Node.count_receivers, hdiagonal]
  by_cases hself : node = n
  · simp [hself, hdiagonal]
  · have hboth : ¬ (node.x = n.x ∧ node.y = n.y) := fun h => hself (Node.ext_xy h.1 h.2)
    rcases hpeer with h | hrow | hcolumn
    · exact absurd h hself
    · have hne : node.x ≠ n.y := fun h => hboth ⟨h.trans hdiagonal.symm, hrow⟩
      simp [hself, hrow, hne]
    · have hne : node.y ≠ n.y := fun h => hboth ⟨hcolumn, h⟩
      simp [hself, hne, hcolumn.trans hdiagonal]

/-- Off the diagonal a cycle that counts for the node itself counts either for its row
or for its column, never for both: the two corners it shares with the diagonal tell. -/
theorem count_receivers_offDiagonal {n row column : Node k} (hoff : n.x ≠ n.y)
    (hrow : row.x = n.y ∧ row.y = n.y) (hcolumn : column.x = n.x ∧ column.y = n.x) {turn : Int}
    (hturn : n.HasTurn turn) :
    (n.receivers turn).count n =
      (n.receivers turn).count row + (n.receivers turn).count column := by
  have hrow' : row ≠ n := fun h => hoff (h ▸ hrow.1)
  have hcolumn' : column ≠ n := fun h => hoff (h ▸ hcolumn.2).symm
  simp only [Node.count_receivers, hrow.1, hrow.2, hcolumn.1, hcolumn.2, if_neg hrow',
    if_neg hcolumn', ne_eq, not_true_eq_false, and_false, if_false, if_true, hoff, hoff.symm,
    not_false_eq_true, and_true]
  rcases hturn with hy | hx
  · have hx : (n.x : Int) ≠ turn := fun h => hoff (by omega)
    simp [hy, hx]
  · have hy : (n.y : Int) ≠ turn := fun h => hoff (by omega)
    simp [hx, hy]

theorem contributions_offDiagonal (cfg : MonitorConfig) (retired : Nat → Node k → List Int)
    {n row column : Node k} (hoff : n.x ≠ n.y) (hrow : row.x = n.y ∧ row.y = n.y)
    (hcolumn : column.x = n.x ∧ column.y = n.x) (first last : Nat) :
    contributions cfg retired first last n n =
      contributions cfg retired first last n row + contributions cfg retired first last n column := by
  unfold contributions
  rw [← Finset.sum_add_distrib]
  refine Finset.sum_congr rfl fun i _ => ?_
  cases hs : before cfg retired i with
  | none => simp only [castsAt, hs, Option.elim_none, Nat.add_zero]
  | some s =>
      simp only [castsAt_eq hs]
      split
      next hcasts => exact count_receivers_offDiagonal hoff hrow hcolumn hcasts.1.2
      next => rfl

/-- Only the nodes of the diagonal can vote once for everyone. -/
theorem VotedOnce.diagonal {first : Nat} (h : VotedOnce cfg retired first)
    (hbegins : Begins cfg retired first) {n : Node k}
    (hreceives : Receives cfg retired first (turnCycle cfg first k) n) : n.x = n.y := by
  obtain ⟨last, calls, hcloses, honce, -, -⟩ := h
  obtain ⟨hlong, hint⟩ := hcloses.epoch
  obtain rfl := hcloses.last_eq hlong hint hbegins
  obtain ⟨hself, hpeers⟩ := honce n (exists_sampledAt hlong hint hbegins hreceives)
  by_contra hoff
  let row : Node k := Node.ofXY n.y n.y n.y_lt n.y_lt
  let column : Node k := Node.ofXY n.x n.x n.x_lt n.x_lt
  have hrow : row.x = n.y ∧ row.y = n.y := ⟨Node.ofXY_x _ _, Node.ofXY_y _ _⟩
  have hcolumn : column.x = n.x ∧ column.y = n.x := ⟨Node.ofXY_x _ _, Node.ofXY_y _ _⟩
  have honceRow := hpeers row (fun h => hoff (h ▸ hrow.1)) (.inl hrow.2)
  have honceColumn := hpeers column (fun h => hoff (h ▸ hcolumn.2).symm) (.inr hcolumn.1)
  have hsum := contributions_offDiagonal cfg retired hoff hrow hcolumn first
    (turnCycle cfg first k)
  omega

/-- A diagonal node that votes in an epoch has a sample when its turn comes. -/
theorem receives_of_contributions {first : Nat} (hlong : (k : Int) < cfg.monitorEpoch)
    (hint : cfg.monitorEpoch + k < 2 ^ 31) (hbegins : Begins cfg retired first) {n : Node k}
    (hdiagonal : n.x = n.y)
    (hvotes : contributions cfg retired first (turnCycle cfg first k) n n ≠ 0) :
    Receives cfg retired first (turnCycle cfg first n.y) n := by
  obtain ⟨i, hi, hcasts⟩ := Finset.exists_ne_zero_of_sum_ne_zero hvotes
  obtain ⟨hle, hend⟩ := Finset.mem_Ico.mp hi
  obtain ⟨s, hs, hcounter⟩ := counter_at hlong hint hbegins hle (Nat.lt_succ_iff.mp hend)
  rw [castsAt_eq hs] at hcasts
  obtain ⟨⟨hturn, hsampled⟩, -⟩ := ite_ne_right_iff.mp hcasts
  have hcycle := (turn_iff_sampled hlong hdiagonal hcounter (Nat.lt_succ_iff.mp hend)).mp hturn
  rw [← hcycle]
  exact SampledAt.receives hle ⟨s, hs, hsampled⟩

/-- A diagonal node with a sample at its turn votes once, for itself and for all its peers. -/
theorem contributions_diagonal {first : Nat} (hlong : (k : Int) < cfg.monitorEpoch)
    (hint : cfg.monitorEpoch + k < 2 ^ 31) (hbegins : Begins cfg retired first) {n node : Node k}
    (hdiagonal : n.x = n.y) (hreceives : Receives cfg retired first (turnCycle cfg first n.y) n)
    (hpeer : node = n ∨ node.y = n.y ∨ node.x = n.x) :
    contributions cfg retired first (turnCycle cfg first k) n node = 1 := by
  have hy := n.y_lt
  have hle := first_le_turnCycle hlong first n.y
  have hend : turnCycle cfg first n.y < turnCycle cfg first k + 1 := by
    unfold turnCycle
    omega
  unfold contributions
  rw [Finset.sum_eq_single_of_mem _ (Finset.mem_Ico.mpr ⟨hle, hend⟩)]
  · obtain ⟨s, hs, hcounter⟩ := counter_at hlong hint hbegins hle (Nat.lt_succ_iff.mp hend)
    have hturn := (turn_iff_sampled hlong hdiagonal hcounter (Nat.lt_succ_iff.mp hend)).mpr rfl
    obtain ⟨-, hy⟩ := (turn_at hlong hcounter (Nat.lt_succ_iff.mp hend)).mpr rfl
    obtain ⟨t, ht, hsampled⟩ := sampledAt_of_receives hlong hint hbegins hdiagonal hle le_rfl
      hreceives
    cases hs.symm.trans ht
    rw [castsAt_eq hs, if_pos ⟨hturn, hsampled⟩, hy]
    exact count_receivers_diagonal hdiagonal hpeer
  · intro i hi hne
    obtain ⟨hfirst, hlast⟩ := Finset.mem_Ico.mp hi
    obtain ⟨s, hs, hcounter⟩ := counter_at hlong hint hbegins hfirst (Nat.lt_succ_iff.mp hlast)
    rw [castsAt_eq hs, if_neg]
    exact fun h => hne
      ((turn_iff_sampled hlong hdiagonal hcounter (Nat.lt_succ_iff.mp hlast)).mp h.1)

/-- The votes of an epoch come out as they should if and only if the epoch is longer than
`gK`, its last count is an `int`, and every node with a sample before its end lies on the
diagonal and has a sample before its turn. -/
theorem votedOnce_iff {first : Nat} (hbegins : Begins cfg retired first) :
    VotedOnce cfg retired first ↔
      (k : Int) < cfg.monitorEpoch ∧ cfg.monitorEpoch + k < 2 ^ 31 ∧
        ∀ n, Receives cfg retired first (turnCycle cfg first k) n →
          n.x = n.y ∧ Receives cfg retired first (turnCycle cfg first n.y) n := by
  constructor
  · intro h
    obtain ⟨last, calls, hcloses, honce, -, -⟩ := id h
    obtain ⟨hlong, hint⟩ := hcloses.epoch
    obtain rfl := hcloses.last_eq hlong hint hbegins
    refine ⟨hlong, hint, fun n hreceives => ?_⟩
    have hdiagonal := h.diagonal hbegins hreceives
    have hself := (honce n (exists_sampledAt hlong hint hbegins hreceives)).1
    exact ⟨hdiagonal, receives_of_contributions hlong hint hbegins hdiagonal (by omega)⟩
  · rintro ⟨hlong, hint, hall⟩
    obtain ⟨calls, hcloses⟩ := exists_closes hlong hint hbegins
    refine ⟨_, calls, hcloses, fun n hsampled => ?_, fun n => hcloses.calls hbegins, ?_⟩
    · obtain ⟨i, hle, hend, hsampled⟩ := hsampled
      obtain ⟨hdiagonal, hreceives⟩ := hall n ((hsampled.receives hle).mono hend)
      have honce : ∀ node, node = n ∨ node.y = n.y ∨ node.x = n.x →
          contributions cfg retired first (turnCycle cfg first k) n node = 1 := fun _ =>
        contributions_diagonal hlong hint hbegins hdiagonal hreceives
      exact ⟨honce n (.inl rfl), fun node _ hpeer => honce node (.inr hpeer)⟩
    · obtain ⟨s, hs, hclosed⟩ := hcloses.decides
      obtain ⟨t, ht, -, hzero⟩ := before_of_closed hs hclosed
      exact ⟨t, ht, hzero⟩

/-- An epoch of the default length, with watermarks at 20 and 40 cycles. -/
def thousandCycles : MonitorConfig where
  monitorEpoch := 1000
  belowLow stats := stats.sampleSum < 20 * stats.numSamples
  aboveHigh stats := stats.sampleSum > 40 * stats.numSamples

/-- One packet, retired at `node` in the first cycle. -/
def onePacket (node : Node 2) (i : Nat) (n : Node 2) : List Int :=
  if i = 0 ∧ n = node then [10] else []

theorem votedOnce_corner : VotedOnce thousandCycles (onePacket 0) 0 := by
  refine (votedOnce_iff (.inl rfl)).mpr ⟨by decide, by decide, ?_⟩
  rintro n (⟨s, hs, hsampled⟩ | ⟨i, -, -, hretired⟩)
  · cases hs
    exact absurd rfl hsampled
  · obtain ⟨⟨rfl, rfl⟩, -⟩ := ite_ne_right_iff.mp hretired
    exact ⟨rfl, .inr ⟨0, le_rfl, by decide, by decide⟩⟩

/-- Node 1 loses its sample in its turn as a row and does not vote in that as a column. -/
theorem not_votedOnce_offDiagonal : ¬ VotedOnce thousandCycles (onePacket 1) 0 := by
  intro h
  have hreceives : Receives thousandCycles (onePacket 1) 0 (turnCycle thousandCycles 0 2) 1 :=
    .inr ⟨0, le_rfl, by decide, by decide⟩
  exact absurd (h.diagonal (.inl rfl) hreceives) (by decide)

end Flyover.Monitor
