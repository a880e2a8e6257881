import Flyover.Parking.EscapeRoutes

/-!
# When the route tables can be built

Nothing looks whether the routers that are on are connected, or whether the fabric
manager is one of them: without automatic configuration any list of routers can
be off, and the fabric manager is -1 unless it is set. A router that the search
does not reach has no predecessor, and the walk along the predecessors from there
leaves the array.
-/

namespace Flyover

variable {k : Nat} {G : SimpleGraph (Node k)} {src : Node k}

namespace SearchState

/-- What is not connected to the source has not been labelled. -/
def Unreached (G : SimpleGraph (Node k)) (src : Node k) (st : SearchState k) : Prop :=
  ∀ v, ¬ G.Reachable v src → st.dist v = ⊤ ∧ st.pred v = none

theorem unreached_init : (SearchState.init src).Unreached G src := by
  intro v hv
  have hne : v ≠ src := by
    rintro rfl
    exact hv (SimpleGraph.Reachable.refl v)
  exact ⟨if_neg hne, rfl⟩

/-- A router is labelled through a neighbour with a distance only. -/
theorem Unreached.visit {adj : AdjMtx k} {st : SearchState k} (hadj : Represents adj G)
    (h : st.Unreached G src) (c : Node k) : (st.visit adj c).Unreached G src := by
  intro v hv
  have hnot : ¬ Improves adj st c v := by
    rintro ⟨-, hlink, hfar⟩
    have hc : G.Reachable c src := by
      by_contra hc
      rw [(h c hc).1, top_add] at hfar
      exact absurd hfar (not_lt.mpr le_top)
    exact hv (((hadj.adj_iff c v).mp hlink).reachable.symm.trans hc)
  simp only [SearchState.visit, if_neg hnot]
  exact h v hv

theorem Unreached.visitAll {adj : AdjMtx k} {st st' : SearchState k} (hadj : Represents adj G)
    {nobody : SearchState k → Option (SearchState k)}
    (hnobody : ∀ st st', nobody st = some st' → st' = st) {count : Nat}
    (h : st.Unreached G src) (hrun : visitAll adj nobody count st = some st') :
    st'.Unreached G src := by
  induction count generalizing st with
  | zero => exact Option.some.inj hrun ▸ h
  | succ count ih =>
      rw [SearchState.visitAll] at hrun
      cases hclosest : st.closestUnvisited with
      | none =>
          rw [hclosest] at hrun
          exact hnobody st st' hrun ▸ h
      | some closest =>
          rw [hclosest] at hrun
          dsimp only at hrun
          split at hrun
          next => cases hrun
          next => exact ih (h.visit hadj closest) hrun

end SearchState

open SearchState

/-- A table is filled only if all routers that are on have been reached. -/
theorem reachable_of_fillTable {st : SearchState k} {on : Node k → Bool}
    {old tbl : Node k → TableEntry} (hst : st.Unreached G src)
    (h : fillTable src on st.pred old = some tbl) {i : Node k} (hi : on i = true) :
    G.Reachable i src := by
  by_cases hne : i = src
  · rw [hne]
  · unfold fillTable at h
    dsimp only at h
    split at h
    next hall =>
      by_contra hnot
      have hnone : ∀ steps, firstHop st.pred src steps i = none := by
        intro steps
        cases steps with
        | zero => rfl
        | succ steps => rw [firstHop, (hst i hnot).2]
      have hhop := hall i hi hne
      rw [hnone] at hhop
      cases hhop
    next => cases h

namespace BfsState

theorem loop_of_empty {adj : AdjMtx k} {steps : Nat} {b : BfsState k}
    (h : b.queue = []) : loop adj steps b = some b := by
  cases steps with
  | zero => exact if_pos h
  | succ steps => rw [loop, h]

/-- The search ends at once at a router that finds no other. -/
theorem loop_of_alone {adj : AdjMtx k} {root : Node k} {steps : Nat} {b : BfsState k}
    (halone : ∀ b i, find adj root b i = b) (hqueue : b.queue = [root]) (hsteps : 0 < steps) :
    loop adj steps b = some { b with queue := [] } := by
  have hfold : ∀ (nodes : List (Node k)) (b : BfsState k),
      nodes.foldl (find adj root) b = b := by
    intro nodes b
    induction nodes with
    | nil => rfl
    | cons j nodes ih => rw [List.foldl_cons, halone, ih]
  cases steps with
  | zero => cases hsteps
  | succ steps =>
      rw [loop, hqueue]
      dsimp only
      rw [hfold, loop_of_empty rfl]

end BfsState

/-- From a root that is off the search finds nothing. -/
theorem bfs_of_off (src : Node k) {on : Node k → Bool} {root : Node k} (hoff : on root = false) :
    ∃ b, bfs (RouteTbl.new src on).adjMtx (fun i j => if i = j then 0 else -1) root = some b ∧
      Represents b.updown ⊥ := by
  refine ⟨_, BfsState.loop_of_alone (fun b j => if_neg ?_) rfl (Nat.mul_pos src.pos src.pos),
    represents_bot⟩
  simp [RouteTbl.new, hoff]

namespace RouteTbl

variable {on : Node k → Bool} {root : Node k} {t : RouteTbl k}

/-- `BuildEscRoute` leaves the table of `BuildRoute` alone. -/
theorem buildEscRoute_rtTbl {t' : RouteTbl k} (h : t.buildEscRoute root = some t') :
    t'.rtTbl = t.rtTbl := by
  obtain ⟨b, -, h⟩ := Option.bind_eq_some_iff.mp h
  obtain ⟨st, -, h⟩ := Option.bind_eq_some_iff.mp h
  obtain ⟨tbl, -, h⟩ := Option.bind_eq_some_iff.mp h
  rw [← Option.some.inj h]

theorem reachable_of_buildRoute (h : (new src on).buildRoute = some t) {i : Node k}
    (hi : on i = true) : (onGraph on).Reachable i src := by
  obtain ⟨st, hst, h⟩ := Option.bind_eq_some_iff.mp h
  obtain ⟨tbl, htbl, -⟩ := Option.bind_eq_some_iff.mp h
  have hunreached : st.Unreached (onGraph on) src :=
    unreached_init.visitAll (represents_new src on) (fun _ _ h => (Option.some.inj h).symm) hst
  exact reachable_of_fillTable hunreached htbl hi

/-- From a root that is off the escape table has no entry for any other router. -/
theorem root_on_of_build {i : Node k} (h : build src on root = some t) (hi : on i = true)
    (hne : i ≠ src) : on root = true := by
  by_contra hoff
  rw [Bool.not_eq_true] at hoff
  obtain ⟨t₀, ht₀, h⟩ := Option.bind_eq_some_iff.mp h
  rw [buildRoute_kept ht₀] at h
  obtain ⟨b, hb, h⟩ := Option.bind_eq_some_iff.mp h
  obtain ⟨st, hst, h⟩ := Option.bind_eq_some_iff.mp h
  obtain ⟨tbl, htbl, -⟩ := Option.bind_eq_some_iff.mp h
  obtain ⟨b', hb', hbot⟩ := bfs_of_off src hoff
  obtain rfl := Option.some.inj (hb.symm.trans hb')
  have hunreached : st.Unreached ⊥ src :=
    unreached_init.visitAll hbot (by rintro _ _ ⟨⟩) hst
  have hreach : (⊥ : SimpleGraph (Node k)).Reachable i src :=
    reachable_of_fillTable hunreached htbl hi
  exact hne (SimpleGraph.reachable_bot.mp hreach)

/-- A router that is alone has its tables whatever the root is. -/
theorem exists_build_of_alone (hsrc : on src = true) (halone : ∀ i, on i = true → i = src)
    (hoff : on root = false) : ∃ t, build src on root = some t := by
  have hconn : OnConnected on := by
    intro n m hn hm
    rw [halone n hn, halone m hm]
  obtain ⟨t, ht, -⟩ := buildRoute_spec hconn hsrc
  obtain ⟨b, hb, hbot⟩ := bfs_of_off src hoff
  have hsearch : ∃ st, calUpDownDist b.updown src = some st := by
    obtain ⟨st, hst, -⟩ := calUpDownDist_spec hbot fun _ _ => False.elim
    exact ⟨st, hst⟩
  obtain ⟨st, hst⟩ := hsearch
  have hfill : ∃ tbl, fillTable src on st.pred t.escRtTbl = some tbl :=
    ⟨_, if_pos fun i hi hne => absurd (halone i hi) hne⟩
  obtain ⟨tbl, htbl⟩ := hfill
  refine ⟨{ t with search := st, escRtTbl := tbl, updownAdjMtx := b.updown }, ?_⟩
  rw [build, ht, Option.bind_eq_bind, Option.bind_some, buildEscRoute]
  have hkept := buildRoute_kept ht
  rw [hkept] at htbl ⊢
  exact Option.bind_eq_some_iff.mpr ⟨b, hb, Option.bind_eq_some_iff.mpr
    ⟨st, hst, Option.bind_eq_some_iff.mpr ⟨tbl, htbl, rfl⟩⟩⟩

theorem onConnected_of_reachable (h : ∀ i, on i = true → (onGraph on).Reachable i src) :
    OnConnected on := fun n m hn hm => (h n hn).trans (h m hm).symm

/-- When both tables of a router can be built. -/
theorem exists_build_iff (hsrc : on src = true) :
    (∃ t, build src on root = some t) ↔
      (∀ i, on i = true → (onGraph on).Reachable i src) ∧
        (on root = true ∨ ∀ i, on i = true → i = src) := by
  constructor
  · rintro ⟨t, ht⟩
    obtain ⟨t₀, ht₀, -⟩ := Option.bind_eq_some_iff.mp ht
    refine ⟨fun i hi => reachable_of_buildRoute ht₀ hi, or_iff_not_imp_left.mpr ?_⟩
    intro hoff i hi
    by_contra hne
    exact hoff (root_on_of_build ht hi hne)
  · rintro ⟨hreach, hroot⟩
    cases hon : on root with
    | true =>
        obtain ⟨T, -, hbuild⟩ := build_spec (onConnected_of_reachable hreach) hon
        obtain ⟨t, ht, -⟩ := hbuild src hsrc
        exact ⟨t, ht⟩
    | false =>
        have halone := hroot.resolve_left (by rw [hon]; exact Bool.false_ne_true)
        exact exists_build_of_alone hsrc halone hon

end RouteTbl

/-! ### The configuration -/

/-- An index into an array with an entry for each router. -/
def Node.ofIndex (i : Int) : Option (Node k) :=
  if h : 0 ≤ i ∧ i.toNat < k * k then some ⟨i.toNat, h.2⟩ else none

/-- `_router_states[r_id] = false` -/
def turnOff (routerStates : Node k → Bool) (rId : Int) : Option (Node k → Bool) :=
  (Node.ofIndex rId).map fun n => Function.update routerStates n false

/-- `_router_states` without automatic configuration. -/
def explicitStates (offRouters : List Int) : Option (Node k → Bool) :=
  offRouters.foldlM turnOff fun _ => true

theorem Node.ofIndex_val (n : Node k) : Node.ofIndex n.val = some n :=
  dif_pos ⟨Int.natCast_nonneg _, by simp⟩

theorem foldlM_turnOff (nodes : List (Node k)) (routerStates : Node k → Bool) :
    (nodes.map fun n => (n.val : Int)).foldlM turnOff routerStates =
      some fun n => routerStates n && !decide (n ∈ nodes) := by
  induction nodes generalizing routerStates with
  | nil => simp
  | cons m nodes ih =>
      rw [List.map_cons, List.foldlM_cons, turnOff, Node.ofIndex_val, Option.map_some]
      change List.foldlM turnOff (Function.update routerStates m false) _ = _
      rw [ih]
      congr 1
      funext n
      by_cases hn : n = m
      · simp [hn]
      · simp [hn]

/-- Every set of routers can be configured to be off. -/
theorem exists_offRouters (on : Node k → Bool) : ∃ offRouters, explicitStates offRouters = some on := by
  refine ⟨((List.finRange (k * k)).filter fun n => !on n).map fun n => (n.val : Int), ?_⟩
  rw [explicitStates, foldlM_turnOff]
  congr 1
  funext n
  simp

/-- What `KNCube::_BuildNet` does for a router that is on, where the fabric manager
is whatever the configuration says. -/
def buildTables (src : Node k) (routerStates : Node k → Bool) (fabricManager : Int) :
    Option (RouteTbl k) := do
  let t ← (RouteTbl.new src routerStates).buildRoute
  let root ← Node.ofIndex fabricManager
  t.buildEscRoute root

theorem buildTables_eq_some_iff {on : Node k → Bool} {fabricManager : Int} {t : RouteTbl k} :
    buildTables src on fabricManager = some t ↔
      ∃ root, Node.ofIndex fabricManager = some root ∧ RouteTbl.build src on root = some t := by
  simp only [buildTables, RouteTbl.build, Option.bind_eq_bind, Option.bind_eq_some_iff]
  constructor
  · rintro ⟨t₀, ht₀, root, hroot, ht⟩
    exact ⟨root, hroot, t₀, ht₀, ht⟩
  · rintro ⟨root, hroot, t₀, ht₀, ht⟩
    exact ⟨t₀, ht₀, root, hroot, ht⟩

/-- The construction ends without leaving an array or the range of `int`, and it
leaves what cannot be reached invalid. -/
def BuildsSafely (src : Node k) (on : Node k → Bool) (fabricManager : Int) : Prop :=
  ∃ t, buildTables src on fabricManager = some t ∧
    ∀ d, on d = true → ¬ (onGraph on).Reachable d src →
      t.rtTbl d = .invalid ∧ t.escRtTbl d = .invalid

/-- The routers that are on can all be reached, and the fabric manager is one of
them; where there is one only, any router will do. -/
def Buildable (src : Node k) (on : Node k → Bool) (fabricManager : Int) : Prop :=
  (∀ i, on i = true → (onGraph on).Reachable i src) ∧
    ∃ root, Node.ofIndex fabricManager = some root ∧
      (on root = true ∨ ∀ i, on i = true → i = src)

/-- Whatever routers are off, the tables of a router are built safely exactly if the
routers that are on are connected and the fabric manager is set to one of them. -/
theorem buildsSafely_iff {on : Node k → Bool} (hsrc : on src = true) (fabricManager : Int) :
    BuildsSafely src on fabricManager ↔ Buildable src on fabricManager := by
  constructor
  · rintro ⟨t, ht, -⟩
    obtain ⟨root, hroot, ht⟩ := buildTables_eq_some_iff.mp ht
    obtain ⟨hreach, hon⟩ := (RouteTbl.exists_build_iff hsrc).mp ⟨t, ht⟩
    exact ⟨hreach, root, hroot, hon⟩
  · rintro ⟨hreach, root, hroot, hon⟩
    obtain ⟨t, ht⟩ := (RouteTbl.exists_build_iff hsrc).mpr ⟨hreach, hon⟩
    refine ⟨t, buildTables_eq_some_iff.mpr ⟨root, hroot, ht⟩, ?_⟩
    exact fun d hd hnot => absurd (hreach d hd) hnot

theorem buildsSafely_threeOn : threeOn 0 = true ∧
    (BuildsSafely 0 threeOn 3 ↔ Buildable 0 threeOn 3) :=
  ⟨by decide, buildsSafely_iff (by decide) 3⟩

/-- Two routers at opposite corners are on. -/
theorem not_buildsSafely_corners : ¬ ∀ (offRouters : List Int) (on : Node 2 → Bool)
    (src : Node 2) (fabricManager : Int), explicitStates offRouters = some on → on src = true →
      BuildsSafely src on fabricManager := by
  intro hall
  let corners : Node 2 → Bool := fun n => n = 0 ∨ n = 3
  have hconfig : explicitStates [1, 2] = some corners := by
    refine congrArg some (funext ?_)
    decide
  obtain ⟨t, ht, -⟩ := hall [1, 2] corners 0 3 hconfig rfl
  obtain ⟨root, -, ht⟩ := buildTables_eq_some_iff.mp ht
  have hreach := ((RouteTbl.exists_build_iff rfl).mp ⟨t, ht⟩).1 3 rfl
  obtain ⟨w⟩ := hreach.symm
  have hisolated : ∀ n, ¬ (onGraph corners).Adj 0 n := by
    rintro n ⟨-, hn, hadjacent⟩
    revert n
    decide
  cases w with
  | cons hadj w => exact hisolated _ hadj

end Flyover
