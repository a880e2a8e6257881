import Flyover.Search.ShortestPath
import Flyover.Router
import Flyover.Parking.RouteTbl

/-!
# Regular routes of router parking

The search visits every router, so its labels are distances in the graph of the
routers that are on, and the first hop that is taken from the chain of
predecessors is one nearer to the destination, whatever ties were broken. Each
router has its own table; that each hop is one nearer makes them agree.
-/

namespace Flyover

open Search

variable {k : Nat}

/-- The mesh links between routers that are on. -/
def onGraph (on : Node k → Bool) : SimpleGraph (Node k) where
  Adj n m := on n = true ∧ on m = true ∧ n.Adjacent m
  symm := by
    refine ⟨?_⟩
    rintro n m ⟨hn, hm, hadjacent⟩
    refine ⟨hm, hn, ?_⟩
    unfold Node.Adjacent at hadjacent ⊢
    omega
  loopless := by
    refine ⟨?_⟩
    rintro n ⟨-, -, hadjacent⟩
    unfold Node.Adjacent at hadjacent
    omega

theorem onGraph_neighbor {on : Node k → Bool} {n : Node k} {p : Port} (hp : n.edge p = false)
    (hn : on n = true) (hm : on (n.neighbor p) = true) : (onGraph on).Adj n (n.neighbor p) :=
  ⟨hn, hm, Node.adjacent_neighbor hp⟩

theorem onGraph_mono {on on' : Node k → Bool} (h : ∀ v, on v = true → on' v = true) :
    onGraph on ≤ onGraph on' := fun a b hadj => ⟨h a hadj.1, h b hadj.2.1, hadj.2.2⟩

/-- The positive entries of the matrix are the edges of the graph, all of weight 1. -/
structure Represents (adj : AdjMtx k) (G : SimpleGraph (Node k)) : Prop where
  adj_iff : ∀ a b, 0 < adj a b ↔ G.Adj a b
  weight : ∀ a b, 0 < adj a b → adj a b = 1

theorem represents_new (src : Node k) (on : Node k → Bool) :
    Represents (RouteTbl.new src on).adjMtx (onGraph on) where
  adj_iff := by
    intro a b
    simp only [RouteTbl.new, onGraph, Node.Adjacent]
    cases ha : on a <;> cases hb : on b <;> simp only [Bool.false_eq_true, if_true, if_false,
      true_and, false_and, reduceCtorEq]
    · simp
    · simp
    · simp
    · by_cases heq : a = b
      · subst heq
        simp
      · simp only [heq, if_false]
        split <;> omega
  weight := by
    intro a b
    simp only [RouteTbl.new]
    split
    · omega
    · split
      · omega
      · split
        · omega
        · split <;> omega

namespace SearchState

variable {st : SearchState k}

/-- The scan finds an unvisited router of smallest distance among those it has
seen, or has found none and keeps what it had. -/
theorem foldl_closer (nodes : List (Node k)) (best : ℕ∞ × Option (Node k)) :
    (nodes.foldl st.closer best).1 ≤ best.1 ∧
    (∀ i ∈ nodes, st.visited i = false → (nodes.foldl st.closer best).1 ≤ st.dist i) ∧
    (nodes.foldl st.closer best = best ∧
        (∀ i ∈ nodes, st.visited i = false → best.1 < st.dist i) ∨
      ∃ c, nodes.foldl st.closer best = (st.dist c, some c) ∧ st.visited c = false) := by
  induction nodes generalizing best with
  | nil => exact ⟨le_refl _, by simp, .inl ⟨rfl, by simp⟩⟩
  | cons i nodes ih =>
      obtain ⟨hle, hall, hresult⟩ := ih (st.closer best i)
      rw [List.foldl_cons]
      unfold closer at hle hall hresult ⊢
      by_cases htaken : st.visited i = false ∧ best.1 ≥ st.dist i
      · rw [if_pos htaken] at hle hall hresult ⊢
        refine ⟨hle.trans htaken.2, ?_, .inr ?_⟩
        · intro j hj hvisited
          rcases List.mem_cons.mp hj with rfl | hj
          · exact hle
          · exact hall j hj hvisited
        · rcases hresult with ⟨hsame, -⟩ | hfound
          · exact ⟨i, hsame, htaken.1⟩
          · exact hfound
      · rw [if_neg htaken] at hle hall hresult ⊢
        have hi : st.visited i = false → best.1 < st.dist i := fun hvisited =>
          not_le.mp fun hge => htaken ⟨hvisited, hge⟩
        refine ⟨hle, ?_, ?_⟩
        · intro j hj hvisited
          rcases List.mem_cons.mp hj with rfl | hj
          · exact hle.trans (le_of_lt (hi hvisited))
          · exact hall j hj hvisited
        · rcases hresult with ⟨hsame, hlt⟩ | hfound
          · refine .inl ⟨hsame, ?_⟩
            intro j hj hvisited
            rcases List.mem_cons.mp hj with rfl | hj
            · exact hi hvisited
            · exact hlt j hj hvisited
          · exact .inr hfound

/-- `_ClosestUnvisited` finds a router while there is one. -/
theorem closestUnvisited_some {i : Node k} (hi : st.visited i = false) :
    ∃ c, st.closestUnvisited = some c ∧ st.visited c = false ∧
      ∀ v, st.visited v = false → st.dist c ≤ st.dist v := by
  obtain ⟨-, hall, ⟨-, hlt⟩ | ⟨c, hc, hvisited⟩⟩ :=
    st.foldl_closer (List.finRange (k * k)) (⊤, none)
  · exact absurd (hlt i (List.mem_finRange i) hi) not_top_lt
  · refine ⟨c, congrArg Prod.snd hc, hvisited, ?_⟩
    intro v hv
    have hle := hall v (List.mem_finRange v) hv
    rw [hc] at hle
    exact hle

/-- The labels of a search. -/
abbrev Labelled (G : SimpleGraph (Node k)) (src : Node k) (st : SearchState k) : Prop :=
  Labels G src st.visited st.pred st.dist

theorem visit_labelled {adj : AdjMtx k} {G : SimpleGraph (Node k)} {src c : Node k}
    (hadj : Represents adj G) (h : st.Labelled G src) (hc : st.visited c = false)
    (hmin : ∀ v, st.visited v = false → st.dist c ≤ st.dist v) :
    (st.visit adj c).Labelled G src := by
  have hvisited : ∀ v, (st.visit adj c).visited v = true ↔ v = c ∨ st.visited v = true := by
    intro v
    by_cases hv : v = c
    · subst hv
      simp [SearchState.visit]
    · simp [SearchState.visit, hv]
  have himproves : ∀ v, Improves adj st c v ↔ (st.visit adj c).visited v = false ∧ G.Adj c v ∧
      st.dist c + 1 < st.dist v := by
    intro v
    unfold Improves
    rw [← hadj.adj_iff]
    by_cases hpos : 0 < adj c v
    · have hweight : ((adj c v).toNat : ℕ∞) = 1 := by
        rw [hadj.weight c v hpos]
        rfl
      rw [hweight]
      rfl
    · simp [hpos]
  apply Labels.visit h hc hmin hvisited
  · intro v hv hcv hlt
    have hbetter := (himproves v).mpr ⟨hv, hcv, hlt⟩
    have hweight : (adj c v).toNat = 1 := by
      rw [hadj.weight c v hbetter.2.1]
      rfl
    simp only [SearchState.visit, if_pos hbetter, hweight, Nat.cast_one, and_self]
  · intro v hnot
    have hsame : ¬ Improves adj st c v := fun hbetter => hnot ((himproves v).mp hbetter)
    simp only [SearchState.visit, if_neg hsame, and_self]

/-- The number of routers that have not been visited. -/
def unvisited (st : SearchState k) : Nat :=
  (Finset.univ.filter fun v => st.visited v = false).card

theorem unvisited_visit {adj : AdjMtx k} {c : Node k} (hc : st.visited c = false) :
    (st.visit adj c).unvisited + 1 = st.unvisited := by
  have herase : (Finset.univ.filter fun v => (st.visit adj c).visited v = false) =
      (Finset.univ.filter fun v => st.visited v = false).erase c := by
    ext v
    rw [Finset.mem_erase, Finset.mem_filter, Finset.mem_filter, visit]
    by_cases hv : v = c
    · subst hv
      simp
    · simp [hv]
  rw [unvisited, herase]
  exact Finset.card_erase_add_one (by simp [hc])

/-- The loop goes through all routers, never finds that none is left, and adds to
finite distances only when the edges lie where the source can be reached. -/
theorem visitAll_spec {adj : AdjMtx k} {G : SimpleGraph (Node k)} {src : Node k}
    (hadj : Represents adj G) (hsrc : ∀ a b, G.Adj a b → G.Reachable a src) (nobody : SearchState k → Option (SearchState k)) {count : Nat}
    (hcount : st.unvisited = count) (h : st.Labelled G src) :
    ∃ st', visitAll adj nobody count st = some st' ∧ st'.Labelled G src ∧
      ∀ v, st'.visited v = true := by
  induction count generalizing st with
  | zero =>
      refine ⟨st, rfl, h, ?_⟩
      intro v
      rw [unvisited, Finset.card_eq_zero, Finset.filter_eq_empty_iff] at hcount
      exact Bool.eq_true_of_not_eq_false (hcount (Finset.mem_univ v))
  | succ count ih =>
      obtain ⟨i, hi⟩ : (Finset.univ.filter fun v => st.visited v = false).Nonempty := by
        rw [← Finset.card_pos, ← unvisited, hcount]
        exact Nat.succ_pos count
      obtain ⟨c, hclosest, hc, hmin⟩ := closestUnvisited_some (Finset.mem_filter.mp hi).2
      have hvisit : unvisited (st.visit adj c) + 1 = unvisited st := unvisited_visit hc
      have hfinite : ¬ st.Overflows adj c := by
        rintro ⟨htop, i, -, hi⟩
        exact h.ne_top hc hmin (hsrc c i ((hadj.adj_iff c i).mp hi)) htop
      rw [visitAll, hclosest]
      dsimp only
      rw [if_neg hfinite]
      exact ih (by omega) (visit_labelled hadj h hc hmin)

end SearchState

variable {G : SimpleGraph (Node k)} {src : Node k}

theorem labelled_init : (SearchState.init src).Labelled G src := Labels.initial

theorem unvisited_init : (SearchState.init src).unvisited = k * k := by
  rw [SearchState.unvisited, SearchState.init, Finset.filter_true_of_mem fun _ _ => rfl,
    Finset.card_univ, Fintype.card_fin]

theorem calDist_spec {adj : AdjMtx k} (hadj : Represents adj G)
    (hsrc : ∀ a b, G.Adj a b → G.Reachable a src) :
    ∃ st, calDist adj src = some st ∧ st.Labelled G src ∧ ∀ v, st.visited v = true :=
  SearchState.visitAll_spec hadj hsrc some unvisited_init labelled_init

theorem calUpDownDist_spec {adj : AdjMtx k} (hadj : Represents adj G)
    (hsrc : ∀ a b, G.Adj a b → G.Reachable a src) :
    ∃ st, calUpDownDist adj src = some st ∧ st.Labelled G src ∧ ∀ v, st.visited v = true :=
  SearchState.visitAll_spec hadj hsrc (fun _ => none) unvisited_init labelled_init

/-- The chain of predecessors leads to a neighbour of the source on a shortest walk. -/
theorem firstHop_spec {st : SearchState k} (h : st.Labelled G src)
    (hall : ∀ v, st.visited v = true) {v : Node k} (hreach : G.Reachable v src) (hne : v ≠ src)
    {steps : Nat} (hsteps : G.dist v src ≤ steps) :
    ∃ j, firstHop st.pred src steps v = some j ∧ G.Adj src j ∧
      ∃ w : G.Walk j v, w.length + 1 = G.dist v src := by
  induction steps generalizing v with
  | zero => exact absurd (hreach.dist_eq_zero_iff.mp (Nat.le_zero.mp hsteps)) hne
  | succ steps ih =>
      obtain ⟨u, hpred, hadj, hcloser⟩ := h.pred_closer hall hreach hne
      rw [firstHop, hpred]
      dsimp only
      by_cases hu : u = src
      · subst hu
        rw [if_pos rfl]
        refine ⟨v, rfl, hadj, .nil, ?_⟩
        rw [hcloser, SimpleGraph.dist_self]
        rfl
      · rw [if_neg hu]
        obtain ⟨j, hj, hfirst, w, hw⟩ := ih (hadj.reachable.trans hreach) hu (by omega)
        refine ⟨j, hj, hfirst, w.concat hadj, ?_⟩
        rw [SimpleGraph.Walk.length_concat]
        omega

/-- The direction towards a mesh neighbour leads to it. -/
theorem next_direction {n m : Node k} (h : n.Adjacent m) :
    (TableEntry.dir (direction n m)).next n = some m := by
  obtain ⟨p, hp, rfl⟩ := h.exists_port
  have hdistance := Node.distance_pos hp
  have hid := Router.adjacentId_eq hp
  have hk : 1 < k := by
    have hx := n.x_lt
    have hy := n.y_lt
    cases p <;> simp only [Node.distance] at hdistance <;> omega
  have hdirection : direction n (n.neighbor p) = p := by
    cases p <;> dsimp only [Router.adjacentId] at hid
    case east => exact if_pos (by omega)
    case west => exact (if_neg (by omega)).trans (if_pos (by omega))
    case south => exact (if_neg (by omega)).trans ((if_neg (by omega)).trans (if_pos (by omega)))
    case north => exact (if_neg (by omega)).trans ((if_neg (by omega)).trans (if_neg (by omega)))
  rw [hdirection, TableEntry.next, hp]
  rfl

/-- The table of a router leads, towards any router that is on, to a neighbour
that is one nearer. -/
theorem fillTable_spec {st : SearchState k} (h : st.Labelled G src)
    (hall : ∀ v, st.visited v = true) (hmesh : ∀ a b, G.Adj a b → a.Adjacent b)
    {on : Node k → Bool} (hreach : ∀ i, on i = true → G.Reachable i src)
    (old : Node k → TableEntry) :
    ∃ tbl, fillTable src on st.pred old = some tbl ∧ (on src = true → tbl src = .arrived) ∧
      ∀ i, on i = true → i ≠ src →
        ∃ j, (tbl i).next src = some j ∧ G.Adj src j ∧ G.dist src i = G.dist j i + 1 := by
  have hcard : ∀ i, on i = true → G.dist i src ≤ k * k := by
    intro i hi
    obtain ⟨w, hpath, hw⟩ := (hreach i hi).exists_path_of_dist
    have hlt := hpath.length_lt
    rw [Fintype.card_fin] at hlt
    omega
  have hhop : ∀ i, on i = true → i ≠ src → ∃ j, firstHop st.pred src (k * k) i = some j ∧
      G.Adj src j ∧ ∃ w : G.Walk j i, w.length + 1 = G.dist i src := fun i hi hne =>
    firstHop_spec h hall (hreach i hi) hne (hcard i hi)
  refine ⟨_, if_pos ?_, ?_, ?_⟩
  · intro i hi hne
    obtain ⟨j, hj, -⟩ := hhop i hi hne
    dsimp only
    rw [hj]
    rfl
  · intro hsrc
    rw [if_pos hsrc, if_pos rfl]
  · intro i hi hne
    obtain ⟨j, hj, hadj, w, hw⟩ := hhop i hi hne
    refine ⟨j, ?_, hadj, ?_⟩
    · dsimp only
      rw [if_pos hi, if_neg hne, hj]
      exact next_direction (hmesh _ _ hadj)
    · have hle := G.dist_le w
      obtain ⟨w', hw'⟩ := w.reachable.exists_walk_length_eq_dist
      have hge := G.dist_le (w'.cons hadj)
      rw [SimpleGraph.Walk.length_cons, hw'] at hge
      rw [SimpleGraph.dist_comm] at hw
      omega

/-- The routers that are on are connected by mesh links between them. -/
def OnConnected (on : Node k → Bool) : Prop :=
  ∀ n m, on n = true → on m = true → (onGraph on).Reachable n m

theorem on_of_mem_support {on : Node k → Bool} {s d : Node k} (hs : on s = true)
    (w : (onGraph on).Walk s d) : ∀ v ∈ w.support, on v = true := by
  induction w with
  | nil => simpa using hs
  | cons hadj w ih =>
      intro v hv
      rw [SimpleGraph.Walk.support_cons, List.mem_cons] at hv
      rcases hv with rfl | hv
      · exact hs
      · exact ih hadj.2.1 v hv

theorem buildRoute_spec {on : Node k → Bool} (hconn : OnConnected on) (hsrc : on src = true) :
    ∃ t, (RouteTbl.new src on).buildRoute = some t ∧ t.rtTbl src = .arrived ∧
      ∀ i, on i = true → i ≠ src → ∃ j, (t.rtTbl i).next src = some j ∧
        (onGraph on).Adj src j ∧ (onGraph on).dist src i = (onGraph on).dist j i + 1 := by
  obtain ⟨st, hst, hlabels, hall⟩ := calDist_spec (represents_new src on)
    fun a b hadj => hconn a src hadj.1 hsrc
  obtain ⟨tbl, htbl, harrived, hnext⟩ := fillTable_spec hlabels hall (fun a b hadj => hadj.2.2)
    (fun i hi => hconn i src hi hsrc) (RouteTbl.new src on).rtTbl
  refine ⟨{ RouteTbl.new src on with search := st, rtTbl := tbl }, ?_, harrived hsrc, hnext⟩
  exact Option.bind_eq_some_iff.mpr ⟨st, hst, Option.bind_eq_some_iff.mpr ⟨tbl, htbl, rfl⟩⟩

/-- The regular routes: every router that is on builds its table, and the hops that
the tables give lead from any to any other by a shortest walk over routers that are on. -/
theorem buildRoute_shortest (on : Node k → Bool) (hconn : OnConnected on) :
    (∀ n, on n = true → ∃ t, (RouteTbl.new n on).buildRoute = some t) ∧
    ∀ tables : Node k → RouteTbl k,
      (∀ n, on n = true → (RouteTbl.new n on).buildRoute = some (tables n)) →
      ∀ s d, on s = true → on d = true →
        ∃ w : (onGraph on).Walk s d, w.length = (onGraph on).dist s d ∧
          (∀ v ∈ w.support, on v = true) ∧ (tables d).rtTbl d = .arrived ∧
          ∀ hops, (onGraph on).dist s d ≤ hops →
            follow (fun cur => ((tables cur).rtTbl d).next cur) hops s = w.support := by
  constructor
  · intro n hn
    obtain ⟨t, ht, -⟩ := buildRoute_spec hconn hn
    exact ⟨t, ht⟩
  · intro tables htables s d hs hd
    have hspec : ∀ n, on n = true → (tables n).rtTbl n = .arrived ∧
        ∀ i, on i = true → i ≠ n → ∃ j, ((tables n).rtTbl i).next n = some j ∧
          (onGraph on).Adj n j ∧ (onGraph on).dist n i = (onGraph on).dist j i + 1 := by
      intro n hn
      obtain ⟨t, ht, hspec⟩ := buildRoute_spec hconn hn
      rwa [Option.some.inj (ht.symm.trans (htables n hn))] at hspec
    have harrived := (hspec d hd).1
    have hdest : ((tables d).rtTbl d).next d = none := by
      rw [harrived]
      rfl
    have hnext : ∀ v, (onGraph on).Reachable v d → v ≠ d → ∃ u, ((tables v).rtTbl d).next v = some u ∧
        (onGraph on).Adj v u ∧ (onGraph on).dist v d = (onGraph on).dist u d + 1 := by
      intro v hv hne
      have hon : on v = true := by
        obtain ⟨w⟩ := hv
        exact on_of_mem_support hd w.reverse v (by simp)
      exact (hspec v hon).2 d hd hne.symm
    obtain ⟨w, hw, hfollow⟩ := follow_eq_support hdest hnext (hconn s d hs hd)
    exact ⟨w, hw, on_of_mem_support hs w, harrived, hfollow⟩

/-- All routers of the 2 by 2 mesh are on but router 1. -/
def threeOn : Node 2 → Bool := fun n => n != 1

theorem threeOn_connected : OnConnected threeOn := by
  have h02 : (onGraph threeOn).Adj 0 2 := ⟨by decide, by decide, by decide⟩
  have h32 : (onGraph threeOn).Adj 3 2 := ⟨by decide, by decide, by decide⟩
  have hto : ∀ n, threeOn n = true → (onGraph threeOn).Reachable n 2 := by
    intro n hn
    have hcases : n = 0 ∨ n = 2 ∨ n = 3 := by
      revert n
      decide
    rcases hcases with rfl | rfl | rfl
    · exact h02.reachable
    · exact .refl _
    · exact h32.reachable
  exact fun n m hn hm => (hto n hn).trans (hto m hm).symm

theorem buildRoute_shortest_threeOn :
    ∃ tables : Node 2 → RouteTbl 2,
      (∀ n, threeOn n = true → (RouteTbl.new n threeOn).buildRoute = some (tables n)) ∧
      ∃ w : (onGraph threeOn).Walk 0 3, w.length = (onGraph threeOn).dist 0 3 ∧
        ∀ hops, (onGraph threeOn).dist 0 3 ≤ hops →
          follow (fun cur => ((tables cur).rtTbl 3).next cur) hops 0 = w.support := by
  obtain ⟨hbuilt, hroutes⟩ := buildRoute_shortest threeOn threeOn_connected
  choose tables htables using hbuilt
  refine ⟨fun n => if hn : threeOn n = true then tables n hn else .new n threeOn, ?_, ?_⟩
  · intro n hn
    exact (htables n hn).trans (congrArg some (dif_pos hn).symm)
  · obtain ⟨w, hw, -, -, hfollow⟩ := hroutes
      (fun n => if hn : threeOn n = true then tables n hn else .new n threeOn)
      (fun n hn => (htables n hn).trans (congrArg some (dif_pos hn).symm)) 0 3 (by decide) (by decide)
    exact ⟨w, hw, hfollow⟩

end Flyover
