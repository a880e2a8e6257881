import Flyover.Search.SpanningTree
import Flyover.Parking.Routes

/-!
# Escape routes of router parking

The breadth-first search grows a spanning tree of the routers that are on, the
same at every router. The search over the tree then leads along tree paths: up
towards the root and down again. That each hop is one nearer in the tree makes
the tables of different routers agree.
-/

namespace Flyover

open Search

variable {k : Nat} {G : SimpleGraph (Node k)} {root : Node k}

namespace BfsState

/-- Connecting two routers in the matrix adds an edge to the graph. -/
theorem represents_connect {m : AdjMtx k} {T : SimpleGraph (Node k)} {c i : Node k}
    (h : Represents m T) (hne : c ≠ i) :
    Represents (connect m c i) (T ⊔ SimpleGraph.edge c i) where
  adj_iff := by
    intro a b
    rw [connect, SimpleGraph.sup_adj, SimpleGraph.edge_adj, ← h.adj_iff]
    by_cases hnew : a = c ∧ b = i ∨ a = i ∧ b = c
    · rw [if_pos hnew]
      have hab : a ≠ b := by
        rintro rfl
        rcases hnew with ⟨rfl, heq⟩ | ⟨rfl, heq⟩
        · exact hne heq
        · exact hne heq.symm
      exact iff_of_true one_pos (.inr ⟨hnew, hab⟩)
    · rw [if_neg hnew]
      exact ⟨.inl, fun h => h.resolve_right fun hedge => hnew hedge.1⟩
  weight := by
    intro a b
    unfold connect
    split
    · exact fun _ => rfl
    · exact h.weight a b

/-- What holds while the search goes on: the matrix is a tree that has grown to the
visited routers; those that have left the queue have no unvisited neighbours, but
for the `current` ones. -/
structure Growing (G T : SimpleGraph (Node k)) (root : Node k) (current : Node k → Prop)
    (b : BfsState k) : Prop where
  represents : Represents b.updown T
  grown : Grown G T root fun v => b.visited v = true
  queued : ∀ v ∈ b.queue, b.visited v = true
  closed : ∀ v, b.visited v = true → v ∉ b.queue → ¬ current v →
    ∀ i, G.Adj v i → b.visited i = true

/-- The number of routers that are to be taken from the queue yet. -/
def left (b : BfsState k) : Nat :=
  b.queue.length + (Finset.univ.filter fun v => b.visited v = false).card

variable {adj : AdjMtx k} {b : BfsState k}

theorem left_find (current i : Node k) : (find adj current b i).left = b.left := by
  unfold find
  split
  next hfound =>
    have herase : (Finset.univ.filter fun v => Function.update b.visited i true v = false) =
        (Finset.univ.filter fun v => b.visited v = false).erase i := by
      ext v
      rw [Finset.mem_erase, Finset.mem_filter, Finset.mem_filter]
      by_cases hv : v = i
      · subst hv
        simp
      · simp [hv]
    have hcard := Finset.card_erase_add_one (s := Finset.univ.filter fun v => b.visited v = false)
      (a := i) (by simp [hfound.2])
    simp only [left, herase, List.length_append, List.length_singleton]
    omega
  next => rfl

theorem Growing.find {T : SimpleGraph (Node k)} {c : Node k} (hadj : Represents adj G)
    (h : Growing G T root (· = c) b) (hc : b.visited c = true) (i : Node k) :
    ∃ T', Growing G T' root (· = c) (find adj c b i) ∧
      (∀ v, b.visited v = true → (BfsState.find adj c b i).visited v = true) ∧
      (G.Adj c i → (BfsState.find adj c b i).visited i = true) := by
  unfold BfsState.find
  by_cases hfound : adj c i = 1 ∧ b.visited i = false
  · rw [if_pos hfound]
    have hedge : G.Adj c i := (hadj.adj_iff c i).mp (by omega)
    have hi : ¬ b.visited i = true := by simp [hfound.2]
    have hvisited : ∀ v, Function.update b.visited i true v = true ↔ v = i ∨ b.visited v = true := by
      intro v
      by_cases hv : v = i
      · subst hv
        simp
      · simp [hv]
    have hkept : ∀ v, b.visited v = true → Function.update b.visited i true v = true := fun v hv =>
      (hvisited v).mpr (.inr hv)
    refine ⟨T ⊔ SimpleGraph.edge c i, ?_, hkept, fun _ => (hvisited i).mpr (.inl rfl)⟩
    constructor
    case represents => exact represents_connect h.represents hedge.ne
    case grown =>
      simp only [hvisited]
      exact h.grown.add hc hi hedge
    case queued =>
      intro v hv
      rcases List.mem_append.mp hv with hv | hv
      · exact hkept v (h.queued v hv)
      · exact (hvisited v).mpr (.inl (List.mem_singleton.mp hv))
    case closed =>
      intro v hv hqueue hcurrent j hj
      rw [List.mem_append, not_or, List.mem_singleton] at hqueue
      have hv := ((hvisited v).mp hv).resolve_left hqueue.2
      exact hkept j (h.closed v hv hqueue.1 hcurrent j hj)
  · rw [if_neg hfound]
    refine ⟨T, h, fun _ hv => hv, ?_⟩
    intro hedge
    by_contra hi
    have hpos := (hadj.adj_iff c i).mpr hedge
    exact hfound ⟨hadj.weight c i hpos, Bool.eq_false_of_not_eq_true hi⟩

/-- The loop over the routers visits all neighbours of the current one. -/
theorem Growing.foldl {T : SimpleGraph (Node k)} {c : Node k} (hadj : Represents adj G)
    (h : Growing G T root (· = c) b) (hc : b.visited c = true) (nodes : List (Node k)) :
    ∃ T', Growing G T' root (· = c) (nodes.foldl (BfsState.find adj c) b) ∧
      (∀ v, b.visited v = true → (nodes.foldl (BfsState.find adj c) b).visited v = true) ∧
      (∀ i ∈ nodes, G.Adj c i → (nodes.foldl (BfsState.find adj c) b).visited i = true) ∧
      (nodes.foldl (BfsState.find adj c) b).left = b.left := by
  induction nodes generalizing b T with
  | nil => exact ⟨T, h, fun _ hv => hv, by simp, rfl⟩
  | cons i nodes ih =>
      obtain ⟨T', h', hkept, hi⟩ := h.find hadj hc i
      obtain ⟨T'', h'', hkept', hrest, hleft⟩ := ih h' (hkept c hc)
      rw [List.foldl_cons]
      refine ⟨T'', h'', fun v hv => hkept' v (hkept v hv), ?_, by rw [hleft, left_find]⟩
      intro j hj hedge
      rcases List.mem_cons.mp hj with rfl | hj
      · exact hkept' j (hi hedge)
      · exact hrest j hj hedge

/-- Take a router from the queue. -/
theorem Growing.pop {T : SimpleGraph (Node k)} {c : Node k} {rest : List (Node k)}
    (h : Growing G T root (fun _ => False) b) (hqueue : b.queue = c :: rest) :
    Growing G T root (· = c) { b with queue := rest } where
  represents := h.represents
  grown := h.grown
  queued := fun v hv => h.queued v (hqueue ▸ List.mem_cons_of_mem c hv)
  closed := by
    intro v hv hrest hne i hi
    apply h.closed v hv ?_ id i hi
    rw [hqueue, List.mem_cons, not_or]
    exact ⟨hne, hrest⟩

/-- The search ends, and leaves no visited router with an unvisited neighbour. -/
theorem loop_spec {T : SimpleGraph (Node k)} (hadj : Represents adj G) {steps : Nat}
    (h : Growing G T root (fun _ => False) b) (hsteps : b.left ≤ steps) :
    ∃ T' b', loop adj steps b = some b' ∧ Growing G T' root (fun _ => False) b' ∧
      b'.queue = [] := by
  induction steps generalizing b T with
  | zero =>
      have hqueue : b.queue = [] := by
        apply List.eq_nil_of_length_eq_zero
        unfold left at hsteps
        omega
      exact ⟨T, b, if_pos hqueue, h, hqueue⟩
  | succ steps ih =>
      rw [loop]
      cases hqueue : b.queue with
      | nil => exact ⟨T, b, rfl, h, hqueue⟩
      | cons c rest =>
          have hc : b.visited c = true := h.queued c (hqueue ▸ List.mem_cons_self)
          obtain ⟨T', h', -, hneighbors, hleft⟩ :=
            (h.pop hqueue).foldl hadj hc (List.finRange (k * k))
          apply ih (T := T')
          · refine ⟨h'.represents, h'.grown, h'.queued, ?_⟩
            intro v hv hout _ i hi
            by_cases hcurrent : v = c
            · subst hcurrent
              exact hneighbors i (List.mem_finRange i) hi
            · exact h'.closed v hv hout hcurrent i hi
          · rw [hleft]
            simp only [left, hqueue, List.length_cons] at hsteps ⊢
            omega

end BfsState

/-- The diagonal of `_updown_adj_mtx` is 0, everything else -1. -/
theorem represents_bot : Represents (fun i j : Node k => if i = j then (0 : Int) else -1) ⊥ where
  adj_iff := by
    intro a b
    rw [SimpleGraph.bot_adj]
    split <;> simp
  weight := by
    intro a b
    split <;> simp

/-- Where the search begins. -/
def BfsState.start (root : Node k) : BfsState k where
  updown := fun i j => if i = j then 0 else -1
  visited := Function.update (fun _ => false) root true
  queue := [root]

theorem BfsState.left_start (root : Node k) : (BfsState.start root).left = k * k := by
  have herase : (Finset.univ.filter fun v => (BfsState.start root).visited v = false) =
      Finset.univ.erase root := by
    ext v
    rw [Finset.mem_erase, Finset.mem_filter]
    by_cases hv : v = root
    · subst hv
      simp [BfsState.start]
    · simp [BfsState.start, hv]
  have hcard := Finset.card_erase_add_one (Finset.mem_univ root)
  rw [Finset.card_univ, Fintype.card_fin] at hcard
  rw [BfsState.left, herase, Nat.add_comm]
  exact hcard

/-- A spanning tree of the routers that are on. -/
structure Spanning (on : Node k → Bool) (T : SimpleGraph (Node k)) : Prop where
  le : T ≤ onGraph on
  acyclic : T.IsAcyclic
  reach : ∀ n m, on n = true → on m = true → T.Reachable n m

/-- The breadth-first search finds a spanning tree, where the routers are connected. -/
theorem bfs_spec {on : Node k → Bool} (hconn : OnConnected on) (hroot : on root = true)
    {adj : AdjMtx k} (hadj : Represents adj (onGraph on)) :
    ∃ T b, bfs adj (fun i j => if i = j then 0 else -1) root = some b ∧
      Represents b.updown T ∧ Spanning on T := by
  have hvisited : ∀ v, (BfsState.start root).visited v = true ↔ v = root := by
    intro v
    by_cases hv : v = root
    · subst hv
      simp [BfsState.start]
    · simp [BfsState.start, hv]
  have hstart : BfsState.Growing (onGraph on) ⊥ root (fun _ => False) (.start root) := by
    refine ⟨represents_bot, ?_, ?_, ?_⟩
    · simp only [hvisited]
      exact .start
    · intro v hv
      exact (hvisited v).mpr (List.mem_singleton.mp hv)
    · intro v hv hout
      exact absurd (List.mem_singleton.mpr ((hvisited v).mp hv)) hout
  obtain ⟨T, b, hb, hgrowing, hqueue⟩ :=
    BfsState.loop_spec hadj hstart (Nat.le_of_eq (BfsState.left_start root))
  have hclosed : ∀ v, b.visited v = true → ∀ i, (onGraph on).Adj v i → b.visited i = true := by
    intro v hv i hi
    exact hgrowing.closed v hv (by simp [hqueue]) id i hi
  -- all that are on are connected to the root
  have hall : ∀ v s, (onGraph on).Walk v s → s = root → b.visited v = true := by
    intro v s w hs
    induction w with
    | nil => exact hs ▸ hgrowing.grown.root_visited
    | cons hadj w ih => exact hclosed _ (ih hs) _ hadj.symm
  refine ⟨T, b, hb, hgrowing.represents, hgrowing.grown.le, hgrowing.grown.acyclic, ?_⟩
  have hreach : ∀ n, on n = true → T.Reachable root n := by
    intro n hn
    obtain ⟨w⟩ := hconn n root hn hroot
    exact hgrowing.grown.reach n (hall n root w rfl)
  intro n m hn hm
  exact (hreach n hn).symm.trans (hreach m hm)

/-- `BuildRoute` changes the search state and its own table only. -/
theorem buildRoute_kept {t t' : RouteTbl k} (h : t.buildRoute = some t') :
    t' = { t with search := t'.search, rtTbl := t'.rtTbl } := by
  obtain ⟨st, -, h⟩ := Option.bind_eq_some_iff.mp h
  obtain ⟨tbl, -, h⟩ := Option.bind_eq_some_iff.mp h
  rw [← Option.some.inj h]

/-- All routers construct the same tree, and their escape tables lead along it. -/
theorem build_spec {on : Node k → Bool} (hconn : OnConnected on) (hroot : on root = true) :
    ∃ T, Spanning on T ∧ ∀ src, on src = true → ∃ t, RouteTbl.build src on root = some t ∧
      Represents t.updownAdjMtx T ∧ t.escRtTbl src = .arrived ∧
      ∀ i, on i = true → i ≠ src → ∃ j, (t.escRtTbl i).next src = some j ∧
        T.Adj src j ∧ T.dist src i = T.dist j i + 1 := by
  obtain ⟨T, b, hb, hrepresents, hspanning⟩ := bfs_spec hconn hroot (represents_new root on)
  refine ⟨T, hspanning, ?_⟩
  intro src hsrc
  obtain ⟨t, ht, -⟩ := buildRoute_spec hconn hsrc
  obtain ⟨st, hst, hlabels, hall⟩ := calUpDownDist_spec hrepresents
    fun a b hadj => hspanning.reach a src (hspanning.le hadj).1 hsrc
  obtain ⟨tbl, htbl, harrived, hnext⟩ := fillTable_spec hlabels hall
    (fun a b hadj => (hspanning.le hadj).2.2) (fun i hi => hspanning.reach i src hi hsrc) t.escRtTbl
  refine ⟨{ t with search := st, escRtTbl := tbl, updownAdjMtx := b.updown }, ?_, hrepresents,
    harrived hsrc, hnext⟩
  have hkept := buildRoute_kept ht
  rw [RouteTbl.build, ht, Option.bind_eq_bind, Option.bind_some, RouteTbl.buildEscRoute]
  rw [hkept] at htbl ⊢
  exact Option.bind_eq_some_iff.mpr ⟨b, hb, Option.bind_eq_some_iff.mpr
    ⟨st, hst, Option.bind_eq_some_iff.mpr ⟨tbl, htbl, rfl⟩⟩⟩

/-- A link on the escape network is requested by a packet that holds another. -/
def EscapeLinkDep (tables : Node k → RouteTbl k) (on : Node k → Bool) (e e' : Node k × Node k) :
    Prop :=
  on e.1 = true ∧ e.2 = e'.1 ∧ ∃ d, on d = true ∧
    ((tables e.1).escRtTbl d).next e.1 = some e.2 ∧
    ((tables e'.1).escRtTbl d).next e'.1 = some e'.2

/-- The number of routers that are on. -/
def onCount (on : Node k → Bool) : Nat := (Finset.univ.filter fun v => on v = true).card

theorem length_lt_onCount {on : Node k → Bool} {T : SimpleGraph (Node k)} (hle : T ≤ onGraph on)
    {s d : Node k} (hs : on s = true) (w : T.Walk s d) (hw : w.IsPath) :
    w.length + 1 ≤ onCount on := by
  have hsub : w.support.toFinset ⊆ Finset.univ.filter fun v => on v = true := by
    intro v hv
    rw [List.mem_toFinset] at hv
    have hmem : v ∈ (w.mapLe hle).support := by simpa using hv
    exact Finset.mem_filter.mpr ⟨Finset.mem_univ v, on_of_mem_support hs (w.mapLe hle) v hmem⟩
  have hcard := Finset.card_le_card hsub
  rwa [List.toFinset_card_of_nodup hw.support_nodup, SimpleGraph.Walk.length_support] at hcard

/-- The escape routes: all routers construct one spanning tree of the routers that
are on; the hops that their tables give follow the only tree path, up towards
the root and then down; and the links depend on each other acyclically. -/
theorem build_escape (on : Node k → Bool) (root : Node k) (hconn : OnConnected on)
    (hroot : on root = true) :
    ∃ T : SimpleGraph (Node k), Spanning on T ∧
      (∀ n, on n = true → ∃ t, RouteTbl.build n on root = some t) ∧
      ∀ tables : Node k → RouteTbl k,
        (∀ n, on n = true → RouteTbl.build n on root = some (tables n)) →
        (∀ n, on n = true → Represents (tables n).updownAdjMtx T) ∧
        (∀ s d, on s = true → on d = true → ∃ w : T.Walk s d, w.IsPath ∧
          (∀ w' : T.Walk s d, w'.IsPath → w' = w) ∧
          (tables d).escRtTbl d = .arrived ∧
          (∀ hops, w.length ≤ hops →
            follow (fun cur => ((tables cur).escRtTbl d).next cur) hops s = w.support) ∧
          (∃ (m : Node k) (up : T.Walk s m) (down : T.Walk m d), w = up.append down ∧
            (∀ e ∈ up.darts, Up T root e.fst e.snd) ∧
            ∀ e ∈ down.darts, Down T root e.fst e.snd) ∧
          w.length + 1 ≤ onCount on) ∧
        Progress.Acyclic (EscapeLinkDep tables on) := by
  obtain ⟨T, hspanning, hbuild⟩ := build_spec hconn hroot
  refine ⟨T, hspanning, fun n hn => (hbuild n hn).imp fun t ht => ht.1, ?_⟩
  intro tables htables
  have hspec : ∀ n, on n = true → Represents (tables n).updownAdjMtx T ∧
      (tables n).escRtTbl n = .arrived ∧ ∀ i, on i = true → i ≠ n →
        ∃ j, ((tables n).escRtTbl i).next n = some j ∧ T.Adj n j ∧
          T.dist n i = T.dist j i + 1 := by
    intro n hn
    obtain ⟨t, ht, hspec⟩ := hbuild n hn
    rwa [Option.some.inj (ht.symm.trans (htables n hn))] at hspec
  refine ⟨fun n hn => (hspec n hn).1, ?_, ?_⟩
  · intro s d hs hd
    have harrived := (hspec d hd).2.1
    have hdest : ((tables d).escRtTbl d).next d = none := by
      rw [harrived]
      rfl
    have hnext : ∀ v, T.Reachable v d → v ≠ d → ∃ u, ((tables v).escRtTbl d).next v = some u ∧
        T.Adj v u ∧ T.dist v d = T.dist u d + 1 := by
      intro v hv hne
      have hon : on v = true := by
        obtain ⟨w⟩ := hv.mono hspanning.le
        exact on_of_mem_support hd w.reverse v (by simp)
      exact (hspec v hon).2.2 d hd hne.symm
    obtain ⟨w, hw, hfollow⟩ := follow_eq_support hdest hnext (hspanning.reach s d hs hd)
    have hpath := w.isPath_of_length_eq_dist hw
    refine ⟨w, hpath, ?_, harrived, hw ▸ hfollow,
      exists_up_down hspanning.acyclic w hpath (hspanning.reach root s hroot hs),
      length_lt_onCount hspanning.le hs w hpath⟩
    intro w' hpath'
    exact congrArg Subtype.val
      ((hspanning.acyclic.subsingleton_path s d).elim ⟨w', hpath'⟩ ⟨w, hpath⟩)
  · have honward : ∀ e e', EscapeLinkDep tables on e e' → Onward T root e e' := by
      rintro ⟨n, m⟩ ⟨m', p⟩ ⟨hn, rfl, d, hd, hfirst, hsecond⟩
      have hnot : ∀ v u, on v = true → ((tables v).escRtTbl d).next v = some u →
          T.Adj v u ∧ T.dist v d = T.dist u d + 1 := by
        intro v u hv hu
        have hne : d ≠ v := by
          rintro rfl
          rw [(hspec d hv).2.1] at hu
          cases hu
        obtain ⟨j, hj, hadj, hcloser⟩ := (hspec v hv).2.2 d hd hne
        rw [← Option.some.inj (hj.symm.trans hu)]
        exact ⟨hadj, hcloser⟩
      obtain ⟨hadj, hcloser⟩ := hnot n m hn hfirst
      obtain ⟨hadj', hcloser'⟩ := hnot m p (hspanning.le hadj).2.1 hsecond
      refine ⟨hspanning.reach root n hroot hn, hadj, hadj', rfl, ?_⟩
      intro hback
      dsimp only at hback
      rw [hback] at hcloser
      omega
    exact (acyclic_onward hspanning.acyclic).mono honward

theorem build_escape_threeOn :
    ∃ T : SimpleGraph (Node 2), Spanning threeOn T ∧
      ∃ tables : Node 2 → RouteTbl 2,
        (∀ n, threeOn n = true → Represents (tables n).updownAdjMtx T) ∧
        Progress.Acyclic (EscapeLinkDep tables threeOn) := by
  obtain ⟨T, hspanning, hbuilt, hroutes⟩ :=
    build_escape threeOn 3 threeOn_connected (by decide)
  choose tables htables using hbuilt
  obtain ⟨hsame, -, hacyclic⟩ := hroutes
    (fun n => if hn : threeOn n = true then tables n hn else .new n threeOn)
    (fun n hn => (htables n hn).trans (congrArg some (dif_pos hn).symm))
  exact ⟨T, hspanning, _, hsame, hacyclic⟩

end Flyover
