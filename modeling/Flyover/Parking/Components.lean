import Mathlib.Data.List.Sort
import Flyover.Parking.Routes
import Flyover.Progress.Worklist

/-!
# The components of the routers that are on

Before aggressive parking `Network::_Alloc` looks whether the routers of the cores
that are on are connected: it goes through the routers, and from each that it has not
visited yet it searches breadth-first for the routers connected to it.
-/

namespace Flyover

variable {k : Nat}

/-- `adj_mat`: -1, 0 on the diagonal, or 1. -/
def adjMat (routerStates : Node k → Bool) : AdjMtx k := fun i j =>
  let ix : Int := i.x
  let iy : Int := i.y
  let jx : Int := j.x
  let jy : Int := j.y
  if routerStates i = false ∨ routerStates j = false then -1
  else if i = j then 0
  else if (ix - jx).natAbs = 1 ∧ iy = jy ∨ (iy - jy).natAbs = 1 ∧ ix = jx then 1
  else -1

/-- `visited`, `bfs_q` and `new_component` -/
structure ComponentSearch (k : Nat) where
  visited : Node k → Bool
  bfsQ : List (Node k)
  newComponent : List (Node k)

namespace ComponentSearch

/-- One iteration of the loop over the routers. -/
def find (adj : AdjMtx k) (n : Node k) (b : ComponentSearch k) (i : Node k) : ComponentSearch k :=
  if adj n i = 1 ∧ b.visited i = false then
    { b with visited := Function.update b.visited i true, bfsQ := b.bfsQ ++ [i] }
  else b

/-- Take router `n` from the queue. -/
def visit (adj : AdjMtx k) (n : Node k) (rest : List (Node k)) (b : ComponentSearch k) :
    ComponentSearch k :=
  (List.finRange (k * k)).foldl (find adj n)
    { b with bfsQ := rest, newComponent := b.newComponent ++ [n] }

/-- `while (!bfs_q.empty())`, for so many iterations at most. -/
def loop (adj : AdjMtx k) : Nat → ComponentSearch k → Option (ComponentSearch k)
  | 0, b => if b.bfsQ = [] then some b else none
  | steps + 1, b =>
      match b.bfsQ with
      | [] => some b
      | n :: rest => loop adj steps (b.visit adj n rest)

end ComponentSearch

/-- `visited` and `strong_cnctd_comps` -/
structure Components (k : Nat) where
  visited : Node k → Bool
  strongCnctdComps : List (List (Node k))

/-- One iteration of the loop over the routers. -/
def Components.measure (routerStates : Node k → Bool) (s : Components k) (r : Node k) :
    Option (Components k) :=
  if routerStates r = false then some s
  else if s.visited r = true then some s
  else do
    let b ← ComponentSearch.loop (adjMat routerStates) (k * k)
      { visited := Function.update s.visited r true, bfsQ := [r], newComponent := [] }
    pure
      { visited := b.visited
        strongCnctdComps := s.strongCnctdComps ++ [b.newComponent.insertionSort (· ≤ ·)] }

/-- `strong_cnctd_comps` after the loop. -/
def strongCnctdComps (routerStates : Node k → Bool) : Option (List (List (Node k))) :=
  ((List.finRange (k * k)).foldlM (Components.measure routerStates) ⟨fun _ => false, []⟩).map
    Components.strongCnctdComps

theorem adjMat_eq (src : Node k) (on : Node k → Bool) : adjMat on = (RouteTbl.new src on).adjMtx := by
  funext i j
  simp only [adjMat, RouteTbl.new]
  cases on i <;> cases on j <;> simp

theorem represents_adjMat (on : Node k → Bool) : Represents (adjMat on) (onGraph on) where
  adj_iff := by
    intro a b
    rw [adjMat_eq a]
    exact (represents_new a on).adj_iff a b
  weight := by
    intro a b
    rw [adjMat_eq a]
    exact (represents_new a on).weight a b

namespace ComponentSearch

variable {adj : AdjMtx k} {G : SimpleGraph (Node k)} {b : ComponentSearch k} {n : Node k}

/-- What the loop over the routers finds. -/
theorem foldl_find (hadj : Represents adj G) (nodes : List (Node k)) :
    (∀ v, (nodes.foldl (find adj n) b).visited v = true ↔
      b.visited v = true ∨ v ∈ nodes ∧ G.Adj n v) ∧
    (∀ v, v ∈ (nodes.foldl (find adj n) b).bfsQ ↔
      v ∈ b.bfsQ ∨ (v ∈ nodes ∧ G.Adj n v) ∧ b.visited v = false) ∧
    (nodes.foldl (find adj n) b).newComponent = b.newComponent := by
  induction nodes generalizing b with
  | nil => simp
  | cons i nodes ih =>
      have hone : adj n i = 1 ↔ G.Adj n i := by
        rw [← hadj.adj_iff]
        exact ⟨fun h => by omega, hadj.weight n i⟩
      obtain ⟨hvisited, hqueue, hcomponent⟩ := ih (b := find adj n b i)
      rw [List.foldl_cons]
      unfold find at hvisited hqueue hcomponent ⊢
      by_cases hfound : adj n i = 1 ∧ b.visited i = false
      · rw [if_pos hfound] at hvisited hqueue hcomponent ⊢
        refine ⟨?_, ?_, hcomponent⟩
        · intro v
          rw [hvisited v]
          by_cases hv : v = i
          · subst hv
            simp [hone.mp hfound.1]
          · simp [hv]
        · intro v
          rw [hqueue v]
          by_cases hv : v = i
          · subst hv
            simp [hone.mp hfound.1, hfound.2]
          · simp [hv]
      · rw [if_neg hfound] at hvisited hqueue hcomponent ⊢
        have hknown : G.Adj n i → b.visited i = true := fun hi => by
          by_contra hnot
          exact hfound ⟨hone.mpr hi, Bool.eq_false_of_not_eq_true hnot⟩
        refine ⟨?_, ?_, hcomponent⟩
        · intro v
          rw [hvisited v]
          by_cases hv : v = i
          · subst hv
            simp only [List.mem_cons, true_or, true_and]
            tauto
          · simp [hv]
        · intro v
          rw [hqueue v]
          by_cases hv : v = i
          · subst hv
            cases hvis : b.visited v with
            | false => simp [mt hknown (by simp [hvis])]
            | true => simp
          · simp [hv]

/-- The number of routers that are to be taken from the queue yet. -/
def left (b : ComponentSearch k) : Nat :=
  b.bfsQ.length + (Finset.univ.filter fun v => b.visited v = false).card

theorem left_find (n i : Node k) : (find adj n b i).left = b.left := by
  unfold find
  split
  next hfound =>
    have herase : (Finset.univ.filter fun v => Function.update b.visited i true v = false) =
        (Finset.univ.filter fun v => b.visited v = false).erase i := by
      ext v
      rw [Finset.mem_erase, Finset.mem_filter, Finset.mem_filter]
      by_cases hv : v = i
      · simp [hv]
      · simp [hv]
    have hcard := Finset.card_erase_add_one (s := Finset.univ.filter fun v => b.visited v = false)
      (a := i) (by simp [hfound.2])
    simp only [left, herase, List.length_append, List.length_singleton]
    omega
  next => rfl

theorem left_visit {rest : List (Node k)} (hqueue : b.bfsQ = n :: rest) :
    (b.visit adj n rest).left + 1 = b.left := by
  have hfold : ∀ (nodes : List (Node k)) (b : ComponentSearch k),
      (nodes.foldl (find adj n) b).left = b.left := by
    intro nodes
    induction nodes with
    | nil => exact fun b => rfl
    | cons i nodes ih =>
        intro b
        rw [List.foldl_cons, ih, left_find]
  rw [visit, hfold]
  simp only [left, hqueue, List.length_cons]
  omega

/-- The search has come to the routers in the component and in the queue, all of them
connected to `root`; `old` are those that were visited before. -/
structure Searching (G : SimpleGraph (Node k)) (old : Node k → Prop) (root : Node k)
    (b : ComponentSearch k) : Prop where
  root_mem : root ∈ b.newComponent ∨ root ∈ b.bfsQ
  visited_iff : ∀ v, b.visited v = true ↔ old v ∨ v ∈ b.newComponent ∨ v ∈ b.bfsQ
  reach : ∀ v, v ∈ b.newComponent ∨ v ∈ b.bfsQ → G.Reachable root v
  closed : ∀ v ∈ b.newComponent, ∀ i, G.Adj v i → b.visited i = true

variable {old : Node k → Prop} {root : Node k}

theorem Searching.visit (hadj : Represents adj G) (h : Searching G old root b)
    {rest : List (Node k)} (hqueue : b.bfsQ = n :: rest) :
    Searching G old root (b.visit adj n rest) := by
  obtain ⟨hvisited, hbfsQ, hcomponent⟩ :=
    foldl_find (b := { b with bfsQ := rest, newComponent := b.newComponent ++ [n] }) (n := n) hadj
      (List.finRange (k * k))
  simp only [List.mem_finRange, true_and] at hvisited hbfsQ
  have hknown := h.visited_iff
  simp only [hqueue, List.mem_cons] at hknown
  have hreach : ∀ v, v ∈ b.newComponent ∨ v = n ∨ v ∈ rest → G.Reachable root v := by
    intro v hv
    apply h.reach
    simpa only [hqueue, List.mem_cons] using hv
  constructor
  case root_mem =>
    have hroot := h.root_mem
    simp only [ComponentSearch.visit, hbfsQ, hcomponent, List.mem_append, List.mem_singleton]
    rw [hqueue, List.mem_cons] at hroot
    tauto
  case visited_iff =>
    intro v
    simp only [ComponentSearch.visit, hvisited, hbfsQ, hcomponent, List.mem_append,
      List.mem_singleton]
    cases hvis : b.visited v with
    | false =>
        have hunknown := mt (hknown v).mpr (by simp [hvis])
        tauto
    | true =>
        have hfound := (hknown v).mp hvis
        tauto
  case reach =>
    intro v
    simp only [ComponentSearch.visit, hbfsQ, hcomponent, List.mem_append, List.mem_singleton]
    rintro ((hv | rfl) | hv | ⟨hv, -⟩)
    · exact hreach v (.inl hv)
    · exact hreach v (.inr (.inl rfl))
    · exact hreach v (.inr (.inr hv))
    · exact (hreach n (.inr (.inl rfl))).trans hv.reachable
  case closed =>
    intro v hv i hi
    simp only [ComponentSearch.visit, hvisited, hcomponent, List.mem_append,
      List.mem_singleton] at hv ⊢
    rcases hv with hv | rfl
    · exact .inl (h.closed v hv i hi)
    · exact .inr hi

/-- The search ends. -/
theorem Searching.loop (hadj : Represents adj G) (h : Searching G old root b) {steps : Nat}
    (hsteps : b.left ≤ steps) :
    ∃ b', ComponentSearch.loop adj steps b = some b' ∧ Searching G old root b' ∧ b'.bfsQ = [] := by
  induction steps generalizing b with
  | zero =>
      have hqueue : b.bfsQ = [] := by
        apply List.eq_nil_of_length_eq_zero
        unfold left at hsteps
        omega
      exact ⟨b, if_pos hqueue, h, hqueue⟩
  | succ steps ih =>
      rw [ComponentSearch.loop]
      cases hqueue : b.bfsQ with
      | nil => exact ⟨b, rfl, h, hqueue⟩
      | cons n rest =>
          apply ih (h.visit hadj hqueue)
          have hless : (b.visit adj n rest).left + 1 = b.left := left_visit hqueue
          omega

/-- The component is what is connected to the root. -/
theorem Searching.mem_iff (h : Searching G old root b) (hqueue : b.bfsQ = [])
    (hclosed : ∀ v i, old v → G.Adj v i → old i) (hroot : ¬ old root) (v : Node k) :
    v ∈ b.newComponent ↔ G.Reachable root v := by
  have hmem : ∀ v, b.visited v = true ↔ old v ∨ v ∈ b.newComponent := by
    intro v
    simpa [hqueue] using h.visited_iff v
  have hstart : root ∈ b.newComponent := by simpa [hqueue] using h.root_mem
  have hnew : ∀ v s, G.Walk v s → s = root → v ∈ b.newComponent ∧ ¬ old v := by
    intro v s w hs
    induction w with
    | nil => exact hs ▸ ⟨hstart, hroot⟩
    | cons hadj w ih =>
        obtain ⟨hin, hnot⟩ := ih hs
        have hold := mt (fun hv => hclosed _ _ hv hadj) hnot
        have hvisited := (hmem _).mp (h.closed _ hin _ hadj.symm)
        exact ⟨hvisited.resolve_left hold, hold⟩
  constructor
  · exact fun hv => h.reach v (.inl hv)
  · rintro hreach
    obtain ⟨w⟩ := hreach.symm
    exact (hnew v root w rfl).1

end ComponentSearch

/-- Everything that is connected to some router that is on. -/
def IsComponent (on : Node k → Bool) (component : List (Node k)) : Prop :=
  ∃ root, on root = true ∧ ∀ v, v ∈ component ↔ (onGraph on).Reachable root v

namespace IsComponent

variable {on : Node k → Bool} {component : List (Node k)} {n m : Node k}

theorem exists_mem (h : IsComponent on component) : ∃ n, n ∈ component := by
  obtain ⟨root, -, hmem⟩ := h
  exact ⟨root, (hmem root).mpr (.refl root)⟩

theorem reachable (h : IsComponent on component) (hn : n ∈ component) (hm : m ∈ component) :
    (onGraph on).Reachable n m := by
  obtain ⟨root, -, hmem⟩ := h
  exact ((hmem n).mp hn).symm.trans ((hmem m).mp hm)

theorem mem_of_reachable (h : IsComponent on component) (hn : n ∈ component)
    (hm : (onGraph on).Reachable n m) : m ∈ component := by
  obtain ⟨root, -, hmem⟩ := h
  exact (hmem m).mpr (((hmem n).mp hn).trans hm)

theorem on_of_mem (h : IsComponent on component) (hn : n ∈ component) : on n = true := by
  obtain ⟨root, hroot, hmem⟩ := h
  obtain ⟨w⟩ := (hmem n).mp hn
  exact on_of_mem_support hroot w n (by simp)

end IsComponent

/-- The components that have been found after the routers `done`. -/
structure Components.Measured (on : Node k → Bool) (done : List (Node k)) (s : Components k) :
    Prop where
  isComponent : ∀ component ∈ s.strongCnctdComps, IsComponent on component
  visited_iff : ∀ v, s.visited v = true ↔ ∃ component ∈ s.strongCnctdComps, v ∈ component
  covers : ∀ r ∈ done, on r = true → s.visited r = true

namespace Components

variable {on : Node k → Bool} {done : List (Node k)} {s : Components k} {r : Node k}

/-- A router that is off, or has been visited, has no component to be found. -/
theorem Measured.skip (h : s.Measured on done) (hr : on r = true → s.visited r = true) :
    s.Measured on (done ++ [r]) where
  isComponent := h.isComponent
  visited_iff := h.visited_iff
  covers := by
    intro r' hr'
    rcases List.mem_append.mp hr' with hr' | hr'
    · exact h.covers r' hr'
    · rw [List.mem_singleton] at hr'
      exact hr' ▸ hr

theorem Measured.closed (h : s.Measured on done) {v i : Node k} (hv : s.visited v = true)
    (hadj : (onGraph on).Adj v i) : s.visited i = true := by
  obtain ⟨component, hmem, hin⟩ := (h.visited_iff v).mp hv
  exact (h.visited_iff i).mpr
    ⟨component, hmem, (h.isComponent component hmem).mem_of_reachable hin hadj.reachable⟩

open ComponentSearch in
theorem Measured.measure (h : s.Measured on done) (r : Node k) :
    ∃ s', s.measure on r = some s' ∧ s'.Measured on (done ++ [r]) := by
  unfold Components.measure
  by_cases hoff : on r = false
  · refine ⟨s, if_pos hoff, h.skip ?_⟩
    rw [hoff]
    exact nofun
  · by_cases hvisited : s.visited r = true
    · refine ⟨s, ?_, h.skip fun _ => hvisited⟩
      rw [if_neg hoff, if_pos hvisited]
    · rw [if_neg hoff, if_neg hvisited]
      let start : ComponentSearch k :=
        { visited := Function.update s.visited r true, bfsQ := [r], newComponent := [] }
      have hstart : Searching (onGraph on) (fun v => s.visited v = true) r start := by
        refine ⟨.inr (List.mem_singleton_self r), ?_, ?_, nofun⟩
        · intro v
          by_cases hv : v = r
          · simp [start, hv]
          · simp [start, hv]
        · intro v hv
          have hv : v = r := by simpa [start] using hv
          rw [hv]
      have hleft : start.left ≤ k * k := by
        have hless : (Finset.univ.filter fun v => start.visited v = false) ⊆
            Finset.univ.erase r := by
          intro v hv
          rw [Finset.mem_erase]
          refine ⟨?_, Finset.mem_univ v⟩
          rintro rfl
          simp [start] at hv
        have hcard := Finset.card_le_card hless
        have herase := Finset.card_erase_add_one (Finset.mem_univ r)
        rw [Finset.card_univ, Fintype.card_fin] at herase
        change [r].length + _ ≤ k * k
        rw [List.length_singleton]
        omega
      obtain ⟨b, hb, hsearched, hqueue⟩ := hstart.loop (represents_adjMat on) hleft
      have hmem := hsearched.mem_iff hqueue (fun v i => h.closed) hvisited
      refine ⟨_, Option.bind_eq_some_iff.mpr ⟨b, hb, rfl⟩, ?_, ?_, ?_⟩
      · intro component hcomponent
        rcases List.mem_append.mp hcomponent with hcomponent | hcomponent
        · exact h.isComponent component hcomponent
        · rw [List.mem_singleton] at hcomponent
          refine ⟨r, Bool.eq_true_of_not_eq_false hoff, fun v => ?_⟩
          rw [hcomponent, List.mem_insertionSort, hmem]
      · intro v
        have hv := hsearched.visited_iff v
        simp only [hqueue, List.not_mem_nil, or_false, h.visited_iff] at hv
        simp only [hv, List.mem_append, List.mem_singleton, or_and_right, exists_or,
          exists_eq_left, List.mem_insertionSort]
      · intro r' hr' hon
        rw [List.mem_append, List.mem_singleton] at hr'
        apply (hsearched.visited_iff r').mpr
        rcases hr' with hr' | rfl
        · exact .inl (h.covers r' hr' hon)
        · exact .inr (.inl ((hmem r').mpr (.refl r')))

end Components

/-- The search finds the components of the routers that are on, and all of them. -/
theorem strongCnctdComps_spec (on : Node k → Bool) :
    ∃ comps, strongCnctdComps on = some comps ∧
      (∀ component ∈ comps, IsComponent on component) ∧
      ∀ v, on v = true → ∃ component ∈ comps, v ∈ component := by
  have hstart : Components.Measured on [] ⟨fun _ => false, []⟩ := ⟨nofun, by simp, nofun⟩
  obtain ⟨s, hs, hmeasured⟩ := Worklist.exists_foldlM (motive := Components.Measured on)
    hstart fun done r _ _ t ht => ht.measure r
  refine ⟨s.strongCnctdComps, congrArg (Option.map _) hs, hmeasured.isComponent, ?_⟩
  intro v hv
  exact (hmeasured.visited_iff v).mp (hmeasured.covers v (List.mem_finRange v) hv)

end Flyover
