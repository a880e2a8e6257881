import Flyover.AnyNet.Network

/-!
# The file of a network

`readFile` reads lines such as `router 0 node 0 router 1 15`. A line names a router or a
node and what it is linked to, and a number behind a link is its latency.

Links between routers lead both ways, and the lists of nodes agree with each other, as
long as no number stands behind a node: it would be filed among the links of the routers.
-/

namespace Flyover

/-- `pair<int,int>`: the output port, which is -1 so far, and the latency -/
structure LinkEntry where
  outport : Int
  latency : Int
  deriving DecidableEq, Repr

/-- `map<int, map<int, pair<int,int> > >` -/
abbrev LinkRows := Std.TreeMap Int (Std.TreeMap Int LinkEntry)

namespace LinkRows

def row (rows : LinkRows) (a : Int) : Std.TreeMap Int LinkEntry := rows[a]?.getD ∅

def entry (rows : LinkRows) (a b : Int) : Option LinkEntry := (rows.row a)[b]?

/-- `rows[a] = map<int, pair<int,int> >()`, if there is no such row -/
def addRow (rows : LinkRows) (a : Int) : LinkRows :=
  if a ∈ rows then rows else rows.insert a ∅

/-- `rows[a][b] = e` -/
def setEntry (rows : LinkRows) (a b : Int) (e : LinkEntry) : LinkRows :=
  rows.insert a ((rows.row a).insert b e)

end LinkRows

inductive ParseState where
  | headType
  | headId
  | bodyType
  | bodyId
  | linkWeight
  deriving DecidableEq, Repr

inductive ParseType where
  | node
  | router
  | unknown
  deriving DecidableEq, Repr

/-- The variables of a line. -/
structure LineState where
  state : ParseState
  headType : ParseType
  headId : Int
  bodyType : ParseType
  bodyId : Int
  deriving DecidableEq, Repr

/-- `router_list[NODE]`, `router_list[ROUTER]` and `node_list` -/
structure AnyNetFile where
  nodeRows : LinkRows
  routerRows : LinkRows
  nodeList : Std.TreeMap Int Int

namespace AnyNetFile

/-- The type that a token names. -/
def parseType (temp : List Char) : ParseType :=
  if temp = ['r', 'o', 'u', 't', 'e', 'r'] then .router
  else if temp = ['n', 'o', 'd', 'e'] then .node
  else .unknown

def lineStart : LineState := ⟨.headType, .unknown, -1, .unknown, -1⟩

variable (atoi : List Char → Int)

/-- The variables of the line after a token. -/
def nextState (l : LineState) (temp : List Char) : LineState :=
  match l.state with
  | .headType => { l with headType := parseType temp, state := .headId }
  | .headId => { l with headId := atoi temp, state := .bodyType }
  | .bodyType => { l with bodyType := parseType temp, state := .bodyId }
  | .bodyId => { l with bodyId := atoi temp, state := .linkWeight }
  -- a token that names a type is read as the next body
  | .linkWeight =>
      if parseType temp = .unknown then l else { l with bodyType := parseType temp, state := .bodyId }

/-- Nodes are attached to one router only. -/
def attach (f : AnyNetFile) (node router : Int) : Option AnyNetFile :=
  match f.nodeList[node]? with
  | none => some {
      f with
      nodeList := f.nodeList.insert node router
      nodeRows := f.nodeRows.setEntry router node ⟨-1, 1⟩ }
  | some r =>
      if r = router then some {
        f with
        nodeList := f.nodeList.insert node router
        nodeRows := f.nodeRows.setEntry router node ⟨-1, 1⟩ }
      else none

/-- The rows of a router that is named. -/
def addRouter (f : AnyNetFile) (router : Int) : AnyNetFile :=
  { f with nodeRows := f.nodeRows.addRow router, routerRows := f.routerRows.addRow router }

/-- A link, and one back that takes a cycle unless there is one. -/
def connect (f : AnyNetFile) (head body : Int) : AnyNetFile :=
  let rows := f.routerRows.setEntry head body ⟨-1, 1⟩
  { f with
    routerRows :=
      if (rows.entry body head).isSome then rows else rows.setEntry body head ⟨-1, 1⟩ }

/-- `router_list[head_type][head_id][body_id].second=link_weight` -/
def setWeight (f : AnyNetFile) (headType : ParseType) (head body weight : Int) : AnyNetFile :=
  let changed (rows : LinkRows) : LinkRows :=
    rows.setEntry head body { (rows.entry head body).getD ⟨0, 0⟩ with latency := weight }
  match headType with
  | .node => { f with nodeRows := changed f.nodeRows }
  | _ => { f with routerRows := changed f.routerRows }

/-- What a token does to the lists. -/
def readToken (f : AnyNetFile) (l : LineState) (temp : List Char) : Option AnyNetFile :=
  match l.state with
  | .headType | .bodyType => if parseType temp = .unknown then none else some f
  | .headId => some (f.addRouter (atoi temp))
  | .linkWeight =>
      if parseType temp = .unknown then some (f.setWeight l.headType l.headId l.bodyId (atoi temp))
      else some f
  | .bodyId =>
      let bodyId := atoi temp
      let f := if l.bodyType = .router then f.addRouter bodyId else f
      match l.headType, l.bodyType with
      | .node, .node => none
      | .node, .router => f.attach l.headId bodyId
      | .router, .node => f.attach bodyId l.headId
      | .router, .router => some (f.connect l.headId bodyId)
      | _, _ => some f

/-- The tokens of a line, one after the other. -/
def readTokens (f : AnyNetFile) (l : LineState) : List (List Char) → Option AnyNetFile
  | [] => some f
  | temp :: rest =>
      match f.readToken atoi l temp with
      | none => none
      | some f => readTokens f (nextState atoi l temp) rest

/-- What stands between blanks. -/
def tokens (line : List Char) : List (List Char) := (line.splitOn ' ').filter (· ≠ [])

def empty : AnyNetFile := ⟨∅, ∅, ∅⟩

def readLines (f : AnyNetFile) : List (List Char) → Option AnyNetFile
  | [] => some f
  | line :: rest =>
      match f.readTokens atoi lineStart (tokens line) with
      | none => none
      | some f => readLines f rest

/-- "traffic generator assumes node list is sequential and starts at 0" -/
def Sequential (f : AnyNetFile) : Prop :=
  ∀ i (h : i < f.nodeList.keys.length), f.nodeList.keys[i] = i

instance (f : AnyNetFile) : Decidable f.Sequential :=
  inferInstanceAs (Decidable (∀ i (h : i < f.nodeList.keys.length), f.nodeList.keys[i] = i))

/-- `readFile` -/
def readFile (lines : List (List Char)) : Option AnyNetFile :=
  match readLines atoi empty lines with
  | none => none
  | some f =>
      if f.nodeRows.size = f.routerRows.size then if f.Sequential then some f else none else none

end AnyNetFile

/-! ### Rows -/

namespace LinkRows

variable {rows : LinkRows} {a b a' b' : Int} {e : LinkEntry}

theorem mem_of_entry (h : (rows.entry a b).isSome) : a ∈ rows := by
  by_contra hnot
  have hmissing : rows[a]? = none := Std.TreeMap.getElem?_eq_none hnot
  rw [entry, row, hmissing, Option.getD_none] at h
  simp at h

@[simp] theorem mem_setEntry : a' ∈ rows.setEntry a b e ↔ a' = a ∨ a' ∈ rows := by
  rw [setEntry, Std.TreeMap.mem_insert, Std.LawfulEqCmp.compare_eq_iff_eq, eq_comm]

@[simp] theorem mem_addRow : a' ∈ rows.addRow a ↔ a' = a ∨ a' ∈ rows := by
  unfold addRow
  split
  next h =>
    constructor
    · exact .inr
    · rintro (rfl | hmem)
      · exact h
      · exact hmem
  next => rw [Std.TreeMap.mem_insert, Std.LawfulEqCmp.compare_eq_iff_eq, eq_comm]

theorem entry_setEntry : (rows.setEntry a b e).entry a' b' =
    if a' = a ∧ b' = b then some e else rows.entry a' b' := by
  unfold entry row setEntry
  rw [Std.TreeMap.getElem?_insert]
  by_cases ha : a' = a
  · subst ha
    rw [if_pos (Std.LawfulEqCmp.compare_eq_iff_eq.mpr rfl), Option.getD_some,
      Std.TreeMap.getElem?_insert]
    by_cases hb : b' = b
    · subst hb
      simp
    · have hne : ¬ compare b b' = .eq := fun h => hb (Std.LawfulEqCmp.compare_eq_iff_eq.mp h).symm
      rw [if_neg hne, if_neg fun h => hb h.2]
      rfl
  · have hne : ¬ compare a a' = .eq := fun h => ha (Std.LawfulEqCmp.compare_eq_iff_eq.mp h).symm
    rw [if_neg hne, if_neg fun h => ha h.1]

@[simp] theorem entry_addRow : (rows.addRow a).entry a' b' = rows.entry a' b' := by
  unfold addRow
  split
  next => rfl
  next h =>
    unfold entry row
    rw [Std.TreeMap.getElem?_insert]
    split
    next heq =>
      rw [← Std.LawfulEqCmp.compare_eq_iff_eq.mp heq, Std.TreeMap.getElem?_eq_none h]
      simp
    next => rfl

end LinkRows

/-! ### What is accepted -/

namespace AnyNetFile

/-- The lists agree with each other, and links lead both ways. -/
structure WellFormed (f : AnyNetFile) : Prop where
  rows : ∀ r, r ∈ f.nodeRows ↔ r ∈ f.routerRows
  attached : ∀ r n, (f.nodeRows.entry r n).isSome ↔ f.nodeList[n]? = some r
  linked : ∀ r s, (f.routerRows.entry r s).isSome → (f.routerRows.entry s r).isSome

variable {f f' : AnyNetFile} {l : LineState} {temp : List Char} (atoi : List Char → Int)

/-- A number only stands behind a router that a router is linked to. -/
def WeightsLinks (l : LineState) : List (List Char) → Prop
  | [] => True
  | temp :: rest =>
      (l.state = .linkWeight → parseType temp = .unknown →
        l.headType = .router ∧ l.bodyType = .router) ∧
      WeightsLinks (nextState atoi l temp) rest

instance (l : LineState) (temps : List (List Char)) : Decidable (WeightsLinks atoi l temps) :=
  match temps with
  | [] => isTrue trivial
  | temp :: rest =>
      have := instDecidableWeightsLinks (nextState atoi l temp) rest
      inferInstanceAs (Decidable (_ ∧ _))

/-- The lists in the middle of a line. -/
structure Consistent (f : AnyNetFile) (l : LineState) : Prop extends f.WellFormed where
  head : l.state ≠ .headType → l.state ≠ .headId → l.headId ∈ f.routerRows
  link : l.state = .linkWeight → l.headType = .router → l.bodyType = .router →
    (f.routerRows.entry l.headId l.bodyId).isSome

theorem WellFormed.addRouter (h : f.WellFormed) (r : Int) : (f.addRouter r).WellFormed where
  rows r' := by simp [AnyNetFile.addRouter, h.rows]
  attached r' n := by simpa [AnyNetFile.addRouter] using h.attached r' n
  linked r' s := by simpa [AnyNetFile.addRouter] using h.linked r' s

theorem WellFormed.connect (h : f.WellFormed) {head body : Int} (hhead : head ∈ f.routerRows)
    (hbody : body ∈ f.routerRows) : (f.connect head body).WellFormed := by
  have hrows : ∀ {rows : LinkRows} {e : LinkEntry} {a b r : Int}, a ∈ rows →
      (r ∈ rows.setEntry a b e ↔ r ∈ rows) := by
    intro rows e a b r ha
    rw [LinkRows.mem_setEntry]
    exact ⟨fun h => h.elim (fun heq => heq ▸ ha) id, .inr⟩
  refine ⟨fun r => ?_, h.attached, fun r s => ?_⟩
  · unfold AnyNetFile.connect
    dsimp only
    split
    · rw [hrows hhead, h.rows]
    · rw [hrows ((hrows hhead).mpr hbody), hrows hhead, h.rows]
  · unfold AnyNetFile.connect
    dsimp only
    have hlinked := h.linked r s
    split
    next hback =>
      rw [LinkRows.entry_setEntry] at hback
      rw [LinkRows.entry_setEntry, LinkRows.entry_setEntry]
      grind
    next => 
      simp only [LinkRows.entry_setEntry]
      grind

theorem WellFormed.attach (h : f.WellFormed) {node router : Int} (hrouter : router ∈ f.routerRows)
    (hf : f.attach node router = some f') : f'.WellFormed ∧ f'.routerRows = f.routerRows := by
  obtain ⟨hfree, rfl⟩ : (∀ r, f.nodeList[node]? = some r → r = router) ∧ f' =
      { f with
        nodeList := f.nodeList.insert node router
        nodeRows := f.nodeRows.setEntry router node ⟨-1, 1⟩ } := by
    rw [AnyNetFile.attach] at hf
    split at hf
    next hnone => exact ⟨by simp [hnone], (Option.some.inj hf).symm⟩
    next r hr =>
      split at hf
      next heq => exact ⟨by simp [hr, heq], (Option.some.inj hf).symm⟩
      next => cases hf
  refine ⟨⟨fun r => ?_, fun r n => ?_, h.linked⟩, rfl⟩
  · rw [LinkRows.mem_setEntry, h.rows]
    exact ⟨fun hr => hr.elim (fun heq => heq ▸ hrouter) id, .inr⟩
  · have hattached := h.attached r n
    rw [LinkRows.entry_setEntry, Std.TreeMap.getElem?_insert]
    by_cases hn : n = node
    · subst hn
      rw [if_pos (Std.LawfulEqCmp.compare_eq_iff_eq.mpr rfl)]
      by_cases hr : r = router
      · simp [hr]
      · rw [if_neg fun h => hr h.1, hattached]
        exact ⟨fun h => absurd (hfree r h) hr, fun h => absurd (Option.some.inj h).symm hr⟩
    · have hne : ¬ compare node n = .eq := fun h => hn (Std.LawfulEqCmp.compare_eq_iff_eq.mp h).symm
      rw [if_neg hne, if_neg fun h => hn h.2, hattached]

theorem WellFormed.setWeight (h : f.WellFormed) {head body weight : Int}
    (hlink : (f.routerRows.entry head body).isSome) :
    (f.setWeight .router head body weight).WellFormed := by
  have hhead := LinkRows.mem_of_entry hlink
  have hentry : ∀ r s, ((f.setWeight .router head body weight).routerRows.entry r s).isSome =
      (f.routerRows.entry r s).isSome := by
    intro r s
    unfold AnyNetFile.setWeight
    dsimp only
    rw [LinkRows.entry_setEntry]
    split
    next heq => rw [heq.1, heq.2, hlink]; rfl
    next => rfl
  refine ⟨fun r => ?_, h.attached, fun r s => ?_⟩
  · unfold AnyNetFile.setWeight
    dsimp only
    rw [LinkRows.mem_setEntry, h.rows]
    exact ⟨.inr, fun hr => hr.elim (fun heq => heq ▸ hhead) id⟩
  · rw [hentry, hentry]
    exact h.linked r s

theorem isSome_entry_connect (f : AnyNetFile) (head body : Int) :
    ((f.connect head body).routerRows.entry head body).isSome := by
  unfold AnyNetFile.connect
  dsimp only
  split
  · simp [LinkRows.entry_setEntry]
  · rw [LinkRows.entry_setEntry]
    split
    · rfl
    · simp [LinkRows.entry_setEntry]

theorem mem_connect {head body r : Int} (h : r ∈ f.routerRows) :
    r ∈ (f.connect head body).routerRows := by
  unfold AnyNetFile.connect
  dsimp only
  split <;> simp [h]

/-- The body of a line, once its number is read. -/
theorem Consistent.body (h : Consistent f l) (hstate : l.state = .bodyId)
    (hread : f.readToken atoi l temp = some f') : Consistent f' (nextState atoi l temp) := by
  have hhead : l.headId ∈ f.routerRows := h.head (by simp [hstate]) (by simp [hstate])
  rw [readToken, hstate] at hread
  rw [nextState, hstate]
  dsimp only at hread ⊢
  cases hbody : l.bodyType with
  | router =>
      have hadded := h.toWellFormed.addRouter (atoi temp)
      have hhead' : l.headId ∈ (f.addRouter (atoi temp)).routerRows := by simp [addRouter, hhead]
      have hbody' : atoi temp ∈ (f.addRouter (atoi temp)).routerRows := by simp [addRouter]
      rw [if_pos hbody, hbody] at hread
      cases htype : l.headType with
      | router =>
          rw [htype] at hread
          obtain rfl := Option.some.inj hread
          exact ⟨hadded.connect hhead' hbody', fun _ _ => mem_connect hhead',
            fun _ _ _ => isSome_entry_connect _ _ _⟩
      | node =>
          rw [htype] at hread
          obtain ⟨hattached, hrows⟩ := hadded.attach hbody' hread
          exact ⟨hattached, fun _ _ => hrows ▸ hhead', fun _ hrouter => by cases hrouter⟩
      | unknown =>
          rw [htype] at hread
          obtain rfl := Option.some.inj hread
          exact ⟨hadded, fun _ _ => hhead', fun _ hrouter => by cases hrouter⟩
  | node =>
      rw [if_neg (by simp [hbody]), hbody] at hread
      cases htype : l.headType with
      | router =>
          rw [htype] at hread
          obtain ⟨hattached, hrows⟩ := h.toWellFormed.attach hhead hread
          exact ⟨hattached, fun _ _ => hrows ▸ hhead, fun _ _ hrouter => by cases hrouter⟩
      | node =>
          rw [htype] at hread
          cases hread
      | unknown =>
          rw [htype] at hread
          obtain rfl := Option.some.inj hread
          exact ⟨h.toWellFormed, fun _ _ => hhead, fun _ _ hrouter => by cases hrouter⟩
  | unknown =>
      rw [if_neg (by simp [hbody]), hbody] at hread
      have hsame : f' = f := by
        cases htype : l.headType <;> simp [htype] at hread <;> exact hread.symm
      subst hsame
      exact ⟨h.toWellFormed, fun _ _ => hhead, fun _ _ hrouter => by cases hrouter⟩

theorem Consistent.token (h : Consistent f l)
    (hweight : l.state = .linkWeight → parseType temp = .unknown →
      l.headType = .router ∧ l.bodyType = .router)
    (hread : f.readToken atoi l temp = some f') : Consistent f' (nextState atoi l temp) := by
  cases hstate : l.state with
  | headType =>
      rw [readToken, hstate] at hread
      rw [nextState, hstate]
      dsimp only at hread ⊢
      split at hread
      next => cases hread
      next =>
        obtain rfl := Option.some.inj hread
        exact ⟨h.toWellFormed, fun _ hne => absurd rfl hne, fun hne => by cases hne⟩
  | headId =>
      rw [readToken, hstate] at hread
      rw [nextState, hstate]
      dsimp only at hread ⊢
      obtain rfl := Option.some.inj hread
      exact ⟨h.toWellFormed.addRouter _, fun _ _ => by simp [addRouter], fun hne => by cases hne⟩
  | bodyType =>
      rw [readToken, hstate] at hread
      rw [nextState, hstate]
      dsimp only at hread ⊢
      split at hread
      next => cases hread
      next =>
        obtain rfl := Option.some.inj hread
        exact ⟨h.toWellFormed, fun _ _ => h.head (by simp [hstate]) (by simp [hstate]),
          fun hne => by cases hne⟩
  | bodyId => exact h.body atoi hstate hread
  | linkWeight =>
      have hhead : l.headId ∈ f.routerRows := h.head (by simp [hstate]) (by simp [hstate])
      rw [readToken, hstate] at hread
      rw [nextState, hstate]
      dsimp only at hread ⊢
      by_cases hnumber : parseType temp = .unknown
      · obtain ⟨htype, hbody⟩ := hweight hstate hnumber
        have hlink := h.link hstate htype hbody
        rw [if_pos hnumber] at hread ⊢
        obtain rfl := Option.some.inj hread
        rw [htype]
        refine ⟨h.toWellFormed.setWeight hlink, fun _ _ => ?_, fun _ _ _ => ?_⟩
        · simp [setWeight, hhead]
        · simp [setWeight, LinkRows.entry_setEntry]
      · rw [if_neg hnumber] at hread ⊢
        obtain rfl := Option.some.inj hread
        exact ⟨h.toWellFormed, fun _ _ => hhead, fun hne => by cases hne⟩

theorem Consistent.tokens (h : Consistent f l) {rest : List (List Char)}
    (hweights : WeightsLinks atoi l rest) (hread : f.readTokens atoi l rest = some f') :
    f'.WellFormed := by
  induction rest generalizing f l with
  | nil =>
      obtain rfl := Option.some.inj hread
      exact h.toWellFormed
  | cons temp rest ih =>
      rw [readTokens] at hread
      split at hread
      next => cases hread
      next f₁ hfirst => exact ih (h.token atoi hweights.1 hfirst) hweights.2 hread

theorem WellFormed.lines (h : f.WellFormed) {lines : List (List Char)}
    (hweights : ∀ line ∈ lines, WeightsLinks atoi lineStart (AnyNetFile.tokens line))
    (hread : f.readLines atoi lines = some f') : f'.WellFormed := by
  induction lines generalizing f with
  | nil =>
      obtain rfl := Option.some.inj hread
      exact h
  | cons line lines ih =>
      rw [readLines] at hread
      split at hread
      next => cases hread
      next f₁ hfirst =>
        have hstart : Consistent f lineStart := ⟨h, fun hne _ => absurd rfl hne, fun hne => by cases hne⟩
        exact ih (hstart.tokens atoi (hweights line List.mem_cons_self) hfirst)
          (fun line hline => hweights line (List.mem_cons_of_mem _ hline)) hread

theorem wellFormed_empty : empty.WellFormed where
  rows r := Iff.rfl
  attached r n := by simp [empty, LinkRows.entry, LinkRows.row]
  linked r s := by simp [empty, LinkRows.entry, LinkRows.row]

/-- The nodes are numbered from 0. -/
theorem Sequential.mem_iff (h : f.Sequential) {n : Int} :
    n ∈ f.nodeList ↔ 0 ≤ n ∧ n < f.nodeList.size := by
  rw [← Std.TreeMap.mem_keys, ← Std.TreeMap.length_keys]
  constructor
  · intro hn
    obtain ⟨i, hi, rfl⟩ := List.getElem_of_mem hn
    rw [h i hi]
    omega
  · rintro ⟨hnonneg, hlt⟩
    obtain ⟨i, rfl⟩ := Int.eq_ofNat_of_zero_le hnonneg
    have hi : i < f.nodeList.keys.length := by exact_mod_cast hlt
    exact h i hi ▸ List.getElem_mem hi

/-- The network of the lists, with its routers numbered from 0. -/
structure Describes {size nodes : Nat} (f : AnyNetFile) (net : AnyNet size nodes) : Prop where
  size_nodeList : f.nodeList.size = nodes
  router : ∀ n : Fin nodes, f.nodeList[(n : Int)]? = some (net.router n : Int)
  latency : ∀ r s : Fin size, net.latency r s = (f.routerRows.entry r s).map LinkEntry.latency

/-- In a file that is accepted, with numbers behind links between routers only, the nodes
are numbered from 0, each is filed at one router and under the router that it is attached
to, and whatever network the lists describe can be left again by every link's way back. -/
theorem readFile_wellFormed {lines : List (List Char)} (hread : readFile atoi lines = some f)
    (hweights : ∀ line ∈ lines, WeightsLinks atoi lineStart (AnyNetFile.tokens line)) :
    f.WellFormed ∧ (∀ n, n ∈ f.nodeList ↔ 0 ≤ n ∧ n < f.nodeList.size) ∧
      ∀ (size nodes : Nat) (net : AnyNet size nodes), f.Describes net →
        ∀ r s, (net.latency r s).isSome → (net.latency s r).isSome := by
  rw [readFile] at hread
  split at hread
  next => cases hread
  next f₁ hlines =>
    split at hread
    next =>
      split at hread
      next hsequential =>
        obtain rfl := Option.some.inj hread
        have hformed := wellFormed_empty.lines atoi hweights hlines
        refine ⟨hformed, fun n => hsequential.mem_iff, fun size nodes net hnet r s hlink => ?_⟩
        rw [hnet.latency, Option.isSome_map] at hlink ⊢
        exact hformed.linked r s hlink
      next => cases hread
    next => cases hread

/-- `atoi` of digits -/
def digits (temp : List Char) : Int :=
  temp.foldl (fun n c => 10 * n + (c.toNat - '0'.toNat)) 0

/-- Two routers with a node each. -/
def twoRouters : List (List Char) :=
  ["router 0 node 0 router 1 15".toList, "router 1 node 1".toList]

theorem readFile_wellFormed_twoRouters : ∃ f, readFile digits twoRouters = some f ∧
    (f.WellFormed ∧ (∀ n, n ∈ f.nodeList ↔ 0 ≤ n ∧ n < f.nodeList.size) ∧
      ∀ (size nodes : Nat) (net : AnyNet size nodes), f.Describes net →
        ∀ r s, (net.latency r s).isSome → (net.latency s r).isSome) := by
  have hsome : (readFile digits twoRouters).isSome := by decide
  obtain ⟨f, hf⟩ := Option.isSome_iff_exists.mp hsome
  refine ⟨f, hf, readFile_wellFormed digits hf fun line hline => ?_⟩
  simp only [twoRouters, List.mem_cons, List.not_mem_nil, or_false] at hline
  rcases hline with rfl | rfl
  · decide
  · decide

/-- With a number behind a node the router is linked to one that is not there. -/
example : (readFile digits ["router 0 node 0 node 1 5".toList]).map
    (fun f => ((f.routerRows.entry 0 1).isSome, decide (1 ∈ f.routerRows))) = some (true, false) := by
  decide

end AnyNetFile

end Flyover
