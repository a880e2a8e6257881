import Flyover.AnyNet.Network
import Flyover.Progress.Walks
import Flyover.Search.WeightedPath

/-!
# Shortest routes from tables

Every router looks for the shortest ways from itself, and keeps only the first links of
them. A packet goes on by the table of the router that it is at, and still the links that
it goes over make up a shortest way from where it was injected.
-/

namespace Flyover.AnyNet

open Search

variable {size nodes : Nat} {net : AnyNet size nodes} {r c u v : Fin size}

/-- The latencies as weights. -/
def weight (net : AnyNet size nodes) (r s : Fin size) : Option ℕ := (net.latency r s).map Int.toNat

/-- A network whose tables can be built: what `readFile` sees to, the check of the
latencies, and that the latencies along a way can be added up. -/
structure Sensible (net : AnyNet size nodes) : Prop where
  positive : net.Positive
  symmetric : ∀ r s, (net.latency r s).isSome → (net.latency s r).isSome
  connected : ∀ r s, ∃ n, Way net.weight r s n
  fits : ∃ bound, 0 ≤ bound ∧ (∀ r s w, net.latency r s = some w → w ≤ bound) ∧
    size * bound < maxInt

/-! ### Labels -/

/-- The distance as a label. -/
def label (dist : Int) : ℕ∞ := if dist = maxInt then ⊤ else (dist.toNat : ℕ∞)

section Label

variable {a b : Int}

theorem label_natCast {n : ℕ} (hn : (n : Int) < maxInt) : label n = n := by
  simp [label, hn.ne]

theorem label_of_lt (ha : a < maxInt) : label a = (a.toNat : ℕ∞) := if_neg ha.ne

theorem label_ne_top : label a ≠ ⊤ ↔ a ≠ maxInt := by
  unfold label
  split
  next h => simp [h]
  next h => simp [h]

theorem label_le (hb : b ≤ maxInt) (h : a ≤ b) : label a ≤ label b := by
  rcases hb.eq_or_lt with rfl | hb
  · simp [label]
  · rw [label_of_lt hb, label_of_lt (h.trans_lt hb)]
    exact_mod_cast Int.toNat_le_toNat h

theorem label_lt (ha : 0 ≤ a) (hb : b ≤ maxInt) (h : a < b) : label a < label b := by
  have ha' : a < maxInt := h.trans_le hb
  rcases hb.eq_or_lt with rfl | hb
  · rw [label_of_lt ha', label, if_pos rfl]
    exact ENat.natCast_lt_top _
  · rw [label_of_lt hb, label_of_lt ha']
    exact_mod_cast (Int.toNat_lt_toNat (ha.trans_lt h)).mpr h

theorem label_add {w : Int} (ha : 0 ≤ a) (hw : 0 ≤ w) (h : a + w < maxInt) :
    label (a + w) = label a + (w.toNat : ℕ∞) := by
  rw [label_of_lt h, label_of_lt (by omega), Int.toNat_add ha hw, Nat.cast_add]

end Label

/-! ### One round -/

theorem findMin_spec (dist : Fin size → Int) (l : List (Fin size)) (best : Int × Option (Fin size)) :
    (∀ i ∈ l, (l.foldl (findMin dist) best).1 ≤ dist i) ∧
      (l.foldl (findMin dist) best).1 ≤ best.1 ∧
      (l.foldl (findMin dist) best = best ∨
        ∃ c ∈ l, l.foldl (findMin dist) best = (dist c, some c) ∧ dist c < best.1) := by
  induction l generalizing best with
  | nil => simp
  | cons i l ih =>
      obtain ⟨hall, hle, hfound⟩ := ih (findMin dist best i)
      rw [List.foldl_cons]
      have hfirst : (findMin dist best i).1 ≤ dist i ∧ (findMin dist best i).1 ≤ best.1 := by
        unfold findMin
        split
        next h => exact ⟨le_rfl, h.le⟩
        next h => exact ⟨not_lt.mp h, le_rfl⟩
      refine ⟨?_, hle.trans hfirst.2, ?_⟩
      · intro j hj
        rcases List.mem_cons.mp hj with rfl | hj
        · exact hle.trans hfirst.1
        · exact hall j hj
      · rcases hfound with hsame | ⟨c, hc, heq, hless⟩
        · rw [hsame]
          unfold findMin
          split
          next h => exact .inr ⟨i, List.mem_cons_self, rfl, h⟩
          next => exact .inl rfl
        · exact .inr ⟨c, List.mem_cons_of_mem i hc, heq, hless.trans_le hfirst.2⟩

/-- The candidate has been reached and is nearest, if any has been reached. -/
theorem exists_candidate {dist : Fin size → Int} {l : List (Fin size)} (hl : v ∈ l)
    (hv : dist v < maxInt) : ∃ c ∈ l, (l.foldl (findMin dist) (maxInt, none)).2 = some c ∧
      dist c < maxInt ∧ ∀ i ∈ l, dist c ≤ dist i := by
  obtain ⟨hall, -, hsame | ⟨c, hc, heq, hless⟩⟩ := findMin_spec dist l (maxInt, none)
  · have hle := hall v hl
    rw [hsame] at hle
    exact absurd hv (not_lt.mpr hle)
  · rw [heq] at hall
    exact ⟨c, hc, by rw [heq], hless, hall⟩

/-- The distance by way of `c`. -/
def newDist (net : AnyNet size nodes) (c : Fin size) (s : RouteState size) (v : Fin size) : Int :=
  toInt32 (s.dist c + (net.latency c v).getD 0)

/-- The arrays after some routers have been looked at. -/
def relaxed (net : AnyNet size nodes) (c : Fin size) (s : RouteState size) (l : List (Fin size)) :
    RouteState size :=
  { s with
    dist := fun v => if v ∈ l ∧ net.newDist c s v < s.dist v then net.newDist c s v else s.dist v
    prev := fun v => if v ∈ l ∧ net.newDist c s v < s.dist v then some c else s.prev v }

theorem relax_eq (s : RouteState size) (i : Fin size) : net.relax c s i = net.relaxed c s [i] := by
  by_cases hless : net.newDist c s i < s.dist i
  · refine (if_pos hless).trans ?_
    unfold relaxed
    congr 1
    · funext v
      by_cases hv : v = i
      · subst hv
        rw [Function.update_self, if_pos ⟨List.mem_singleton_self _, hless⟩, newDist]
      · simp [hv]
    · funext v
      by_cases hv : v = i
      · subst hv
        simp [hless]
      · simp [hv]
  · refine (if_neg hless).trans ?_
    have hnot : ∀ v, ¬ (v ∈ [i] ∧ net.newDist c s v < s.dist v) := by
      rintro v ⟨hv, hless'⟩
      rw [List.mem_singleton.mp hv] at hless'
      exact hless hless'
    simp only [relaxed, if_neg (hnot _)]

theorem foldl_relax {s : RouteState size} (hself : ¬ net.newDist c s c < s.dist c)
    {l : List (Fin size)} (hl : l.Nodup) : l.foldl (net.relax c) s = net.relaxed c s l := by
  induction l generalizing s with
  | nil => simp [relaxed]
  | cons i l ih =>
      obtain ⟨hi, hl⟩ := List.nodup_cons.mp hl
      -- the distance of `c` itself stays, and with it what is compared
      have hdist : (net.relaxed c s [i]).dist c = s.dist c := if_neg fun h => hself h.2
      have hnew : ∀ v, net.newDist c (net.relaxed c s [i]) v = net.newDist c s v := by
        intro v
        rw [newDist, hdist, newDist]
      rw [List.foldl_cons, relax_eq, ih (by rwa [hnew, hdist]) hl]
      unfold relaxed at hnew ⊢
      simp only [hnew]
      congr 1
      · funext v
        by_cases hv : v = i
        · simp [hv, hi]
        · simp [hv]
      · funext v
        by_cases hv : v = i
        · simp [hv, hi]
        · simp [hv]

/-! ### The search -/

/-- What the arrays mean before a round; `bound` is the greatest latency. -/
structure Searching (net : AnyNet size nodes) (bound : Int) (r : Fin size) (s : RouteState size) :
    Prop where
  weighed : Weighed net.weight r (fun v => decide (v ∉ s.rlist)) s.prev (fun v => label (s.dist v))
  range : ∀ v, s.dist v = maxInt ∨ 0 ≤ s.dist v ∧ s.dist v ≤ bound * (size - s.rlist.length)
  nodup : s.rlist.Nodup

theorem searching_start (bound : Int) : Searching net bound r (start r) where
  weighed := by
    have hvisited : (fun v => decide (v ∉ (start r).rlist)) = fun _ : Fin size => false := by
      funext v
      simp [start, List.mem_finRange]
    have hlabel : (fun v => label ((start r).dist v)) = fun v => if v = r then 0 else ⊤ := by
      funext v
      by_cases hv : v = r
      · subst hv
        simp [start, label, maxInt]
      · simp [start, label, hv]
    rw [hvisited, hlabel]
    exact .initial
  range v := by
    by_cases hv : v = r
    · subst hv
      simp [start]
    · simp [start, hv]
  nodup := List.nodup_finRange size

section Round

variable {bound : Int} {s : RouteState size} (hbound : 0 ≤ bound)
  (hpositive : net.Positive) (hle : ∀ r s w, net.latency r s = some w → w ≤ bound)
  (hfits : size * bound < maxInt)

include hbound hfits

theorem Searching.lt_maxInt (h : Searching net bound r s) (hne : s.dist v ≠ maxInt) :
    0 ≤ s.dist v ∧ s.dist v < maxInt := by
  obtain ⟨hnonneg, hdist⟩ := (h.range v).resolve_left hne
  have hround : bound * (size - s.rlist.length) ≤ bound * size :=
    Int.mul_le_mul_of_nonneg_left (by omega) hbound
  rw [mul_comm bound size] at hround
  omega

theorem Searching.valid (h : Searching net bound r s) (v : Fin size) :
    0 ≤ s.dist v ∧ s.dist v ≤ maxInt := by
  by_cases hmax : s.dist v = maxInt
  · rw [hmax]
    exact ⟨by decide, le_rfl⟩
  · have hlt := h.lt_maxInt hbound hfits hmax
    exact ⟨hlt.1, hlt.2.le⟩

include hpositive hle

/-- The distances that are added up fit. -/
theorem Searching.newDist_eq (h : Searching net bound r s) (hc : c ∈ s.rlist)
    (hreached : s.dist c < maxInt) {w : Int} (hw : net.latency c v = some w) :
    net.newDist c s v = s.dist c + w ∧ 0 < w ∧
      s.dist c + w ≤ bound * (size - (s.rlist.erase c).length) ∧ s.dist c + w < maxInt := by
  obtain ⟨hnonneg, hdist⟩ := (h.range c).resolve_left hreached.ne
  have hpos := hpositive c v w hw
  have hwle := hle c v w hw
  have hlength : (s.rlist.erase c).length + 1 = s.rlist.length := by
    rw [List.length_erase_of_mem hc]
    exact Nat.sub_add_cancel (List.length_pos_of_mem hc)
  have hsum : s.dist c + w ≤ bound * (size - (s.rlist.erase c).length) := by
    have hround : (size - (s.rlist.erase c).length : Int) = size - s.rlist.length + 1 := by omega
    rw [hround, mul_add, mul_one]
    exact add_le_add hdist hwle
  have hround : bound * (size - (s.rlist.erase c).length) ≤ bound * size :=
    Int.mul_le_mul_of_nonneg_left (by omega) hbound
  rw [mul_comm bound size] at hround
  have hlt : s.dist c + w < maxInt := by omega
  refine ⟨?_, hpos, hsum, hlt⟩
  have hmax : maxInt + 1 = 2 ^ 31 := by decide
  rw [newDist, hw, Option.getD_some]
  exact Int.bmod_eq_of_le (by omega) (by omega)

/-- What a round leaves at a router. -/
theorem Searching.relaxed_cases (h : Searching net bound r s) (hc : c ∈ s.rlist)
    (hreached : s.dist c < maxInt) (v : Fin size) :
    (∃ w, net.latency c v = some w ∧ 0 < w ∧ s.dist c + w < s.dist v ∧
      s.dist c + w < maxInt ∧ s.dist c + w ≤ bound * (size - (s.rlist.erase c).length) ∧
      (net.relaxed c s (net.linksOf c)).dist v = s.dist c + w ∧
      (net.relaxed c s (net.linksOf c)).prev v = some c) ∨
    (∀ w, net.latency c v = some w → 0 < w ∧ s.dist v ≤ s.dist c + w ∧ s.dist c + w < maxInt) ∧
      (net.relaxed c s (net.linksOf c)).dist v = s.dist v ∧
      (net.relaxed c s (net.linksOf c)).prev v = s.prev v := by
  cases hw : net.latency c v with
  | none =>
      have hnot : v ∉ net.linksOf c := by simp [linksOf, hw]
      exact .inr ⟨nofun, if_neg fun h => hnot h.1, if_neg fun h => hnot h.1⟩
  | some w =>
      obtain ⟨hnew, hpos, hsum, hlt⟩ := h.newDist_eq hbound hpositive hle hfits hc hreached hw
      have hmem : v ∈ net.linksOf c := by simp [linksOf, hw, List.mem_finRange]
      by_cases hless : s.dist c + w < s.dist v
      · have hguard : v ∈ net.linksOf c ∧ net.newDist c s v < s.dist v := ⟨hmem, by rwa [hnew]⟩
        exact .inl ⟨w, rfl, hpos, hless, hlt, hsum, (if_pos hguard).trans hnew, if_pos hguard⟩
      · have hguard : ¬ (v ∈ net.linksOf c ∧ net.newDist c s v < s.dist v) := by
          rw [hnew]
          exact fun h => hless h.2
        refine .inr ⟨?_, if_neg hguard, if_neg hguard⟩
        intro w' hw'
        obtain rfl := Option.some.inj hw'
        exact ⟨hpos, not_lt.mp hless, hlt⟩

/-- The nearest router is taken off the list. -/
theorem Searching.round (h : Searching net bound r s) (hc : c ∈ s.rlist)
    (hreached : s.dist c < maxInt) (hnear : ∀ i ∈ s.rlist, s.dist c ≤ s.dist i) :
    Searching net bound r
      ((net.linksOf c).foldl (net.relax c) { s with rlist := s.rlist.erase c }) := by
  have hvalid := h.valid hbound hfits
  have hcases := h.relaxed_cases hbound hpositive hle hfits hc hreached
  have hself : ¬ net.newDist c { s with rlist := s.rlist.erase c } c < s.dist c := by
    change ¬ net.newDist c s c < s.dist c
    cases hw : net.latency c c with
    | none =>
        have hmax : maxInt + 1 = 2 ^ 31 := by decide
        have hrange := hvalid c
        rw [newDist, hw, Option.getD_none, Int.add_zero, toInt32,
          Int.bmod_eq_of_le (by omega) (by omega)]
        exact lt_irrefl _
    | some w =>
        have hnew := h.newDist_eq hbound hpositive hle hfits hc hreached hw
        omega
  have hlinks : (net.linksOf c).Nodup := (List.nodup_finRange size).filter _
  rw [foldl_relax hself hlinks]
  change Searching net bound r
    { net.relaxed c s (net.linksOf c) with rlist := s.rlist.erase c }
  refine ⟨?_, fun v => ?_, h.nodup.erase c⟩
  · have hvisited : (fun v => decide (v ∉ s.rlist.erase c)) =
        Function.update (fun v => decide (v ∉ s.rlist)) c true := by
      funext v
      by_cases hv : v = c
      · subst hv
        rw [Function.update_self, decide_eq_true_eq]
        exact h.nodup.not_mem_erase
      · rw [Function.update_of_ne hv, decide_eq_decide, List.mem_erase_of_ne hv]
    rw [hvisited]
    refine h.weighed.visit (by simpa using hc) (fun v hv => ?_) (fun v => ?_)
    · exact label_le (hvalid v).2 (hnear v (by simpa using hv))
    · rcases hcases v with ⟨w, hw, hpos, hless, hlt, -, hdist, hprev⟩ | ⟨hnot, hdist, hprev⟩
      · refine .inl ⟨w.toNat, by rw [weight, hw]; rfl, ?_, ?_, hprev⟩
        · rw [← label_add (hvalid c).1 hpos.le hlt]
          exact label_lt (by have := (hvalid c).1; omega) (hvalid v).2 hless
        · rw [hdist, label_add (hvalid c).1 hpos.le hlt]
      · refine .inr ⟨fun w' hw' => ?_, by rw [hdist], hprev⟩
        obtain ⟨w, hw, rfl⟩ := Option.map_eq_some_iff.mp hw'
        obtain ⟨hpos, hle', hlt⟩ := hnot w hw
        rw [← label_add (hvalid c).1 hpos.le hlt]
        exact label_le hlt.le hle'
  · rcases hcases v with ⟨w, -, hpos, -, -, hsum, hdist, -⟩ | ⟨-, hdist, -⟩
    · refine .inr ?_
      dsimp only
      rw [hdist]
      exact ⟨by have := (hvalid c).1; omega, hsum⟩
    · dsimp only
      rw [hdist]
      refine (h.range v).imp_right fun hrange => ⟨hrange.1, hrange.2.trans ?_⟩
      have hlength : (s.rlist.erase c).length ≤ s.rlist.length := List.length_erase_le
      exact Int.mul_le_mul_of_nonneg_left (by omega) hbound

end Round

theorem foldl_relax_rlist (s : RouteState size) (l : List (Fin size)) :
    (l.foldl (net.relax c) s).rlist = s.rlist := by
  induction l generalizing s with
  | nil => rfl
  | cons i l ih => rw [List.foldl_cons, ih, relax_eq, relaxed]

/-- Some router on the list has been reached. -/
theorem Searching.exists_reached {bound : Int} {s : RouteState size} (h : Searching net bound r s)
    (hconnected : ∀ v, ∃ n, Way net.weight r v n) (hi : v ∈ s.rlist) :
    ∃ u ∈ s.rlist, s.dist u ≠ maxInt := by
  by_contra hnone
  have hall : ∀ u ∈ s.rlist, s.dist u = maxInt := fun u hu =>
    not_not.mp fun hne => hnone ⟨u, hu, hne⟩
  have htop : ∀ u ∈ s.rlist, label (s.dist u) = ⊤ := fun u hu => if_pos (hall u hu)
  obtain ⟨n, hway⟩ := hconnected v
  have hmin : ∀ u, decide (u ∉ s.rlist) = false → label (s.dist v) ≤ label (s.dist u) := by
    intro u hu
    rw [htop v hi, htop u (by simpa using hu)]
  rcases h.weighed.le_way hmin hway with ⟨hvisited, -⟩ | hle
  · exact of_decide_eq_true hvisited hi
  · rw [htop v hi, top_le_iff] at hle
    exact ENat.natCast_ne_top n hle

/-- The search comes to an end. -/
theorem Sensible.search_ends (hnet : Sensible net) {bound : Int} (hbound : 0 ≤ bound)
    (hle : ∀ r s w, net.latency r s = some w → w ≤ bound) (hfits : size * bound < maxInt)
    {rounds : Nat} {s : RouteState size} (h : Searching net bound r s)
    (hrounds : s.rlist.length = rounds) :
    ∃ s', net.search rounds s = some s' ∧ Searching net bound r s' ∧ s'.rlist = [] := by
  induction rounds generalizing s with
  | zero => exact ⟨s, rfl, h, List.length_eq_zero_iff.mp hrounds⟩
  | succ rounds ih =>
      obtain ⟨v, hv⟩ := List.exists_mem_of_length_pos (hrounds.trans_gt (Nat.succ_pos rounds))
      obtain ⟨u, hu, hreached⟩ := h.exists_reached (hnet.connected r) hv
      obtain ⟨c, hc, hcand, hfinite, hnear⟩ :=
        exists_candidate hu (h.lt_maxInt hbound hfits hreached).2
      have hround := h.round hbound hnet.positive hle hfits hc hfinite hnear
      have hlength : (s.rlist.erase c).length = rounds := by
        rw [List.length_erase_of_mem hc, hrounds, Nat.add_sub_cancel]
      rw [search, hcand]
      exact ih hround (by rw [foldl_relax_rlist, hlength])

/-! ### The tables -/

theorem follow_eq {prev : Fin size → Option (Fin size)} {s : Fin size} {i fuel : Nat}
    (hback : ∀ x u, prev x = some u → (net.latency x u).isSome)
    (h : Weighed.Leaves prev r v s i) (hfuel : i < fuel) : net.follow prev r fuel v = some s := by
  induction h generalizing fuel with
  | here hprev =>
      obtain ⟨fuel, rfl⟩ := Nat.exists_eq_succ_of_ne_zero hfuel.ne'
      rw [follow, hprev]
      exact if_pos rfl
  | @back v u s i hprev hne _ ih =>
      obtain ⟨fuel, rfl⟩ := Nat.exists_eq_succ_of_ne_zero (Nat.ne_zero_of_lt hfuel)
      rw [follow, hprev]
      dsimp only
      rw [if_neg hne, if_pos (hback v u hprev)]
      exact ih (Nat.lt_of_succ_lt_succ hfuel)

/-- The first link of a shortest way. -/
structure Begins (net : AnyNet size nodes) (r dest s : Fin size) (w : Int) (rest : ℕ) : Prop where
  link : net.latency r s = some w
  way : Way net.weight s dest rest
  shortest : Shortest net.weight r dest (w.toNat + rest)

theorem Sensible.firstLink_eq (hnet : Sensible net) {bound : Int} {s : RouteState size}
    (h : Searching net bound r s) (hend : s.rlist = []) (i : Fin size) :
    (i = r ∧ net.firstLink s.prev r i = some none) ∨
      (i ≠ r ∧ ∃ x w rest, net.firstLink s.prev r i = some (some x) ∧ Begins net r i x w rest) := by
  have hweighed := h.weighed
  have hall : ∀ v, decide (v ∉ s.rlist) = true := by simp [hend]
  have hreached : ∀ v, label (s.dist v) ≠ ⊤ := by
    intro v htop
    obtain ⟨n, hway⟩ := hnet.connected r v
    have hle := hweighed.settled v (hall v) n hway
    rw [htop, top_le_iff] at hle
    exact ENat.natCast_ne_top n hle
  by_cases hi : i = r
  · subst hi
    refine .inl ⟨rfl, ?_⟩
    rw [firstLink, hweighed.root]
    exact if_pos rfl
  · have hback : ∀ x u, s.prev x = some u → (net.latency x u).isSome := by
      intro x u hx
      have hne : x ≠ r := by
        rintro rfl
        rw [hweighed.root] at hx
        cases hx
      obtain ⟨u', w, hu', -, hedge, -⟩ := hweighed.chain x hne (hreached x)
      obtain rfl := Option.some.inj (hx.symm.trans hu')
      obtain ⟨w, hw, -⟩ := Option.map_eq_some_iff.mp hedge
      exact hnet.symmetric u x (by rw [hw]; rfl)
    have hpos : ∀ u v w, net.weight u v = some w → 0 < w := by
      intro u v w hw
      obtain ⟨latency, hlatency, rfl⟩ := Option.map_eq_some_iff.mp hw
      have := hnet.positive u v latency hlatency
      omega
    obtain ⟨n, hn⟩ := ENat.ne_top_iff_exists.mp (hreached i)
    obtain ⟨x, steps, w, rest, hleaves, hsteps, hedge, hway, hsum⟩ :=
      hweighed.exists_leaves hpos hi hn.symm
    obtain ⟨w, hw, rfl⟩ := Option.map_eq_some_iff.mp hedge
    have hfuel : steps < size := by
      refine hsteps.trans_le ((Finset.card_le_univ _).trans ?_)
      rw [Fintype.card_fin]
    have hfollow := follow_eq hback hleaves hfuel
    refine .inr ⟨hi, x, w, rest, ?_, hw, hway, ?_⟩
    · obtain ⟨u, w', hprev, -⟩ := hweighed.chain i hi (hreached i)
      have hlink : (net.latency r x).isSome := by rw [hw]; rfl
      rw [firstLink, hprev]
      dsimp only
      rw [hfollow]
      exact if_pos hlink
    · rw [← hsum]
      exact hweighed.shortest hall hn.symm

/-- What a table says for a node. -/
inductive Entry (net : AnyNet size nodes) (r : Fin size) (n : Fin nodes) (port : Nat) : Prop where
  | here : net.router n = r → port = net.port r (.inl n) → Entry net r n port
  | onward {s : Fin size} {w : Int} {rest : ℕ} : net.router n ≠ r → port = net.port r (.inr s) →
      Begins net r (net.router n) s w rest → Entry net r n port

theorem Sensible.exists_route (hnet : Sensible net) (r : Fin size) :
    ∃ row, net.route r = some row ∧ ∀ n, Entry net r n (row n) := by
  obtain ⟨bound, hbound, hle, hfits⟩ := hnet.fits
  obtain ⟨s, hsearch, hs, hend⟩ := hnet.search_ends hbound hle hfits
    (searching_start (r := r) bound) List.length_finRange
  have hlinks := hnet.firstLink_eq hs hend
  have hsome : ∀ i, (net.firstLink s.prev r i).isSome := by
    intro i
    rcases hlinks i with ⟨-, heq⟩ | ⟨-, x, w, rest, heq, -⟩
    · rw [heq]; rfl
    · rw [heq]; rfl
  have hroute : net.route r = some fun n =>
      net.port r (outputFor ((net.firstLink s.prev r (net.router n)).get (hsome _)) n) := by
    rw [route, hsearch]
    exact dif_pos hsome
  refine ⟨_, hroute, fun n => ?_⟩
  rcases hlinks (net.router n) with ⟨hr, heq⟩ | ⟨hr, x, w, rest, heq, hbegins⟩
  · exact .here hr (by rw [Option.get_of_eq_some _ heq]; rfl)
  · exact .onward hr (by rw [Option.get_of_eq_some _ heq]; rfl) hbegins

theorem Sensible.exists_table (hnet : Sensible net) :
    ∃ table, net.buildRoutingTable = some table ∧ ∀ r n, Entry net r n (table r n) := by
  have hsome : ∀ r, (net.route r).isSome := by
    intro r
    obtain ⟨row, hrow, -⟩ := hnet.exists_route r
    rw [hrow]
    rfl
  refine ⟨_, dif_pos hsome, fun r n => ?_⟩
  obtain ⟨row, hrow, hentry⟩ := hnet.exists_route r
  rw [Option.get_of_eq_some _ hrow]
  exact hentry n

/-! ### Packets -/

/-- An output port leads to a node or over a link. -/
def Leads (net : AnyNet size nodes) (r : Fin size) (port : Nat) (output : Fin nodes ⊕ Fin size) :
    Prop :=
  (net.outputs r)[port]? = some output

/-- Where a packet is, and how long its links have taken. -/
structure Spot (size : Nat) where
  router : Fin size
  time : Nat

/-- The call for a packet that is not being injected. -/
def callFor (config : RoutingConfig) (table : Fin size → Fin nodes → Nat) (type : FlitType)
    (dest : Fin nodes) (r : Fin size) : AnyNetCall size nodes :=
  ⟨config, table, r, type, dest, false⟩

/-- One hop, over a link that the call offers. -/
def Hop (net : AnyNet size nodes) (config : RoutingConfig) (table : Fin size → Fin nodes → Nat)
    (type : FlitType) (dest : Fin nodes) (s s' : Spot size) : Prop :=
  ∃ offer ∈ (callFor config table type dest s.router).minAnynet, ∃ port w,
    offer.outputPort = Int.ofNat port ∧ net.Leads s.router port (.inr s'.router) ∧
      net.latency s.router s'.router = some w ∧ s'.time = s.time + w.toNat

section Packets

variable {config : RoutingConfig} {table : Fin size → Fin nodes → Nat} {type : FlitType}
  {dest : Fin nodes} {s s' : Spot size}

theorem leads_port {output : Fin nodes ⊕ Fin size} (h : output ∈ net.outputs r) :
    net.Leads r (net.port r output) output := by
  have hlt : net.port r output < (net.outputs r).length :=
    List.findIdx_lt_length.mpr ⟨output, h, decide_eq_true rfl⟩
  rw [Leads, List.getElem?_eq_getElem hlt]
  exact congrArg some (of_decide_eq_true (List.findIdx_getElem (w := hlt)))

theorem mem_outputs_node (n : Fin nodes) : .inl n ∈ net.outputs (net.router n) := by
  simp [outputs, nodesOf, List.mem_finRange]

theorem mem_outputs_link {w : Int} (h : net.latency r v = some w) : .inr v ∈ net.outputs r := by
  simp [outputs, linksOf, List.mem_finRange, h]

theorem minAnynet_eq (config : RoutingConfig) (table : Fin size → Fin nodes → Nat)
    (type : FlitType) (dest : Fin nodes) (r : Fin size) :
    (callFor config table type dest r).minAnynet =
      (config.vcs type).offer (Int.ofNat (table r dest)) := rfl

/-- Packets go where the table says. -/
theorem hop_iff : Hop net config table type dest s s' ↔
    net.Leads s.router (table s.router dest) (.inr s'.router) ∧
      ∃ w, net.latency s.router s'.router = some w ∧ s'.time = s.time + w.toNat := by
  constructor
  · rintro ⟨offer, hmem, port, w, hport, hleads, hw, htime⟩
    obtain rfl := List.mem_singleton.mp hmem
    obtain rfl := Int.ofNat_inj.mp hport
    exact ⟨hleads, w, hw, htime⟩
  · rintro ⟨hleads, w, hw, htime⟩
    exact ⟨_, List.mem_singleton_self _, _, w, rfl, hleads, hw, htime⟩

/-- On its way a packet has come nearer by what the links took. -/
structure OnWay (net : AnyNet size nodes) (dest : Fin nodes) (d i : ℕ) (s : Spot size) : Prop where
  rest : ∃ rest, Shortest net.weight s.router (net.router dest) rest ∧ s.time + rest = d
  hops : i ≤ s.time

theorem OnWay.hop {d i : ℕ} (h : OnWay net dest d i s) (hpositive : net.Positive)
    (hentry : ∀ r n, Entry net r n (table r n)) (hhop : Hop net config table type dest s s') :
    OnWay net dest d (i + 1) s' := by
  obtain ⟨hleads, w, hw, htime⟩ := hop_iff.mp hhop
  obtain ⟨rest, hrest, htotal⟩ := h.rest
  have hhops := h.hops
  have hpos := hpositive _ _ w hw
  cases hentry s.router dest with
  | here hr hport =>
      rw [hport, ← hr] at hleads
      have hhere : .inl dest ∈ net.outputs (net.router dest) := mem_outputs_node dest
      have hnode := leads_port hhere
      cases hnode.symm.trans hleads
  | @onward x w' rest' hr hport hbegins =>
      rw [hport] at hleads
      have hlink := leads_port (mem_outputs_link hbegins.link)
      obtain rfl : x = s'.router := by
        cases hlink.symm.trans hleads
        rfl
      obtain rfl := Option.some.inj (hw.symm.trans hbegins.link)
      have hsum : rest = w.toNat + rest' := hrest.unique hbegins.shortest
      have hedge : net.weight s.router s'.router = some w.toNat := by rw [weight, hw]; rfl
      refine ⟨⟨rest', hrest.rest hedge hbegins.way hsum, ?_⟩, ?_⟩
      · omega
      · omega

theorem shortest_zero_iff (hpositive : net.Positive) {n : ℕ} (h : Shortest net.weight u v n) :
    u = v ↔ n = 0 := by
  constructor
  · rintro rfl
    exact Nat.le_zero.mp (h.2 .here)
  · intro hn
    have hway : Way net.weight u v n := h.1
    cases hway with
    | here => rfl
    | @step x _ n w _ hedge =>
        obtain ⟨latency, hlatency, rfl⟩ := Option.map_eq_some_iff.mp hedge
        have := hpositive x v latency hlatency
        omega

/-- Packets that go by the tables go over a shortest way, whichever way it was that each
router had found: the time that is left falls by the latency of every link, there is a
link to go on over until it is zero, and then the packet is ejected at its node. -/
theorem minAnynet_shortest (hnet : net.Sensible) (config : RoutingConfig) (type : FlitType) :
    ∃ table, net.buildRoutingTable = some table ∧ ∀ (src : Fin size) (dest : Fin nodes),
      ∃ d, Shortest net.weight src (net.router dest) d ∧
        ∀ i s, Progress.Walk (Hop net config table type dest) ⟨src, 0⟩ i s →
          i ≤ s.time ∧ s.time ≤ d ∧ (s.router = net.router dest ↔ s.time = d) ∧
          (s.router = net.router dest → ∃ port, (callFor config table type dest s.router).minAnynet =
              (config.vcs type).offer (Int.ofNat port) ∧ net.Leads s.router port (.inl dest)) ∧
          (s.router ≠ net.router dest → ∃ s', Hop net config table type dest s s') := by
  obtain ⟨table, htable, hentry⟩ := hnet.exists_table
  refine ⟨table, htable, fun src dest => ?_⟩
  obtain ⟨d, hd⟩ : ∃ d, Shortest net.weight src (net.router dest) d := by
    classical
    have hsome := hnet.connected src (net.router dest)
    exact ⟨Nat.find hsome, Nat.find_spec hsome, fun n hn => Nat.find_min' hsome hn⟩
  refine ⟨d, hd, fun i s hwalk => ?_⟩
  have honWay : OnWay net dest d i s := by
    refine hwalk.invariant (P := OnWay net dest d) ⟨⟨d, hd, Nat.zero_add d⟩, Nat.zero_le _⟩ ?_
    intro i s s' h hhop
    exact h.hop hnet.positive hentry hhop
  obtain ⟨rest, hrest, htotal⟩ := honWay.rest
  refine ⟨honWay.hops, by omega, ?_, fun hr => ⟨_, minAnynet_eq .., ?_⟩, fun hr => ?_⟩
  · rw [shortest_zero_iff hnet.positive hrest]
    omega
  · cases hentry s.router dest with
    | here _ hport =>
        rw [hport, hr]
        exact leads_port (mem_outputs_node dest)
    | onward hne _ _ => exact absurd hr.symm hne
  · cases hentry s.router dest with
    | here heq _ => exact absurd heq.symm hr
    | @onward x w _ _ hport hbegins =>
        refine ⟨⟨x, s.time + w.toNat⟩, hop_iff.mpr ⟨?_, w, hbegins.link, rfl⟩⟩
        rw [hport]
        exact leads_port (mem_outputs_link hbegins.link)

end Packets

/-- Three routers with a node each. The link between the first two takes longer than the
way around. -/
def detour : AnyNet 3 3 where
  router n := n
  latency r s := if r = s then none else if r.val ≠ 2 ∧ s.val ≠ 2 then some 5 else some 1

example : detour.buildRoutingTable.map (fun table => table 0 1) = some (detour.port 0 (.inr 2)) := by
  decide

theorem detour_sensible : detour.Sensible where
  positive := by decide
  symmetric := by decide
  connected r s := by
    by_cases h : r = s
    · subst h
      exact ⟨0, .here⟩
    · have hlink : ∀ r s : Fin 3, r ≠ s → (detour.weight r s).isSome := by decide
      obtain ⟨w, hw⟩ := Option.isSome_iff_exists.mp (hlink r s h)
      exact ⟨0 + w, .step .here hw⟩
  fits := ⟨5, by decide, by decide, by decide⟩

theorem minAnynet_shortest_detour :
    ∃ table, detour.buildRoutingTable = some table ∧ ∀ (src : Fin 3) (dest : Fin 3),
      ∃ d, Shortest detour.weight src (detour.router dest) d ∧
        ∀ i s, Progress.Walk (Hop detour .twoVCs table .anyType dest) ⟨src, 0⟩ i s →
          i ≤ s.time ∧ s.time ≤ d ∧ (s.router = detour.router dest ↔ s.time = d) ∧
          (s.router = detour.router dest →
            ∃ port, (callFor .twoVCs table .anyType dest s.router).minAnynet =
              (RoutingConfig.twoVCs.vcs .anyType).offer (Int.ofNat port) ∧
                detour.Leads s.router port (.inl dest)) ∧
          (s.router ≠ detour.router dest → ∃ s', Hop detour .twoVCs table .anyType dest s s') :=
  minAnynet_shortest detour_sensible .twoVCs .anyType

end Flyover.AnyNet
