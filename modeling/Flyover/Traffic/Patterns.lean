import Mathlib.Algebra.Order.BigOperators.Group.List
import Flyover.Traffic.RandomPermutation

/-!
# Traffic patterns

Where a node sends its packets: one destination for each node in the permutation
patterns, and a destination that is drawn in the others. A computation that draws
fails where the source fails an assertion or divides by zero.
-/

namespace Flyover.Traffic

open Drawing

/-- The patterns, with what their constructors store. -/
inductive TrafficPattern where
  | bitComp
  | transpose (shift : ℕ)
  | bitRev
  | shuffle
  | randomPermutation (dest : List ℤ)
  | uniform
  | background (excluded : List ℤ)
  | diagonal
  | asymmetric
  | taper64
  | badDragon (k : ℤ)
  | tornado (k n xr : ℤ)
  | neighbor (k n xr : ℤ)
  | badPermYarc (k xr : ℤ)
  | hotSpot (hotspots rates : List ℤ)

/-- The pattern is one that a constructor makes for this number of nodes. -/
def TrafficPattern.Accepted (nodes : ℕ) : TrafficPattern → Prop
  | .bitComp | .bitRev | .shuffle => BitAccepts nodes
  | .transpose shift => BitAccepts nodes ∧ transposeShift nodes = some shift
  | .randomPermutation dest => 0 < nodes ∧ ∃ draws, randomize nodes draws = some dest
  | .background excluded => 0 < nodes ∧ ∀ node ∈ excluded, 0 ≤ node ∧ node < nodes
  | .taper64 => nodes = 64
  | .hotSpot hotspots rates => 0 < nodes ∧ hotspots ≠ [] ∧ rates.length = hotspots.length ∧
      (∀ hotspot ∈ hotspots, 0 ≤ hotspot ∧ hotspot < nodes) ∧ ∀ rate ∈ rates, 0 ≤ rate
  | _ => 0 < nodes

/-! ## Destinations that are drawn -/

/-- `RandomInt(max)`; the generator returns numbers that are not negative. -/
def drawInt (max : ℤ) : Draws ℤ := fun draws =>
  match draws with
  | [] => .error .waits
  | raw :: draws =>
      if max + 1 = 0 then .error .fails else .ok ((raw : ℤ).tmod (max + 1), draws)

def backgroundDest (nodes : ℕ) (excluded : List ℤ) : Draws ℤ := do
  let result : ℕ ← drawUntil (nodes - 1) fun result => some (decide ((result : ℤ) ∉ excluded))
  pure (result : ℤ)

def diagonalDest (nodes : ℕ) (source : ℤ) : Draws ℤ := do
  let drawn ← drawInt 2
  pure (if drawn = 0 then (source + 1).tmod nodes else source)

/-- With one node half of them is none. -/
def asymmetricDest (nodes : ℕ) (source : ℤ) : Draws ℤ := do
  let drawn ← drawInt 1
  let half : ℤ := (nodes : ℤ).tdiv 2
  ofOption (if half = 0 then none
    else some (source.tmod half + if drawn ≠ 0 then half else 0))

def taper64Near (source : ℤ) : Draws ℤ := do
  let row ← drawInt 2
  let col ← drawInt 2
  pure ((64 + source + 8 * (row - 1) + (col - 1)).tmod 64)

def taper64Dest (nodes : ℕ) (source : ℤ) : Draws ℤ := do
  let drawn ← drawInt 1
  if drawn ≠ 0 then taper64Near source else drawInt (nodes - 1)

/-- `grp_size_nodes` -/
def grpSizeNodes (k : ℤ) : ℤ := toInt32 (toInt32 (2 * k) * k)

def badDragonTo (nodes : ℕ) (k source drawn : ℤ) : ℤ :=
  (toInt32 (drawn + (source.tdiv (grpSizeNodes k) + 1) * grpSizeNodes k)).tmod nodes

def badDragonDest (nodes : ℕ) (k source : ℤ) : Draws ℤ := do
  let drawn ← drawInt (grpSizeNodes k - 1)
  pure (badDragonTo nodes k source drawn)

def badPermYarcTo (k xr source drawn : ℤ) : ℤ :=
  toInt32 (drawn * toInt32 (xr * k) + source.tdiv (toInt32 (xr * k)))

def badPermYarcDest (k xr source : ℤ) : Draws ℤ := do
  let drawn ← drawInt (toInt32 (xr * k) - 1)
  pure (badPermYarcTo k xr source drawn)

/-- The loop over the hot spots. For the last one its test is the assertion behind the loop. -/
def pickHotspot : ℤ → List (ℤ × ℤ) → Option ℤ
  | _, [] => none
  | pct, (hotspot, rate) :: rest =>
      if rate > pct then some hotspot else pickHotspot (pct - rate) rest

/-- `_max_val` is one less than the sum of the rates. -/
def hotSpotDest (hotspots rates : List ℤ) : Draws ℤ :=
  match hotspots with
  | [hotspot] => pure hotspot
  | hotspots => do
      let pct ← drawInt (rates.sum - 1)
      ofOption (pickHotspot pct (hotspots.zip rates))

/-- `dest(source)` behind the assertion on the source. -/
def TrafficPattern.destOf (nodes : ℕ) (source : ℤ) : TrafficPattern → Draws ℤ
  | .bitComp => ofOption (bitCompDest nodes source)
  | .transpose shift => ofOption (transposeDest nodes shift source)
  | .bitRev => ofOption (bitRevDest nodes source)
  | .shuffle => ofOption (shuffleDest nodes source)
  | .randomPermutation dest => ofOption (randomPermutationDest nodes dest source)
  | .uniform => drawInt (nodes - 1)
  | .background excluded => backgroundDest nodes excluded
  | .diagonal => diagonalDest nodes source
  | .asymmetric => asymmetricDest nodes source
  | .taper64 => taper64Dest nodes source
  | .badDragon k => badDragonDest nodes k source
  | .tornado k n xr => ofOption (tornadoDest nodes k n xr source)
  | .neighbor k n xr => ofOption (neighborDest nodes k n xr source)
  | .badPermYarc k xr => badPermYarcDest k xr source
  | .hotSpot hotspots rates => hotSpotDest hotspots rates

def TrafficPattern.dest (p : TrafficPattern) (nodes : ℕ) (source : ℤ) : Draws ℤ :=
  if 0 ≤ source ∧ source < nodes then p.destOf nodes source else ofOption none

/-! ## What can be drawn -/

theorem tmod_abs (a b : ℤ) : a.tmod |b| = a.tmod b := by
  rcases abs_choice b with h | h
  · rw [h]
  · rw [h, Int.tmod_neg]

theorem canReturn_drawInt {max : ℤ} (hmax : max + 1 ≠ 0) :
    CanReturn (drawInt max) fun drawn => 0 ≤ drawn ∧ drawn < |max + 1| where
  safe := by
    rintro (_ | ⟨raw, draws⟩)
    · exact nofun
    · simp [drawInt, hmax]
  possible := by
    rintro drawn ⟨hpos, hlt⟩
    refine ⟨[drawn.toNat], fun more => ?_⟩
    have hmod : drawn.tmod (max + 1) = drawn := by
      rw [← tmod_abs]
      exact Int.tmod_eq_of_lt hpos hlt
    simp [drawInt, hmax, Int.toNat_of_nonneg hpos, hmod]
  only := by
    rintro (_ | ⟨raw, draws⟩) drawn rest hok
    · cases hok
    · rw [drawInt, if_neg hmax] at hok
      cases hok
      rw [← tmod_abs]
      exact ⟨Int.tmod_nonneg _ (Int.natCast_nonneg raw), Int.tmod_lt_of_pos _ (abs_pos.mpr hmax)⟩

/-- Drawing from no number divides by zero. -/
theorem bind_drawInt_fails {α : Type} {max : ℤ} (hmax : max + 1 = 0) (f : ℤ → Draws α) :
    (drawInt max >>= f) [0] = .error .fails := by
  apply Drawing.bind_error
  rw [drawInt, if_pos hmax]

section

variable {nodes : ℕ} {source : ℤ}

/-- The numbers of the nodes. -/
def InRange (nodes : ℕ) (node : ℤ) : Prop := 0 ≤ node ∧ node < nodes

theorem canReturn_uniform (hnodes : 0 < nodes) :
    CanReturn (drawInt (nodes - 1)) (InRange nodes) := by
  apply (canReturn_drawInt (by omega)).congr
  intro d
  rw [sub_add_cancel, abs_of_nonneg (Int.natCast_nonneg nodes), InRange]

theorem canReturn_background (hnodes : 0 < nodes) (excluded : List ℤ) :
    CanReturn (backgroundDest nodes excluded) fun d => InRange nodes d ∧ d ∉ excluded := by
  apply ((CanReturn.drawUntil fun _ _ => rfl).bind fun _ _ => .pure _).congr
  intro d
  simp only [Option.some.injEq, decide_eq_true_eq]
  constructor
  · rintro ⟨j, ⟨hj, hnot⟩, rfl⟩
    exact ⟨⟨Int.natCast_nonneg j, by omega⟩, hnot⟩
  · rintro ⟨⟨hpos, hlt⟩, hnot⟩
    lift d to ℕ using hpos
    exact ⟨d, ⟨by omega, hnot⟩, rfl⟩

theorem canReturn_diagonal :
    CanReturn (diagonalDest nodes source) fun d => d = source ∨ d = (source + 1).tmod nodes := by
  apply ((canReturn_drawInt (by decide)).bind fun _ _ => .pure _).congr
  intro d
  constructor
  · rintro ⟨drawn, -, rfl⟩
    split_ifs
    · exact .inr rfl
    · exact .inl rfl
  · rintro (rfl | rfl)
    · exact ⟨1, by decide, rfl⟩
    · exact ⟨0, by decide, rfl⟩

theorem canReturn_asymmetric (hnodes : 2 ≤ nodes) :
    CanReturn (asymmetricDest nodes source) fun d =>
      d = source.tmod ((nodes : ℤ).tdiv 2) ∨
        d = source.tmod ((nodes : ℤ).tdiv 2) + (nodes : ℤ).tdiv 2 := by
  have hhalf : (nodes : ℤ).tdiv 2 ≠ 0 := by
    rw [show (2 : ℤ) = ((2 : ℕ) : ℤ) from rfl, ← Int.ofNat_tdiv]
    omega
  apply ((canReturn_drawInt (by decide)).bind fun _ _ => .ofOption (if_neg hhalf)).congr
  intro d
  constructor
  · rintro ⟨drawn, -, rfl⟩
    split_ifs
    · exact .inr rfl
    · exact .inl (add_zero _)
  · rintro (rfl | rfl)
    · exact ⟨0, by decide, (add_zero _).symm⟩
    · exact ⟨1, by decide, rfl⟩

theorem canReturn_taper64 (hsource : InRange 64 source) :
    CanReturn (taper64Dest 64 source) (InRange 64) := by
  have hnear : CanReturn (taper64Near source) fun d =>
      ∃ row, (0 ≤ row ∧ row < |(2 : ℤ) + 1|) ∧ ∃ col, (0 ≤ col ∧ col < |(2 : ℤ) + 1|) ∧
        d = (64 + source + 8 * (row - 1) + (col - 1)).tmod 64 :=
    (canReturn_drawInt (by decide)).bind fun _ _ =>
      (canReturn_drawInt (by decide)).bind fun _ _ => .pure _
  have hfar : CanReturn (drawInt ((64 : ℕ) - 1)) (InRange 64) := canReturn_uniform (by decide)
  have hboth : ∀ drawn : ℤ, 0 ≤ drawn ∧ drawn < |(1 : ℤ) + 1| →
      CanReturn (if drawn ≠ 0 then taper64Near source else drawInt ((64 : ℕ) - 1)) fun d =>
        if drawn ≠ 0 then ∃ row, (0 ≤ row ∧ row < |(2 : ℤ) + 1|) ∧
          ∃ col, (0 ≤ col ∧ col < |(2 : ℤ) + 1|) ∧
            d = (64 + source + 8 * (row - 1) + (col - 1)).tmod 64
        else InRange 64 d := by
    intro drawn _
    by_cases hdrawn : drawn ≠ 0
    · simpa only [if_pos hdrawn] using hnear
    · simpa only [if_neg hdrawn] using hfar
  apply ((canReturn_drawInt (by decide)).bind hboth).congr
  intro d
  constructor
  · rintro ⟨drawn, -, hd⟩
    split_ifs at hd with hdrawn
    · obtain ⟨row, ⟨hrow, -⟩, col, ⟨hcol, -⟩, rfl⟩ := hd
      obtain ⟨hpos, hlt⟩ := hsource
      exact ⟨Int.tmod_nonneg _ (by omega), Int.tmod_lt_of_pos _ (by decide)⟩
    · exact hd
  · intro hd
    exact ⟨0, by decide, hd⟩

/-- A draw below the sum of the rates picks a hot spot with a rate. -/
theorem exists_pickHotspot {pairs : List (ℤ × ℤ)} {pct : ℤ} (hpos : 0 ≤ pct)
    (hlt : pct < (pairs.map Prod.snd).sum) :
    ∃ p ∈ pairs, 0 < p.2 ∧ pickHotspot pct pairs = some p.1 := by
  induction pairs generalizing pct with
  | nil => exact absurd hlt (not_lt.mpr hpos)
  | cons p pairs ih =>
      rw [List.map_cons, List.sum_cons] at hlt
      by_cases hrate : p.2 > pct
      · exact ⟨p, List.mem_cons_self, hpos.trans_lt hrate, if_pos hrate⟩
      · have hpos' : 0 ≤ pct - p.2 := by omega
        obtain ⟨q, hq, hqpos, hpick⟩ := ih hpos' (by omega)
        exact ⟨q, List.mem_cons_of_mem p hq, hqpos, (if_neg hrate).trans hpick⟩

/-- Every hot spot with a rate is picked by some draw. -/
theorem exists_draw_pickHotspot {pairs : List (ℤ × ℤ)} (hrates : ∀ p ∈ pairs, 0 ≤ p.2) {p : ℤ × ℤ}
    (hp : p ∈ pairs) (hrate : 0 < p.2) :
    ∃ pct, 0 ≤ pct ∧ pct < (pairs.map Prod.snd).sum ∧ pickHotspot pct pairs = some p.1 := by
  induction pairs with
  | nil => cases hp
  | cons q pairs ih =>
      have hrest : ∀ r ∈ pairs, 0 ≤ r.2 := fun r hr => hrates r (List.mem_cons_of_mem q hr)
      have hsum : 0 ≤ (pairs.map Prod.snd).sum :=
        List.sum_nonneg (List.forall_mem_map.mpr hrest)
      rw [List.map_cons, List.sum_cons]
      rcases List.mem_cons.mp hp with rfl | hp
      · exact ⟨0, le_refl 0, by omega, if_pos hrate⟩
      · obtain ⟨pct, hpos, hlt, hpick⟩ := ih hrest hp
        have hq := hrates q List.mem_cons_self
        refine ⟨pct + q.2, by omega, by omega, ?_⟩
        rw [pickHotspot, if_neg (by omega), add_sub_cancel_right, hpick]

theorem canReturn_hotSpot {hotspots rates : List ℤ} (hlen : rates.length = hotspots.length)
    (hrates : ∀ rate ∈ rates, 0 ≤ rate) (hdraw : rates.sum ≠ 0 ∨ hotspots.length = 1) :
    CanReturn (hotSpotDest hotspots rates) fun d =>
      ∃ p ∈ hotspots.zip rates, p.1 = d ∧ (0 < p.2 ∨ hotspots.length = 1) := by
  have hnonneg : ∀ p ∈ hotspots.zip rates, 0 ≤ p.2 := fun p hp => hrates _ (List.of_mem_zip hp).2
  have hsum : ((hotspots.zip rates).map Prod.snd).sum = rates.sum := by
    rw [List.map_snd_zip (Nat.le_of_eq hlen)]
  by_cases hone : hotspots.length = 1
  · obtain ⟨hotspot, rfl⟩ := List.length_eq_one_iff.mp hone
    obtain ⟨rate, rfl⟩ := List.length_eq_one_iff.mp (hlen.trans hone)
    apply (CanReturn.pure hotspot).congr
    intro d
    simp [eq_comm]
  · have hpos : 0 < rates.sum :=
      lt_of_le_of_ne (List.sum_nonneg hrates) (hdraw.resolve_right hone).symm
    have hdest : hotSpotDest hotspots rates = (drawInt (rates.sum - 1) >>= fun pct =>
        ofOption (pickHotspot pct (hotspots.zip rates))) := by
      match hotspots with
      | [] => rfl
      | [_] => exact absurd rfl hone
      | _ :: _ :: _ => rfl
    have habs : |rates.sum - 1 + 1| = rates.sum := by rw [sub_add_cancel, abs_of_pos hpos]
    have hpick : ∀ pct, 0 ≤ pct ∧ pct < |rates.sum - 1 + 1| →
        CanReturn (ofOption (pickHotspot pct (hotspots.zip rates))) fun d =>
          pickHotspot pct (hotspots.zip rates) = some d := by
      rintro pct ⟨hpct, hlt⟩
      rw [habs, ← hsum] at hlt
      obtain ⟨p, -, -, hp⟩ := exists_pickHotspot hpct hlt
      apply (CanReturn.ofOption hp).congr
      intro d
      rw [hp, Option.some.injEq, eq_comm]
    rw [hdest]
    apply ((canReturn_drawInt (by omega)).bind hpick).congr
    intro d
    rw [habs, ← hsum]
    constructor
    · rintro ⟨pct, ⟨hpct, hlt⟩, hd⟩
      obtain ⟨p, hp, hrate, hpicked⟩ := exists_pickHotspot hpct hlt
      exact ⟨p, hp, Option.some.inj (hpicked.symm.trans hd), .inl hrate⟩
    · rintro ⟨p, hp, rfl, hrate⟩
      obtain ⟨pct, hpct, hlt, hpicked⟩ :=
        exists_draw_pickHotspot hnonneg hp (hrate.resolve_right hone)
      exact ⟨pct, ⟨hpct, hlt⟩, hpicked⟩

end

end Flyover.Traffic
