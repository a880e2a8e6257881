import Flyover.Traffic.Patterns

/-!
# The search for a destination

A packet is sent to a node whose core is on: while the core of the destination is off,
the pattern is asked again. A pattern that always gives the same destination is asked
forever; only for the tornado, when it is configured under its plain name, the packet is
sent to its own source instead.
-/

namespace Flyover.Traffic

open Drawing

/-- What is configured for a class of traffic: the text and the pattern made from it. The
plain name makes a tornado. -/
structure ClassTraffic (nodes : ℕ) where
  name : String
  pattern : TrafficPattern
  accepted : pattern.Accepted nodes
  named : name = "tornado" → ∃ k n xr, pattern = .tornado k n xr

section

variable {nodes : ℕ} (t : ClassTraffic nodes) (core : ℕ → Bool) (source : ℤ)

/-- `core_states[node]` -/
def coreAt (nodes : ℕ) (core : ℕ → Bool) (node : ℤ) : Option Bool :=
  if 0 ≤ node ∧ node < nodes then some (core node.toNat) else none

/-- The loop that asks again, on the destinations that the pattern gives one after another. -/
def redraw (nodes : ℕ) (core : ℕ → Bool) : List ℤ → Except Stop ℤ
  | [] => .error .waits
  | destination :: more =>
      match coreAt nodes core destination with
      | none => .error .fails
      | some true => .ok destination
      | some false => redraw nodes core more

/-- The destination that the search comes to. -/
def findDestination : List ℤ → Except Stop ℤ
  | [] => .error .waits
  | destination :: more =>
      match coreAt nodes core destination with
      | none => .error .fails
      | some on =>
          if t.name = "tornado" ∧ on = false then .ok source
          else redraw nodes core (destination :: more)

/-- A node of the network whose core is on. -/
def CoreOn (nodes : ℕ) (core : ℕ → Bool) (node : ℤ) : Prop :=
  InRange nodes node ∧ core node.toNat = true

/-- The pattern gives this destination for some numbers that are drawn. -/
def CanGive (destination : ℤ) : Prop :=
  ∃ draws rest, t.pattern.dest nodes source draws = .ok (destination, rest)

/-- The search never leaves the arrays. Wherever it stands it has come to a node whose core
is on, or there is a destination that the pattern can still give which ends it there. -/
structure FindsDestination : Prop where
  safe : ∀ draws, t.pattern.dest nodes source draws ≠ .error .fails
  search : ∀ given, (∀ d ∈ given, CanGive t source d) →
    (∃ d, findDestination t core source given = .ok d ∧ CoreOn nodes core d) ∨
      findDestination t core source given = .error .waits ∧ ∃ d, CanGive t source d ∧
        ∃ d', findDestination t core source (given ++ [d]) = .ok d' ∧ CoreOn nodes core d'

end

section

variable {nodes : ℕ} {t : ClassTraffic nodes} {core : ℕ → Bool} {source : ℤ}

theorem coreAt_of_inRange {node : ℤ} (h : InRange nodes node) :
    coreAt nodes core node = some (core node.toNat) := if_pos h

theorem coreAt_of_not_inRange {node : ℤ} (h : ¬ InRange nodes node) :
    coreAt nodes core node = none := if_neg h

/-- The first destination of a tornado ends the search. -/
theorem findDestination_tornado (hsource : CoreOn nodes core source) (hname : t.name = "tornado")
    {d : ℤ} (hd : InRange nodes d) (more : List ℤ) :
    ∃ d', findDestination t core source (d :: more) = .ok d' ∧ CoreOn nodes core d' := by
  cases hon : core d.toNat with
  | true =>
      refine ⟨d, ?_, hd, hon⟩
      simp only [findDestination, coreAt_of_inRange hd, hon, redraw]
      rw [if_neg (by simp)]
  | false =>
      refine ⟨source, ?_, hsource⟩
      simp only [findDestination, coreAt_of_inRange hd, hon]
      rw [if_pos ⟨hname, trivial⟩]

/-- Any other pattern is asked until it gives a destination whose core is on. -/
theorem findDestination_of_ne (hname : t.name ≠ "tornado") (given : List ℤ) :
    findDestination t core source given = redraw nodes core given := by
  cases given with
  | nil => rfl
  | cons d more =>
      by_cases hd : InRange nodes d
      · simp only [findDestination, coreAt_of_inRange hd]
        rw [if_neg fun h => hname h.1]
      · simp only [findDestination, redraw, coreAt_of_not_inRange hd]

/-- Asking again comes to the first destination whose core is on. -/
theorem redraw_append {given : List ℤ} (hrange : ∀ d ∈ given, InRange nodes d) (d : ℤ)
    (hd : CoreOn nodes core d) :
    ((∃ d', redraw nodes core given = .ok d' ∧ CoreOn nodes core d') ∨
      redraw nodes core given = .error .waits) ∧
    ∃ d', redraw nodes core (given ++ [d]) = .ok d' ∧ CoreOn nodes core d' := by
  induction given with
  | nil =>
      refine ⟨.inr rfl, d, ?_, hd⟩
      simp only [List.nil_append, redraw, coreAt_of_inRange hd.1, hd.2]
  | cons c given ih =>
      have hc := hrange c List.mem_cons_self
      cases hon : core c.toNat with
      | true =>
          simp only [List.cons_append, redraw, coreAt_of_inRange hc, hon]
          exact ⟨.inl ⟨c, rfl, hc, hon⟩, c, rfl, hc, hon⟩
      | false =>
          simp only [List.cons_append, redraw, coreAt_of_inRange hc, hon]
          exact ih fun e he => hrange e (List.mem_cons_of_mem c he)

/-- The search finds a destination if the pattern gives nodes only, and one whose core is
on, or the tornado is sent home. -/
theorem findsDestination_iff (hsource : CoreOn nodes core source) :
    FindsDestination t core source ↔
      (∀ draws, t.pattern.dest nodes source draws ≠ .error .fails) ∧
      (∀ d, CanGive t source d → InRange nodes d) ∧
      ∃ d, CanGive t source d ∧ (t.name = "tornado" ∨ CoreOn nodes core d) := by
  constructor
  · intro h
    refine ⟨h.safe, ?_, ?_⟩
    · intro d hd
      by_contra hout
      have hfails : findDestination t core source [d] = .error .fails := by
        simp only [findDestination, coreAt_of_not_inRange hout]
      rcases h.search [d] (by simpa using hd) with ⟨d', hok, -⟩ | ⟨hwaits, -⟩
      · cases hfails.symm.trans hok
      · cases hfails.symm.trans hwaits
    · rcases h.search [] nofun with ⟨d, hok, -⟩ | ⟨-, d, hd, d', hok, hon⟩
      · cases hok
      · refine ⟨d, hd, ?_⟩
        by_cases hname : t.name = "tornado"
        · exact .inl hname
        · refine .inr ?_
          rw [findDestination_of_ne hname, List.nil_append] at hok
          have hdrange : InRange nodes d := by
            by_contra hout
            simp only [redraw, coreAt_of_not_inRange hout] at hok
            cases hok
          cases hcore : core d.toNat with
          | true => exact ⟨hdrange, hcore⟩
          | false =>
              simp only [redraw, coreAt_of_inRange hdrange, hcore] at hok
              cases hok
  · rintro ⟨hsafe, hrange, d, hd, hends⟩
    refine ⟨hsafe, fun given hgiven => ?_⟩
    by_cases hname : t.name = "tornado"
    · cases given with
      | nil =>
          exact .inr ⟨rfl, d, hd, findDestination_tornado hsource hname (hrange d hd) []⟩
      | cons c given =>
          have hc := hrange c (hgiven c List.mem_cons_self)
          exact .inl (findDestination_tornado hsource hname hc given)
    · simp only [findDestination_of_ne hname]
      have hon := hends.resolve_left hname
      obtain ⟨hsofar, hnext⟩ := redraw_append (fun c hc => hrange c (hgiven c hc)) d hon
      exact hsofar.imp_right fun hwaits => ⟨hwaits, d, hd, hnext⟩

end

/-! ## Pattern by pattern -/

/-- The pattern gives one destination, and its core is on. -/
def SendsOn (nodes : ℕ) (core : ℕ → Bool) (dest : Option ℤ) : Prop :=
  ∃ d, dest = some d ∧ CoreOn nodes core d

/-- What is needed of the cores for a source to find a destination. A pattern with one
destination needs the core of that one, unless it is the tornado under its plain name; the
patterns that can draw the source itself need nothing more. -/
def Reaches (nodes : ℕ) (core : ℕ → Bool) (name : String) (source : ℤ) : TrafficPattern → Prop
  | .bitComp => SendsOn nodes core (bitCompDest nodes source)
  | .transpose shift => SendsOn nodes core (transposeDest nodes shift source)
  | .bitRev => SendsOn nodes core (bitRevDest nodes source)
  | .shuffle => SendsOn nodes core (shuffleDest nodes source)
  | .randomPermutation dest => SendsOn nodes core (randomPermutationDest nodes dest source)
  | .neighbor k n xr => SendsOn nodes core (neighborDest nodes k n xr source)
  | .tornado k n xr => ∃ d, tornadoDest nodes k n xr source = some d ∧ InRange nodes d ∧
      (name = "tornado" ∨ core d.toNat = true)
  | .uniform | .diagonal | .taper64 => True
  | .background excluded => ∃ d, CoreOn nodes core d ∧ d ∉ excluded
  | .asymmetric => 2 ≤ nodes ∧ (CoreOn nodes core (source.tmod ((nodes : ℤ).tdiv 2)) ∨
      CoreOn nodes core (source.tmod ((nodes : ℤ).tdiv 2) + (nodes : ℤ).tdiv 2))
  | .badDragon k => (∀ drawn, 0 ≤ drawn ∧ drawn < |grpSizeNodes k| →
        InRange nodes (badDragonTo nodes k source drawn)) ∧
      ∃ drawn, (0 ≤ drawn ∧ drawn < |grpSizeNodes k|) ∧
        CoreOn nodes core (badDragonTo nodes k source drawn)
  | .badPermYarc k xr => (∀ drawn, 0 ≤ drawn ∧ drawn < |toInt32 (xr * k)| →
        InRange nodes (badPermYarcTo k xr source drawn)) ∧
      ∃ drawn, (0 ≤ drawn ∧ drawn < |toInt32 (xr * k)|) ∧
        CoreOn nodes core (badPermYarcTo k xr source drawn)
  | .hotSpot hotspots rates =>
      ∃ p ∈ hotspots.zip rates, CoreOn nodes core p.1 ∧ (0 < p.2 ∨ hotspots.length = 1)

section

variable {nodes : ℕ} {t : ClassTraffic nodes} {core : ℕ → Bool} {source : ℤ}

theorem dest_eq (hsource : CoreOn nodes core source) :
    t.pattern.dest nodes source = t.pattern.destOf nodes source := if_pos hsource.1

theorem findsDestination_iff_of_canReturn (hsource : CoreOn nodes core source) {D : ℤ → Prop}
    (hdest : CanReturn (t.pattern.destOf nodes source) D) :
    FindsDestination t core source ↔ (∀ d, D d → InRange nodes d) ∧
      ∃ d, D d ∧ (t.name = "tornado" ∨ CoreOn nodes core d) := by
  have hgive : ∀ d, CanGive t source d ↔ D d := by
    intro d
    rw [CanGive, dest_eq hsource]
    exact hdest.iff
  rw [findsDestination_iff hsource, dest_eq hsource]
  simp only [hgive]
  exact and_iff_right hdest.safe

theorem not_findsDestination_of_fails (hsource : CoreOn nodes core source) (draws : List ℕ)
    (hfails : t.pattern.destOf nodes source draws = .error .fails) :
    ¬ FindsDestination t core source :=
  fun h => h.safe draws (by rw [dest_eq hsource, hfails])

theorem findsDestination_iff_of_option (hsource : CoreOn nodes core source) {dest : Option ℤ}
    (hdest : t.pattern.destOf nodes source = ofOption dest) :
    FindsDestination t core source ↔ ∃ d, dest = some d ∧ InRange nodes d ∧
      (t.name = "tornado" ∨ core d.toNat = true) := by
  cases dest with
  | none =>
      have hnot := not_findsDestination_of_fails (t := t) hsource [] (by rw [hdest]; rfl)
      simp [hnot]
  | some d =>
      rw [findsDestination_iff_of_canReturn hsource (hdest ▸ CanReturn.ofOption rfl)]
      simp only [forall_eq, exists_eq_left, CoreOn, Option.some.injEq, exists_eq_left']
      tauto

theorem findsDestination_iff_sendsOn (hsource : CoreOn nodes core source)
    (hname : t.name ≠ "tornado") {dest : Option ℤ}
    (hdest : t.pattern.destOf nodes source = ofOption dest) :
    FindsDestination t core source ↔ SendsOn nodes core dest := by
  rw [findsDestination_iff_of_option hsource hdest]
  simp only [hname, false_or]
  rfl

/-- A pattern that can draw the source finds it. -/
theorem findsDestination_of_self (hsource : CoreOn nodes core source) {D : ℤ → Prop}
    (hdest : CanReturn (t.pattern.destOf nodes source) D) (hrange : ∀ d, D d → InRange nodes d)
    (hself : D source) : FindsDestination t core source :=
  (findsDestination_iff_of_canReturn hsource hdest).mpr ⟨hrange, source, hself, .inr hsource⟩

/-- One number is drawn, and the destination computed from it. -/
theorem findsDestination_iff_of_drawInt (hsource : CoreOn nodes core source)
    (hname : t.name ≠ "tornado") {count : ℤ} {sendTo : ℤ → ℤ}
    (hdest : t.pattern.destOf nodes source
      = (drawInt (count - 1) >>= fun drawn => pure (sendTo drawn))) :
    FindsDestination t core source ↔
      (∀ drawn, 0 ≤ drawn ∧ drawn < |count| → InRange nodes (sendTo drawn)) ∧
      ∃ drawn, (0 ≤ drawn ∧ drawn < |count|) ∧ CoreOn nodes core (sendTo drawn) := by
  by_cases hcount : count = 0
  · subst hcount
    have hnot : ¬ FindsDestination t core source := by
      apply not_findsDestination_of_fails hsource [0]
      rw [hdest]
      exact bind_drawInt_fails rfl _
    constructor
    · intro h
      exact absurd h hnot
    · rintro ⟨-, drawn, ⟨hpos, hlt⟩, -⟩
      rw [abs_zero] at hlt
      exact absurd hpos (not_le.mpr hlt)
  · have hdraw : CanReturn (t.pattern.destOf nodes source) fun d =>
        ∃ drawn, (0 ≤ drawn ∧ drawn < |count|) ∧ d = sendTo drawn := by
      rw [hdest]
      apply ((canReturn_drawInt (by rwa [sub_add_cancel])).bind fun _ _ => .pure _).congr
      intro d
      rw [sub_add_cancel]
    rw [findsDestination_iff_of_canReturn hsource hdraw]
    simp only [hname, false_or]
    constructor
    · rintro ⟨hrange, d, ⟨drawn, hdrawn, rfl⟩, hon⟩
      exact ⟨fun e he => hrange _ ⟨e, he, rfl⟩, drawn, hdrawn, hon⟩
    · rintro ⟨hrange, drawn, hdrawn, hon⟩
      refine ⟨?_, sendTo drawn, ⟨drawn, hdrawn, rfl⟩, hon⟩
      rintro d ⟨e, he, rfl⟩
      exact hrange e he

theorem findsDestination_iff_asymmetric (hsource : CoreOn nodes core source)
    (hname : t.name ≠ "tornado") (hpattern : t.pattern = .asymmetric) :
    FindsDestination t core source ↔ Reaches nodes core t.name source .asymmetric := by
  have hdest : t.pattern.destOf nodes source = asymmetricDest nodes source := by
    rw [hpattern]
    rfl
  have hcast : (nodes : ℤ).tdiv 2 = ((nodes / 2 : ℕ) : ℤ) := by
    rw [show (2 : ℤ) = ((2 : ℕ) : ℤ) from rfl, ← Int.ofNat_tdiv]
  by_cases hnodes : 2 ≤ nodes
  · have hcol : 0 ≤ source.tmod ((nodes : ℤ).tdiv 2) ∧
        source.tmod ((nodes : ℤ).tdiv 2) < (nodes / 2 : ℕ) := by
      rw [hcast]
      exact ⟨Int.tmod_nonneg _ hsource.1.1, Int.tmod_lt_of_pos _ (by omega)⟩
    rw [findsDestination_iff_of_canReturn hsource (hdest ▸ canReturn_asymmetric hnodes)]
    simp only [hname, false_or, Reaches]
    constructor
    · rintro ⟨-, d, rfl | rfl, hon⟩
      · exact ⟨hnodes, .inl hon⟩
      · exact ⟨hnodes, .inr hon⟩
    · rintro ⟨-, hon⟩
      refine ⟨?_, ?_⟩
      · rintro d (rfl | rfl)
        · exact ⟨hcol.1, by omega⟩
        · exact ⟨by omega, by omega⟩
      · rcases hon with hon | hon
        · exact ⟨_, .inl rfl, hon⟩
        · exact ⟨_, .inr rfl, hon⟩
  · -- half of one node is none, and the division by it fails
    have hzero : (nodes : ℤ).tdiv 2 = 0 := by
      rw [hcast]
      omega
    refine iff_of_false (not_findsDestination_of_fails hsource [0] ?_)
      fun h => hnodes h.1
    have hdrawn : drawInt 1 [0] = .ok (0, []) := rfl
    rw [hdest, asymmetricDest, Drawing.bind_ok hdrawn]
    simp only [hzero, if_true]
    rfl

theorem findsDestination_iff_hotSpot (hsource : CoreOn nodes core source)
    (hname : t.name ≠ "tornado") {hotspots rates : List ℤ}
    (hpattern : t.pattern = .hotSpot hotspots rates) :
    FindsDestination t core source ↔
      Reaches nodes core t.name source (.hotSpot hotspots rates) := by
  have haccepted := t.accepted
  rw [hpattern] at haccepted
  obtain ⟨-, -, hlen, hrange, hrates⟩ := haccepted
  have hdest : t.pattern.destOf nodes source = hotSpotDest hotspots rates := by
    rw [hpattern]
    rfl
  by_cases hdraw : rates.sum ≠ 0 ∨ hotspots.length = 1
  · rw [findsDestination_iff_of_canReturn hsource (hdest ▸ canReturn_hotSpot hlen hrates hdraw)]
    simp only [hname, false_or, Reaches]
    constructor
    · rintro ⟨-, d, ⟨p, hp, rfl, hrate⟩, hon⟩
      exact ⟨p, hp, hon, hrate⟩
    · rintro ⟨p, hp, hon, hrate⟩
      refine ⟨?_, p.1, ⟨p, hp, rfl, hrate⟩, hon⟩
      rintro d ⟨q, hq, rfl, -⟩
      exact hrange _ (List.of_mem_zip hq).1
  · -- without a rate the number is drawn from none
    rw [not_or, not_not] at hdraw
    obtain ⟨hsum, hone⟩ := hdraw
    refine iff_of_false (not_findsDestination_of_fails hsource [0] ?_) ?_
    · rw [hdest]
      match hotspots, hone with
      | [], _ => exact bind_drawInt_fails (by omega) _
      | _ :: _ :: _, _ => exact bind_drawInt_fails (by omega) _
    · rintro ⟨p, hp, -, hrate | hrate⟩
      · have hle := List.single_le_sum hrates _ (List.of_mem_zip hp).2
        omega
      · exact hone hrate

/-- A source finds a destination exactly if its pattern reaches a core that is on. -/
theorem findsDestination_iff_reaches (hsource : CoreOn nodes core source) :
    FindsDestination t core source ↔ Reaches nodes core t.name source t.pattern := by
  have hplain : (∀ k n xr, t.pattern ≠ .tornado k n xr) → t.name ≠ "tornado" := by
    intro hne hname
    obtain ⟨k, n, xr, hpattern⟩ := t.named hname
    exact hne k n xr hpattern
  have haccepted := t.accepted
  cases hpattern : t.pattern with
  | bitComp | transpose | bitRev | shuffle | randomPermutation | neighbor =>
      exact findsDestination_iff_sendsOn hsource (hplain (by simp [hpattern]))
        (by rw [hpattern]; rfl)
  | tornado k n xr => exact findsDestination_iff_of_option hsource (by rw [hpattern]; rfl)
  | uniform =>
      rw [hpattern] at haccepted
      have hdest : CanReturn (t.pattern.destOf nodes source) (InRange nodes) := by
        rw [hpattern]
        exact canReturn_uniform haccepted
      exact iff_of_true (findsDestination_of_self hsource hdest (fun _ h => h) hsource.1) trivial
  | background excluded =>
      rw [hpattern] at haccepted
      have hdest : CanReturn (t.pattern.destOf nodes source) fun d =>
          InRange nodes d ∧ d ∉ excluded := by
        rw [hpattern]
        exact canReturn_background haccepted.1 excluded
      have hname := hplain (by simp [hpattern])
      rw [findsDestination_iff_of_canReturn hsource hdest]
      simp only [hname, false_or]
      constructor
      · rintro ⟨-, d, ⟨-, hnot⟩, hon⟩
        exact ⟨d, hon, hnot⟩
      · rintro ⟨d, hon, hnot⟩
        exact ⟨fun e he => he.1, d, ⟨hon.1, hnot⟩, hon⟩
  | diagonal =>
      have hdest : CanReturn (t.pattern.destOf nodes source) fun d =>
          d = source ∨ d = (source + 1).tmod nodes := by
        rw [hpattern]
        exact canReturn_diagonal
      refine iff_of_true (findsDestination_of_self hsource hdest ?_ (.inl rfl)) trivial
      obtain ⟨⟨hpos, hlt⟩, -⟩ := hsource
      rintro d (rfl | rfl)
      · exact ⟨hpos, hlt⟩
      · exact ⟨Int.tmod_nonneg _ (by omega), Int.tmod_lt_of_pos _ (by omega)⟩
  | asymmetric =>
      exact findsDestination_iff_asymmetric hsource (hplain (by simp [hpattern])) hpattern
  | taper64 =>
      rw [hpattern] at haccepted
      have hnodes : nodes = 64 := haccepted
      subst hnodes
      have hdest : CanReturn (t.pattern.destOf 64 source) (InRange 64) := by
        rw [hpattern]
        exact canReturn_taper64 hsource.1
      exact iff_of_true (findsDestination_of_self hsource hdest (fun _ h => h) hsource.1) trivial
  | badDragon k =>
      exact findsDestination_iff_of_drawInt hsource (hplain (by simp [hpattern]))
        (by rw [hpattern]; rfl)
  | badPermYarc k xr =>
      exact findsDestination_iff_of_drawInt hsource (hplain (by simp [hpattern]))
        (by rw [hpattern]; rfl)
  | hotSpot hotspots rates =>
      exact findsDestination_iff_hotSpot hsource (hplain (by simp [hpattern])) hpattern

end

end Flyover.Traffic
