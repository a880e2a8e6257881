import Flyover.Injection.Kept
import Flyover.Injection.NoRD

/-!
# The loop over the bypass latches

The loop goes through the latches up to the first whose flit can go. A head flit that is
given a virtual channel goes at once, so none waits with one in its latch.
-/

namespace Flyover.Injection

variable {subnets classes vcs : Nat}

/-- At most one flit is in the latch. No head flit waits with an output virtual channel,
and those of packets of this node do not pass. -/
structure Latch.Tidy (latch : Latch subnets classes vcs) : Prop where
  single : latch.flits.length ≤ 1
  body : latch.state = .active → ∀ f ∈ latch.flits, f.head = false
  foreign : ∀ f ∈ latch.flits, f.head = false → f.own = false

namespace Latch.Tidy

variable {latch : Latch subnets classes vcs}

theorem tail_eq_nil (h : latch.Tidy) : latch.flits.tail = [] := by
  have hsingle := h.single
  cases hflits : latch.flits with
  | nil => rfl
  | cons f rest =>
      rw [hflits, List.length_cons] at hsingle
      exact List.eq_nil_of_length_eq_zero (Nat.le_zero.mp (Nat.le_of_succ_le_succ hsingle))

/-- The latch with its first flit changed, but for the marks. -/
theorem replace {g cf : BypassFlit subnets classes vcs} {state : VCState}
    {outputVC : Option (Fin vcs)} (h : latch.Tidy)
    (hcf : latch.flits.head? = some cf) (hhead : g.head = cf.head) (hown : g.own = cf.own)
    (hstate : state = latch.state ∨ state = .vcAlloc) :
    (Latch.mk state outputVC (g :: latch.flits.tail)).Tidy := by
  have hmem : cf ∈ latch.flits := List.mem_of_mem_head? hcf
  rw [h.tail_eq_nil]
  constructor
  · exact le_rfl
  · intro hactive f hf
    rw [List.mem_singleton.mp hf, hhead]
    obtain rfl | rfl := hstate
    · exact h.body hactive cf hmem
    · cases hactive
  · intro f hf hbody
    rw [List.mem_singleton.mp hf] at hbody ⊢
    rw [hown]
    exact h.foreign cf hmem (hhead.symm.trans hbody)

theorem setState {state : VCState} (h : latch.Tidy) (hstate : state ≠ .active) : Latch.Tidy { latch with state := state } :=
  ⟨h.single, fun hactive => absurd hactive hstate, h.foreign⟩

end Latch.Tidy

theorem takes_of_findBypassVC {buf : BufferState vcs} {time : Int} {lastVC : Option (Fin vcs)}
    {found : Nat → Bool} {ranges : List (InjectRange vcs)} {outVC : Fin vcs}
    (h : findBypassVC buf time lastVC found ranges = some outVC) : buf.takes time outVC = true := by
  induction ranges with
  | nil => cases h
  | cons r rest ih =>
      rw [findBypassVC] at h
      cases hfind : buf.findVC time r lastVC with
      | some vc =>
          rw [hfind] at h
          cases h
          exact ClassLoop.takes_of_findVC hfind
      | none =>
          rw [hfind] at h
          dsimp only at h
          split at h
          · cases h
          · exact ih h

namespace BypassLoop

variable (l : BypassLoop subnets classes vcs) (inputs : NoRDInputs subnets classes vcs)
  (buf : BufferState vcs) (lastVC : Option (Fin vcs))

/-- The virtual channel on which the flit of the latch is to go. -/
def nextVC (vc : Fin vcs) (cf : BypassFlit subnets classes vcs) : Option (Fin vcs) :=
  if (l.latches vc).state = .vcAlloc then
    findBypassVC buf inputs.time lastVC (inputs.found vc) (inputs.bypassRanges cf)
  else if !cf.head && cf.vc.isNone then (l.latches vc).outputVC
  else cf.vc

/-- The first flit of the latch can go, on `outVC`. -/
structure Ready (vc : Fin vcs) (cf : BypassFlit subnets classes vcs) (outVC : Fin vcs) : Prop where
  busy : (l.latches vc).state ≠ .idle
  front : (l.latches vc).flits.head? = some cf
  next : l.nextVC inputs buf lastVC vc cf = some outVC
  room : buf.isFullFor inputs.time outVC = false
  above : ∀ f, l.f = some f → f.pri < cf.pri

variable {l inputs buf lastVC} {l' : BypassLoop subnets classes vcs} {cfg : NoRDConfig}
  {vc : Fin vcs} {cf : BypassFlit subnets classes vcs}

/-- Nothing but the latch `vc` and the request monitor changes. -/
structure Visits (l l' : BypassLoop subnets classes vcs) (vc : Fin vcs) : Prop where
  bypassVC : l'.bypassVC = l.bypassVC
  others : ∀ other, other ≠ vc → l'.latches other = l.latches other

theorem Visits.refl : Visits l l vc := ⟨rfl, fun _ _ => rfl⟩

theorem Visits.trans {l'' : BypassLoop subnets classes vcs} (h : Visits l l' vc)
    (h' : Visits l' l'' vc) : Visits l l'' vc :=
  ⟨h'.bypassVC.trans h.bypassVC, fun other hne => (h'.others other hne).trans (h.others other hne)⟩

theorem monitor_latches : (l.monitor cfg inputs).latches = l.latches := by
  unfold monitor
  split <;> rfl

theorem monitor_bypassVC : (l.monitor cfg inputs).bypassVC = l.bypassVC := by
  unfold monitor
  split <;> rfl

theorem visits_update {latch : Latch subnets classes vcs} :
    Visits l { l with latches := Function.update l.latches vc latch } vc :=
  ⟨rfl, fun _ hne => Function.update_of_ne hne _ _⟩

theorem visits_monitor : Visits l (l.monitor cfg inputs) vc :=
  ⟨monitor_bypassVC, fun _ _ => by rw [monitor_latches]⟩

/-- What allocation does to the first flit of a latch: it gets a virtual channel, finds
none, or has one already. -/
inductive Allocates (l l' : BypassLoop subnets classes vcs) (inputs : NoRDInputs subnets classes vcs)
    (buf : BufferState vcs) (lastVC : Option (Fin vcs)) (vc : Fin vcs)
    (cf : BypassFlit subnets classes vcs) : Prop where
  | found (outVC : Fin vcs) (hhead : cf.head = true)
      (hnext : l.nextVC inputs buf lastVC vc cf = some outVC) (htakes : buf.takes inputs.time outVC = true)
      (hlatch : l'.latches vc = (l.latches vc).activate cf outVC)
  | notFound (hnext : l.nextVC inputs buf lastVC vc cf = none)
      (hstate : (l.latches vc).state = .vcAlloc) (hlatch : l'.latches vc = l.latches vc)
  | had (hlatch : l'.latches vc =
      { l.latches vc with
        flits := { cf with vc := l.nextVC inputs buf lastVC vc cf } :: (l.latches vc).flits.tail })

theorem allocate_ok (hcf : (l.latches vc).flits.head? = some cf)
    (h : l.allocate cfg inputs buf lastVC vc cf = .ok l') :
    Visits l l' vc ∧ Allocates l l' inputs buf lastVC vc cf := by
  unfold allocate at h
  dsimp only at h
  by_cases halloc : (l.latches vc).state = .vcAlloc
  · rw [if_pos halloc] at h
    have hnext : l.nextVC inputs buf lastVC vc cf =
        findBypassVC buf inputs.time lastVC (inputs.found vc) (inputs.bypassRanges cf) :=
      if_pos halloc
    by_cases hhead : cf.head = true
    · rw [if_pos hhead] at h
      cases hfind : findBypassVC buf inputs.time lastVC (inputs.found vc) (inputs.bypassRanges cf) with
      | none =>
          rw [hfind] at h hnext
          cases h
          exact ⟨visits_monitor, .notFound hnext halloc (by rw [monitor_latches])⟩
      | some outVC =>
          rw [hfind] at h hnext
          cases h
          refine ⟨visits_monitor.trans visits_update, ?_⟩
          exact .found outVC hhead hnext (takes_of_findBypassVC hfind) (Function.update_self _ _ _)
    · rw [if_neg hhead] at h
      cases h
  · rw [if_neg halloc] at h
    by_cases hbody : (!cf.head && cf.vc.isNone) = true
    · rw [if_pos hbody] at h
      split at h
      · cases h
      · cases h
        refine ⟨visits_update, .had ?_⟩
        rw [nextVC, if_neg halloc, if_pos hbody]
        exact Function.update_self _ _ _
    · rw [if_neg hbody] at h
      cases h
      refine ⟨.refl, .had ?_⟩
      rw [nextVC, if_neg halloc, if_neg hbody]
      have hflits : cf :: (l.latches vc).flits.tail = (l.latches vc).flits :=
        (List.eq_cons_of_mem_head? hcf).symm
      exact congrArg (Latch.mk _ _) hflits.symm

theorem retry_ok {time : Int} : Visits l (l.retry time vc cf) vc ∧
    ((l.retry time vc cf).latches vc = l.latches vc ∨
      (l.retry time vc cf).latches vc = { l.latches vc with state := .vcAlloc }) := by
  unfold retry
  split
  · exact ⟨visits_update, .inr (Function.update_self _ _ _)⟩
  · exact ⟨.refl, .inl rfl⟩

theorem outranks_ok {b : Bool} (h : l.outranks cf = .ok b) :
    b = true ↔ ∃ f, l.f = some f ∧ cf.pri ≤ f.pri := by
  unfold outranks at h
  cases hf : l.f with
  | none =>
      rw [hf] at h
      cases h
      simp
  | some f =>
      rw [hf] at h
      dsimp only at h
      by_cases hpri : f.pri ≥ cf.pri
      · rw [if_pos hpri] at h
        split at h
        · cases h
        · cases h
          exact iff_of_true rfl ⟨f, rfl, hpri⟩
      · rw [if_neg hpri] at h
        cases h
        refine iff_of_false Bool.false_ne_true ?_
        rintro ⟨g, hg, hle⟩
        cases hg
        exact hpri hle

/-- The flit of the latch after it has been decided whether it goes. -/
theorem decideOn_ok {leaves : Bool} (h : l.decideOn inputs buf vc = .ok (l', leaves)) :
    ∃ cf, (l.latches vc).flits.head? = some cf ∧
      (leaves = true ∧ l' = { l with bypassVC := some vc } ∧ (l.latches vc).state = .active ∧
          (∃ outVC, cf.vc = some outVC ∧ buf.isFullFor inputs.time outVC = false) ∧
          (cf.head = true → cf.own = false) ∨
        leaves = false ∧ l' = l.retry inputs.time vc cf ∧
          ∀ outVC, cf.vc = some outVC → buf.isFullFor inputs.time outVC = true) := by
  unfold decideOn at h
  cases hcf : (l.latches vc).flits.head? with
  | none =>
      rw [hcf] at h
      cases h
  | some cf =>
      rw [hcf] at h
      dsimp only at h
      refine ⟨cf, rfl, ?_⟩
      cases hvc : cf.vc with
      | none =>
          rw [hvc] at h
          cases h
          exact .inr ⟨rfl, rfl, fun outVC hout => nomatch hout⟩
      | some outVC =>
          rw [hvc] at h
          dsimp only at h
          by_cases hactive : (l.latches vc).state ≠ .active
          · rw [if_pos hactive] at h
            cases h
          · rw [if_neg hactive] at h
            by_cases hfull : buf.isFullFor inputs.time outVC = true
            · rw [if_pos hfull] at h
              cases h
              refine .inr ⟨rfl, rfl, ?_⟩
              intro v hv
              cases hv
              exact hfull
            · rw [if_neg hfull] at h
              by_cases hown : (cf.head && cf.own) = true
              · rw [if_pos hown] at h
                cases h
              · rw [if_neg hown] at h
                cases h
                refine .inl ⟨rfl, rfl, not_not.mp hactive, ⟨outVC, rfl, by simpa using hfull⟩, ?_⟩
                intro hhead
                rw [hhead, Bool.true_and] at hown
                exact Bool.eq_false_of_not_eq_true hown

/-- A latch is passed over, or its first flit may go: then the virtual channel is allocated
and it is decided. -/
theorem examine_ok {leaves : Bool} (h : l.examine cfg inputs buf lastVC vc = .ok (l', leaves)) :
    leaves = false ∧ l' = l ∧ (∀ f outVC, ¬ l.Ready inputs buf lastVC vc f outVC) ∨
      ∃ cf l₁, (l.latches vc).state ≠ .idle ∧ (l.latches vc).flits.head? = some cf ∧
        (∀ f, l.f = some f → f.pri < cf.pri) ∧ l.allocate cfg inputs buf lastVC vc cf = .ok l₁ ∧
        l₁.decideOn inputs buf vc = .ok (l', leaves) := by
  unfold examine at h
  by_cases hidle : (l.latches vc).state = .idle
  · rw [if_pos hidle] at h
    cases h
    exact .inl ⟨rfl, rfl, fun f outVC hready => hready.busy hidle⟩
  · rw [if_neg hidle] at h
    cases hcf : (l.latches vc).flits.head? with
    | none =>
        rw [hcf] at h
        cases h
        refine .inl ⟨rfl, rfl, fun f outVC hready => ?_⟩
        cases hcf.symm.trans hready.front
    | some cf =>
        rw [hcf] at h
        obtain ⟨outranked, houtranks, h⟩ := bind_ok.mp h
        cases outranked with
        | true =>
            cases h
            refine .inl ⟨rfl, rfl, fun f outVC hready => ?_⟩
            cases hcf.symm.trans hready.front
            obtain ⟨g, hg, hle⟩ := (outranks_ok houtranks).mp rfl
            exact absurd (hready.above g hg) (not_lt.mpr hle)
        | false =>
            obtain ⟨l₁, hallocate, hdecide⟩ := bind_ok.mp h
            refine .inr ⟨cf, l₁, hidle, rfl, ?_, hallocate, hdecide⟩
            intro f hf
            by_contra hle
            have htrue := (outranks_ok houtranks).mpr ⟨f, hf, not_lt.mp hle⟩
            cases htrue

/-- A latch whose flit does not go. -/
theorem examine_stays (h : l.examine cfg inputs buf lastVC vc = .ok (l', false)) :
    Visits l l' vc ∧ (∀ f outVC, ¬ l.Ready inputs buf lastVC vc f outVC) ∧
      ((l.latches vc).Tidy → (l'.latches vc).Tidy) := by
  obtain ⟨-, rfl, hready⟩ | ⟨cf, l₁, -, hcf, -, hallocate, hdecide⟩ := examine_ok h
  · exact ⟨.refl, hready, id⟩
  · obtain ⟨hvisits, hallocates⟩ := allocate_ok hcf hallocate
    obtain ⟨cf', hcf', ⟨htrue, -⟩ | ⟨-, rfl, hfull⟩⟩ := decideOn_ok hdecide
    · cases htrue
    obtain ⟨hretry, hlatch⟩ : Visits l₁ (l₁.retry inputs.time vc cf') vc ∧
        ((l₁.retry inputs.time vc cf').latches vc = l₁.latches vc ∨
          (l₁.retry inputs.time vc cf').latches vc =
            { l₁.latches vc with state := .vcAlloc }) := retry_ok
    refine ⟨hvisits.trans hretry, ?_, ?_⟩
    · intro f outVC hready
      cases hcf.symm.trans hready.front
      cases hallocates with
      | found v _ _ htakes hactivate =>
          rw [hactivate] at hcf'
          cases hcf'
          rw [BufferState.takes, hfull v rfl] at htakes
          simp at htakes
      | notFound hnext _ _ => cases hnext.symm.trans hready.next
      | had hhad =>
          rw [hhad] at hcf'
          cases hcf'
          have := hfull outVC hready.next
          rw [hready.room] at this
          cases this
    · intro htidy
      have htidy₁ : (l₁.latches vc).Tidy := by
        cases hallocates with
        | found v _ _ htakes hactivate =>
            rw [hactivate] at hcf'
            cases hcf'
            rw [BufferState.takes, hfull v rfl] at htakes
            simp at htakes
        | notFound _ _ hsame => exact hsame ▸ htidy
        | had hhad => exact hhad ▸ htidy.replace hcf rfl rfl (.inl rfl)
      obtain hlatch | hlatch := hlatch
      · exact hlatch ▸ htidy₁
      · exact hlatch ▸ htidy₁.setState fun heq => by cases heq

/-- The latch whose flit goes. -/
theorem examine_leaves (h : l.examine cfg inputs buf lastVC vc = .ok (l', true))
    (htidy : (l.latches vc).Tidy) :
    l'.bypassVC = some vc ∧ (∀ other, other ≠ vc → l'.latches other = l.latches other) ∧
      ∃ f outVC output, l.Ready inputs buf lastVC vc f outVC ∧
        l'.latches vc = ⟨.active, output, [{ f with vc := some outVC }]⟩ ∧ f.own = false ∧
        (f.head = true → buf.takes inputs.time outVC = true) := by
  obtain ⟨hfalse, -⟩ | ⟨cf, l₁, hidle, hcf, habove, hallocate, hdecide⟩ := examine_ok h
  · cases hfalse
  · have hmem : cf ∈ (l.latches vc).flits := List.mem_of_mem_head? hcf
    obtain ⟨hvisits, hallocates⟩ := allocate_ok hcf hallocate
    obtain ⟨cf', hcf', ⟨-, rfl, hactive, ⟨outVC, hvc, hroom⟩, hown⟩ | ⟨hfalse, -⟩⟩ :=
      decideOn_ok hdecide
    · refine ⟨rfl, hvisits.others, ?_⟩
      dsimp only
      cases hallocates with
      | found v hhead hnext htakes hactivate =>
          rw [hactivate] at hcf' ⊢
          cases hcf'
          cases hvc
          refine ⟨cf, outVC, some outVC, ⟨hidle, hcf, hnext, hroom, habove⟩, ?_, hown hhead,
            fun _ => htakes⟩
          rw [Latch.activate, htidy.tail_eq_nil]
      | notFound _ hstate hsame =>
          rw [hsame, hstate] at hactive
          cases hactive
      | had hhad =>
          rw [hhad] at hcf' hactive ⊢
          cases hcf'
          have hbody : cf.head = false := htidy.body hactive cf hmem
          refine ⟨cf, outVC, (l.latches vc).outputVC, ⟨hidle, hcf, hvc, hroom, habove⟩, ?_,
            htidy.foreign cf hmem hbody, ?_⟩
          · have hnext : l.nextVC inputs buf lastVC vc cf = some outVC := hvc
            dsimp only at hactive ⊢
            rw [htidy.tail_eq_nil, hactive, hnext]
          · intro hhead
            rw [hbody] at hhead
            cases hhead
    · cases hfalse

/-! ### The whole loop -/

theorem Visits.f_eq {l₁ : BypassLoop subnets classes vcs} (hvisits : Visits l l₁ vc)
    (hheld : l.bypassVC ≠ some vc) : l₁.f = l.f := by
  unfold f
  rw [hvisits.bypassVC]
  cases hbypass : l.bypassVC with
  | none => rfl
  | some held =>
      have hne : held ≠ vc := fun heq => hheld (heq ▸ hbypass)
      rw [Option.bind_some, Option.bind_some, hvisits.others held hne]

/-- What the loop does to one latch makes no difference to another. -/
theorem Visits.ready_iff {l₁ : BypassLoop subnets classes vcs} {b : Fin vcs} {outVC : Fin vcs}
    (hvisits : Visits l l₁ vc) (hheld : l.bypassVC ≠ some vc) (hb : b ≠ vc) :
    l₁.Ready inputs buf lastVC b cf outVC ↔ l.Ready inputs buf lastVC b cf outVC := by
  have hlatch := hvisits.others b hb
  have hf : l₁.f = l.f := hvisits.f_eq hheld
  have hnext : l₁.nextVC inputs buf lastVC b cf = l.nextVC inputs buf lastVC b cf := by
    rw [nextVC, nextVC, hlatch]
  constructor
  · intro h
    exact ⟨hlatch ▸ h.busy, hlatch ▸ h.front, hnext ▸ h.next, h.room, hf ▸ h.above⟩
  · intro h
    exact ⟨hlatch.symm ▸ h.busy, hlatch.symm ▸ h.front, hnext.symm ▸ h.next, h.room,
      hf.symm ▸ h.above⟩

/-- The loop comes to its end, or to a latch whose flit goes. -/
inductive Chooses (l l' : BypassLoop subnets classes vcs) (inputs : NoRDInputs subnets classes vcs)
    (buf : BufferState vcs) (lastVC : Option (Fin vcs)) (order : List (Fin vcs)) : Prop where
  | nobody (hsame : l'.bypassVC = l.bypassVC) (htidy : ∀ vc, (l'.latches vc).Tidy)
      (hkept : ∀ vc, vc ∉ order → l'.latches vc = l.latches vc)
  | latch (before : List (Fin vcs)) (vc : Fin vcs) (after : List (Fin vcs))
      (cf : BypassFlit subnets classes vcs) (outVC : Fin vcs) (output : Option (Fin vcs))
      (horder : order = before ++ vc :: after) (hready : l.Ready inputs buf lastVC vc cf outVC)
      (hbefore : ∀ b ∈ before, ∀ f v, ¬ l.Ready inputs buf lastVC b f v)
      (hbypass : l'.bypassVC = some vc)
      (hlatch : l'.latches vc = ⟨.active, output, [{ cf with vc := some outVC }]⟩)
      (hown : cf.own = false) (htakes : cf.head = true → buf.takes inputs.time outVC = true)
      (htidy : ∀ other, other ≠ vc → (l'.latches other).Tidy)

theorem run_ok {order : List (Fin vcs)} (h : l.run cfg inputs buf lastVC order = .ok l')
    (hnodup : order.Nodup) (hheld : ∀ vc ∈ order, l.bypassVC ≠ some vc)
    (htidy : ∀ vc, (l.latches vc).Tidy) : Chooses l l' inputs buf lastVC order := by
  induction order generalizing l with
  | nil =>
      cases h
      exact .nobody rfl htidy fun _ _ => rfl
  | cons vc order ih =>
      obtain ⟨hnot, hnodup⟩ := List.nodup_cons.mp hnodup
      obtain ⟨⟨l₁, leaves⟩, hexamine, h⟩ := bind_ok.mp h
      cases leaves with
      | true =>
          cases h
          obtain ⟨hbypass, hothers, cf, outVC, output, hready, hlatch, hown, htakes⟩ :=
            examine_leaves hexamine (htidy vc)
          refine .latch [] vc order cf outVC output rfl hready (fun b hb => nomatch hb) hbypass
            hlatch hown htakes ?_
          intro other hne
          rw [hothers other hne]
          exact htidy other
      | false =>
          replace h : l₁.run cfg inputs buf lastVC order = .ok l' := h
          obtain ⟨hvisits, hnotReady, hkeeps⟩ := examine_stays hexamine
          have hvc : l.bypassVC ≠ some vc := hheld vc List.mem_cons_self
          have htidy₁ : ∀ other, (l₁.latches other).Tidy := by
            intro other
            by_cases heq : other = vc
            · exact heq ▸ hkeeps (htidy vc)
            · rw [hvisits.others other heq]
              exact htidy other
          have hheld₁ : ∀ b ∈ order, l₁.bypassVC ≠ some b := by
            intro b hb
            rw [hvisits.bypassVC]
            exact hheld b (List.mem_cons_of_mem _ hb)
          have hne : ∀ b ∈ order, b ≠ vc := fun b hb heq => hnot (heq ▸ hb)
          cases ih h hnodup hheld₁ htidy₁ with
          | nobody hsame htidy' hkept =>
              refine .nobody (hsame.trans hvisits.bypassVC) htidy' ?_
              intro b hb
              rw [List.mem_cons, not_or] at hb
              rw [hkept b hb.2, hvisits.others b hb.1]
          | latch before b after cf outVC output horder hready hbefore hbypass hlatch hown htakes
              htidy' =>
              have hmem : b ∈ order := by simp [horder]
              refine .latch (vc :: before) b after cf outVC output (by rw [horder]; rfl)
                ((hvisits.ready_iff hvc (hne b hmem)).mp hready) ?_ hbypass hlatch hown htakes htidy'
              intro b' hb' f v hready'
              rw [List.mem_cons] at hb'
              obtain rfl | hb' := hb'
              · exact hnotReady f v hready'
              · refine hbefore b' hb' f v ((hvisits.ready_iff hvc (hne b' ?_)).mpr hready')
                simp [horder, hb']

theorem outranks_avoids {e : BufferError} : Avoids (.buffer e) (l.outranks cf) := by
  unfold outranks
  split
  · exact .ok _
  · split
    · split
      · exact .error fun h => nomatch h
      · exact .ok _
    · exact .ok _

theorem allocate_avoids {e : BufferError} :
    Avoids (.buffer e) (l.allocate cfg inputs buf lastVC vc cf) := by
  unfold allocate
  dsimp only
  split
  · split
    · split
      · exact .ok _
      · exact .ok _
    · exact .error fun h => nomatch h
  · split
    · split
      · exact .error fun h => nomatch h
      · exact .ok _
    · exact .ok _

theorem decideOn_avoids {e : BufferError} : Avoids (.buffer e) (l.decideOn inputs buf vc) := by
  unfold decideOn
  split
  · exact .error fun h => nomatch h
  · split
    · exact .ok _
    · split
      · exact .error fun h => nomatch h
      · split
        · exact .ok _
        · split
          · exact .error fun h => nomatch h
          · exact .ok _

theorem examine_avoids {e : BufferError} :
    Avoids (.buffer e) (l.examine cfg inputs buf lastVC vc) := by
  unfold examine
  split
  · exact .ok _
  · split
    · exact .ok _
    · refine outranks_avoids.bind fun outranked _ => ?_
      cases outranked with
      | true => exact .ok _
      | false => exact allocate_avoids.bind fun _ _ => decideOn_avoids

/-- The loop over the latches raises no error of the buffer state. -/
theorem run_avoids {e : BufferError} (order : List (Fin vcs)) :
    Avoids (.buffer e) (l.run cfg inputs buf lastVC order) := by
  induction order generalizing l with
  | nil => exact .ok _
  | cons vc order ih =>
      refine examine_avoids.bind fun result _ => ?_
      obtain ⟨l₁, leaves⟩ := result
      cases leaves with
      | true => exact .ok _
      | false => exact ih

end BypassLoop

end Flyover.Injection
