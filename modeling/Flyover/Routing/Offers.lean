import Flyover.Routing.Calls

/-!
# What a routing decision offers and what is kept

The routing functions with power gating give the priorities of one decision all
different, so that nothing they offer is lost. With the baselines that makes the
whole family: which calls of which functions are represented in full.
-/

namespace Flyover

open KeyedSet

variable {k : Nat}

/-! ### One priority, one call -/

/-- No two calls give the same priority. -/
def DistinctPris (calls : List OutputEntry) : Prop := calls.Pairwise fun a b => a.pri ≠ b.pri

theorem distinctPris_singleton (e : OutputEntry) : DistinctPris [e] :=
  List.pairwise_singleton _ _

theorem distinctPris_onePort (vcs : VCRange) (escape : Bool) (outPort : OutPort) :
    DistinctPris (onePortCalls vcs escape outPort) := by
  cases escape <;> exact distinctPris_singleton _

/-- Three calls under conditions after one at priority 0; the last is made only when
the others are not. -/
theorem distinctPris_cons_callIf {e e₁ e₂ e₃ : OutputEntry} {c₁ c₂ c₃ : Bool}
    (he : e.pri = 0) (h₁ : e₁.pri ≠ 0) (h₂ : e₂.pri ≠ 0) (h₃ : e₃.pri ≠ 0)
    (h₁₂ : c₁ = true → c₂ = true → e₁.pri ≠ e₂.pri)
    (hlast : c₃ = true → c₁ = false ∧ c₂ = false) :
    DistinctPris (e :: (callIf c₁ e₁ ++ (callIf c₂ e₂ ++ callIf c₃ e₃))) := by
  cases c₁ <;> cases c₂ <;> cases c₃ <;>
    simp_all [DistinctPris, callIf, eq_comm (a := (0 : Int))]

theorem Flit.routeCalls_distinct {f : Flit k} {config : RoutingConfig} {n : Node k}
    {inject : Bool} {transit : VCRange → Option (List OutputEntry)} {calls : List OutputEntry}
    (htransit : ∀ vcs calls, transit vcs = some calls → DistinctPris calls)
    (h : f.routeCalls config n inject transit = some calls) : DistinctPris calls := by
  obtain ⟨⟨⟩, -, h⟩ := Option.bind_eq_some_iff.mp h
  split at h
  next => exact Option.some.inj h ▸ distinctPris_singleton _
  next =>
    split at h
    next => exact Option.some.inj h ▸ distinctPris_singleton _
    next => exact htransit _ _ h

theorem flovCalls_distinct {config : RoutingConfig} {traffic : Traffic} {n : Node k} {r : Router}
    {f : Flit k} {inChannel : Option Port} {inject : Bool} {calls : List OutputEntry}
    (h : flovCalls config traffic n r f inChannel inject = some calls) : DistinctPris calls := by
  refine Flit.routeCalls_distinct (fun vcs calls h => ?_) h
  obtain ⟨xyState, -, h⟩ := Option.bind_eq_some_iff.mp h
  obtain ⟨outState, -, h⟩ := Option.bind_eq_some_iff.mp h
  exact Option.some.inj h ▸ distinctPris_onePort _ _ _

theorem optCalls_distinct {detour : Router → Node k → Node k → Bool → Port}
    {config : RoutingConfig} {traffic : Traffic} {n : Node k} {r : Router} {f : Flit k}
    {inChannel : Option Port} {inject : Bool} {calls : List OutputEntry}
    (h : optCalls detour config traffic n r f inChannel inject = some calls) :
    DistinctPris calls := by
  refine Flit.routeCalls_distinct (fun vcs calls h => ?_) h
  obtain ⟨xyState, -, h⟩ := Option.bind_eq_some_iff.mp h
  exact Option.some.inj h ▸ distinctPris_onePort _ _ _

theorem rpCalls_distinct {rtTbl escRtTbl : Node k → Node k → TableEntry} {config : RoutingConfig}
    {traffic : Traffic} {n : Node k} {r : Router} {f : Flit k} {inChannel : Option Port}
    {inject : Bool} {calls : List OutputEntry}
    (h : rpCalls rtTbl escRtTbl config traffic n r f inChannel inject = some calls) :
    DistinctPris calls := by
  refine Flit.routeCalls_distinct (fun vcs calls h => ?_) h
  obtain ⟨outPort, -, h⟩ := Option.bind_eq_some_iff.mp h
  exact Option.some.inj h ▸ distinctPris_onePort _ _ _

theorem adaptiveFlovCalls_distinct {config : RoutingConfig} {traffic : Traffic} {n : Node k}
    {r : Router} {f : Flit k} {inChannel : Option Port} {inject : Bool} {calls : List OutputEntry}
    (h : adaptiveFlovCalls config traffic n r f inChannel inject = some calls) :
    DistinctPris calls := by
  refine Flit.routeCalls_distinct (fun vcs calls h => ?_) h
  extract_lets inVC inEscape gotoEscape xyPort escapeOutPort escapeCall vcBegin yxPort xyFirst
    xyPri yxPri at h
  by_cases hescape : (inEscape || gotoEscape) = true
  · rw [if_pos hescape] at h
    exact Option.some.inj h ▸ distinctPris_singleton _
  · rw [if_neg hescape] at h
    split at h
    next => exact Option.some.inj h ▸ by simp [DistinctPris, escapeCall]
    next =>
      obtain ⟨xyState, -, h⟩ := Option.bind_eq_some_iff.mp h
      obtain ⟨yxState, -, h⟩ := Option.bind_eq_some_iff.mp h
      split at h
      next => cases h
      next =>
        obtain rfl := Option.some.inj h
        apply distinctPris_cons_callIf rfl
        · cases hfirst : xyFirst <;> simp [xyPri, hfirst]
        · cases hfirst : xyFirst <;> simp [yxPri, hfirst]
        · exact one_ne_zero
        · intro hxy hyx
          cases hfirst : xyFirst <;> simp [xyPri, yxPri, hfirst]
        · intro hlast
          simp only [Bool.and_eq_true, Bool.not_eq_true'] at hlast
          simp [hlast.1.1, hlast.1.2]

theorem NoRDFlit.bypassCalls_distinct (f : NoRDFlit k) (vcs : VCRange) (goToEscape : Bool)
    (ringID : Nat) : DistinctPris (f.bypassCalls vcs goToEscape ringID) := by
  unfold bypassCalls
  split
  · exact distinctPris_singleton _
  · dsimp only
    split <;> exact distinctPris_singleton _

theorem NoRDFlit.routerCalls_distinct {f : NoRDFlit k} {vcs : VCRange} {traffic : Traffic}
    {r : NoRDView k} {inChannel : Option Port} {goToEscape : Bool} {calls : List OutputEntry}
    (h : f.routerCalls vcs traffic r inChannel goToEscape = some calls) : DistinctPris calls := by
  unfold routerCalls at h
  extract_lets inEscape ringOutPort xyPort yxPort xyFirst xyPri yxPri escapeVC escapeCall at h
  obtain ⟨xyState, -, h⟩ := Option.bind_eq_some_iff.mp h
  obtain ⟨yxState, -, h⟩ := Option.bind_eq_some_iff.mp h
  extract_lets xyAv yxAv at h
  split at h
  next =>
    obtain rfl := Option.some.inj h
    have hyx : yxPri ≠ 0 := by
      by_cases hport : xyPort = yxPort <;> cases hfirst : xyFirst <;>
        simp [xyPri, yxPri, hfirst, hport]
    apply distinctPris_cons_callIf rfl
    · cases hfirst : xyFirst <;> simp [xyPri, hfirst]
    · exact hyx
    · exact one_ne_zero
    · intro _ hcall
      rw [Bool.and_eq_true, bne_iff_ne] at hcall
      have hport := hcall.2
      cases hfirst : xyFirst <;> simp [xyPri, yxPri, hfirst, hport]
    · intro hlast
      simp only [Bool.and_eq_true, Bool.not_eq_true'] at hlast
      simp [hlast.1.1, hlast.1.2]
  next => exact Option.some.inj h ▸ distinctPris_singleton _

theorem nordCalls_distinct {config : RoutingConfig} {traffic : Traffic} {r : Option (NoRDView k)}
    {f : NoRDFlit k} {inChannel : Option Port} {inject : Bool} {calls : List OutputEntry}
    (h : nordCalls config traffic r f inChannel inject = some calls) : DistinctPris calls := by
  obtain ⟨⟨⟩, -, h⟩ := Option.bind_eq_some_iff.mp h
  split at h
  next =>
    cases r with
    | none =>
        change (if inject then some _ else none) = _ at h
        split at h
        next => exact Option.some.inj h ▸ distinctPris_singleton _
        next => cases h
    | some r =>
        change (if inject then some _ else if r.id = f.dest then some _ else _) = _ at h
        split at h
        next => exact Option.some.inj h ▸ NoRDFlit.bypassCalls_distinct _ _ _ _
        next =>
          split at h
          next => exact Option.some.inj h ▸ distinctPris_singleton _
          next => exact NoRDFlit.routerCalls_distinct h
  next => cases h

theorem ringDatelineCalls_distinct {numVCs : Int} {ringOutput : Node k → Port}
    {r : Option (Node k)} {f : NoRDFlit k} {inject : Bool} {calls : List OutputEntry}
    (h : ringDatelineCalls numVCs ringOutput r f inject = some calls) : DistinctPris calls := by
  unfold ringDatelineCalls at h
  split at h
  next =>
    obtain ⟨⟨⟩, -, h⟩ := Option.bind_eq_some_iff.mp h
    split at h
    next => exact Option.some.inj h ▸ distinctPris_singleton _
    next =>
      cases r with
      | none => cases h
      | some r =>
          dsimp only at h
          split at h
          next => exact Option.some.inj h ▸ distinctPris_singleton _
          next => exact Option.some.inj h ▸ distinctPris_singleton _
  next => cases h

/-! ### The family -/

/-- The routing functions with power gating. -/
inductive GatedRouting where
  | flovMesh
  | optRflovMesh
  | optFlovMesh
  | adaptiveFlovMesh
  | rpMesh
  | nordMesh
  | ringDatelineMesh
  deriving DecidableEq, Repr

/-- What a call of one of them reads besides the globals. -/
structure GatedCall (k : Nat) extends RoutingCall k where
  ringOutput : Node k → Port

namespace GatedCall

variable (call : GatedCall k) (config : RoutingConfig)

/-- The router, for `ring_dateline_mesh`. -/
def ringRouter : Option (Node k) := if call.source then none else some call.n

/-- The output set that a call leaves. -/
def outputs : GatedRouting → Option OutputSet
  | .flovMesh => call.run config Flyover.flovMesh
  | .optRflovMesh => call.run config Flyover.optRflovMesh
  | .optFlovMesh => call.run config Flyover.optFlovMesh
  | .adaptiveFlovMesh => call.run config Flyover.adaptiveFlovMesh
  | .rpMesh => call.run config (Flyover.rpMesh (fun _ => call.rtTbl) fun _ => call.escRtTbl)
  | .nordMesh => Flyover.nordMesh config call.traffic call.view call.f call.inChannel call.inject
  | .ringDatelineMesh =>
      Flyover.ringDatelineMesh config.numVCs call.ringOutput call.ringRouter call.f call.inject

/-- The calls of one of the functions that share their arguments. -/
def runCalls (calls : RoutingCalls k) : Option (List OutputEntry) :=
  calls config call.traffic call.n call.r call.f.toFlit call.inChannel call.inject

/-- The calls of `AddRange` that a call makes. -/
def offers : GatedRouting → Option (List OutputEntry)
  | .flovMesh => call.runCalls config flovCalls
  | .optRflovMesh => call.runCalls config (optCalls rflovDetour)
  | .optFlovMesh => call.runCalls config (optCalls flovDetour)
  | .adaptiveFlovMesh => call.runCalls config adaptiveFlovCalls
  | .rpMesh => call.runCalls config (rpCalls (fun _ => call.rtTbl) fun _ => call.escRtTbl)
  | .nordMesh => nordCalls config call.traffic call.view call.f call.inChannel call.inject
  | .ringDatelineMesh =>
      ringDatelineCalls config.numVCs call.ringOutput call.ringRouter call.f call.inject

variable {call config}

theorem outputs_eq (fn : GatedRouting) :
    call.outputs config fn = (call.offers config fn).map OutputSet.ofCalls := by
  cases fn with
  | flovMesh => rw [outputs, flovMesh_eq_calls]; rfl
  | optRflovMesh => rw [outputs, optRflovMesh, optMesh_eq_calls]; rfl
  | optFlovMesh => rw [outputs, optFlovMesh, optMesh_eq_calls]; rfl
  | adaptiveFlovMesh => rw [outputs, adaptiveFlovMesh_eq_calls]; rfl
  | rpMesh => rw [outputs, rpMesh_eq_calls]; rfl
  | nordMesh => rw [outputs, nordMesh_eq_calls]; rfl
  | ringDatelineMesh => rw [outputs, ringDatelineMesh_eq_calls]; rfl

theorem offers_distinct {fn : GatedRouting} {calls : List OutputEntry}
    (h : call.offers config fn = some calls) : DistinctPris calls := by
  cases fn with
  | flovMesh => exact flovCalls_distinct h
  | optRflovMesh => exact optCalls_distinct h
  | optFlovMesh => exact optCalls_distinct h
  | adaptiveFlovMesh => exact adaptiveFlovCalls_distinct h
  | rpMesh =>
      have hcalls : rpCalls (fun _ => call.rtTbl) (fun _ => call.escRtTbl) config call.traffic
        call.n call.r call.f.toFlit call.inChannel call.inject = some calls := h
      exact rpCalls_distinct hcalls
  | nordMesh => exact nordCalls_distinct h
  | ringDatelineMesh => exact ringDatelineCalls_distinct h

end GatedCall

/-- A call of a routing function of the mesh family. -/
inductive MeshCall where
  | cube {c : Cube} (fn : CubeRouting) (call : CubeCall c)
  | gated {k : Nat} (fn : GatedRouting) (config : RoutingConfig) (call : GatedCall k)

namespace MeshCall

/-- The calls of `AddRange` that it makes. -/
def offers : MeshCall → Option (List Offer)
  | cube fn call => call.offers fn
  | gated fn config call => (call.offers config fn).map (List.map OutputEntry.offer)

/-- The elements of the output set that it leaves. -/
def outputs : MeshCall → Option (List Offer)
  | cube fn call => (call.offers fn).map (ofList Offer.pri)
  | gated fn config call =>
      (call.outputs config fn).map fun set => set.entries.map OutputEntry.offer

/-- The output set represents what the calls offer. -/
def KeepsOffers (call : MeshCall) (calls : List Offer) : Prop :=
  ∃ outputs, call.outputs = some outputs ∧
    ∀ t, Covered Offer.Covers outputs t ↔ Covered Offer.Covers calls t

/-- When it does. -/
def Keeps : MeshCall → Prop
  | cube fn call => call.Keeps fn
  | gated _ _ _ => True

theorem outputs_eq (call : MeshCall) : call.outputs = call.offers.map (ofList Offer.pri) := by
  cases call with
  | cube fn call => rfl
  | gated fn config call =>
      rw [outputs, offers, call.outputs_eq, Option.map_map, Option.map_map]
      congr 1
      funext calls
      have hmap : ofList Offer.pri (calls.map OutputEntry.offer) =
        (ofList OutputEntry.pri calls).map OutputEntry.offer := ofList_map (fun _ => rfl) calls
      simp only [Function.comp_apply, OutputSet.ofCalls_entries, hmap]

/-- The output set that a routing function leaves represents exactly what its calls
of `AddRange` offer when the call is none of the baselines that give one priority to
two ports. -/
theorem keepsOffers_iff (call : MeshCall) {calls : List Offer} (h : call.offers = some calls) :
    call.KeepsOffers calls ↔ call.Keeps := by
  have hkept : call.KeepsOffers calls ↔ Kept calls := by
    rw [KeepsOffers, outputs_eq, h, Option.map_some]
    constructor
    · rintro ⟨outputs, heq, hrep⟩
      obtain rfl := Option.some.inj heq
      exact hrep
    · exact fun hkept => ⟨_, rfl, hkept⟩
  rw [hkept]
  cases call with
  | cube fn call => exact call.offers_kept_iff fn h
  | gated fn config call =>
      obtain ⟨entries, hentries, rfl⟩ := Option.map_eq_some_iff.mp h
      have hpris : (entries.map OutputEntry.offer).Pairwise fun a b => a.pri ≠ b.pri :=
        List.pairwise_map.mpr (GatedCall.offers_distinct hentries)
      exact iff_true_intro (kept_of_pris hpris)

/-- `min_adapt_mesh` in the middle of nine routers, for a packet to the first of them
that has come in over dimension 0 on the second of two virtual channels. -/
def diagonalCall : CubeCall ⟨3, 2⟩ where
  config := .twoVCs
  id := ⟨4, by decide⟩
  f := ⟨.anyType, 1, ⟨8, by decide⟩, ⟨0, by decide⟩, 0, 0⟩
  inChannel := 0
  inject := false
  freeCredit := fun _ => 0
  usedCredit := fun _ => 0
  isFaultyOutput := fun _ => false
  draw := fun _ => 0

theorem keepsOffers_dimOrder :
    (cube .dimOrderMesh diagonalCall).offers = some [⟨1, 0, 1, 0⟩] ∧
      ((cube .dimOrderMesh diagonalCall).KeepsOffers [⟨1, 0, 1, 0⟩] ↔
        (cube .dimOrderMesh diagonalCall).Keeps) :=
  ⟨by decide, keepsOffers_iff _ (by decide)⟩

/-- The way along dimension 1 is offered and not represented. -/
theorem not_keepsOffers : ¬ ∀ (call : MeshCall) (calls : List Offer),
    call.offers = some calls → call.KeepsOffers calls := by
  intro hall
  have hcalls : (cube .minAdaptMesh diagonalCall).offers =
      some [⟨1, 0, 0, 0⟩, ⟨1, 1, 1, 1⟩, ⟨3, 1, 1, 1⟩] := by decide
  have houtputs : (cube .minAdaptMesh diagonalCall).outputs =
      some [⟨1, 1, 1, 1⟩, ⟨1, 0, 0, 0⟩] := by decide
  obtain ⟨outputs, heq, hrep⟩ := hall _ _ hcalls
  obtain rfl := Option.some.inj (heq.symm.trans houtputs)
  obtain ⟨e, he, hcovers⟩ := (hrep ⟨3, 1, 1⟩).mpr
    ⟨⟨3, 1, 1, 1⟩, by simp, rfl, ⟨le_rfl, le_rfl⟩, rfl⟩
  simp only [List.mem_cons, List.not_mem_nil, or_false] at he
  rcases he with rfl | rfl
  · exact absurd hcovers.1 (by decide)
  · exact absurd hcovers.1 (by decide)

end MeshCall

end Flyover
