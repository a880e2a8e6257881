import Flyover.NoRD.DatelineMesh
import Flyover.Routing.ClassIsolation
import Flyover.Routing.CubeOffers

/-!
# The calls behind an output set

A routing function fills its output set by calls of `AddRange`. Here are those
that the functions with power gating make, each in the order of its source, and
the output sets that were modelled before are what they leave. On a square mesh
the baselines agree with the functions for any number of dimensions.
-/

namespace Flyover

open KeyedSet

variable {k : Nat}

/-! ### Ports by their numbers -/

/-- How the code numbers the ports. -/
def OutPort.number : OutPort → Int
  | .inject => -1
  | .mesh .east => 0
  | .mesh .west => 1
  | .mesh .south => 2
  | .mesh .north => 3
  | .eject => 4

/-- The entry with the port as the code numbers it. -/
def OutputEntry.offer (e : OutputEntry) : Offer := ⟨e.outputPort.number, e.vcStart, e.vcEnd, e.pri⟩

/-- The output set that calls of `AddRange` leave after `Clear`. -/
def OutputSet.ofCalls (calls : List OutputEntry) : OutputSet :=
  calls.foldl (fun set e => set.addRange e.outputPort e.vcStart e.vcEnd e.pri) clear

theorem OutputSet.ofCalls_entries (calls : List OutputEntry) :
    (ofCalls calls).entries = ofList OutputEntry.pri calls := by
  have hfold : ∀ set : OutputSet,
      (calls.foldl (fun set e => set.addRange e.outputPort e.vcStart e.vcEnd e.pri) set).entries =
        calls.foldl (fun entries e => KeyedSet.insert OutputEntry.pri e entries) set.entries := by
    induction calls with
    | nil => exact fun _ => rfl
    | cons c calls ih =>
        intro set
        rw [List.foldl_cons, List.foldl_cons, ih, ← insert_eq]
        rfl
  exact hfold clear

/-! ### The calls -/

/-- The calls of a routing function, in the order in which it makes them. -/
abbrev RoutingCalls (k : Nat) :=
  RoutingConfig → Traffic → Node k → Router → Flit k → Option Port → Bool →
    Option (List OutputEntry)

/-- The first calls of `flov_mesh` and its like. -/
def Flit.routeCalls (f : Flit k) (config : RoutingConfig) (n : Node k) (inject : Bool)
    (transit : VCRange → Option (List OutputEntry)) : Option (List OutputEntry) := do
  let vcs := config.vcs f.type
  f.assertVC vcs inject
  if inject then pure [⟨.inject, vcs.vcBegin, vcs.vcEnd, 0⟩]
  else if n = f.dest then pure [⟨.eject, vcs.vcBegin, vcs.vcEnd, 0⟩]
  else transit vcs

/-- The last call of `flov_mesh` and its like. -/
def onePortCalls (vcs : VCRange) (escape : Bool) (outPort : OutPort) : List OutputEntry :=
  if escape then [⟨outPort, vcs.vcBegin, vcs.vcBegin, 0⟩]
  else [⟨outPort, vcs.vcBegin + 1, vcs.vcEnd, 0⟩]

/-- A call under a condition. -/
def callIf (cond : Bool) (e : OutputEntry) : List OutputEntry := if cond then [e] else []

/-- The calls of `flov_mesh`. -/
def flovCalls : RoutingCalls k := fun config traffic n r f inChannel inject =>
  f.routeCalls config n inject fun vcs => do
    let inVC := if inChannel = none then vcs.vcEnd else f.vc
    let xyPort := dorNextMesh k n f.dest false
    let xyState ← r.neighborPowerState xyPort
    let outPort := if xyState ≠ .powerOn then dorNextMesh k n f.dest true else xyPort
    let outState ← r.neighborPowerState outPort
    let escape : Bool := inVC = vcs.vcBegin ∨ 300 < traffic.simTime - f.rtime ∨
      (n.Diagonal f.dest ∧ outState ≠ .powerOn)
    let outPort :=
      if escape ∧ Router.bottomRow n = false ∧ n.Diagonal f.dest then .mesh .south else outPort
    pure (onePortCalls vcs escape outPort)

/-- The calls of `opt_flov_mesh` and `opt_rflov_mesh`. -/
def optCalls (detour : Router → Node k → Node k → Bool → Port) : RoutingCalls k :=
  fun config traffic n r f inChannel inject =>
    f.routeCalls config n inject fun vcs => do
      let inVC := if inChannel = none then vcs.vcEnd else f.vc
      let escape := inVC == vcs.vcBegin || decide (traffic.simTime - f.rtime > 300)
      let xyPort := dorNextMesh k n f.dest false
      let xyState ← r.neighborPowerState xyPort
      let detoured := decide (n.Diagonal f.dest) && xyState != .powerOn
      let outPort := if detoured then .mesh (detour r n f.dest escape) else xyPort
      let uTurn := detoured && inChannel == some .south && outPort == .mesh .south
      let escape := escape || uTurn
      let outPort :=
        if escape ∧ Router.bottomRow n = false ∧ n.Diagonal f.dest ∧ outPort = .mesh .north
        then .mesh .south else outPort
      pure (onePortCalls vcs escape outPort)

/-- The calls of `rp_mesh`. -/
def rpCalls (rtTbl escRtTbl : Node k → Node k → TableEntry) : RoutingCalls k :=
  fun config traffic n _ f inChannel inject =>
    f.routeCalls config n inject fun vcs => do
      let escape := rpEscape traffic vcs f inChannel
      let outPort ← (rpTable (rtTbl n) (escRtTbl n) escape f.dest).outPort
      pure (onePortCalls vcs escape outPort)

/-- The calls of `adaptive_flov_mesh`. -/
def adaptiveFlovCalls : RoutingCalls k := fun config traffic n r f inChannel inject =>
  f.routeCalls config n inject fun vcs => do
    let inVC := if inChannel = none then vcs.vcEnd else f.vc
    let inEscape := inVC == vcs.vcBegin
    let gotoEscape := decide (f.misrouteHops > config.missRouteThreshold)
    let xyPort := dorNextMesh k n f.dest false
    let escapeOutPort :=
      if Router.bottomRow n = false ∧ n.Diagonal f.dest ∧ xyPort ≠ .mesh .north then .mesh .south
      else xyPort
    let escapeCall : OutputEntry := ⟨escapeOutPort, vcs.vcBegin, vcs.vcBegin, 0⟩
    if inEscape || gotoEscape then pure [escapeCall]
    else
      let vcBegin := vcs.vcBegin + 1
      let yxPort := dorNextMesh k n f.dest true
      let xyFirst := decide (traffic.freeCredit xyPort ≥ traffic.freeCredit yxPort)
      let xyPri := if xyFirst then 2 else 1
      let yxPri := if xyFirst then 1 else 2
      if ¬ n.Diagonal f.dest then pure [escapeCall, ⟨xyPort, vcBegin, vcs.vcEnd, 1⟩]
      else
        let xyState ← r.neighborPowerState xyPort
        let yxState ← r.neighborPowerState yxPort
        let xyAv := xyAvaiable r k xyState f.dest.x
        let yxAv := yxAvaiable r k yxState f.dest.y
        -- `assert(xy_out_port != yx_out_port)`
        if xyPort = yxPort then none
        else
          pure (escapeCall ::
            (callIf (xyAv && xyPort != inPort inChannel) ⟨xyPort, vcBegin, vcs.vcEnd, xyPri⟩ ++
              (callIf (yxAv && yxPort != inPort inChannel) ⟨yxPort, vcBegin, vcs.vcEnd, yxPri⟩ ++
                callIf (!xyAv && !yxAv && escapeOutPort != inPort inChannel)
                  ⟨escapeOutPort, vcBegin, vcs.vcEnd, 1⟩)))

namespace NoRDFlit

/-- The call of the bypass branch of `nord_mesh`. -/
def bypassCalls (f : NoRDFlit k) (vcs : VCRange) (goToEscape : Bool) (ringID : Nat) :
    List OutputEntry :=
  if f.bypassVC == vcs.vcEnd - 1 || f.bypassVC == vcs.vcEnd then
    [⟨.inject, f.bypassVC, f.bypassVC, 1⟩]
  else
    let vcEnd := vcs.vcEnd - 2
    if !goToEscape then [⟨.inject, vcs.vcBegin, vcEnd, 1⟩]
    else
      let escapeVC := if f.ringDest > ringID then vcEnd + 1 else vcEnd + 2
      [⟨.inject, escapeVC, escapeVC, 0⟩]

/-- The calls of the router branch of `nord_mesh`. -/
def routerCalls (f : NoRDFlit k) (vcs : VCRange) (traffic : Traffic) (r : NoRDView k)
    (inChannel : Option Port) (goToEscape : Bool) : Option (List OutputEntry) := do
  let inEscape := f.inEscape vcs r.id inChannel
  let ringOutPort := OutPort.mesh r.id.ringOutput
  let xyPort := dorNextMesh k r.id f.dest false
  let yxPort := dorNextMesh k r.id f.dest true
  let xyFirst := decide (traffic.freeCredit xyPort ≥ traffic.freeCredit yxPort)
  let xyPri := if xyFirst then 3 else 2
  let yxPri := if xyPort = yxPort then xyPri else if xyFirst then 2 else 3
  let xyState ← r.neighborPowerState xyPort
  let yxState ← r.neighborPowerState yxPort
  let xyAv := r.available inChannel xyPort xyState
  let yxAv := r.available inChannel yxPort yxState
  let escapeVC := f.escapeVC vcs inEscape r.id.ringID
  let escapeCall : OutputEntry := ⟨ringOutPort, escapeVC, escapeVC, 0⟩
  if !inEscape && !goToEscape then
    let vcEnd := vcs.vcEnd - 2
    pure (escapeCall ::
      (callIf xyAv ⟨xyPort, vcs.vcBegin, vcEnd, xyPri⟩ ++
        (callIf (yxAv && xyPort != yxPort) ⟨yxPort, vcs.vcBegin, vcEnd, yxPri⟩ ++
          callIf (!xyAv && !yxAv && ringOutPort != inPort inChannel)
            ⟨ringOutPort, vcs.vcBegin, vcEnd, 1⟩)))
  else pure [escapeCall]

end NoRDFlit

/-- The calls of `nord_mesh`. -/
def nordCalls (config : RoutingConfig) (traffic : Traffic) (r : Option (NoRDView k))
    (f : NoRDFlit k) (inChannel : Option Port) (inject : Bool) : Option (List OutputEntry) := do
  let vcs := config.vcs f.type
  f.assertVC vcs (inject || r.isNone)
  -- `assert(vcEnd - vcBegin + 1 > 2)`
  if vcs.vcEnd - vcs.vcBegin + 1 > 2 then
    let goToEscape := decide (f.misrouteHops > config.missRouteThreshold)
    match r with
    | none => if inject then pure [⟨.inject, vcs.vcBegin, vcs.vcEnd, 0⟩] else none
    | some r =>
        if inject then pure (f.bypassCalls vcs goToEscape r.id.ringID)
        else if r.id = f.dest then pure [⟨.eject, vcs.vcBegin, vcs.vcEnd, 0⟩]
        else f.routerCalls vcs traffic r inChannel goToEscape
  else none

/-- The call of `ring_dateline_mesh`. -/
def ringDatelineCalls (numVCs : Int) (ringOutput : Node k → Port) (r : Option (Node k))
    (f : NoRDFlit k) (inject : Bool) : Option (List OutputEntry) :=
  -- `assert(gNumVCs >= 2)`
  if numVCs ≥ 2 then do
    f.assertVC ⟨0, numVCs - 1⟩ inject
    if inject then
      let vcs := if f.bypassVC ≠ -1 then halfOf numVCs f.bypassVC else firstHalf numVCs
      pure [⟨.inject, vcs.vcBegin, vcs.vcEnd, 0⟩]
    else
      match r with
      | none => none
      | some r =>
          if r = f.dest then pure [⟨.eject, 0, numVCs - 1, 0⟩]
          else
            let vcs := if r.val + 1 = k * k then secondHalf numVCs else halfOf numVCs f.vc
            pure [⟨.mesh (ringOutput r), vcs.vcBegin, vcs.vcEnd, 0⟩]
  else none

/-! ### The output sets are what the calls leave -/

theorem OutputSet.ofCalls_onePort (vcs : VCRange) (escape : Bool) (outPort : OutPort) :
    ofCalls (onePortCalls vcs escape outPort) = onePort vcs escape outPort := by
  cases escape <;> rfl

theorem OutputSet.ofCalls_singleton (e : OutputEntry) :
    ofCalls [e] = clear.addRange e.outputPort e.vcStart e.vcEnd e.pri := rfl

theorem OutputSet.foldl_callIf (set : OutputSet) (cond : Bool) (e : OutputEntry) :
    (callIf cond e).foldl (fun set e => set.addRange e.outputPort e.vcStart e.vcEnd e.pri) set =
      set.addRangeIf cond e.outputPort e.vcStart e.vcEnd e.pri := by
  cases cond <;> rfl

theorem OutputSet.ofCalls_cons_callIf (e e₁ e₂ e₃ : OutputEntry) (c₁ c₂ c₃ : Bool) :
    ofCalls (e :: (callIf c₁ e₁ ++ (callIf c₂ e₂ ++ callIf c₃ e₃))) =
      (((clear.addRange e.outputPort e.vcStart e.vcEnd e.pri).addRangeIf c₁ e₁.outputPort
          e₁.vcStart e₁.vcEnd e₁.pri).addRangeIf c₂ e₂.outputPort e₂.vcStart e₂.vcEnd
          e₂.pri).addRangeIf c₃ e₃.outputPort e₃.vcStart e₃.vcEnd e₃.pri := by
  rw [ofCalls, List.foldl_cons, List.foldl_append, List.foldl_append, foldl_callIf, foldl_callIf,
    foldl_callIf]

theorem Flit.route_eq {f : Flit k} {config : RoutingConfig} {n : Node k} {inject : Bool}
    {transit : VCRange → Option OutputSet} {calls : VCRange → Option (List OutputEntry)}
    (h : ∀ vcs, transit vcs = (calls vcs).map OutputSet.ofCalls) :
    f.route config n inject transit =
      (f.routeCalls config n inject calls).map OutputSet.ofCalls := by
  simp only [route, routeCalls, Option.bind_eq_bind, Option.pure_def, Option.map_bind,
    Function.comp_def, apply_ite (Option.map OutputSet.ofCalls), Option.map_some,
    OutputSet.ofCalls_singleton, h]

theorem flovMesh_eq_calls : @flovMesh k = fun config traffic n r f inChannel inject =>
    (flovCalls config traffic n r f inChannel inject).map OutputSet.ofCalls := by
  funext config traffic n r f inChannel inject
  apply Flit.route_eq
  intro vcs
  simp only [Option.map_bind, Option.bind_eq_bind, Option.pure_def, Option.map_some,
    Function.comp_def, OutputSet.ofCalls_onePort]

theorem optMesh_eq_calls (detour : Router → Node k → Node k → Bool → Port) :
    optMesh detour = fun config traffic n r f inChannel inject =>
      (optCalls detour config traffic n r f inChannel inject).map OutputSet.ofCalls := by
  funext config traffic n r f inChannel inject
  apply Flit.route_eq
  intro vcs
  simp only [Option.map_bind, Option.bind_eq_bind, Option.pure_def, Option.map_some,
    Function.comp_def, OutputSet.ofCalls_onePort]

theorem rpMesh_eq_calls (rtTbl escRtTbl : Node k → Node k → TableEntry) :
    rpMesh rtTbl escRtTbl = fun config traffic n r f inChannel inject =>
      (rpCalls rtTbl escRtTbl config traffic n r f inChannel inject).map OutputSet.ofCalls := by
  funext config traffic n r f inChannel inject
  apply Flit.route_eq
  intro vcs
  simp only [Option.map_bind, Option.bind_eq_bind, Option.pure_def, Option.map_some,
    Function.comp_def, OutputSet.ofCalls_onePort]

theorem adaptiveFlovMesh_eq_calls : @adaptiveFlovMesh k =
    fun config traffic n r f inChannel inject =>
      (adaptiveFlovCalls config traffic n r f inChannel inject).map OutputSet.ofCalls := by
  funext config traffic n r f inChannel inject
  apply Flit.route_eq
  intro vcs
  simp only [Option.map_bind, Option.bind_eq_bind, Option.pure_def, Option.map_some,
    Function.comp_def, apply_ite (Option.map OutputSet.ofCalls), OutputSet.ofCalls_singleton,
    OutputSet.ofCalls_cons_callIf, Option.map_none]
  rfl

theorem NoRDFlit.bypassRoute_eq_calls (f : NoRDFlit k) (vcs : VCRange) (goToEscape : Bool)
    (ringID : Nat) :
    f.bypassRoute vcs goToEscape ringID =
      OutputSet.ofCalls (f.bypassCalls vcs goToEscape ringID) := by
  simp only [bypassRoute, bypassCalls, apply_ite OutputSet.ofCalls, OutputSet.ofCalls_singleton]

theorem NoRDFlit.routerRoute_eq_calls (f : NoRDFlit k) (vcs : VCRange) (traffic : Traffic)
    (r : NoRDView k) (inChannel : Option Port) (goToEscape : Bool) :
    f.routerRoute vcs traffic r inChannel goToEscape =
      (f.routerCalls vcs traffic r inChannel goToEscape).map OutputSet.ofCalls := by
  simp only [routerRoute, routerCalls, Option.map_bind, Option.bind_eq_bind, Option.pure_def,
    Option.map_some, Function.comp_def, apply_ite (Option.map OutputSet.ofCalls),
    OutputSet.ofCalls_singleton, OutputSet.ofCalls_cons_callIf]

theorem nordMesh_eq_calls : @nordMesh k = fun config traffic r f inChannel inject =>
    (nordCalls config traffic r f inChannel inject).map OutputSet.ofCalls := by
  funext config traffic r f inChannel inject
  cases r <;>
    simp only [nordMesh, nordCalls, Option.map_bind, Option.bind_eq_bind, Option.pure_def,
      Option.map_some, Function.comp_def, apply_ite (Option.map OutputSet.ofCalls),
      OutputSet.ofCalls_singleton, Option.map_none, NoRDFlit.bypassRoute_eq_calls,
      NoRDFlit.routerRoute_eq_calls]

theorem ringDatelineMesh_eq_calls : @ringDatelineMesh k = fun numVCs ringOutput r f inject =>
    (ringDatelineCalls numVCs ringOutput r f inject).map OutputSet.ofCalls := by
  funext numVCs ringOutput r f inject
  cases r <;>
    simp only [ringDatelineMesh, ringDatelineCalls, Option.map_bind, Option.bind_eq_bind,
      Option.pure_def, Option.map_some, Function.comp_def,
      apply_ite (Option.map OutputSet.ofCalls), OutputSet.ofCalls_singleton, Option.map_none]

/-! ### The baselines on a square mesh -/

/-- The port with a number. -/
def OutPort.ofNumber (number : Int) : OutPort :=
  if number = -1 then .inject
  else if number = 0 then .mesh .east
  else if number = 1 then .mesh .west
  else if number = 2 then .mesh .south
  else if number = 3 then .mesh .north
  else .eject

@[simp] theorem OutPort.ofNumber_number (p : OutPort) : ofNumber p.number = p := by
  cases p with
  | inject => rfl
  | eject => rfl
  | mesh p => cases p <;> rfl

theorem OutPort.number_inj {p q : OutPort} : p.number = q.number ↔ p = q := by
  constructor
  · intro h
    rw [← ofNumber_number p, h, ofNumber_number]
  · rintro rfl
    rfl

theorem OutPort.number_sidePort (dim cur dest : Nat) (hdim : dim < 2) :
    (OutPort.mesh (sidePort dim cur dest)).number = Cube.sidePort dim cur dest := by
  unfold sidePort Cube.sidePort
  rcases Nat.le_one_iff_eq_zero_or_eq_one.mp (Nat.le_of_lt_succ hdim) with rfl | rfl
  · by_cases hlt : cur < dest <;> simp [hlt, number]
  · by_cases hlt : cur < dest <;> simp [hlt, number]

/-- With two dimensions the loops of `dor_next_mesh` have one round each. -/
theorem Cube.dorNextMesh_square (k cur dest : Nat) (descending : Bool) :
    (⟨k, 2⟩ : Cube).dorNextMesh cur dest descending =
      (Flyover.dorNextMesh k cur dest descending).number := by
  unfold Cube.dorNextMesh Flyover.dorNextMesh
  split
  · rfl
  · cases descending with
    | true =>
        simp only [if_true, dorDescending, Cube.gNodes, pow_two]
        split
        · exact (OutPort.number_sidePort 1 _ _ (by decide)).symm
        · exact (OutPort.number_sidePort 0 _ _ (by decide)).symm
    | false =>
        simp only [Bool.false_eq_true, if_false, dorAscending]
        split
        · exact (OutPort.number_sidePort 0 _ _ (by decide)).symm
        · exact (OutPort.number_sidePort 1 _ _ (by decide)).symm

/-- The router of a square mesh. -/
def Node.toCube (n : Node k) : Fin (⟨k, 2⟩ : Cube).gNodes :=
  ⟨n.val, lt_of_lt_of_eq n.isLt (pow_two k).symm⟩

/-- A call in a square mesh. -/
def CubeCall.ofSquare (config : RoutingConfig) (traffic : Traffic) (n : Node k) (f : Flit k)
    (inChannel : Option Port) (inject : Bool) : CubeCall ⟨k, 2⟩ where
  config := config
  id := n.toCube
  f := ⟨f.type, f.vc, n.toCube, f.dest.toCube, 0, 0⟩
  inChannel := (inPort inChannel).number
  inject := inject
  freeCredit := fun port => traffic.freeCredit (.ofNumber port)
  usedCredit := fun _ => 0
  isFaultyOutput := fun _ => false
  draw := fun _ => 0

theorem CubeCall.inVC_ofSquare (config : RoutingConfig) (traffic : Traffic) (n : Node k)
    (f : Flit k) (inChannel : Option Port) (inject : Bool) :
    (ofSquare config traffic n f inChannel inject).inVC =
      if inChannel = none then (config.vcs f.type).vcEnd else f.vc := by
  cases inChannel with
  | none => rfl
  | some p => cases p <;> rfl

/-- The output set that offers leave, with the ports by their numbers. -/
def OutputSet.ofOffers (offers : List Offer) : OutputSet :=
  ofCalls (offers.map fun o => ⟨.ofNumber o.outputPort, o.vcStart, o.vcEnd, o.pri⟩)

/-- The baselines agree if they do on the way. -/
theorem routeMinimal_ofSquare {config : RoutingConfig} {traffic : Traffic} {n : Node k}
    {f : Flit k} {inChannel : Option Port} {inject : Bool}
    {transit : VCRange → Option OutputSet} {offers : List Offer}
    (h : transit (config.vcs f.type) = some (OutputSet.ofOffers offers)) :
    f.route config n inject transit =
      ((CubeCall.ofSquare config traffic n f inChannel inject).routeMinimal offers).map
        OutputSet.ofOffers := by
  have hassert : (CubeCall.ofSquare config traffic n f inChannel inject).assertVC =
      f.assertVC (config.vcs f.type) inject := by
    simp only [CubeCall.assertVC, Flit.assertVC]
    rfl
  have hdest : (n.toCube = f.dest.toCube) = (n = f.dest) := by
    simp [Node.toCube, Fin.ext_iff]
  simp only [Flit.route, CubeCall.routeMinimal, hassert, Option.bind_eq_bind, Option.pure_def,
    Option.map_bind, Function.comp_def, apply_ite (Option.map OutputSet.ofOffers),
    Option.map_some, h]
  simp only [CubeCall.ofSquare, hdest]
  rfl

theorem ofNumber_dorNextMesh (n m : Node k) (descending : Bool) :
    OutPort.ofNumber ((⟨k, 2⟩ : Cube).dorNextMesh n m descending) =
      dorNextMesh k n m descending := by
  rw [Cube.dorNextMesh_square, OutPort.ofNumber_number]

theorem ofNumber_sidePort (dim cur dest : Nat) (hdim : dim < 2) :
    OutPort.ofNumber (Cube.sidePort dim cur dest) = .mesh (sidePort dim cur dest) := by
  rw [← OutPort.number_sidePort dim cur dest hdim, OutPort.ofNumber_number]

/-- Two rounds of the loop over the dimensions. -/
theorem minAdaptMesh_square (config : RoutingConfig) (traffic : Traffic) (n : Node k)
    (r : Router) (f : Flit k) (inChannel : Option Port) (inject : Bool) :
    minAdaptMesh config traffic n r f inChannel inject =
      (CubeCall.ofSquare config traffic n f inChannel inject).minAdaptMesh.map
        OutputSet.ofOffers := by
  apply routeMinimal_ofSquare
  have hid : (CubeCall.ofSquare config traffic n f inChannel inject).id.val = n.val := rfl
  have hdest : (CubeCall.ofSquare config traffic n f inChannel inject).f.dest.val = f.dest.val :=
    rfl
  have hvcs : (CubeCall.ofSquare config traffic n f inChannel inject).vcs = config.vcs f.type := rfl
  rw [CubeCall.inVC_ofSquare, hid, hdest, hvcs]
  generalize (if inChannel = none then (config.vcs f.type).vcEnd else f.vc) = inVC
  have hrow := ofNumber_sidePort 0 (n % k) (f.dest % k) (by decide)
  have hcolumn := ofNumber_sidePort 1 (n / k % k) (f.dest / k % k) (by decide)
  simp only [Cube.minimalOffers, addMinimal, OutputSet.addRangeIf, bne_iff_ne]
  by_cases hvc : inVC = (config.vcs f.type).vcBegin
  · simp [hvc, OutputSet.ofOffers, OutputSet.ofCalls, ofNumber_dorNextMesh]
  · by_cases hx : n.val % k = f.dest.val % k <;> by_cases hy : n.val / k % k = f.dest.val / k % k <;>
      simp [hvc, hx, hy, hrow, hcolumn, OutputSet.ofOffers, OutputSet.ofCalls,
        ofNumber_dorNextMesh]

theorem minAdaptiveMesh_square (config : RoutingConfig) (traffic : Traffic) (n : Node k)
    (r : Router) (f : Flit k) (inChannel : Option Port) (inject : Bool) :
    minAdaptiveMesh config traffic n r f inChannel inject =
      (CubeCall.ofSquare config traffic n f inChannel inject).minAdaptiveMesh.map
        OutputSet.ofOffers := by
  apply routeMinimal_ofSquare
  have hid : (CubeCall.ofSquare config traffic n f inChannel inject).id.val = n.val := rfl
  have hdest : (CubeCall.ofSquare config traffic n f inChannel inject).f.dest.val = f.dest.val :=
    rfl
  have hvcs : (CubeCall.ofSquare config traffic n f inChannel inject).vcs = config.vcs f.type := rfl
  have hcredit : ∀ p, (CubeCall.ofSquare config traffic n f inChannel inject).freeCredit p =
      traffic.freeCredit (.ofNumber p) := fun _ => rfl
  rw [CubeCall.inVC_ofSquare, hid, hdest, hvcs]
  generalize (if inChannel = none then (config.vcs f.type).vcEnd else f.vc) = inVC
  simp only [hcredit, Cube.dorNextMesh_square, OutPort.ofNumber_number, OutPort.number_inj,
    OutputSet.addRangeIf, bne_iff_ne]
  by_cases hvc : inVC = (config.vcs f.type).vcBegin
  · simp [hvc, OutputSet.ofOffers, OutputSet.ofCalls]
  · by_cases hport : dorNextMesh k n f.dest false = dorNextMesh k n f.dest true
    · simp [hvc, hport, OutputSet.ofOffers, OutputSet.ofCalls]
    · have hnumber := mt OutPort.number_inj.mp hport
      simp [hvc, hport, hnumber, OutputSet.ofOffers, OutputSet.ofCalls]

end Flyover
