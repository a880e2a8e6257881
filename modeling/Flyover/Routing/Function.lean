import Flyover.KeyedSet
import Flyover.Router

/-!
# Routing functions

A routing function looks at a flit, the port it came in by and what its router
records, and fills an output set: output ports with a range of virtual channels
and a priority. What it reads besides (the time, free credits) may be anything.

A failed assertion is `none`; so is a look-up of a neighbour state at a port
that is not a mesh port.
-/

namespace Flyover

/-- An output port as the routing functions number them: -1 at injection, 0 to 3,
and `2*gN`. -/
inductive OutPort where
  | inject
  | mesh (p : Port)
  | eject
  deriving DecidableEq, Repr

/-- `in_channel` among the output ports. -/
def inPort : Option Port → OutPort
  | none => .eject
  | some p => .mesh p

@[simp] theorem OutPort.mesh_beq (p q : Port) : (OutPort.mesh p == OutPort.mesh q) = (p == q) := by
  cases p <;> cases q <;> rfl

/-- `OutputSet::sSetElement` -/
structure OutputEntry where
  outputPort : OutPort
  vcStart : Int
  vcEnd : Int
  pri : Int
  deriving DecidableEq, Repr

/-- A set of entries that `operator<` compares by their priorities only, the
higher ones first: no two entries have the same priority. -/
structure OutputSet where
  entries : List OutputEntry
  sorted : entries.Pairwise fun e e' => e'.pri < e.pri

namespace OutputSet

instance : Membership OutputEntry OutputSet := ⟨fun set e => e ∈ set.entries⟩

theorem mem_def {set : OutputSet} {e : OutputEntry} : e ∈ set ↔ e ∈ set.entries := Iff.rfl

/-- `OutputSet::Clear` -/
def clear : OutputSet := ⟨[], List.Pairwise.nil⟩

/-- `std::set::insert`: an element equivalent to one that is there is not inserted. -/
def insert (e : OutputEntry) : List OutputEntry → List OutputEntry
  | [] => [e]
  | first :: rest =>
      if first.pri < e.pri then e :: first :: rest
      else if e.pri < first.pri then first :: insert e rest
      else first :: rest

theorem insert_eq (e : OutputEntry) (entries : List OutputEntry) :
    insert e entries = KeyedSet.insert OutputEntry.pri e entries := by
  induction entries with
  | nil => rfl
  | cons first rest ih => rw [insert, KeyedSet.insert, ih]

theorem mem_insert {e e' : OutputEntry} {entries : List OutputEntry}
    (hsorted : entries.Pairwise fun e e' => e'.pri < e.pri) :
    e' ∈ insert e entries ↔ e' ∈ entries ∨ e' = e ∧ ∀ x ∈ entries, x.pri ≠ e.pri := by
  rw [insert_eq]
  exact KeyedSet.mem_insert hsorted

theorem sorted_insert {e : OutputEntry} {entries : List OutputEntry}
    (hsorted : entries.Pairwise fun e e' => e'.pri < e.pri) :
    (insert e entries).Pairwise fun e e' => e'.pri < e.pri := by
  rw [insert_eq]
  exact KeyedSet.sorted_insert hsorted

/-- `OutputSet::AddRange` -/
def addRange (set : OutputSet) (outputPort : OutPort) (vcStart vcEnd pri : Int) : OutputSet :=
  ⟨insert ⟨outputPort, vcStart, vcEnd, pri⟩ set.entries, sorted_insert set.sorted⟩

@[simp] theorem not_mem_clear (e : OutputEntry) : e ∉ clear := by simp [mem_def, clear]

theorem mem_addRange {set : OutputSet} {outputPort : OutPort} {vcStart vcEnd pri : Int}
    {e : OutputEntry} :
    e ∈ set.addRange outputPort vcStart vcEnd pri ↔
      e ∈ set ∨ e = ⟨outputPort, vcStart, vcEnd, pri⟩ ∧ ∀ x ∈ set, x.pri ≠ pri :=
  mem_insert set.sorted

@[simp] theorem mem_clear_addRange {outputPort : OutPort} {vcStart vcEnd pri : Int}
    {e : OutputEntry} :
    e ∈ clear.addRange outputPort vcStart vcEnd pri ↔ e = ⟨outputPort, vcStart, vcEnd, pri⟩ := by
  simp [mem_addRange]

/-- `outputs->AddRange(port, vcBegin, vcEnd, pri)` under a condition. -/
def addRangeIf (set : OutputSet) (cond : Bool) (outPort : OutPort)
    (vcStart vcEnd pri : Int) : OutputSet :=
  if cond then set.addRange outPort vcStart vcEnd pri else set

theorem of_mem_addRangeIf {set : OutputSet} {cond : Bool} {outPort : OutPort}
    {vcStart vcEnd pri : Int} {e : OutputEntry}
    (h : e ∈ set.addRangeIf cond outPort vcStart vcEnd pri) :
    e ∈ set ∨ cond = true ∧ e = ⟨outPort, vcStart, vcEnd, pri⟩ := by
  unfold addRangeIf at h
  split at h
  next hcond => exact (mem_addRange.mp h).imp_right fun hnew => ⟨hcond, hnew.1⟩
  next => exact .inl h

theorem mem_addRangeIf_of_mem {set : OutputSet} {cond : Bool} {outPort : OutPort}
    {vcStart vcEnd pri : Int} {e : OutputEntry} (h : e ∈ set) :
    e ∈ set.addRangeIf cond outPort vcStart vcEnd pri := by
  unfold addRangeIf
  split
  · exact mem_addRange.mpr (.inl h)
  · exact h

end OutputSet

/-- `Flit::FlitType` -/
inductive FlitType where
  | readRequest
  | readReply
  | writeRequest
  | writeReply
  | anyType
  deriving DecidableEq, Repr

/-- A range of virtual channels. -/
structure VCRange where
  vcBegin : Int
  vcEnd : Int
  deriving DecidableEq, Repr

/-- The globals of the routing functions. -/
structure RoutingConfig where
  numVCs : Int
  readReq : VCRange
  writeReq : VCRange
  readReply : VCRange
  writeReply : VCRange
  missRouteThreshold : Int

/-- Two virtual channels for flits of any type, for runs on fixed inputs. -/
def RoutingConfig.twoVCs : RoutingConfig where
  numVCs := 2
  readReq := ⟨0, 1⟩
  writeReq := ⟨0, 1⟩
  readReply := ⟨0, 1⟩
  writeReply := ⟨0, 1⟩
  missRouteThreshold := 0

/-- The virtual channels for a type of flit, as every routing function selects them. -/
def RoutingConfig.vcs (config : RoutingConfig) : FlitType → VCRange
  | .readRequest => config.readReq
  | .writeRequest => config.writeReq
  | .readReply => config.readReply
  | .writeReply => config.writeReply
  | .anyType => ⟨0, config.numVCs - 1⟩

/-- What the routing functions read of a flit. -/
structure Flit (k : Nat) where
  type : FlitType
  vc : Int
  dest : Node k
  rtime : Int
  misrouteHops : Int

/-- What the routing functions read of the rest of the simulator. -/
structure Traffic where
  /-- `GetSimTime()` -/
  simTime : Int
  /-- `r->GetFreeCredit(port)` -/
  freeCredit : OutPort → Int

/-- The arguments `r` (its identifier and state), `f`, `in_channel` (`none` is
`2*gN`, the only other input) and `inject`, after the globals. -/
abbrev RoutingFunction (k : Nat) :=
  RoutingConfig → Traffic → Node k → Router → Flit k → Option Port → Bool → Option OutputSet

/-- `assert(((f->vc >= vcBegin) && (f->vc <= vcEnd)) || (inject && (f->vc < 0)))` -/
def Flit.assertVC {k : Nat} (f : Flit k) (vcs : VCRange) (inject : Bool) : Option Unit :=
  if (vcs.vcBegin ≤ f.vc ∧ f.vc ≤ vcs.vcEnd) ∨ (inject ∧ f.vc < 0) then some () else none

namespace Router

/-- `GetNeighborPowerState(port)` -/
def neighborPowerState (r : Router) : OutPort → Option PowerState
  | .mesh p => some (r.ports p).neighborState
  | _ => none

/-- `logical_neighbors_x[i]` -/
def logicalNeighborX (r : Router) (k : Nat) (p : Port) : Int :=
  if (r.ports p).logicalNeighbor ≠ -1 then (r.ports p).logicalNeighbor % k else -1

/-- `logical_neighbors_y[i]` -/
def logicalNeighborY (r : Router) (k : Nat) (p : Port) : Int :=
  if (r.ports p).logicalNeighbor ≠ -1 then (r.ports p).logicalNeighbor / k else -1

end Router

/-- `2*dim_left` if `cur < dest`, and `2*dim_left + 1` if not. -/
def sidePort (dimLeft cur dest : Nat) : Port :=
  if dimLeft = 0 then (if cur < dest then .east else .west)
  else if cur < dest then .south
  else .north

/-- `dor_next_mesh` with `gN = 2` and `gNodes = gK * gK`: either loop looks at one
dimension and leaves the other. -/
def dorNextMesh (k cur dest : Nat) (descending : Bool) : OutPort :=
  if cur = dest then .eject
  else if descending then
    if cur * k / (k * k) ≠ dest * k / (k * k) then
      .mesh (sidePort 1 (cur * k / (k * k)) (dest * k / (k * k)))
    else
      .mesh (sidePort 0 (cur * k % (k * k) * k / (k * k)) (dest * k % (k * k) * k / (k * k)))
  else if cur % k ≠ dest % k then
    .mesh (sidePort 0 (cur % k) (dest % k))
  else
    .mesh (sidePort 1 (cur / k % k) (dest / k % k))

namespace Node

variable {k : Nat}

/-- The direction to `m`, along the row first. -/
def xyPort (n m : Node k) : Port :=
  if n.x ≠ m.x then sidePort 0 n.x m.x else sidePort 1 n.y m.y

/-- The direction to `m`, along the column first. -/
def yxPort (n m : Node k) : Port :=
  if n.y ≠ m.y then sidePort 1 n.y m.y else sidePort 0 n.x m.x

theorem dorNextMesh_xy {n m : Node k} (h : n ≠ m) :
    dorNextMesh k n m false = .mesh (n.xyPort m) := by
  have hne : n.val ≠ m.val := fun heq => h (Fin.ext heq)
  have hrow : ∀ n : Node k, n.val / k % k = n.y := fun n => Nat.mod_eq_of_lt n.y_lt
  rw [dorNextMesh, if_neg hne, if_neg Bool.false_ne_true, hrow, hrow, xyPort]
  change (if n.x ≠ m.x then OutPort.mesh (sidePort 0 n.x m.x) else _) = _
  split <;> rfl

theorem dorNextMesh_yx {n m : Node k} (h : n ≠ m) :
    dorNextMesh k n m true = .mesh (n.yxPort m) := by
  have hne : n.val ≠ m.val := fun heq => h (Fin.ext heq)
  have hrow : ∀ n : Node k, n.val * k / (k * k) = n.y := fun n =>
    Nat.mul_div_mul_right n.val k n.pos
  have hcol : ∀ n : Node k, n.val * k % (k * k) * k / (k * k) = n.x := fun n => by
    rw [Nat.mul_mod_mul_right, Nat.mul_div_mul_right _ k n.pos, Nat.mul_div_cancel _ n.pos]
    rfl
  rw [dorNextMesh, if_neg hne, if_pos rfl, hrow, hrow, hcol, hcol, yxPort]
  split <;> rfl

/-- Neither in the row nor in the column of `m`. -/
def Diagonal (n m : Node k) : Prop := n.x ≠ m.x ∧ n.y ≠ m.y

instance (n m : Node k) : Decidable (n.Diagonal m) := inferInstanceAs (Decidable (_ ∧ _))

end Node

end Flyover
