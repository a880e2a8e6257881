import Mathlib.Algebra.Ring.Nat
import Mathlib.Logic.Function.Basic
import Mathlib.Data.Fin.Tuple.Basic
import Mathlib.Tactic.Common

/-!
# Code that may fail an assertion

The simulator is compiled with its assertions on: a false one ends the run. A
function that contains assertions is a computation in `Except`, and the error
says which assertion ended it.
-/

namespace Flyover

/-- The assertions of the handshake code, by what they demand. -/
inductive AssertFailure where
  /-- `assert(_out_queue_handshakes.empty())` and its per-port form -/
  | outQueueNotEmpty
  /-- bottom row routers are always on -/
  | bottomRowNotOn
  /-- a queued handshake carries an id -/
  | handshakeWithoutId
  /-- a `power_on` or `draining` announcement carries that state -/
  | newStateMismatch
  /-- the recorded downstream or neighbour state does not allow the announced change -/
  | unexpectedState
  /-- the acknowledgement that the change rests on was never sent -/
  | drainDoneNotSent
  /-- `assert(0)`: a draining router is told that its downstream went off -/
  | offWhileDraining
  /-- an acknowledgement arrives together with something else, or at the wrong time -/
  | unexpectedDrainDone
  /-- the drain tag is set already -/
  | drainTagSet
  /-- a waking router hears of another that woke before it was drained -/
  | drainTagNotSet
  /-- the source state is missing -/
  | sourceStateMissing
  /-- what is relayed is not the relay's own -/
  | relayMismatch
  deriving DecidableEq, Repr

/-- `assert(cond)` -/
def require (cond : Prop) [Decidable cond] (failure : AssertFailure) :
    Except AssertFailure Unit :=
  if cond then .ok () else .error failure

variable {ε α β : Type}

theorem bind_ok {x : Except ε α} {f : α → Except ε β} {b : β} :
    (x >>= f) = .ok b ↔ ∃ a, x = .ok a ∧ f a = .ok b := by
  cases x with
  | error e => simp [bind, Except.bind]
  | ok a => simp [bind, Except.bind]

theorem bind_error {x : Except ε α} {f : α → Except ε β} {e : ε} :
    (x >>= f) = .error e ↔ x = .error e ∨ ∃ a, x = .ok a ∧ f a = .error e := by
  cases x with
  | error e' => simp [bind, Except.bind]
  | ok a => simp [bind, Except.bind]

@[simp] theorem pure_ok {a b : α} : (pure a : Except ε α) = .ok b ↔ a = b := by
  simp [pure, Except.pure]

@[simp] theorem require_ok {cond : Prop} [Decidable cond] {failure : AssertFailure} {u : Unit} :
    require cond failure = .ok u ↔ cond := by
  unfold require
  split <;> simp_all

theorem require_bind_ok {cond : Prop} [Decidable cond] {failure : AssertFailure}
    {f : Unit → Except AssertFailure β} {b : β} :
    (require cond failure >>= f) = .ok b ↔ cond ∧ f () = .ok b := by
  rw [bind_ok]
  constructor
  · rintro ⟨u, hcond, hf⟩
    exact ⟨require_ok.mp hcond, hf⟩
  · rintro ⟨hcond, hf⟩
    exact ⟨(), require_ok.mpr hcond, hf⟩

theorem require_of {cond : Prop} [Decidable cond] {failure : AssertFailure} (h : cond) :
    require cond failure = pure () := if_pos h

/-- The computation succeeds with a value that passes a test. -/
def succeeds (x : Except ε α) (test : α → Bool) : Bool :=
  match x with
  | .ok a => test a
  | .error _ => false

theorem exists_of_succeeds (x : Except ε α) (test : α → Bool) (h : succeeds x test = true) :
    ∃ a, x = .ok a ∧ test a = true := by
  cases x with
  | error e => cases h
  | ok a => exact ⟨a, rfl, h⟩

/-- If the computation succeeds, it is with a value as required. -/
def Ensures (x : Except ε α) (P : α → Prop) : Prop := ∀ a, x = .ok a → P a

namespace Ensures

variable {P Q : α → Prop}

theorem pure {a : α} (h : P a) : Ensures (Pure.pure a : Except ε α) P := by
  intro b hb
  rw [← pure_ok.mp hb]
  exact h

theorem error {e : ε} : Ensures (.error e : Except ε α) P := nofun

theorem mono {x : Except ε α} (hx : Ensures x Q) (h : ∀ a, Q a → P a) : Ensures x P :=
  fun a ha => h a (hx a ha)

theorem bind {R : β → Prop} {x : Except ε α} {f : α → Except ε β} (hx : Ensures x Q)
    (hf : ∀ a, Q a → Ensures (f a) R) : Ensures (x >>= f) R := by
  intro b hb
  obtain ⟨a, ha, hb⟩ := bind_ok.mp hb
  exact hf a (hx a ha) b hb

/-- Nothing is required of what comes first. -/
theorem bind_any {R : β → Prop} {x : Except ε α} {f : α → Except ε β}
    (hf : ∀ a, Ensures (f a) R) : Ensures (x >>= f) R :=
  bind (Q := fun _ => True) (fun _ _ => trivial) fun a _ => hf a

theorem ite {c : Prop} [Decidable c] {x y : Except ε α} (hx : c → Ensures x P)
    (hy : ¬ c → Ensures y P) : Ensures (if c then x else y) P := by
  by_cases hc : c
  · rw [if_pos hc]
    exact hx hc
  · rw [if_neg hc]
    exact hy hc

end Ensures

/-- The same outcome: both fail, or both succeed with related values. -/
structure Alike (R : α → β → Prop) (x : Except ε α) (y : Except ε β) : Prop where
  forth : ∀ a, x = .ok a → ∃ b, y = .ok b ∧ R a b
  back : ∀ b, y = .ok b → ∃ a, x = .ok a ∧ R a b

namespace Alike

variable {γ δ : Type} {R : α → β → Prop} {S : γ → δ → Prop}

theorem ok {a : α} {b : β} (h : R a b) : Alike R (.ok a : Except ε α) (.ok b) where
  forth := by
    rintro a' ha'
    obtain rfl := Except.ok.inj ha'
    exact ⟨b, rfl, h⟩
  back := by
    rintro b' hb'
    obtain rfl := Except.ok.inj hb'
    exact ⟨a, rfl, h⟩

theorem error (e e' : ε) : Alike R (.error e) (.error e') where
  forth := nofun
  back := nofun

theorem bind {x : Except ε α} {y : Except ε β} {f : α → Except ε γ} {g : β → Except ε δ}
    (hxy : Alike R x y) (hfg : ∀ a b, R a b → Alike S (f a) (g b)) :
    Alike S (x >>= f) (y >>= g) where
  forth := by
    intro c hc
    obtain ⟨a, ha, hc⟩ := bind_ok.mp hc
    obtain ⟨b, hb, hab⟩ := hxy.forth a ha
    obtain ⟨d, hd, hcd⟩ := (hfg a b hab).forth c hc
    exact ⟨d, bind_ok.mpr ⟨b, hb, hd⟩, hcd⟩
  back := by
    intro d hd
    obtain ⟨b, hb, hd⟩ := bind_ok.mp hd
    obtain ⟨a, ha, hab⟩ := hxy.back b hb
    obtain ⟨c, hc, hcd⟩ := (hfg a b hab).back d hd
    exact ⟨c, bind_ok.mpr ⟨a, ha, hc⟩, hcd⟩

theorem mono {R' : α → β → Prop} {x : Except ε α} {y : Except ε β} (h : Alike R x y)
    (hR : ∀ a b, R a b → R' a b) : Alike R' x y where
  forth := fun a ha => (h.forth a ha).imp fun b hb => ⟨hb.1, hR a b hb.2⟩
  back := fun b hb => (h.back b hb).imp fun a ha => ⟨ha.1, hR a b ha.2⟩

/-- The related values come from the computations. -/
theorem outcome {x : Except ε α} {y : Except ε β} (h : Alike R x y) :
    Alike (fun a b => R a b ∧ x = .ok a ∧ y = .ok b) x y where
  forth := fun a ha => (h.forth a ha).imp fun _ hb => ⟨hb.1, hb.2, ha, hb.1⟩
  back := fun b hb => (h.back b hb).imp fun _ ha => ⟨ha.1, ha.2, ha.1, hb⟩

/-- Assertions that hold together. -/
theorem unit {x y : Except ε Unit} (h : x = .ok () ↔ y = .ok ()) :
    Alike (fun _ _ => x = .ok ()) x y where
  forth := fun _ hx => ⟨(), h.mp hx, hx⟩
  back := fun _ hy => ⟨(), h.mpr hy, h.mpr hy⟩

theorem ite {c d : Prop} [Decidable c] [Decidable d] {x x' : Except ε α} {y y' : Except ε β}
    (hcd : c ↔ d) (hthen : c → Alike R x y) (helse : ¬ c → Alike R x' y') :
    Alike R (if c then x else x') (if d then y else y') := by
  by_cases hc : c
  · rw [if_pos hc, if_pos (hcd.mp hc)]
    exact hthen hc
  · rw [if_neg hc, if_neg (mt hcd.mpr hc)]
    exact helse hc

/-- Assertions that demand the same. -/
theorem require {c d : Prop} [Decidable c] [Decidable d] {e e' : AssertFailure} (hcd : c ↔ d) :
    Alike (fun _ _ => c) (Flyover.require c e) (Flyover.require d e') where
  forth := fun _ hc => ⟨(), require_ok.mpr (hcd.mp (require_ok.mp hc)), require_ok.mp hc⟩
  back := fun _ hd => ⟨(), require_ok.mpr (hcd.mpr (require_ok.mp hd)), hcd.mpr (require_ok.mp hd)⟩

end Alike

/-! ### What is numbered: virtual channels, classes, ports -/

instance neZeroOne : NeZero 1 := ⟨by decide⟩

instance neZeroTwo : NeZero 2 := ⟨by decide⟩

instance neZeroFive : NeZero 5 := ⟨by decide⟩

instance lawfulBEqFin {n : Nat} : LawfulBEq (Fin n) := inferInstance

/-- Run one computation for each index; the first failure is the failure of all. -/
def tabulate : (n : Nat) → (Fin n → Except ε α) → Except ε (Fin n → α)
  | 0, _ => .ok (fun i => i.elim0)
  | n + 1, f => do
      let first ← f 0
      let rest ← tabulate n (fun i => f i.succ)
      pure (Fin.cons first rest)

theorem tabulate_ok {n : Nat} {f : Fin n → Except ε α} {g : Fin n → α} :
    tabulate n f = .ok g ↔ ∀ i, f i = .ok (g i) := by
  induction n with
  | zero => exact ⟨fun _ i => i.elim0, fun _ => congrArg Except.ok (funext fun i => i.elim0)⟩
  | succ n ih =>
      rw [tabulate, bind_ok]
      constructor
      · rintro ⟨first, hfirst, hbind⟩
        obtain ⟨rest, hrest, hg⟩ := bind_ok.mp hbind
        obtain rfl := pure_ok.mp hg
        intro i
        refine Fin.cases ?_ (fun i => ?_) i
        · simpa using hfirst
        · simpa using ih.mp hrest i
      · intro h
        refine ⟨g 0, h 0, bind_ok.mpr ⟨fun i => g i.succ, ih.mpr fun i => h i.succ, ?_⟩⟩
        rw [pure_ok]
        exact Fin.cons_self_tail g

theorem tabulate_alike {n : Nat} {R : Fin n → α → β → Prop} {f : Fin n → Except ε α}
    {g : Fin n → Except ε β} (h : ∀ i, Alike (R i) (f i) (g i)) :
    Alike (fun a b => ∀ i, R i (a i) (b i)) (tabulate n f) (tabulate n g) where
  forth := by
    intro a ha
    have hall : ∀ i, ∃ b, g i = .ok b ∧ R i (a i) b := fun i =>
      (h i).forth (a i) (tabulate_ok.mp ha i)
    choose b hb using hall
    exact ⟨b, tabulate_ok.mpr fun i => (hb i).1, fun i => (hb i).2⟩
  back := by
    intro b hb
    have hall : ∀ i, ∃ a, f i = .ok a ∧ R i a (b i) := fun i =>
      (h i).back (b i) (tabulate_ok.mp hb i)
    choose a ha using hall
    exact ⟨a, tabulate_ok.mpr fun i => (ha i).1, fun i => (ha i).2⟩

theorem exists_error_of_tabulate {n : Nat} {f : Fin n → Except ε α} {e : ε}
    (h : tabulate n f = .error e) : ∃ i, f i = .error e := by
  induction n with
  | zero => cases h
  | succ n ih =>
      rw [tabulate] at h
      cases hfirst : f 0 with
      | error e' =>
          rw [hfirst] at h
          cases h
          exact ⟨0, hfirst⟩
      | ok first =>
          cases hrest : tabulate n (fun i => f i.succ) with
          | error e' =>
              rw [hfirst, hrest] at h
              cases h
              obtain ⟨i, hi⟩ := ih hrest
              exact ⟨i.succ, hi⟩
          | ok rest =>
              rw [hfirst, hrest] at h
              cases h

end Flyover
