import Flyover.Buffer.State

/-!
# Who finds a virtual channel in use

Of all the operations of the buffer state and of the policies, only `TakeBuffer` raises
that a virtual channel is taken while in use, and only of one that is not available.
-/

namespace Flyover

variable {vcs : Nat} {α β : Type}

theorem map_ok {ε : Type} {x : Except ε α} {f : α → β} {b : β} :
    x.map f = .ok b ↔ ∃ a, x = .ok a ∧ f a = b := by
  cases x with
  | ok a => simp [Except.map]
  | error e => simp [Except.map]

theorem mapError_ok {ε ε' : Type} {x : Except ε α} {f : ε → ε'} {a : α} :
    x.mapError f = .ok a ↔ x = .ok a := by
  cases x with
  | ok a => simp [Except.mapError]
  | error e => simp [Except.mapError]

/-- The computation does not end with the error. -/
def Avoids {ε α : Type} (e : ε) (x : Except ε α) : Prop := x ≠ .error e

namespace Avoids

variable {ε ε' : Type} {e : ε}

theorem ok (a : α) : Avoids e (.ok a) := fun h => nomatch h

theorem error {e' : ε} (h : e' ≠ e) : Avoids e (.error e' : Except ε α) := by
  intro heq
  cases heq
  exact h rfl

theorem bind {x : Except ε α} {f : α → Except ε β} (hx : Avoids e x)
    (hf : ∀ a, x = .ok a → Avoids e (f a)) : Avoids e (x >>= f) := by
  intro h
  obtain herror | ⟨a, ha, herror⟩ := bind_error.mp h
  · exact hx herror
  · exact hf a ha herror

theorem map {x : Except ε α} {f : α → β} (hx : Avoids e x) : Avoids e (x.map f) := by
  cases x with
  | ok a => exact ok (f a)
  | error e' => exact error fun heq => hx (congrArg _ heq)

theorem mapError {x : Except ε α} {f : ε → ε'} (hinj : Function.Injective f) (hx : Avoids e x) :
    Avoids (f e) (x.mapError f) := by
  cases x with
  | ok a => exact ok a
  | error e' => exact error fun heq => hx (congrArg _ (hinj heq))

end Avoids

/-- The computation does not find a virtual channel in use. -/
abbrev NotInUse (x : Except BufferError α) : Prop := Avoids .takenWhileInUse x

open Avoids

theorem NotInUse.assertion {cond : Prop} [Decidable cond] {failure : BufferError}
    (h : failure ≠ .takenWhileInUse) : NotInUse (ensure cond failure) := by
  unfold ensure
  split
  · exact ok _
  · exact error h

theorem NotInUse.check {cond : Prop} [Decidable cond] {failure : BufferError} {a : α}
    (h : failure ≠ .takenWhileInUse) :
    NotInUse (ensure cond failure >>= fun _ => .ok a) :=
  (assertion h).bind fun _ _ => ok a

open NotInUse

/-! ### The policies -/

namespace LimitedSharedBufferPolicy

variable (p : LimitedSharedBufferPolicy)

theorem takeBuffer_notInUse : NotInUse (p.takeBuffer vcs) := check (by decide)

theorem sendingFlit_notInUse (tail : Bool) : NotInUse (p.sendingFlit tail) := by
  unfold LimitedSharedBufferPolicy.sendingFlit
  split
  · exact check (by decide)
  · exact ok p

theorem resize_notInUse (held : Int → Int) (changed : Bool) : NotInUse (p.resize held changed) :=
  check (by decide)

end LimitedSharedBufferPolicy

namespace SharedBufferPolicy

variable {L : SharedLayout vcs}

theorem processFreeSlot_notInUse (p : SharedBufferPolicy L) (vc : Fin vcs) :
    NotInUse (p.processFreeSlot vc) :=
  (assertion (by decide)).bind fun _ _ => check (by decide)

theorem releaseReserved_notInUse (n : Nat) (p : SharedBufferPolicy L) (vc : Fin vcs) :
    NotInUse (releaseReserved n p vc) := by
  induction n generalizing p with
  | zero => exact ok p
  | succ n ih => exact (processFreeSlot_notInUse _ vc).bind fun p _ => ih p

theorem sendingFlit_notInUse (p : SharedBufferPolicy L) (vc : Fin vcs) (tail : Bool) :
    NotInUse (p.sendingFlit vc tail) := by
  refine Avoids.bind ?_ fun p _ => ?_
  · unfold occupySlot
    split
    · exact ok _
    · exact check (by decide)
  · split
    · exact releaseReserved_notInUse _ p vc
    · exact ok p

end SharedBufferPolicy

namespace SharedExtension

variable (bufSize occupancy time : Int) (vc : Fin vcs) (tail : Bool)

theorem takeBuffer_notInUse (ext : SharedExtension vcs) : NotInUse (ext.takeBuffer bufSize) := by
  cases ext with
  | shared => exact ok _
  | limited p => exact (p.takeBuffer_notInUse).bind fun _ _ => ok _
  | dynamic p =>
      refine Avoids.bind ?_ fun _ _ => ok _
      exact (p.takeBuffer_notInUse).bind fun p _ =>
        (assertion (by decide)).bind fun _ _ => p.resize_notInUse _ _
  | shifting p =>
      refine Avoids.bind ?_ fun _ _ => ok _
      exact (p.takeBuffer_notInUse).bind fun p _ =>
        (assertion (by decide)).bind fun _ _ => p.resize_notInUse _ _
  | feedback config p => exact ok _
  | simpleFeedback config p => exact ok _

theorem sendingFlit_notInUse (ext : SharedExtension vcs) :
    NotInUse (ext.sendingFlit bufSize occupancy time vc tail) := by
  cases ext with
  | shared => exact ok _
  | limited p => exact (p.sendingFlit_notInUse tail).bind fun _ _ => ok _
  | dynamic p =>
      refine Avoids.bind ?_ fun _ _ => ok _
      exact (p.sendingFlit_notInUse tail).bind fun p _ => p.resize_notInUse _ _
  | shifting p =>
      refine Avoids.bind ?_ fun _ _ => ok _
      exact (p.sendingFlit_notInUse tail).bind fun p _ => p.resize_notInUse _ _
  | feedback config p => exact ok _
  | simpleFeedback config p =>
      refine Avoids.bind ?_ fun _ _ => ok _
      unfold SimpleFeedbackSharedBufferPolicy.sendingFlit
      split
      · exact check (by decide)
      · exact ok p

end SharedExtension

namespace BufferPolicy

theorem takeBuffer_notInUse (p : BufferPolicy vcs) : NotInUse p.takeBuffer := by
  cases p with
  | privateBuffer p => exact ok _
  | sharedBuffer L p ext => exact (ext.takeBuffer_notInUse _).bind fun _ _ => ok _

theorem sendingFlit_notInUse (p : BufferPolicy vcs) (occupancy time : Int) (vc : Fin vcs)
    (tail : Bool) : NotInUse (p.sendingFlit occupancy time vc tail) := by
  cases p with
  | privateBuffer p => exact Avoids.bind (check (by decide)) fun _ _ => ok _
  | sharedBuffer L p ext =>
      exact (p.sendingFlit_notInUse vc tail).bind fun _ _ =>
        (ext.sendingFlit_notInUse _ _ _ _ _).bind fun _ _ => ok _

end BufferPolicy

/-! ### The buffer state -/

namespace BufferState

variable {s : BufferState vcs} {time : Int} {vc : Fin vcs} {tag : Nat} {tail : Bool}

theorem sendingFlit_notInUse : NotInUse (s.sendingFlit time vc tail) :=
  (assertion (by decide)).bind fun _ _ =>
    (BufferPolicy.sendingFlit_notInUse _ _ _ _ _).bind fun _ _ => check (by decide)

theorem takeBuffer_notInUse (h : s.isAvailableFor vc = true) : NotInUse (s.takeBuffer vc tag) := by
  intro herror
  obtain ⟨hnot, -⟩ | ⟨-, hpolicy⟩ := ensure_bind_error.mp herror
  · exact hnot h
  · exact (s.policy.takeBuffer_notInUse).bind (fun _ _ => ok _) hpolicy

/-- To take a virtual channel is all that makes it unavailable. -/
theorem isAvailableFor_takeBuffer {s' : BufferState vcs} {other : Fin vcs}
    (h : s.takeBuffer vc tag = .ok s') (hne : other ≠ vc) :
    s'.isAvailableFor other = s.isAvailableFor other := by
  obtain ⟨-, h⟩ := ensure_bind_ok.mp h
  cases hpolicy : s.policy.takeBuffer with
  | error e =>
      rw [hpolicy] at h
      cases h
  | ok policy =>
      rw [hpolicy] at h
      cases h
      exact congrArg Option.isNone (Function.update_of_ne hne _ _)

theorem isNone_release {inUseBy : Fin vcs → Option Nat} {released : Bool} {other : Fin vcs}
    (h : (inUseBy other).isNone = true) :
    ((if released then Function.update inUseBy vc none else inUseBy) other).isNone = true := by
  split
  · by_cases heq : other = vc
    · subst heq
      rw [Function.update_self]
      rfl
    · rw [Function.update_of_ne heq]
      exact h
  · exact h

theorem isAvailableFor_sendingFlit {s' : BufferState vcs} {other : Fin vcs}
    (h : s.sendingFlit time vc tail = .ok s') (havailable : s.isAvailableFor other = true) :
    s'.isAvailableFor other = true := by
  obtain ⟨-, h⟩ := ensure_bind_ok.mp h
  dsimp only at h
  cases hpolicy : s.policy.sendingFlit _ time vc tail with
  | error e =>
      rw [hpolicy] at h
      cases h
  | ok policy =>
      rw [hpolicy] at h
      obtain ⟨-, h⟩ := ensure_bind_ok.mp h
      cases h
      exact isNone_release havailable

theorem isAvailableFor_processCreditFor {s' : BufferState vcs} {other : Fin vcs}
    (h : s.processCreditFor time vc = .ok s') (havailable : s.isAvailableFor other = true) :
    s'.isAvailableFor other = true := by
  obtain ⟨-, h⟩ := ensure_bind_ok.mp h
  obtain ⟨-, h⟩ := ensure_bind_ok.mp h
  obtain ⟨-, h⟩ := ensure_bind_ok.mp h
  obtain ⟨-, h⟩ := ensure_bind_ok.mp h
  obtain ⟨policy, -, h⟩ := bind_ok.mp h
  cases h
  exact isNone_release havailable

theorem isAvailableFor_processCredit {s' : BufferState vcs} {credits : List (Fin vcs)}
    {other : Fin vcs} (h : s.processCredit time credits = .ok s')
    (havailable : s.isAvailableFor other = true) : s'.isAvailableFor other = true := by
  induction credits generalizing s with
  | nil =>
      cases h
      exact havailable
  | cons vc credits ih =>
      obtain ⟨s₁, hfirst, hrest⟩ := bind_ok.mp h
      exact ih hrest (isAvailableFor_processCreditFor hfirst havailable)

end BufferState

end Flyover
