import Flyover.Progress.Worklist

/-!
# What a computation yields, if it yields anything

For programs in `Option`, whose failed assertions are `none`. There is one rule
for each way in which such a program is put together, so that a proof about it
can follow its text.
-/

/-- The value, if there is one, is as required. -/
def Yields {α : Type} (x : Option α) (P : α → Prop) : Prop := ∀ a, x = some a → P a

namespace Yields

variable {α β : Type} {P Q : α → Prop} {R : β → Prop}

theorem pure {a : α} (h : P a) : Yields (Pure.pure a) P := by
  intro b hb
  rw [← Option.some.inj hb]
  exact h

theorem some {a : α} (h : P a) : Yields (some a) P := pure h

theorem none : Yields none P := nofun

theorem mono {x : Option α} (hx : Yields x Q) (h : ∀ a, Q a → P a) : Yields x P :=
  fun a ha => h a (hx a ha)

theorem both {x : Option α} (hx : Yields x P) (hx' : Yields x Q) : Yields x fun a => P a ∧ Q a :=
  fun a ha => ⟨hx a ha, hx' a ha⟩

theorem bind {x : Option α} {f : α → Option β} (hx : Yields x Q)
    (hf : ∀ a, Q a → Yields (f a) R) : Yields (x >>= f) R := by
  intro b hb
  obtain ⟨a, ha, hb⟩ := Option.bind_eq_some_iff.mp hb
  exact hf a (hx a ha) b hb

/-- Nothing is required of what comes first. -/
theorem bind_any {x : Option α} {f : α → Option β} (hf : ∀ a, Yields (f a) R) :
    Yields (x >>= f) R :=
  bind (Q := fun _ => True) (fun _ _ => trivial) fun a _ => hf a

/-- What comes first is known to be the value. -/
theorem bind_eq {x : Option α} {f : α → Option β} (hf : ∀ a, x = .some a → Yields (f a) R) :
    Yields (x >>= f) R :=
  bind (Q := fun a => x = .some a) (fun _ => id) hf

theorem guarded {c : Prop} [Decidable c] {f : Unit → Option β} (hf : c → Yields (f ()) R) :
    Yields (guard c >>= f) R := by
  by_cases hc : c
  · simp only [guard, if_pos hc]
    exact hf hc
  · simp only [guard, if_neg hc]
    exact none

theorem ite {c : Prop} [Decidable c] {x y : Option α} (hx : c → Yields x P)
    (hy : ¬ c → Yields y P) : Yields (if c then x else y) P := by
  by_cases hc : c
  · rw [if_pos hc]
    exact hx hc
  · rw [if_neg hc]
    exact hy hc

section Folds

variable {σ ι : Type} {motive : σ → Prop} {f : σ → ι → Option σ} {xs : List ι}

/-- What every round preserves, a loop over a list preserves. -/
theorem foldlM {s : σ} (hstart : motive s)
    (hround : ∀ t x, motive t → Yields (f t x) motive) : Yields (xs.foldlM f s) motive := by
  intro s' hrun
  apply Worklist.foldlM_induction hrun hstart
  exact fun x _ t t' ht hstep => hround t x ht t' hstep

/-- One of the rounds brings about what the others preserve. -/
theorem foldlM_mem {s : σ} {x : ι} (hx : x ∈ xs) (hmakes : ∀ t, Yields (f t x) motive)
    (hround : ∀ t x, motive t → Yields (f t x) motive) : Yields (xs.foldlM f s) motive := by
  obtain ⟨before, after, rfl⟩ := List.append_of_mem hx
  rw [List.foldlM_append]
  apply bind_any; intro t
  rw [List.foldlM_cons]
  exact bind (hmakes t) fun u hu => foldlM hu hround

end Folds

section Loops

variable {σ ι : Type} {motive : σ → Prop}

/-- A round handles the item in front. -/
theorem loop_front {front : σ → Option ι} {body : ι → σ → Option σ} {rounds : Nat} {s : σ}
    (hstart : motive s)
    (hround : ∀ item t, front t = .some item → motive t → Yields (body item t) motive) :
    Yields (Worklist.loop front body rounds s) motive := by
  intro s' hrun
  apply Worklist.loop_induction hrun hstart
  intro item t t' hvisits ht hround'
  exact hround item t hvisits.front_eq ht t' hround'

theorem loop {front : σ → Option ι} {body : ι → σ → Option σ} {rounds : Nat} {s : σ}
    (hstart : motive s) (hround : ∀ item t, motive t → Yields (body item t) motive) :
    Yields (Worklist.loop front body rounds s) motive :=
  loop_front hstart fun item t _ => hround item t

/-- What every round preserves holds wherever the loop comes to. -/
theorem visits {front : σ → Option ι} {body : ι → σ → Option σ} {s t : σ} {item : ι}
    (hvisits : Worklist.Visits front body s item t) (hstart : motive s)
    (hround : ∀ item t, motive t → Yields (body item t) motive) : motive t := by
  induction hvisits with
  | here _ => exact hstart
  | later _ hbody _ ih => exact ih (hround _ _ hstart _ hbody)

end Loops

end Yields

namespace Worklist

/-- What a loop reads: the item in front of a queue, if its time has come. A round takes
it away and may put others behind the queue. -/
structure Drains {σ ι : Type} (queue : σ → List ι) (due : σ → ι → Bool) (front : σ → Option ι)
    (body : ι → σ → Option σ) : Prop where
  front_eq : ∀ s, front s = (queue s).head?.filter (due s)
  pops : ∀ item s, (queue s).head? = some item → Yields (body item s) fun s' =>
    (∀ x, due s' x = due s x) ∧ (queue s).tail <+: queue s'

/-- An item is handled if it and all before it are due, and then the outcome is settled:
the rounds before do not change that it `waits`. -/
theorem Drains.settles {σ ι : Type} {queue : σ → List ι} {due : σ → ι → Bool}
    {front : σ → Option ι} {body : ι → σ → Option σ} {s : σ} {item : ι}
    (h : Drains queue due front body) (waits settled : σ → Prop) {before after : List ι}
    {rounds : Nat} (hqueue : queue s = before ++ item :: after)
    (hdue : ∀ x ∈ before ++ [item], due s x = true) (hrounds : before.length < rounds)
    (hstart : waits s)
    (hbefore : ∀ x ∈ before, ∀ t, front t = some x → waits t → Yields (body x t) waits)
    (hitem : ∀ t, front t = some item → waits t → Yields (body item t) settled)
    (hsettled : ∀ x t, front t = some x → settled t → Yields (body x t) settled) :
    Yields (loop front body rounds s) settled := by
  induction before generalizing s rounds after with
  | nil =>
      cases rounds with
      | zero => exact absurd hrounds (Nat.lt_irrefl 0)
      | succ rounds =>
          have hfront : front s = some item := by
            rw [h.front_eq, hqueue]
            exact Option.filter_eq_some_iff.mpr ⟨rfl, hdue item (by simp)⟩
          rw [loop_some hfront]
          refine Yields.bind (hitem s hfront hstart) fun t ht => ?_
          exact Yields.loop_front ht hsettled
  | cons x before ih =>
      cases rounds with
      | zero => exact absurd hrounds (Nat.not_lt_zero _)
      | succ rounds =>
          have hhead : (queue s).head? = some x := by rw [hqueue]; rfl
          have hfront : front s = some x := by
            rw [h.front_eq, hhead]
            exact Option.filter_eq_some_iff.mpr ⟨rfl, hdue x (by simp)⟩
          rw [loop_some hfront]
          apply Yields.bind_eq
          intro u hu
          obtain ⟨hsame, fresh, hnext⟩ := h.pops x s hhead u hu
          have hqueue' : queue u = before ++ item :: (after ++ fresh) := by
            rw [← hnext, hqueue]
            simp
          apply ih hqueue' _ (Nat.lt_of_succ_lt_succ hrounds)
          · exact hbefore x List.mem_cons_self s hfront hstart u hu
          · intro y hy
            exact hbefore y (List.mem_cons_of_mem x hy)
          · intro y hy
            rw [hsame]
            exact hdue y (List.mem_cons_of_mem x hy)

end Worklist
