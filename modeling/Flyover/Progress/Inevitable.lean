import Mathlib.Logic.Relation
import Mathlib.Order.Defs.PartialOrder
import Mathlib.Tactic.Common

/-!
# Inevitable goals and acyclic dependencies

Two facts about a system that moves by a relation. A goal is inevitable within
a number of steps when no run gets stuck before it and every run of that length
has reached it; a measure that every step decreases bounds the number. A
dependency relation is acyclic when nothing depends on itself through a chain;
a numbering that every dependency increases shows it.
-/

namespace Progress

variable {σ : Type} {step : σ → σ → Prop} {goal goal' : σ → Prop}

/-- Every run reaches the goal in at most the given number of steps, and none
gets stuck before it does. -/
inductive Within (step : σ → σ → Prop) (goal : σ → Prop) : Nat → σ → Prop
  | here {n : Nat} {s : σ} : goal s → Within step goal n s
  | next {n : Nat} {s : σ} :
      (∃ s', step s s') → (∀ s', step s s' → Within step goal n s') →
      Within step goal (n + 1) s

namespace Within

/-- An invariant under which every step leads to the goal or decreases a measure
makes the goal inevitable. -/
theorem of_measure (inv : σ → Prop) (measure : σ → Nat)
    (hlive : ∀ s, inv s → ¬ goal s → ∃ s', step s s')
    (hstep : ∀ s s', inv s → ¬ goal s → step s s' →
      goal s' ∨ inv s' ∧ measure s' < measure s)
    {n : Nat} {s : σ} (hs : inv s) (hn : measure s < n) : Within step goal n s := by
  induction n generalizing s with
  | zero => exact absurd hn (Nat.not_lt_zero _)
  | succ n ih =>
      by_cases hgoal : goal s
      · exact .here hgoal
      · apply Within.next (hlive s hs hgoal)
        intro s' hs'
        rcases hstep s s' hs hgoal hs' with hgoal' | ⟨hinv, hlt⟩
        · exact .here hgoal'
        · exact ih hinv (Nat.lt_of_lt_of_le hlt (Nat.le_of_lt_succ hn))

/-- A count of the steps to go bounds them. -/
theorem of_countdown (inv : σ → Prop) (left : σ → Nat)
    (hlive : ∀ s, inv s → ¬ goal s → ∃ s', step s s')
    (hstep : ∀ s s', inv s → ¬ goal s → step s s' → inv s' ∧ left s' + 1 = left s)
    (hgoal : ∀ s, inv s → left s = 0 → goal s)
    {n : Nat} {s : σ} (hs : inv s) (hn : left s ≤ n) : Within step goal n s := by
  induction n generalizing s with
  | zero => exact .here (hgoal s hs (Nat.le_zero.mp hn))
  | succ n ih =>
      by_cases hdone : goal s
      · exact .here hdone
      · apply Within.next (hlive s hs hdone)
        intro s' hs'
        obtain ⟨hinv, hleft⟩ := hstep s s' hs hdone hs'
        exact ih hinv (by omega)

theorem mono {n n' : Nat} {s : σ} (h : Within step goal n s) (hn : n ≤ n')
    (hgoal : ∀ s, goal s → goal' s) : Within step goal' n' s := by
  induction h generalizing n' with
  | here hs => exact .here (hgoal _ hs)
  | next hlive hnext ih =>
      obtain ⟨n', rfl⟩ := Nat.exists_eq_add_of_le' (Nat.lt_of_lt_of_le (Nat.succ_pos _) hn)
      exact .next hlive fun s' hs' => ih s' hs' (Nat.le_of_succ_le_succ hn)

/-- One goal after another, where an invariant holds all along. -/
theorem trans {inv : σ → Prop} (hinv : ∀ s s', inv s → step s s' → inv s') {n m : Nat} {s : σ}
    (h : Within step goal n s) (hs : inv s)
    (hgoal : ∀ s, inv s → goal s → Within step goal' m s) : Within step goal' (n + m) s := by
  induction h with
  | here hg => exact (hgoal _ hs hg).mono (Nat.le_add_left _ _) fun _ hg' => hg'
  | next hlive hnext ih =>
      rw [Nat.succ_add]
      exact .next hlive fun s' hs' => ih s' hs' (hinv _ _ hs hs')

end Within

variable {α : Type} {r : α → α → Prop}

/-- Nothing depends on itself, directly or through others. -/
def Acyclic (r : α → α → Prop) : Prop := ∀ a, ¬ Relation.TransGen r a a

theorem acyclic_of_rank {β : Type} [Preorder β] (rank : α → β)
    (h : ∀ a b, r a b → rank a < rank b) : Acyclic r := by
  have hchain : ∀ a b, Relation.TransGen r a b → rank a < rank b := by
    intro a b hab
    induction hab with
    | single hab => exact h _ _ hab
    | tail _ hbc ih => exact lt_trans ih (h _ _ hbc)
  exact fun a haa => lt_irrefl _ (hchain a a haa)

theorem Acyclic.mono {r' : α → α → Prop} (h : Acyclic r) (hle : ∀ a b, r' a b → r a b) :
    Acyclic r' := by
  have hchain : ∀ a b, Relation.TransGen r' a b → Relation.TransGen r a b := by
    intro a b hab
    induction hab with
    | single hab => exact .single (hle _ _ hab)
    | tail _ hbc ih => exact ih.tail (hle _ _ hbc)
  exact fun a haa => h a (hchain a a haa)

end Progress
