import Mathlib.Data.List.Nodup
import Mathlib.Logic.Function.Basic
import Mathlib.Tactic.TypeStar

/-!
# Matchings kept in two tables

A matching between two sides is often kept twice, once for each side. The two
tables agree as long as every update fills one free entry of each.
-/

/-- What is matched with each element of one side, and of the other. -/
@[ext] structure PartialMatching (α β : Type*) where
  inmatch : α → Option β
  outmatch : β → Option α

namespace PartialMatching

variable {α β γ σ : Type*} [DecidableEq α] [DecidableEq β]
  {R : α → β → Prop} {m m' m'' : PartialMatching α β} {a : α} {b : β}

/-- Nothing is matched. -/
def empty : PartialMatching α β where
  inmatch _ := none
  outmatch _ := none

/-- The same matching seen from the other side. -/
def swap (m : PartialMatching α β) : PartialMatching β α where
  inmatch := m.outmatch
  outmatch := m.inmatch

/-- Enter a pair into both tables. -/
def assign (m : PartialMatching α β) (a : α) (b : β) : PartialMatching α β where
  inmatch := Function.update m.inmatch a (some b)
  outmatch := Function.update m.outmatch b (some a)

/-- The two tables say the same. -/
def Consistent (m : PartialMatching α β) : Prop :=
  ∀ a b, m.inmatch a = some b ↔ m.outmatch b = some a

/-- Only pairs of the relation are matched. -/
def Within (m : PartialMatching α β) (R : α → β → Prop) : Prop :=
  ∀ a b, m.inmatch a = some b → R a b

/-- Neither of the two is matched. -/
def Free (m : PartialMatching α β) (a : α) (b : β) : Prop :=
  m.inmatch a = none ∧ m.outmatch b = none

omit [DecidableEq α] [DecidableEq β] in
theorem consistent_empty : (empty : PartialMatching α β).Consistent := by
  intro a b
  constructor <;> intro h <;> cases h

omit [DecidableEq α] [DecidableEq β] in
theorem within_empty : (empty : PartialMatching α β).Within R := by
  intro a b h
  cases h

omit [DecidableEq α] [DecidableEq β] in
theorem free_empty : (empty : PartialMatching α β).Free a b := ⟨rfl, rfl⟩

omit [DecidableEq α] [DecidableEq β] in
theorem Consistent.swap (h : m.Consistent) : m.swap.Consistent := fun b a => (h a b).symm

omit [DecidableEq α] [DecidableEq β] in
/-- What is matched on one side is matched on the other with nothing else. -/
theorem Consistent.injective (h : m.Consistent) {a' : α} (ha : m.inmatch a = some b)
    (ha' : m.inmatch a' = some b) : a = a' := by
  rw [h] at ha ha'
  exact Option.some.inj (ha.symm.trans ha')

@[simp] theorem assign_inmatch_self : (m.assign a b).inmatch a = some b := Function.update_self ..

@[simp] theorem assign_outmatch_self : (m.assign a b).outmatch b = some a :=
  Function.update_self ..

theorem assign_inmatch_of_ne {a' : α} (h : a' ≠ a) : (m.assign a b).inmatch a' = m.inmatch a' :=
  Function.update_of_ne h ..

theorem assign_outmatch_of_ne {b' : β} (h : b' ≠ b) :
    (m.assign a b).outmatch b' = m.outmatch b' :=
  Function.update_of_ne h ..

theorem swap_assign : (m.assign a b).swap = m.swap.assign b a := rfl

theorem Free.assign {a' : α} {b' : β} (h : m.Free a' b') (ha : a' ≠ a) (hb : b' ≠ b) :
    (m.assign a b).Free a' b' :=
  ⟨(assign_inmatch_of_ne ha).trans h.1, (assign_outmatch_of_ne hb).trans h.2⟩

theorem Consistent.assign (h : m.Consistent) (hfree : m.Free a b) : (m.assign a b).Consistent := by
  intro a' b'
  by_cases ha : a' = a
  · subst ha
    rw [assign_inmatch_self]
    constructor
    · intro hb
      cases hb
      exact assign_outmatch_self
    · intro hout
      by_cases hb : b' = b
      · rw [hb]
      · rw [assign_outmatch_of_ne hb, ← h, hfree.1] at hout
        cases hout
  · rw [assign_inmatch_of_ne ha, h]
    by_cases hb : b' = b
    · subst hb
      rw [assign_outmatch_self, hfree.2]
      constructor
      · intro hout
        cases hout
      · intro hout
        exact absurd (Option.some.inj hout).symm ha
    · rw [assign_outmatch_of_ne hb]

theorem Within.assign (h : m.Within R) (hR : R a b) : (m.assign a b).Within R := by
  intro a' b' hmatch
  by_cases ha : a' = a
  · subst ha
    rw [assign_inmatch_self] at hmatch
    cases hmatch
    exact hR
  · rw [assign_inmatch_of_ne ha] at hmatch
    exact h a' b' hmatch

/-! ### Matchings that only grow -/

/-- One matching comes from another by entering free pairs of the relation. -/
inductive Extends (R : α → β → Prop) (m : PartialMatching α β) : PartialMatching α β → Prop
  | refl : Extends R m m
  | assign {m' : PartialMatching α β} {a : α} {b : β} (h : Extends R m m') (hfree : m'.Free a b)
      (hR : R a b) : Extends R m (m'.assign a b)

namespace Extends

theorem consistent (h : Extends R m m') (hm : m.Consistent) : m'.Consistent := by
  induction h with
  | refl => exact hm
  | assign _ hfree _ ih => exact ih.assign hfree

theorem within (h : Extends R m m') (hm : m.Within R) : m'.Within R := by
  induction h with
  | refl => exact hm
  | assign _ _ hR ih => exact ih.assign hR

theorem trans (h : Extends R m m') (h' : Extends R m' m'') : Extends R m m'' := by
  induction h' with
  | refl => exact h
  | assign _ hfree hR ih => exact ih.assign hfree hR

theorem mono {R' : α → β → Prop} (hR : ∀ a b, R a b → R' a b) (h : Extends R m m') :
    Extends R' m m' := by
  induction h with
  | refl => exact .refl
  | assign _ hfree hpair ih => exact ih.assign hfree (hR _ _ hpair)

theorem swap (h : Extends R m m') : Extends (fun b a => R a b) m.swap m'.swap := by
  induction h with
  | refl => exact .refl
  | assign _ hfree hR ih => exact ih.assign ⟨hfree.2, hfree.1⟩ hR

/-- A loop whose rounds each extend the matching extends it. -/
theorem foldl (view : σ → PartialMatching α β) {step : σ → γ → σ}
    (hstep : ∀ s x, Extends R (view s) (view (step s x))) (l : List γ) (s : σ) :
    Extends R (view s) (view (l.foldl step s)) := by
  induction l generalizing s with
  | nil => exact .refl
  | cons x rest ih => exact (hstep s x).trans (ih (step s x))

/-- A loop whose rounds enter pairs that exclude each other: the pairs of a
round are still free when its turn comes. -/
theorem foldl_of_disjoint (P : γ → α → β → Prop) (view : σ → PartialMatching α β)
    {step : σ → γ → σ} {l : List γ} {s : σ} (hnodup : l.Nodup)
    (hdisjoint : ∀ x y a b a' b', P x a b → P y a' b' → x ≠ y → a ≠ a' ∧ b ≠ b')
    (hfree : ∀ x ∈ l, ∀ a b, P x a b → (view s).Free a b)
    (hR : ∀ x a b, P x a b → R a b)
    (hstep : ∀ s x, view (step s x) = view s ∨
      ∃ a b, P x a b ∧ view (step s x) = (view s).assign a b) :
    Extends R (view s) (view (l.foldl step s)) := by
  induction l generalizing s with
  | nil => exact .refl
  | cons x rest ih =>
      obtain ⟨hx, hrest⟩ := List.nodup_cons.mp hnodup
      cases hstep s x with
      | inl hsame =>
          have hgoal := @ih (step s x) hrest
          rw [hsame] at hgoal
          exact hgoal fun y hy => hfree y (List.mem_cons_of_mem x hy)
      | inr hassign =>
          obtain ⟨a, b, hP, hassign⟩ := hassign
          have hextends : Extends R (view s) (view (step s x)) := by
            rw [hassign]
            exact Extends.refl.assign (hfree x List.mem_cons_self a b hP) (hR x a b hP)
          refine hextends.trans (ih hrest ?_)
          intro y hy a' b' hP'
          have hne : y ≠ x := by
            intro heq
            exact hx (heq ▸ hy)
          obtain ⟨ha, hb⟩ := hdisjoint y x a' b' a b hP' hP hne
          rw [hassign]
          exact (hfree y (List.mem_cons_of_mem x hy) a' b' hP').assign ha hb

/-- Each element of one side accepts at most one of the grants it has. -/
theorem foldl_of_grants (grants : β → Option α) (view : σ → PartialMatching α β)
    {step : σ → α → σ} {l : List α} {s : σ} (hnodup : l.Nodup)
    (hfree : ∀ a b, grants b = some a → (view s).Free a b)
    (hR : ∀ a b, grants b = some a → R a b)
    (hstep : ∀ s a, view (step s a) = view s ∨
      ∃ b, grants b = some a ∧ view (step s a) = (view s).assign a b) :
    Extends R (view s) (view (l.foldl step s)) := by
  apply foldl_of_disjoint (fun x a b => a = x ∧ grants b = some x) view hnodup
  case hdisjoint =>
    intro x y a b a' b' h h' hne
    refine ⟨fun heq => hne ?_, fun heq => hne ?_⟩
    · rw [← h.1, ← h'.1, heq]
    · exact Option.some.inj (h.2.symm.trans ((congrArg grants heq).trans h'.2))
  case hfree =>
    intro x _ a b h
    exact hfree a b (h.1 ▸ h.2)
  case hR =>
    intro x a b h
    exact hR a b (h.1 ▸ h.2)
  case hstep =>
    intro s x
    cases hstep s x with
    | inl hsame => exact .inl hsame
    | inr haccept =>
        obtain ⟨b, hb, hassign⟩ := haccept
        exact .inr ⟨x, b, ⟨rfl, hb⟩, hassign⟩

end Extends

/-! ### Matchings that are turned over along a path -/

/-- The tables agree but for one element of the second side, which nobody holds. -/
structure ConsistentBut (m : PartialMatching α β) (b : β) : Prop where
  agree : ∀ a b', b' ≠ b → (m.inmatch a = some b' ↔ m.outmatch b' = some a)
  unheld : ∀ a, m.inmatch a ≠ some b

omit [DecidableEq α] [DecidableEq β] in
theorem Consistent.consistentBut (h : m.Consistent) (hb : m.outmatch b = none) :
    m.ConsistentBut b where
  agree a b' _ := h a b'
  unheld a ha := by
    rw [h, hb] at ha
    cases ha

namespace ConsistentBut

/-- The path ends at an element that was not matched. -/
theorem assign_free (h : m.ConsistentBut b) (ha : m.inmatch a = none) :
    (m.assign a b).Consistent := by
  intro a' b'
  by_cases hb : b' = b
  · subst hb
    rw [assign_outmatch_self]
    by_cases ha' : a' = a
    · rw [ha', assign_inmatch_self]
      exact iff_of_true rfl rfl
    · rw [assign_inmatch_of_ne ha']
      exact iff_of_false (h.unheld a') fun heq => ha' (Option.some.inj heq).symm
  · rw [assign_outmatch_of_ne hb, ← h.agree a' b' hb]
    by_cases ha' : a' = a
    · subst ha'
      rw [assign_inmatch_self, ha]
      exact iff_of_false (fun heq => hb (Option.some.inj heq).symm) (fun heq => nomatch heq)
    · rw [assign_inmatch_of_ne ha']

/-- The path goes on: what was held before is now what the tables disagree on. -/
theorem assign_held (h : m.ConsistentBut b) {next : β} (ha : m.inmatch a = some next) :
    (m.assign a b).ConsistentBut next := by
  have hnext : next ≠ b := by
    intro heq
    exact h.unheld a (heq ▸ ha)
  constructor
  case agree =>
    intro a' b' hb'
    by_cases hb : b' = b
    · subst hb
      rw [assign_outmatch_self]
      by_cases ha' : a' = a
      · rw [ha', assign_inmatch_self]
        exact iff_of_true rfl rfl
      · rw [assign_inmatch_of_ne ha']
        exact iff_of_false (h.unheld a') fun heq => ha' (Option.some.inj heq).symm
    · rw [assign_outmatch_of_ne hb, ← h.agree a' b' hb]
      by_cases ha' : a' = a
      · subst ha'
        rw [assign_inmatch_self, ha]
        exact iff_of_false (fun heq => hb (Option.some.inj heq).symm)
          fun heq => hb' (Option.some.inj heq).symm
      · rw [assign_inmatch_of_ne ha']
  case unheld =>
    intro a' ha'
    by_cases heq : a' = a
    · subst heq
      rw [assign_inmatch_self] at ha'
      exact hnext (Option.some.inj ha').symm
    · rw [assign_inmatch_of_ne heq, h.agree a' next hnext] at ha'
      rw [h.agree a next hnext, ha'] at ha
      exact heq (Option.some.inj ha)

end ConsistentBut

end PartialMatching
