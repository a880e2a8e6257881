import Flyover.Matching.Cover

/-!
# Matchings that grow round by round

If every round that starts with a free pair of the relation matches something new on
both sides, there is no such pair after as many rounds as the smaller side has elements.
-/

namespace PartialMatching

variable {α β σ : Type*} {R : α → β → Prop} {m m' m'' : PartialMatching α β}

/-- What is matched stays matched, not necessarily with the same. -/
structure Grows (m m' : PartialMatching α β) : Prop where
  inmatch : ∀ a, m.inmatch a ≠ none → m'.inmatch a ≠ none
  outmatch : ∀ b, m.outmatch b ≠ none → m'.outmatch b ≠ none

/-- Something free has been matched on either side. -/
structure Gains (m m' : PartialMatching α β) : Prop where
  inmatch : ∃ a, m.inmatch a = none ∧ m'.inmatch a ≠ none
  outmatch : ∃ b, m.outmatch b = none ∧ m'.outmatch b ≠ none

/-- No pair of the relation is free. -/
def IsMaximal (R : α → β → Prop) (m : PartialMatching α β) : Prop := ∀ a b, R a b → ¬ m.Free a b

theorem not_isMaximal_iff : ¬ m.IsMaximal R ↔ ∃ a b, R a b ∧ m.Free a b := by
  simp [IsMaximal]

theorem Grows.refl (m : PartialMatching α β) : Grows m m := ⟨fun _ h => h, fun _ h => h⟩

theorem Grows.trans (h : Grows m m') (h' : Grows m' m'') : Grows m m'' :=
  ⟨fun a ha => h'.inmatch a (h.inmatch a ha), fun b hb => h'.outmatch b (h.outmatch b hb)⟩

theorem Grows.swap (h : Grows m m') : Grows m.swap m'.swap := ⟨h.outmatch, h.inmatch⟩

theorem Grows.free {a : α} {b : β} (h : Grows m m') (hfree : m'.Free a b) : m.Free a b :=
  ⟨not_not.mp fun ha => h.inmatch a ha hfree.1, not_not.mp fun hb => h.outmatch b hb hfree.2⟩

theorem grows_assign [DecidableEq α] [DecidableEq β] (m : PartialMatching α β) (a : α) (b : β) :
    Grows m (m.assign a b) where
  inmatch a' ha' := by
    by_cases ha : a' = a
    · rw [ha, assign_inmatch_self]
      exact Option.some_ne_none b
    · rwa [assign_inmatch_of_ne ha]
  outmatch b' hb' := by
    by_cases hb : b' = b
    · rw [hb, assign_outmatch_self]
      exact Option.some_ne_none a
    · rwa [assign_outmatch_of_ne hb]

/-- A loop in which every round grows. -/
theorem Grows.foldl {γ : Type*} (view : σ → PartialMatching α β) {f : σ → γ → σ}
    (hstep : ∀ s x, Grows (view s) (view (f s x))) (l : List γ) (s : σ) :
    Grows (view s) (view (l.foldl f s)) := by
  induction l generalizing s with
  | nil => exact Grows.refl _
  | cons x rest ih => exact (hstep s x).trans (ih (f s x))

/-- What one round of a loop brings about, and no other one undoes, holds at its end. -/
theorem foldl_establishes {γ : Type*} {Q : σ → Prop} {f : σ → γ → σ} {l : List γ} {x : γ}
    (hx : x ∈ l) (hdone : ∀ s, Q (f s x)) (hkeep : ∀ s y, Q s → Q (f s y)) (s : σ) :
    Q (l.foldl f s) := by
  have hlater (l : List γ) (s : σ) (h : Q s) : Q (l.foldl f s) := by
    induction l generalizing s with
    | nil => exact h
    | cons y rest ih => exact ih (f s y) (hkeep s y h)
  induction l generalizing s with
  | nil => cases hx
  | cons y rest ih =>
      rcases List.mem_cons.mp hx with rfl | hx
      · exact hlater rest _ (hdone s)
      · exact ih hx (f s y)

section Rounds

variable [Fintype α]

/-- One more is matched on the first side. -/
theorem size_lt (hgrows : Grows m m') (hgains : Gains m m') : m.size < m'.size := by
  apply Finset.card_lt_card
  rw [Finset.ssubset_iff_of_subset]
  · obtain ⟨a, hfree, hmatched⟩ := hgains.inmatch
    exact ⟨a, by simp [hmatched], by simp [hfree]⟩
  · intro a ha
    simp only [Finset.mem_filter, Finset.mem_univ, true_and] at ha ⊢
    exact hgrows.inmatch a ha

theorem size_lt_card {a : α} (ha : m.inmatch a = none) : m.size < Fintype.card α := by
  apply Finset.card_lt_univ_of_notMem (x := a)
  simp [ha]

/-- The rounds are counted by what is matched on either side. -/
theorem isMaximal_of_progress [Fintype β] (view : σ → PartialMatching α β) {P : σ → Prop} {f : σ → Nat → σ}
    (hkeep : ∀ s n, P s → P (f s n)) (hgrows : ∀ s n, Grows (view s) (view (f s n)))
    (hgains : ∀ s n, P s → ¬ (view s).IsMaximal R → Gains (view s) (view (f s n))) {n : Nat}
    (hn : min (Fintype.card α) (Fintype.card β) ≤ n) {s : σ} (hs : P s) :
    (view ((List.range n).foldl f s)).IsMaximal R := by
  have hcount : ∀ n, P ((List.range n).foldl f s) ∧
      (¬ (view ((List.range n).foldl f s)).IsMaximal R →
        n ≤ (view ((List.range n).foldl f s)).size ∧
          n ≤ (view ((List.range n).foldl f s)).swap.size) := by
    intro n
    induction n with
    | zero => exact ⟨hs, fun _ => ⟨Nat.zero_le _, Nat.zero_le _⟩⟩
    | succ n ih =>
        rw [List.range_succ, List.foldl_append]
        generalize (List.range n).foldl f s = t at ih
        refine ⟨hkeep t n ih.1, fun hopen => ?_⟩
        have hgrows' := hgrows t n
        have hbefore : ¬ (view t).IsMaximal R := fun h =>
          hopen fun a b hR hfree => h a b hR (hgrows'.free hfree)
        obtain ⟨hin, hout⟩ := ih.2 hbefore
        have hgains' := hgains t n ih.1 hbefore
        exact ⟨hin.trans_lt (size_lt hgrows' hgains'),
          hout.trans_lt (size_lt hgrows'.swap ⟨hgains'.outmatch, hgains'.inmatch⟩)⟩
  intro a b hR hfree
  obtain ⟨hin, hout⟩ := (hcount n).2 fun h => h a b hR hfree
  have hlt := lt_min (hin.trans_lt (size_lt_card hfree.1))
    (hout.trans_lt (size_lt_card (m := (view ((List.range n).foldl f s)).swap) hfree.2))
  exact absurd hn (not_le.mpr hlt)

end Rounds

end PartialMatching
