import Mathlib.Data.List.Basic
import Mathlib.Data.List.Induction

/-!
# Splitting a text at separators

A text is read from left to right, and the state in which a letter is met decides
whether the letter separates two pieces or belongs to the piece it stands in.
-/

/-- An automaton that reads letters, and the letters that separate pieces in each state. -/
structure Splitter (σ α : Type*) where
  next : σ → α → σ
  cuts : σ → α → Bool

namespace Splitter

variable {σ α : Type*} (m : Splitter σ α) {s : σ}

/-- The state after a text. -/
def read (s : σ) (text : List α) : σ := text.foldl m.next s

/-- The pieces of a text, the one behind its last separator included. -/
def pieces : σ → List α → List (List α)
  | _, [] => [[]]
  | s, a :: rest =>
      if m.cuts s a then [] :: pieces (m.next s a) rest
      else (pieces (m.next s a) rest).modifyHead (a :: ·)

/-- No letter of the text separates. -/
def Whole : σ → List α → Prop
  | _, [] => True
  | s, a :: rest => m.cuts s a = false ∧ Whole (m.next s a) rest

@[simp] theorem read_nil : m.read s [] = s := rfl

@[simp] theorem read_cons (a : α) (rest : List α) :
    m.read s (a :: rest) = m.read (m.next s a) rest := rfl

@[simp] theorem read_append (u v : List α) : m.read s (u ++ v) = m.read (m.read s u) v :=
  List.foldl_append

variable {m}

theorem pieces_cons_of_cuts {a : α} (h : m.cuts s a = true) (rest : List α) :
    m.pieces s (a :: rest) = [] :: m.pieces (m.next s a) rest := by
  rw [pieces, if_pos h]

theorem pieces_cons_of_not_cuts {a : α} (h : m.cuts s a = false) (rest : List α) :
    m.pieces s (a :: rest) = (m.pieces (m.next s a) rest).modifyHead (a :: ·) := by
  rw [pieces, h]
  rfl

theorem pieces_ne_nil (text : List α) : m.pieces s text ≠ [] := by
  induction text generalizing s with
  | nil => simp [pieces]
  | cons a rest ih =>
      cases hcut : m.cuts s a with
      | true => simp [pieces_cons_of_cuts hcut]
      | false =>
          rw [pieces_cons_of_not_cuts hcut]
          intro hnil
          apply ih (s := m.next s a)
          simpa using hnil

@[simp] theorem modifyHead_nil_append (ps : List (List α)) :
    ps.modifyHead (([] : List α) ++ ·) = ps := by
  cases ps <;> rfl

/-- Letters that do not separate stand in front of the first piece of what follows. -/
theorem pieces_append {w : List α} (hw : m.Whole s w) (rest : List α) :
    m.pieces s (w ++ rest) = (m.pieces (m.read s w) rest).modifyHead (w ++ ·) := by
  induction w generalizing s with
  | nil => exact (modifyHead_nil_append _).symm
  | cons a w ih =>
      rw [List.cons_append, pieces_cons_of_not_cuts hw.1, ih hw.2, read_cons,
        List.modifyHead_modifyHead]
      rfl

theorem pieces_of_whole {w : List α} (hw : m.Whole s w) : m.pieces s w = [w] := by
  simpa [pieces] using pieces_append hw []

/-- A separator splits the pieces in front of it from those behind it. -/
theorem pieces_append_of_cuts {u : List α} {a : α} (ha : m.cuts (m.read s u) a = true)
    (v : List α) :
    m.pieces s (u ++ a :: v) = m.pieces s u ++ m.pieces (m.next (m.read s u) a) v := by
  induction u generalizing s with
  | nil => exact pieces_cons_of_cuts ha v
  | cons b u ih =>
      have hrest := ih ha
      cases hcut : m.cuts s b with
      | true =>
          rw [List.cons_append, pieces_cons_of_cuts hcut, pieces_cons_of_cuts hcut, hrest]
          rfl
      | false =>
          obtain ⟨p, ps, hps⟩ := List.exists_cons_of_ne_nil (m.pieces_ne_nil (s := m.next s b) u)
          rw [List.cons_append, pieces_cons_of_not_cuts hcut, pieces_cons_of_not_cuts hcut, hrest,
            hps]
          rfl

/-- A separator behind letters that do not separate makes them a piece. -/
theorem pieces_append_cons {w : List α} (hw : m.Whole s w) {a : α}
    (ha : m.cuts (m.read s w) a = true) (rest : List α) :
    m.pieces s (w ++ a :: rest) = w :: m.pieces (m.next (m.read s w) a) rest := by
  rw [pieces_append_of_cuts ha, pieces_of_whole hw]
  rfl

theorem whole_iff {w : List α} :
    m.Whole s w ↔ ∀ u a v, w = u ++ a :: v → m.cuts (m.read s u) a = false := by
  induction w generalizing s with
  | nil => simp [Whole]
  | cons b w ih =>
      constructor
      · intro hw u a v hsplit
        cases u with
        | nil =>
            cases hsplit
            exact hw.1
        | cons c u =>
            cases hsplit
            exact ih.mp hw.2 u a v rfl
      · intro hw
        refine ⟨hw [] b w rfl, ih.mpr ?_⟩
        rintro u a v rfl
        exact hw (b :: u) a v rfl

theorem read_intercalate {sep : α} (hback : m.next s sep = s) {words : List (List α)}
    (hwords : ∀ w ∈ words, m.read s w = s) : m.read s ([sep].intercalate words) = s := by
  induction words with
  | nil => rfl
  | cons w words ih =>
      have hw := hwords w List.mem_cons_self
      cases words with
      | nil => rwa [List.intercalate_singleton]
      | cons w' words =>
          rw [List.intercalate_cons_cons, read_append, read_append, hw, read_cons, hback, read_nil]
          exact ih fun v hv => hwords v (List.mem_cons_of_mem w hv)

/-- Words without separators that lead back to the state they are read in are the pieces of
the words joined by a separator, up to the separator that ends the last of them. -/
theorem pieces_intercalate (m : Splitter σ α) {s : σ} (sep close : α) (hsep : m.cuts s sep = true) (hback : m.next s sep = s)
    (hclose : m.cuts s close = true) {words : List (List α)} (hne : words ≠ [])
    (hwords : ∀ w ∈ words, m.Whole s w ∧ m.read s w = s) (rest : List α) :
    m.pieces s ([sep].intercalate words ++ close :: rest)
      = words ++ m.pieces (m.next s close) rest := by
  induction words with
  | nil => exact absurd rfl hne
  | cons w words ih =>
      obtain ⟨hwhole, hread⟩ := hwords w List.mem_cons_self
      cases words with
      | nil =>
          rw [List.intercalate_singleton, pieces_append_cons hwhole (by rwa [hread]), hread]
          rfl
      | cons w' words =>
          have hrest := ih (by simp) fun v hv => hwords v (List.mem_cons_of_mem w hv)
          rw [List.intercalate_cons_cons, List.append_assoc, List.append_assoc,
            List.singleton_append, pieces_append_cons hwhole (by rwa [hread]), hread, hback, hrest]
          rfl

end Splitter
