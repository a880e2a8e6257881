import Mathlib.Data.List.Basic
import Mathlib.Order.Lattice

/-!
# Sets ordered by a key

A set of a standard library that compares its elements by a key only takes two
elements with one key for the same: what is inserted first stays, and what comes
with its key later is dropped.
-/

namespace Flyover

namespace KeyedSet

variable {α κ : Type*} [LinearOrder κ] (key : α → κ)

/-- The elements stand in the order of their keys, the greatest first. -/
def Sorted (entries : List α) : Prop := entries.Pairwise fun e e' => key e' < key e

/-- An element whose key is there is not inserted. -/
def insert (e : α) : List α → List α
  | [] => [e]
  | first :: rest =>
      if key first < key e then e :: first :: rest
      else if key e < key first then first :: insert e rest
      else first :: rest

/-- Insertions one after the other, into an empty set. -/
def ofList (calls : List α) : List α := calls.foldl (fun entries e => insert key e entries) []

variable {key}

theorem mem_insert {e e' : α} {entries : List α} (hsorted : Sorted key entries) :
    e' ∈ insert key e entries ↔ e' ∈ entries ∨ e' = e ∧ ∀ x ∈ entries, key x ≠ key e := by
  induction entries with
  | nil => simp [insert]
  | cons first rest ih =>
      obtain ⟨hfirst, hrest⟩ := List.pairwise_cons.mp hsorted
      rw [insert]
      rcases lt_trichotomy (key first) (key e) with hbefore | heq | hafter
      · have hnew : ∀ x ∈ first :: rest, key x ≠ key e := by
          intro x hx
          rcases List.mem_cons.mp hx with rfl | hx
          · exact hbefore.ne
          · exact ((hfirst x hx).trans hbefore).ne
        rw [if_pos hbefore, List.mem_cons]
        exact ⟨fun h => h.elim (fun heq => .inr ⟨heq, hnew⟩) .inl,
          fun h => h.elim .inr fun heq => .inl heq.1⟩
      · rw [if_neg heq.not_lt, if_neg heq.not_gt]
        exact ⟨.inl, fun h => h.elim id fun hnew => absurd heq (hnew.2 first List.mem_cons_self)⟩
      · rw [if_neg hafter.not_gt, if_pos hafter, List.mem_cons, ih hrest, List.mem_cons,
          List.forall_mem_cons]
        have hne : key first ≠ key e := hafter.ne'
        tauto

theorem sorted_insert {e : α} {entries : List α} (hsorted : Sorted key entries) :
    Sorted key (insert key e entries) := by
  induction entries with
  | nil => exact List.pairwise_singleton _ _
  | cons first rest ih =>
      obtain ⟨hfirst, hrest⟩ := List.pairwise_cons.mp hsorted
      rw [insert]
      rcases lt_trichotomy (key first) (key e) with hbefore | heq | hafter
      · rw [if_pos hbefore]
        refine List.pairwise_cons.mpr ⟨?_, hsorted⟩
        intro x hx
        rcases List.mem_cons.mp hx with rfl | hx
        · exact hbefore
        · exact (hfirst x hx).trans hbefore
      · rwa [if_neg heq.not_lt, if_neg heq.not_gt]
      · rw [if_neg hafter.not_gt, if_pos hafter]
        refine List.pairwise_cons.mpr ⟨?_, ih hrest⟩
        intro x hx
        rcases (mem_insert hrest).mp hx with hx | ⟨rfl, -⟩
        · exact hfirst x hx
        · exact hafter

/-- The keys of a set are those it had and the one inserted. -/
theorem forall_key_ne_insert {e : α} {entries : List α} (hsorted : Sorted key entries) (k : κ) :
    (∀ x ∈ insert key e entries, key x ≠ k) ↔ (∀ x ∈ entries, key x ≠ k) ∧ key e ≠ k := by
  constructor
  · intro h
    refine ⟨fun x hx => h x ((mem_insert hsorted).mpr (.inl hx)), fun heq => ?_⟩
    by_cases hnew : ∀ x ∈ entries, key x ≠ key e
    · exact h e ((mem_insert hsorted).mpr (.inr ⟨rfl, hnew⟩)) heq
    · push Not at hnew
      obtain ⟨x, hx, hkey⟩ := hnew
      exact h x ((mem_insert hsorted).mpr (.inl hx)) (hkey.trans heq)
  · rintro ⟨hold, hne⟩ x hx
    rcases (mem_insert hsorted).mp hx with hx | ⟨rfl, -⟩
    · exact hold x hx
    · exact hne

theorem mem_foldl_insert {e : α} {calls entries : List α} (hsorted : Sorted key entries) :
    e ∈ calls.foldl (fun entries e => insert key e entries) entries ↔
      e ∈ entries ∨
        (∀ x ∈ entries, key x ≠ key e) ∧ calls.find? (fun c => key c == key e) = some e := by
  induction calls generalizing entries with
  | nil => simp
  | cons c calls ih =>
      rw [List.foldl_cons, ih (sorted_insert hsorted), mem_insert hsorted,
        forall_key_ne_insert hsorted, List.find?_cons]
      by_cases hkey : key c = key e
      · simp only [hkey, beq_self_eq_true, Option.some.injEq, ne_eq, not_true_eq_false,
          false_and, or_false, eq_comm (a := e), and_comm]
      · have hne : e ≠ c := fun heq => hkey (congrArg key heq.symm)
        have hbeq : (key c == key e) = false := beq_eq_false_iff_ne.mpr hkey
        simp [hkey, hne, hbeq]

/-- What a set holds is the first element that came with each key. -/
theorem mem_ofList {e : α} {calls : List α} :
    e ∈ ofList key calls ↔ calls.find? (fun c => key c == key e) = some e := by
  have hempty : Sorted key ([] : List α) := List.Pairwise.nil
  rw [ofList, mem_foldl_insert hempty]
  simp

theorem mem_of_mem_ofList {e : α} {calls : List α} (h : e ∈ ofList key calls) : e ∈ calls :=
  List.mem_of_find?_eq_some (mem_ofList.mp h)

variable (key) in
/-- The element that stands for `c`. -/
theorem exists_first {c : α} {calls : List α} (hc : c ∈ calls) :
    ∃ first ∈ ofList key calls, key first = key c ∧
      calls.find? (fun x => key x == key c) = some first := by
  cases hfind : calls.find? (fun x => key x == key c) with
  | none => exact absurd (List.find?_eq_none.mp hfind c hc) (by simp)
  | some first =>
      have hkey : key first = key c := by simpa using List.find?_some hfind
      exact ⟨first, mem_ofList.mpr (hkey ▸ hfind), hkey, rfl⟩

/-- A map that keeps the keys. -/
theorem insert_map {β : Type*} {key' : β → κ} {f : α → β} (hf : ∀ a, key' (f a) = key a) (e : α)
    (entries : List α) : insert key' (f e) (entries.map f) = (insert key e entries).map f := by
  induction entries with
  | nil => rfl
  | cons first rest ih =>
      simp only [List.map_cons, insert, hf, ih]
      split
      · rfl
      · split <;> rfl

theorem ofList_map {β : Type*} {key' : β → κ} {f : α → β} (hf : ∀ a, key' (f a) = key a)
    (calls : List α) : ofList key' (calls.map f) = (ofList key calls).map f := by
  have hfold : ∀ entries : List α,
      (calls.map f).foldl (fun entries e => insert key' e entries) (entries.map f) =
        (calls.foldl (fun entries e => insert key e entries) entries).map f := by
    induction calls with
    | nil => exact fun _ => rfl
    | cons c calls ih =>
        intro entries
        rw [List.map_cons, List.foldl_cons, List.foldl_cons, insert_map hf, ih]
  exact hfold []

/-! ### What the elements stand for -/

variable {τ : Type*} (covers : α → τ → Prop)

/-- What the elements of a list stand for together. -/
def Covered (entries : List α) (t : τ) : Prop := ∃ e ∈ entries, covers e t

variable {covers}

/-- Nothing is lost exactly if every element is covered by the first with its key. -/
theorem covered_ofList_iff (hkey : ∀ a b t, covers a t → covers b t → key a = key b)
    {calls : List α} :
    (∀ t, Covered covers (ofList key calls) t ↔ Covered covers calls t) ↔
      ∀ c ∈ calls, ∀ first, calls.find? (fun x => key x == key c) = some first →
        ∀ t, covers c t → covers first t := by
  constructor
  · intro h c hc first hfirst t ht
    obtain ⟨e, he, het⟩ := (h t).mpr ⟨c, hc, ht⟩
    have hfind := mem_ofList.mp he
    rw [hkey e c t het ht, hfirst] at hfind
    exact Option.some.inj hfind ▸ het
  · intro h t
    constructor
    · rintro ⟨e, he, het⟩
      exact ⟨e, mem_of_mem_ofList he, het⟩
    · rintro ⟨c, hc, ht⟩
      obtain ⟨first, hfirst, -, hfind⟩ := exists_first key hc
      exact ⟨first, hfirst, h c hc first hfind t ht⟩

theorem find?_of_keys {calls : List α} (h : calls.Pairwise fun a b => key a ≠ key b) {c : α}
    (hc : c ∈ calls) : calls.find? (fun x => key x == key c) = some c := by
  induction calls with
  | nil => cases hc
  | cons first rest ih =>
      obtain ⟨hfirst, hrest⟩ := List.pairwise_cons.mp h
      rcases List.mem_cons.mp hc with rfl | hc
      · simp
      · rw [List.find?_cons, beq_eq_false_iff_ne.mpr (hfirst c hc)]
        exact ih hrest hc

/-- Elements with different keys are all kept. -/
theorem covered_ofList_of_keys (hkey : ∀ a b t, covers a t → covers b t → key a = key b)
    {calls : List α} (h : calls.Pairwise fun a b => key a ≠ key b) (t : τ) :
    Covered covers (ofList key calls) t ↔ Covered covers calls t := by
  apply (covered_ofList_iff hkey).mpr
  intro c hc first hfirst t ht
  rw [find?_of_keys h hc] at hfirst
  exact Option.some.inj hfirst ▸ ht

/-- Of elements with one key only the first is kept. -/
theorem ofList_cons_of_keys {first : α} {calls : List α} (h : ∀ c ∈ calls, key c = key first) :
    ofList key (first :: calls) = [first] := by
  have hfold : ∀ rest : List α, (∀ c ∈ rest, key c = key first) →
      rest.foldl (fun entries e => insert key e entries) [first] = [first] := by
    intro rest
    induction rest with
    | nil => exact fun _ => rfl
    | cons c rest ih =>
        intro hrest
        have hc := hrest c List.mem_cons_self
        rw [List.foldl_cons, insert, hc, if_neg (lt_irrefl _), if_neg (lt_irrefl _)]
        exact ih fun x hx => hrest x (List.mem_cons_of_mem _ hx)
  exact hfold calls h

end KeyedSet

end Flyover
