import Mathlib.Data.List.Basic
import Mathlib.Tactic.Common

/-!
# Computations that draw random numbers

A loop that draws until it likes what it has drawn ends for some draws and not for
others. The numbers that the generator returns are a list that the computation takes
from; when the list has run out, it waits for more. A computation settles if it
never leaves what is defined, whatever is drawn, delivers what is wanted whenever
it ends, and can always still end: a loop never waits for a number that does not
exist. What a computation can return are the values that it returns for some draws.
-/

namespace Drawing

/-- Why a computation has no result. -/
inductive Stop where
  /-- it waits for more numbers -/
  | waits
  /-- it has left an array, or failed an assertion -/
  | fails
  deriving DecidableEq, Repr

/-- A computation that takes numbers from the front of a list. -/
abbrev Draws (α : Type) := StateT (List Nat) (Except Stop) α

variable {α β σ : Type} {P Q : α → Prop} {R : β → Prop}

/-- A value that must exist. -/
def ofOption (x : Option α) : Draws α := fun draws =>
  match x with
  | none => .error .fails
  | some a => .ok (a, draws)

/-- Draw from 0 to `max` until the test is passed. -/
def drawUntil (max : Nat) (test : Nat → Option Bool) :
    List Nat → Except Stop (Nat × List Nat)
  | [] => .error .waits
  | draw :: draws =>
      match test (draw % (max + 1)) with
      | none => .error .fails
      | some true => .ok (draw % (max + 1), draws)
      | some false => drawUntil max test draws

/-- Whatever is drawn, the computation does not fail, it delivers what is wanted when
it ends, and it can still end. -/
structure Settles (x : Draws α) (P : α → Prop) : Prop where
  outcome : ∀ draws, (∃ a rest, x draws = .ok (a, rest) ∧ P a) ∨ x draws = .error .waits
  keeps : ∀ draws more a rest, x draws = .ok (a, rest) → x (draws ++ more) = .ok (a, rest ++ more)
  ends : ∀ draws, ∃ more a rest, x (draws ++ more) = .ok (a, rest)

theorem bind_ok {x : Draws α} {f : α → Draws β} {draws rest : List Nat} {a : α}
    (h : x draws = .ok (a, rest)) : (x >>= f) draws = f a rest := by
  simp only [bind, StateT.bind, h, Except.bind]

theorem bind_error {x : Draws α} {f : α → Draws β} {draws : List Nat} {e : Stop}
    (h : x draws = .error e) : (x >>= f) draws = .error e := by
  simp only [bind, StateT.bind, h, Except.bind]

namespace Settles

theorem mono {x : Draws α} (hx : Settles x Q) (h : ∀ a, Q a → P a) : Settles x P where
  outcome := fun draws =>
    (hx.outcome draws).imp_left fun ⟨a, rest, hok, hQ⟩ => ⟨a, rest, hok, h a hQ⟩
  keeps := hx.keeps
  ends := hx.ends

theorem pure {a : α} (h : P a) : Settles (Pure.pure a) P where
  outcome := fun draws => .inl ⟨a, draws, rfl, h⟩
  keeps := by
    intro draws more b rest hok
    cases hok
    rfl
  ends := fun draws => ⟨[], a, draws ++ [], rfl⟩

theorem ofOption {x : Option α} {a : α} (hx : x = some a) (h : P a) :
    Settles (Drawing.ofOption x) P := by
  subst hx
  exact pure h

theorem bind {x : Draws α} {f : α → Draws β} (hx : Settles x Q)
    (hf : ∀ a, Q a → Settles (f a) R) : Settles (x >>= f) R where
  outcome := by
    intro draws
    rcases hx.outcome draws with ⟨a, rest, hok, hQ⟩ | hwaits
    · rw [bind_ok hok]
      exact (hf a hQ).outcome rest
    · exact .inr (bind_error hwaits)
  keeps := by
    intro draws more b rest' hok
    rcases hx.outcome draws with ⟨a, rest, hx', hQ⟩ | hwaits
    · rw [bind_ok hx'] at hok
      rw [bind_ok (hx.keeps draws more a rest hx')]
      exact (hf a hQ).keeps rest more b rest' hok
    · rw [bind_error hwaits] at hok
      cases hok
  ends := by
    intro draws
    obtain ⟨more, a, rest, hok⟩ := hx.ends draws
    have hQ : Q a := by
      rcases hx.outcome (draws ++ more) with ⟨a', rest', hok', hQ⟩ | hwaits
      · cases hok.symm.trans hok'
        exact hQ
      · cases hok.symm.trans hwaits
    obtain ⟨more', b, rest', hok'⟩ := (hf a hQ).ends rest
    refine ⟨more ++ more', b, rest', ?_⟩
    rw [← List.append_assoc, bind_ok (hx.keeps _ more' a rest hok)]
    exact hok'

/-- What every round takes from the items before it to those with its own, a loop
takes from none to all. -/
theorem foldlM {ι : Type} {motive : List ι → σ → Prop} {f : σ → ι → Draws σ} {xs : List ι} {s : σ}
    (hstart : motive [] s) (hround : ∀ done x rest, xs = done ++ x :: rest → ∀ t, motive done t →
      Settles (f t x) (motive (done ++ [x]))) : Settles (xs.foldlM f s) (motive xs) := by
  have hloop : ∀ (rest done : List ι) (t : σ), xs = done ++ rest → motive done t →
      Settles (rest.foldlM f t) (motive xs) := by
    intro rest
    induction rest with
    | nil =>
        intro done t hxs ht
        rw [List.append_nil] at hxs
        exact pure (hxs ▸ ht)
    | cons x rest ih =>
        intro done t hxs ht
        rw [List.foldlM_cons]
        apply bind (hround done x rest hxs t ht)
        intro t' ht'
        apply ih (done ++ [x]) t' _ ht'
        rw [hxs, List.append_assoc, List.singleton_append]
  exact hloop xs [] s rfl hstart

/-- Drawing until the test is passed settles if some number passes it. -/
theorem drawUntil {max : Nat} {test : Nat → Option Bool} (htest : ∀ j ≤ max, (test j).isSome)
    (hpass : ∃ j ≤ max, test j = some true) :
    Settles (α := Nat) (drawUntil max test) fun j => j ≤ max ∧ test j = some true := by
  have hstep : ∀ draw, (test (draw % (max + 1))).isSome := fun draw =>
    htest _ (Nat.le_of_lt_succ (Nat.mod_lt draw max.succ_pos))
  constructor
  case outcome =>
    intro draws
    induction draws with
    | nil => exact .inr rfl
    | cons draw draws ih =>
        obtain ⟨passed, hpassed⟩ := Option.isSome_iff_exists.mp (hstep draw)
        cases passed with
        | true =>
            refine .inl ⟨draw % (max + 1), draws, ?_, ?_, hpassed⟩
            · simp only [Drawing.drawUntil, hpassed]
            · exact Nat.le_of_lt_succ (Nat.mod_lt draw max.succ_pos)
        | false => simpa only [Drawing.drawUntil, hpassed] using ih
  case keeps =>
    intro draws more j rest hok
    induction draws with
    | nil => cases hok
    | cons draw draws ih =>
        rw [List.cons_append]
        unfold Drawing.drawUntil at hok ⊢
        split at hok
        next => cases hok
        next hpassed =>
          cases hok
          rfl
        next => exact ih hok
  case ends =>
    intro draws
    obtain ⟨j, hj, hpassed⟩ := hpass
    refine ⟨[j], ?_⟩
    induction draws with
    | nil =>
        refine ⟨j, [], ?_⟩
        have hmod : j % (max + 1) = j := Nat.mod_eq_of_lt (Nat.lt_succ_of_le hj)
        simp only [List.nil_append, Drawing.drawUntil, hmod, hpassed]
    | cons draw draws ih =>
        obtain ⟨passed, hdrawn⟩ := Option.isSome_iff_exists.mp (hstep draw)
        cases passed with
        | true =>
            refine ⟨draw % (max + 1), draws ++ [j], ?_⟩
            simp only [List.cons_append, Drawing.drawUntil, hdrawn]
        | false =>
            obtain ⟨a, rest, hok⟩ := ih
            refine ⟨a, rest, ?_⟩
            simpa only [List.cons_append, Drawing.drawUntil, hdrawn] using hok

end Settles

/-- What the computation delivers when it ends, if it does. -/
def Delivers (x : Draws α) (P : α → Prop) : Prop := ∀ draws a rest, x draws = .ok (a, rest) → P a

/-- A computation that settles ends for some draws. -/
theorem Settles.exists_result {x : Draws α} (hx : Settles x P) :
    ∃ draws a rest, x draws = .ok (a, rest) := by
  obtain ⟨more, a, rest, hok⟩ := hx.ends []
  exact ⟨[] ++ more, a, rest, hok⟩

namespace Delivers

theorem pure {a : α} (h : P a) : Delivers (Pure.pure a) P := by
  intro draws b rest hok
  cases hok
  exact h

theorem bind {x : Draws α} {f : α → Draws β} (hx : Delivers x Q)
    (hf : ∀ a, Q a → Delivers (f a) R) : Delivers (x >>= f) R := by
  intro draws b rest hok
  cases hfirst : x draws with
  | error e =>
      rw [bind_error hfirst] at hok
      cases hok
  | ok result =>
      obtain ⟨a, rest'⟩ := result
      rw [bind_ok hfirst] at hok
      exact hf a (hx draws a rest' hfirst) rest' b rest hok

theorem drawUntil {max : Nat} {test : Nat → Option Bool} :
    Delivers (α := Nat) (drawUntil max test) fun j => j ≤ max ∧ test j = some true := by
  intro draws j rest hok
  induction draws with
  | nil => cases hok
  | cons draw draws ih =>
      rw [Drawing.drawUntil] at hok
      split at hok
      next => cases hok
      next hpassed =>
        cases hok
        exact ⟨Nat.le_of_lt_succ (Nat.mod_lt draw max.succ_pos), hpassed⟩
      next => exact ih hok

end Delivers

/-- The computation does not fail, and these are the values that it returns for some
draws, whatever may be drawn behind them. -/
structure CanReturn (x : Draws α) (P : α → Prop) : Prop where
  safe : ∀ draws, x draws ≠ .error .fails
  possible : ∀ a, P a → ∃ used, ∀ more, x (used ++ more) = .ok (a, more)
  only : ∀ draws a rest, x draws = .ok (a, rest) → P a

namespace CanReturn

theorem iff {x : Draws α} (hx : CanReturn x P) {a : α} :
    (∃ draws rest, x draws = .ok (a, rest)) ↔ P a := by
  constructor
  · rintro ⟨draws, rest, hok⟩
    exact hx.only draws a rest hok
  · intro ha
    obtain ⟨used, hused⟩ := hx.possible a ha
    exact ⟨used ++ [], [], hused []⟩

theorem congr {x : Draws α} (hx : CanReturn x Q) (h : ∀ a, Q a ↔ P a) : CanReturn x P where
  safe := hx.safe
  possible := fun a ha => hx.possible a ((h a).mpr ha)
  only := fun draws a rest hok => (h a).mp (hx.only draws a rest hok)

theorem pure (a : α) : CanReturn (Pure.pure a) (· = a) where
  safe := nofun
  possible := by
    rintro b rfl
    exact ⟨[], fun more => rfl⟩
  only := by
    intro draws b rest hok
    cases hok
    rfl

theorem ofOption {x : Option α} {a : α} (hx : x = some a) :
    CanReturn (Drawing.ofOption x) (· = a) := by
  subst hx
  exact pure a

theorem bind {x : Draws α} {f : α → Draws β} {S : α → β → Prop} (hx : CanReturn x P)
    (hf : ∀ a, P a → CanReturn (f a) (S a)) :
    CanReturn (x >>= f) fun b => ∃ a, P a ∧ S a b where
  safe := by
    intro draws
    cases hfirst : x draws with
    | error e =>
        rw [bind_error hfirst]
        rintro ⟨⟩
        exact hx.safe draws hfirst
    | ok result =>
        obtain ⟨a, rest⟩ := result
        rw [bind_ok hfirst]
        exact (hf a (hx.only draws a rest hfirst)).safe rest
  possible := by
    rintro b ⟨a, ha, hb⟩
    obtain ⟨used, hused⟩ := hx.possible a ha
    obtain ⟨used', hused'⟩ := (hf a ha).possible b hb
    refine ⟨used ++ used', fun more => ?_⟩
    rw [List.append_assoc, bind_ok (hused (used' ++ more)), hused' more]
  only := by
    intro draws b rest hok
    cases hfirst : x draws with
    | error e =>
        rw [bind_error hfirst] at hok
        cases hok
    | ok result =>
        obtain ⟨a, rest'⟩ := result
        rw [bind_ok hfirst] at hok
        have ha := hx.only draws a rest' hfirst
        exact ⟨a, ha, (hf a ha).only rest' b rest hok⟩

/-- Drawing until the test is passed can return what passes it. -/
theorem drawUntil {max : Nat} {test : Nat → Option Bool} (htest : ∀ j ≤ max, (test j).isSome) :
    CanReturn (α := Nat) (drawUntil max test) fun j => j ≤ max ∧ test j = some true where
  safe := by
    intro draws
    induction draws with
    | nil => exact nofun
    | cons draw draws ih =>
        obtain ⟨passed, hpassed⟩ := Option.isSome_iff_exists.mp
          (htest _ (Nat.le_of_lt_succ (Nat.mod_lt draw max.succ_pos)))
        cases passed with
        | true =>
            rw [Drawing.drawUntil, hpassed]
            exact nofun
        | false => simpa only [Drawing.drawUntil, hpassed] using ih
  possible := by
    rintro j ⟨hj, hpassed⟩
    refine ⟨[j], fun more => ?_⟩
    have hmod : j % (max + 1) = j := Nat.mod_eq_of_lt (Nat.lt_succ_of_le hj)
    simp only [List.cons_append, List.nil_append, Drawing.drawUntil, hmod, hpassed]
  only := Delivers.drawUntil

end CanReturn

end Drawing
