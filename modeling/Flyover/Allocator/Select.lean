import Flyover.Allocator.Iterative

/-!
# `SelAlloc`

Outputs grant and inputs accept, both by priority and round robin. Unlike
`iSLIP_Sparse`, which forgets the grants of an iteration, `SelAlloc` keeps one
vector of grants for all of them. A matched output keeps its grant, and so does
an output of which every requester is matched. Its grant then belongs to an
input that has accepted another output, and the accept phase does not ask
whether the input is matched.
-/

namespace Flyover

open PartialMatching Scan

variable {inputs outputs : Nat}

/-- `SelAlloc` -/
structure SelAlloc (inputs outputs : Nat) extends Allocator inputs outputs where
  iter : Nat
  gptrs : Fin outputs → Fin inputs
  aptrs : Fin inputs → Fin outputs
  outmask : Fin outputs → Int

/-- What the iterations of `Allocate` work on: the pointers and `grants`. -/
structure Granted (inputs outputs : Nat) extends Pointed inputs outputs where
  grants : Fin outputs → Option (Fin inputs)

namespace Requests

/-- The priority that the output gives to the request. -/
def outPri (request : Requests inputs outputs) (o : Fin outputs) (i : Fin inputs) : Int :=
  match request i o with
  | some r => r.outPri
  | none => 0

/-- The priority that the input gives to the request. -/
def inPri (request : Requests inputs outputs) (i : Fin inputs) (o : Fin outputs) : Int :=
  match request i o with
  | some r => r.inPri
  | none => 0

end Requests

namespace SelAlloc

section Phases

variable (request : Requests inputs outputs) (outmask : Fin outputs → Int)

/-- `grants[output]` after the grant phase: without a free requester it stays as it was. -/
def grant (g : Granted inputs outputs) (o : Fin outputs) : Option (Fin inputs) :=
  if (request.outReq o).isEmpty || (g.matching.outmatch o).isSome || outmask o != 0 then
    g.grants o
  else
    (best (fun i => (g.matching.inmatch i).isNone) (request.outPri o)
      (roundRobin (request.outReq o) (g.gptrs o))).or (g.grants o)

/-- What an input accepts: a granted output of highest priority. -/
def choice (grants : Fin outputs → Option (Fin inputs)) (offset : Fin outputs) (i : Fin inputs) :
    Option (Fin outputs) :=
  best (fun o => grants o == some i && !(request.outReq o).isEmpty) (request.inPri i)
    (roundRobin (request.inReq i) offset)

/-- One round of the accept phase. -/
def accept [NeZero inputs] [NeZero outputs] (iter : Nat) (grants : Fin outputs → Option (Fin inputs))
    (p : Pointed inputs outputs) (i : Fin inputs) : Pointed inputs outputs :=
  match choice request grants (p.aptrs i) i with
  | none => p
  | some o => p.acceptPair iter i o

/-- One iteration. -/
def iterate [NeZero inputs] [NeZero outputs] (g : Granted inputs outputs) (iter : Nat) :
    Granted inputs outputs :=
  let grants := grant request outmask g
  { request.inOcc.foldl (accept request iter grants) g.toPointed with grants := grants }

end Phases

/-- The match arrays, pointers and grants before the first iteration. -/
def begin (s : SelAlloc inputs outputs) : Granted inputs outputs where
  matching := s.matching
  gptrs := s.gptrs
  aptrs := s.aptrs
  grants _ := none

/-- The same after a number of iterations. -/
def after [NeZero inputs] [NeZero outputs] (s : SelAlloc inputs outputs) (n : Nat) :
    Granted inputs outputs :=
  (List.range n).foldl (iterate s.request s.outmask) s.begin

/-- `Allocate` -/
def allocate [NeZero inputs] [NeZero outputs] (s : SelAlloc inputs outputs) :
    SelAlloc inputs outputs :=
  let g := s.after s.iter
  { s with
    matching := g.matching
    gptrs := g.gptrs
    aptrs := g.aptrs }

/-! ### The phases -/

section Phases

variable {request : Requests inputs outputs} {outmask : Fin outputs → Int}
  {g : Granted inputs outputs} {grants : Fin outputs → Option (Fin inputs)}
  {i : Fin inputs} {o : Fin outputs}

theorem grant_of_matched (h : g.matching.outmatch o ≠ none) :
    grant request outmask g o = g.grants o := by
  apply if_pos
  rw [Bool.or_eq_true, Bool.or_eq_true]
  exact .inl (.inr (Option.isSome_iff_ne_none.mpr h))

/-- A grant is kept where every requester is matched. -/
theorem grant_of_requesters_matched (h : ∀ j, request.Has j o → g.matching.inmatch j ≠ none) :
    grant request outmask g o = g.grants o := by
  unfold grant
  split
  next => rfl
  next =>
    have hnone : best (fun i => (g.matching.inmatch i).isNone) (request.outPri o)
        (roundRobin (request.outReq o) (g.gptrs o)) = none := by
      rw [best_eq_none_iff]
      intro j hj
      have hhas := Requests.mem_outReq.mp (mem_of_mem_roundRobin hj)
      simpa [Option.isSome_iff_ne_none] using h j hhas
    rw [hnone, Option.none_or]

/-- A new grant goes to a free requester of a free output. -/
theorem grant_cases (request : Requests inputs outputs) (outmask : Fin outputs → Int)
    (g : Granted inputs outputs) (o : Fin outputs) :
    grant request outmask g o = g.grants o ∨
      ∃ i, grant request outmask g o = some i ∧ g.matching.Free i o ∧ request.Has i o ∧
        outmask o = 0 := by
  unfold grant
  split
  next => exact .inl rfl
  next hskip =>
    rw [Bool.or_eq_true, Bool.or_eq_true, not_or, not_or] at hskip
    cases hbest : best (fun i => (g.matching.inmatch i).isNone) (request.outPri o)
        (roundRobin (request.outReq o) (g.gptrs o)) with
    | none => exact .inl rfl
    | some i =>
        obtain ⟨hmem, hfree⟩ := mem_of_best hbest
        refine .inr ⟨i, rfl, ⟨?_, ?_⟩, Requests.mem_outReq.mp (mem_of_mem_roundRobin hmem), ?_⟩
        · simpa using hfree
        · simpa using hskip.1.2
        · simpa using hskip.2

/-- A free output that is not masked grants to one of its free requesters. -/
theorem exists_grant (hout : g.matching.outmatch o = none) (hmask : outmask o = 0)
    (hhas : request.Has i o) (hin : g.matching.inmatch i = none) :
    ∃ j, grant request outmask g o = some j ∧ g.matching.inmatch j = none := by
  have hmem := Requests.mem_outReq.mpr hhas
  have hrun : ((request.outReq o).isEmpty || (g.matching.outmatch o).isSome || outmask o != 0) =
      false := by
    have hne : (request.outReq o).isEmpty = false := by
      rw [List.isEmpty_eq_false_iff]
      exact List.ne_nil_of_mem hmem
    simp [hne, hout, hmask]
  rw [grant, hrun, if_neg Bool.false_ne_true]
  cases hbest : best (fun i => (g.matching.inmatch i).isNone) (request.outPri o)
      (roundRobin (request.outReq o) (g.gptrs o)) with
  | none =>
      rw [best_roundRobin Requests.sorted_outReq] at hbest
      have hnot := best_eq_none_iff.mp hbest i (mem_fromOffset.mpr hmem)
      rw [hin] at hnot
      cases hnot
  | some j => exact ⟨j, rfl, by simpa using (mem_of_best hbest).2⟩

/-- An input accepts the leader of its grants. -/
theorem choice_eq_some_iff {offset : Fin outputs} :
    choice request grants offset i = some o ↔
      Leads (fun b => request.Has i b ∧ grants b = some i) (request.inPri i) (turn offset) o := by
  have hcandidate : (fun b => b ∈ request.inReq i ∧
      (grants b == some i && !(request.outReq b).isEmpty) = true) =
      fun b => request.Has i b ∧ grants b = some i := by
    funext b
    rw [eq_iff_iff, Requests.mem_inReq, Bool.and_eq_true, beq_iff_eq]
    apply and_congr_right
    intro hhas
    apply and_iff_left
    rw [Bool.not_eq_true', List.isEmpty_eq_false_iff]
    exact List.ne_nil_of_mem (Requests.mem_outReq.mpr hhas)
  rw [choice, best_roundRobin_eq_some_iff Requests.sorted_inReq, hcandidate]

theorem grants_of_choice {offset : Fin outputs} (h : choice request grants offset i = some o) :
    request.Has i o ∧ grants o = some i :=
  (choice_eq_some_iff.mp h).eligible

end Phases

/-! ### One iteration -/

section Iteration

variable [NeZero inputs] [NeZero outputs] {request : Requests inputs outputs}
  {outmask : Fin outputs → Int} {grants : Fin outputs → Option (Fin inputs)} {iter : Nat}

/-- What a run of the accept phase over some of the inputs does, in terms of what
they choose with the pointers at its start. -/
structure Accepted (request : Requests inputs outputs) (grants : Fin outputs → Option (Fin inputs))
    (iter : Nat) (l : List (Fin inputs)) (p p' : Pointed inputs outputs) : Prop where
  inmatch : ∀ i, p'.matching.inmatch i =
    (if i ∈ l then choice request grants (p.aptrs i) i else none).or (p.matching.inmatch i)
  outmatch : ∀ o i, p'.matching.outmatch o = some i ↔
    (i ∈ l ∧ choice request grants (p.aptrs i) i = some o) ∨
      (p.matching.outmatch o = some i ∧
        ∀ j ∈ l, choice request grants (p.aptrs j) j ≠ some o)
  aptrs : ∀ i, p'.aptrs i =
    match if iter = 0 ∧ i ∈ l then choice request grants (p.aptrs i) i else none with
    | some o => o + 1
    | none => p.aptrs i

theorem accept_of_none {p : Pointed inputs outputs} {x : Fin inputs}
    (h : choice request grants (p.aptrs x) x = none) : accept request iter grants p x = p := by
  rw [accept, h]

theorem accept_of_some {p : Pointed inputs outputs} {x : Fin inputs} {o : Fin outputs}
    (h : choice request grants (p.aptrs x) x = some o) :
    accept request iter grants p x = p.acceptPair iter x o := by
  rw [accept, h]

theorem acceptPair_aptrs_of_ne {p : Pointed inputs outputs} {x i : Fin inputs} {o : Fin outputs}
    (h : i ≠ x) : (p.acceptPair iter x o).aptrs i = p.aptrs i := by
  unfold Pointed.acceptPair
  dsimp only
  split
  · exact Function.update_of_ne h ..
  · rfl

theorem acceptPair_aptrs_self {p : Pointed inputs outputs} {x : Fin inputs} {o : Fin outputs} :
    (p.acceptPair iter x o).aptrs x = if iter = 0 then o + 1 else p.aptrs x := by
  unfold Pointed.acceptPair
  dsimp only
  split
  · exact Function.update_self ..
  · rfl

/-- One round in front of a run. -/
theorem Accepted.cons {x : Fin inputs} {rest : List (Fin inputs)} {p p' : Pointed inputs outputs}
    (hx : x ∉ rest) (h : Accepted request grants iter rest (accept request iter grants p x) p') :
    Accepted request grants iter (x :: rest) p p' := by
  have hne {i : Fin inputs} (hi : i ∈ rest) : i ≠ x := fun heq => hx (heq ▸ hi)
  cases hchoice : choice request grants (p.aptrs x) x with
  | none =>
      rw [accept_of_none hchoice] at h
      constructor
      case inmatch =>
        intro i
        rw [h.inmatch i]
        by_cases hi : i = x
        · subst hi
          simp [hx, hchoice]
        · simp [hi]
      case outmatch =>
        intro o i
        rw [h.outmatch o i]
        by_cases hi : i = x
        · subst hi
          simp [hx, hchoice]
        · simp [hi, hchoice]
      case aptrs =>
        intro i
        rw [h.aptrs i]
        by_cases hi : i = x
        · subst hi
          simp [hx, hchoice]
        · simp [hi]
  | some o =>
      rw [accept_of_some hchoice] at h
      have hsame {i : Fin inputs} (hi : i ∈ rest) :
          choice request grants ((p.acceptPair iter x o).aptrs i) i =
            choice request grants (p.aptrs i) i := by
        rw [acceptPair_aptrs_of_ne (hne hi)]
      constructor
      case inmatch =>
        intro i
        rw [h.inmatch i]
        by_cases hi : i = x
        · subst hi
          rw [if_neg hx, if_pos List.mem_cons_self, hchoice]
          exact assign_inmatch_self
        · have hold : (p.acceptPair iter x o).matching.inmatch i = p.matching.inmatch i :=
            assign_inmatch_of_ne hi
          by_cases hrest : i ∈ rest
          · rw [if_pos hrest, if_pos (List.mem_cons_of_mem x hrest), hsame hrest, hold]
          · rw [if_neg hrest, if_neg (by simp [hi, hrest]), hold]
      case outmatch =>
        intro b i
        rw [h.outmatch b i]
        have hmine : ∀ j ∈ rest, choice request grants (p.aptrs j) j ≠ some o := by
          intro j hj hj'
          have hgrant := (grants_of_choice hchoice).2.symm.trans (grants_of_choice hj').2
          exact hne hj (Option.some.inj hgrant).symm
        have hleft : (i ∈ rest ∧ choice request grants ((p.acceptPair iter x o).aptrs i) i = some b) ↔
            (i ∈ rest ∧ choice request grants (p.aptrs i) i = some b) :=
          and_congr_right fun hi => by rw [hsame hi]
        have hright : (∀ j ∈ rest,
            choice request grants ((p.acceptPair iter x o).aptrs j) j ≠ some b) ↔
            ∀ j ∈ rest, choice request grants (p.aptrs j) j ≠ some b :=
          forall₂_congr fun j hj => by rw [hsame hj]
        rw [hleft, hright, List.mem_cons, List.forall_mem_cons, hchoice]
        by_cases hb : b = o
        · subst hb
          have hnew : (p.acceptPair iter x b).matching.outmatch b = some x := assign_outmatch_self
          rw [hnew]
          constructor
          · rintro (⟨hi, hi'⟩ | ⟨hi, -⟩)
            · exact absurd hi' (hmine i hi)
            · cases hi
              exact .inl ⟨.inl rfl, hchoice⟩
          · rintro (⟨hi | hi, hi'⟩ | ⟨-, hnot, -⟩)
            · exact .inr ⟨congrArg some hi.symm, hmine⟩
            · exact absurd hi' (hmine i hi)
            · exact absurd rfl hnot
        · have hold : (p.acceptPair iter x o).matching.outmatch b = p.matching.outmatch b :=
            assign_outmatch_of_ne hb
          have hother : some o ≠ some b := fun heq => hb (Option.some.inj heq).symm
          rw [hold]
          constructor
          · rintro (⟨hi, hi'⟩ | ⟨hi, hall⟩)
            · exact .inl ⟨.inr hi, hi'⟩
            · exact .inr ⟨hi, hother, hall⟩
          · rintro (⟨hi | hi, hi'⟩ | ⟨hi, -, hall⟩)
            · subst hi
              exact absurd (hchoice.symm.trans hi') hother
            · exact .inl ⟨hi, hi'⟩
            · exact .inr ⟨hi, hall⟩
      case aptrs =>
        intro i
        rw [h.aptrs i]
        by_cases hi : i = x
        · subst hi
          rw [acceptPair_aptrs_self]
          by_cases hiter : iter = 0
          · simp [hiter, hx, hchoice]
          · simp [hiter]
        · rw [acceptPair_aptrs_of_ne hi]
          simp [hi]

theorem accepted_foldl {l : List (Fin inputs)} (hnodup : l.Nodup) (p : Pointed inputs outputs) :
    Accepted request grants iter l p (l.foldl (accept request iter grants) p) := by
  induction l generalizing p with
  | nil => exact ⟨fun i => by simp, fun o i => by simp, fun i => by simp⟩
  | cons x rest ih =>
      obtain ⟨hx, hrest⟩ := List.nodup_cons.mp hnodup
      exact (ih hrest (accept request iter grants p x)).cons hx

/-- What an input accepts in an iteration. -/
def chosen (request : Requests inputs outputs) (outmask : Fin outputs → Int)
    (g : Granted inputs outputs) (i : Fin inputs) : Option (Fin outputs) :=
  choice request (grant request outmask g) (g.aptrs i) i

variable {g : Granted inputs outputs}

theorem accepted_iterate (g : Granted inputs outputs) (iter : Nat) :
    Accepted request (grant request outmask g) iter request.inOcc g.toPointed
      (iterate request outmask g iter).toPointed :=
  accepted_foldl Requests.nodup_inOcc g.toPointed

omit [NeZero inputs] [NeZero outputs] in
theorem chosen_of_not_mem {i : Fin inputs} (h : i ∉ request.inOcc) :
    chosen request outmask g i = none := by
  cases hchosen : chosen request outmask g i with
  | none => rfl
  | some o => exact absurd (Requests.mem_inOcc.mpr ⟨o, (grants_of_choice hchosen).1⟩) h

theorem iterate_inmatch (g : Granted inputs outputs) (iter : Nat) (i : Fin inputs) :
    (iterate request outmask g iter).matching.inmatch i =
      (chosen request outmask g i).or (g.matching.inmatch i) := by
  rw [(accepted_iterate g iter).inmatch i]
  split
  next => rfl
  next h => rw [chosen_of_not_mem h]

theorem iterate_outmatch (g : Granted inputs outputs) (iter : Nat) (o : Fin outputs)
    (i : Fin inputs) :
    (iterate request outmask g iter).matching.outmatch o = some i ↔
      chosen request outmask g i = some o ∨
        (g.matching.outmatch o = some i ∧ ∀ j, chosen request outmask g j ≠ some o) := by
  rw [(accepted_iterate g iter).outmatch o i]
  have hmem {j : Fin inputs} (h : chosen request outmask g j = some o) : j ∈ request.inOcc :=
    Requests.mem_inOcc.mpr ⟨o, (grants_of_choice h).1⟩
  apply or_congr
  · exact and_iff_right_of_imp hmem
  · apply and_congr_right
    intro _
    constructor
    · intro h j hj
      exact h j (hmem hj) hj
    · intro h j _
      exact h j

theorem iterate_aptrs_first {i : Fin inputs} {o : Fin outputs}
    (h : chosen request outmask g i = some o) :
    (iterate request outmask g 0).aptrs i = o + 1 := by
  have hmem := Requests.mem_inOcc.mpr ⟨o, (grants_of_choice h).1⟩
  rw [(accepted_iterate g 0).aptrs i, if_pos ⟨rfl, hmem⟩]
  show (match chosen request outmask g i with
    | some o => o + 1
    | none => g.aptrs i) = o + 1
  rw [h]

theorem iterate_aptrs {iter : Nat} (h : iter ≠ 0) (i : Fin inputs) :
    (iterate request outmask g iter).aptrs i = g.aptrs i := by
  rw [(accepted_iterate g iter).aptrs i, if_neg fun hiter => h hiter.1]

/-- Where every matched pair is accepted again, the iteration leaves the accepted
pairs in both tables. -/
theorem iterate_matching (hconsistent : g.matching.Consistent)
    (hagain : ∀ i o, g.matching.inmatch i = some o → chosen request outmask g i = some o)
    (iter : Nat) (i : Fin inputs) (o : Fin outputs) :
    ((iterate request outmask g iter).matching.inmatch i = some o ↔
      chosen request outmask g i = some o) ∧
    ((iterate request outmask g iter).matching.outmatch o = some i ↔
      chosen request outmask g i = some o) := by
  constructor
  · rw [iterate_inmatch]
    cases hchosen : chosen request outmask g i with
    | none =>
        rw [Option.none_or]
        refine iff_of_false (fun h => ?_) (fun h => nomatch h)
        cases hchosen.symm.trans (hagain i o h)
    | some b => rw [Option.some_or]
  · rw [iterate_outmatch]
    apply or_iff_left_of_imp
    rintro ⟨hout, hnone⟩
    exact absurd (hagain i o ((hconsistent i o).mpr hout)) (hnone i)

/-- A matched output stays with the input that it granted. -/
def Kept (g : Granted inputs outputs) : Prop :=
  ∀ o i, g.matching.outmatch o = some i → g.grants o = some i

omit [NeZero inputs] [NeZero outputs] in
theorem Kept.grant_eq (h : Kept g) {o : Fin outputs} {i : Fin inputs}
    (hout : g.matching.outmatch o = some i) : grant request outmask g o = some i := by
  rw [grant_of_matched (by rw [hout]; exact Option.some_ne_none i), h o i hout]

theorem Kept.iterate (h : Kept g) (iter : Nat) : Kept (iterate request outmask g iter) := by
  intro o i hout
  obtain hchosen | ⟨hold, -⟩ := (iterate_outmatch g iter o i).mp hout
  · exact (grants_of_choice hchosen).2
  · exact h.grant_eq hold

theorem Kept.outmatch (h : Kept g) (iter : Nat) {o : Fin outputs} {i : Fin inputs}
    (hout : g.matching.outmatch o = some i) :
    (SelAlloc.iterate request outmask g iter).matching.outmatch o = some i := by
  rw [iterate_outmatch]
  by_cases hany : ∃ j, chosen request outmask g j = some o
  · obtain ⟨j, hj⟩ := hany
    have hgrant := (grants_of_choice hj).2
    rw [h.grant_eq hout] at hgrant
    cases hgrant
    exact .inl hj
  · exact .inr ⟨hout, fun j hj => hany ⟨j, hj⟩⟩

/-- Of two grants of an input, the first is accepted. -/
def Beats (request : Requests inputs outputs) (g : Granted inputs outputs) (i : Fin inputs)
    (o b : Fin outputs) : Prop :=
  request.inPri i b < request.inPri i o ∨
    (request.inPri i b = request.inPri i o ∧ turn (g.aptrs i) o < turn (g.aptrs i) b)

/-- A matching after the first iteration that later ones only add to: another
grant of a matched input is beaten, or goes to a free input next. -/
structure Settled (request : Requests inputs outputs) (outmask : Fin outputs → Int)
    (g : Granted inputs outputs) : Prop where
  consistent : g.matching.Consistent
  kept : Kept g
  granted : ∀ o i, g.grants o = some i → request.Has i o ∧ outmask o = 0
  beaten : ∀ i o b, g.matching.inmatch i = some o → g.grants b = some i → b ≠ o →
    Beats request g i o b ∨ ∃ j, request.Has j b ∧ g.matching.inmatch j = none

namespace Settled

omit [NeZero inputs] [NeZero outputs] in
/-- After the grant phase a grant goes to a free input, to the matched one, or
to an input that has something better. -/
theorem grant_cases (h : Settled request outmask g) {b : Fin outputs} {i : Fin inputs}
    (hgrant : grant request outmask g b = some i) :
    g.matching.Free i b ∨ g.matching.inmatch i = some b ∨
      ∀ o, g.matching.inmatch i = some o → Beats request g i o b := by
  obtain hsame | ⟨j, hj, hfree, -⟩ := SelAlloc.grant_cases request outmask g b
  · have hold : g.grants b = some i := hsame.symm.trans hgrant
    cases hout : g.matching.outmatch b with
    | some j =>
        have hj := h.kept b j hout
        rw [hold] at hj
        cases hj
        exact .inr (.inl ((h.consistent i b).mpr hout))
    | none =>
        obtain ⟨hhas, hmask⟩ := h.granted b i hold
        cases hin : g.matching.inmatch i with
        | none => exact .inl ⟨hin, hout⟩
        | some o =>
            right
            right
            intro o' ho'
            cases ho'
            have hne : b ≠ o := by
              intro heq
              subst heq
              rw [(h.consistent i b).mp hin] at hout
              cases hout
            obtain hbeats | ⟨j, hj, hfree⟩ := h.beaten i o b hin hold hne
            · exact hbeats
            · obtain ⟨j', hj', hfree'⟩ := exists_grant hout hmask hj hfree
              rw [hgrant] at hj'
              cases hj'
              rw [hin] at hfree'
              cases hfree'
  · rw [hgrant] at hj
    cases hj
    exact .inl hfree

omit [NeZero inputs] [NeZero outputs] in
/-- A matched input accepts the same output again. -/
theorem chosen_of_matched (h : Settled request outmask g) {i : Fin inputs} {o : Fin outputs}
    (hin : g.matching.inmatch i = some o) : chosen request outmask g i = some o := by
  have hout := (h.consistent i o).mp hin
  apply choice_eq_some_iff.mpr
  constructor
  · exact ⟨(h.granted o i (h.kept o i hout)).1, h.kept.grant_eq hout⟩
  · intro b hb hne
    obtain hfree | hmatched | hbeats := h.grant_cases hb.2
    · cases hin.symm.trans hfree.1
    · rw [hin] at hmatched
      cases hmatched
      exact absurd rfl hne
    · exact hbeats o hin

theorem matching_iff (h : Settled request outmask g) (iter : Nat) (i : Fin inputs)
    (o : Fin outputs) :
    ((iterate request outmask g iter).matching.inmatch i = some o ↔
      chosen request outmask g i = some o) ∧
    ((iterate request outmask g iter).matching.outmatch o = some i ↔
      chosen request outmask g i = some o) :=
  iterate_matching h.consistent (fun _ _ => h.chosen_of_matched) iter i o

/-- The later iterations keep the invariant: they do not move the pointers. -/
theorem iterate (h : Settled request outmask g) {iter : Nat} (hiter : iter ≠ 0) :
    Settled request outmask (iterate request outmask g iter) where
  consistent i o := (h.matching_iff iter i o).1.trans (h.matching_iff iter i o).2.symm
  kept := h.kept.iterate iter
  granted := by
    intro o i hgrant
    obtain hsame | ⟨j, hj, -, hhas, hmask⟩ := SelAlloc.grant_cases request outmask g o
    · exact h.granted o i (hsame.symm.trans hgrant)
    · have hij : i = j := Option.some.inj (hgrant.symm.trans hj)
      exact ⟨hij ▸ hhas, hmask⟩
  beaten := by
    intro i o b hin hgrant hne
    have hchosen := (h.matching_iff iter i o).1.mp hin
    have hhas : request.Has i b := by
      obtain hsame | ⟨j, hj, -, hhas, -⟩ := SelAlloc.grant_cases request outmask g b
      · exact (h.granted b i (hsame.symm.trans hgrant)).1
      · have hij : i = j := Option.some.inj (hgrant.symm.trans hj)
        exact hij ▸ hhas
    left
    unfold Beats
    rw [iterate_aptrs hiter i]
    exact (choice_eq_some_iff.mp hchosen).before b ⟨hhas, hgrant⟩ hne

omit [NeZero inputs] [NeZero outputs] in
theorem within (h : Settled request outmask g) : g.matching.Within request.Has := by
  intro i o hin
  exact (h.granted o i (h.kept o i ((h.consistent i o).mp hin))).1

end Settled

end Iteration

/-! ### The first iteration -/

section First

variable {s : SelAlloc inputs outputs}

/-- The first grant of an output: to the leader of its requesters. -/
structure FirstGrant (s : SelAlloc inputs outputs) (o : Fin outputs) (i : Fin inputs) : Prop where
  unmasked : s.outmask o = 0
  leads : Leads (fun j => s.request.Has j o) (s.request.outPri o) (turn (s.gptrs o)) i

/-- What an input accepts first: the leader of the outputs that grant it. -/
def FirstAccept (s : SelAlloc inputs outputs) (i : Fin inputs) (o : Fin outputs) : Prop :=
  Leads (fun b => s.request.Has i b ∧ s.FirstGrant b i) (s.request.inPri i) (turn (s.aptrs i)) o

/-- An input holds a second grant, of the same priority as the one that it
accepts, from an output that has nobody else to grant: its requesters all accept
something. -/
def DoubleGrant (s : SelAlloc inputs outputs) : Prop :=
  ∃ i a b, s.FirstAccept i a ∧ s.FirstGrant b i ∧ b ≠ a ∧
    s.request.inPri i b = s.request.inPri i a ∧
    ∀ j, s.request.Has j b → ∃ c, s.FirstAccept j c

theorem grant_begin (hempty : s.matching = .empty) {o : Fin outputs} {i : Fin inputs} :
    grant s.request s.outmask s.begin o = some i ↔ s.FirstGrant o i := by
  have hfree (j : Fin inputs) : (s.begin.matching.inmatch j).isNone = true := by
    rw [begin, hempty]
    rfl
  have hbest : best (fun i => (s.begin.matching.inmatch i).isNone) (s.request.outPri o)
      (roundRobin (s.request.outReq o) (s.begin.gptrs o)) = some i ↔
      Leads (fun j => s.request.Has j o) (s.request.outPri o) (turn (s.gptrs o)) i := by
    rw [best_roundRobin_eq_some_iff Requests.sorted_outReq]
    simp only [Requests.mem_outReq, hfree, and_true]
    rfl
  unfold grant
  split
  next hskip =>
    refine iff_of_false (fun h => Option.some_ne_none i h.symm) ?_
    intro hfirst
    have hmem := Requests.mem_outReq.mpr hfirst.leads.eligible
    have hout : s.begin.matching.outmatch o = none := by
      rw [begin, hempty]
      rfl
    have hne : (s.request.outReq o).isEmpty = false := by
      rw [List.isEmpty_eq_false_iff]
      exact List.ne_nil_of_mem hmem
    simp [hne, hout, hfirst.unmasked] at hskip
  next hskip =>
    rw [Bool.or_eq_true, Bool.or_eq_true, not_or, not_or] at hskip
    have hmask : s.outmask o = 0 := by simpa using hskip.2
    have hnone : s.begin.grants o = none := rfl
    rw [hnone, Option.or_none, hbest]
    constructor
    · exact fun h => ⟨hmask, h⟩
    · exact fun h => h.leads

theorem chosen_begin (hempty : s.matching = .empty) {i : Fin inputs} {o : Fin outputs} :
    chosen s.request s.outmask s.begin i = some o ↔ s.FirstAccept i o := by
  unfold chosen FirstAccept
  rw [choice_eq_some_iff]
  simp only [grant_begin hempty]
  rfl

variable [NeZero inputs] [NeZero outputs]

theorem after_succ (n : Nat) :
    s.after (n + 1) = iterate s.request s.outmask (s.after n) n := by
  unfold after
  rw [List.range_succ, List.foldl_append]
  rfl

theorem matching_after_one (hempty : s.matching = .empty) (i : Fin inputs) (o : Fin outputs) :
    ((s.after 1).matching.inmatch i = some o ↔ s.FirstAccept i o) ∧
      ((s.after 1).matching.outmatch o = some i ↔ s.FirstAccept i o) := by
  have hbegin : s.begin.matching = .empty := hempty
  have hconsistent : s.begin.matching.Consistent := hbegin ▸ consistent_empty
  have hagain : ∀ i o, s.begin.matching.inmatch i = some o →
      chosen s.request s.outmask s.begin i = some o := by
    intro i o hin
    rw [hbegin] at hin
    cases hin
  rw [← chosen_begin hempty]
  exact iterate_matching hconsistent hagain 0 i o

theorem kept_after (hempty : s.matching = .empty) (n : Nat) : Kept (s.after n) := by
  induction n with
  | zero =>
      intro o i hout
      have hbegin : (s.after 0).matching = .empty := hempty
      rw [hbegin] at hout
      cases hout
  | succ n ih =>
      rw [after_succ]
      exact ih.iterate n

theorem consistent_after_one (hempty : s.matching = .empty) : (s.after 1).matching.Consistent :=
  fun i o => (matching_after_one hempty i o).1.trans (matching_after_one hempty i o).2.symm

/-- Without a double grant the first iteration leaves a settled matching. -/
theorem settled_after_one (hempty : s.matching = .empty) (hsingle : ¬ s.DoubleGrant) :
    Settled s.request s.outmask (s.after 1) where
  consistent := consistent_after_one hempty
  kept := kept_after hempty 1
  granted := by
    intro o i hgrant
    have hfirst := (grant_begin hempty).mp hgrant
    exact ⟨hfirst.leads.eligible, hfirst.unmasked⟩
  beaten := by
    intro i o b hin hgrant hne
    have haccept := (matching_after_one hempty i o).1.mp hin
    have hfirst : s.FirstGrant b i := (grant_begin hempty).mp hgrant
    obtain hlt | ⟨heq, -⟩ := haccept.before b ⟨hfirst.leads.eligible, hfirst⟩ hne
    · exact .inl (.inl hlt)
    · right
      by_contra hnone
      refine hsingle ⟨i, o, b, haccept, hfirst, hne, heq, ?_⟩
      intro j hj
      cases hmatch : (s.after 1).matching.inmatch j with
      | none => exact (hnone ⟨j, hj, hmatch⟩).elim
      | some c => exact ⟨c, (matching_after_one hempty j c).1.mp hmatch⟩

theorem settled_after (hempty : s.matching = .empty) (hsingle : ¬ s.DoubleGrant) (n : Nat) :
    Settled s.request s.outmask (s.after (n + 1)) := by
  induction n with
  | zero => exact settled_after_one hempty hsingle
  | succ n ih =>
      rw [after_succ]
      exact ih.iterate (Nat.succ_ne_zero n)

/-- Two outputs have been given to one input. -/
def Doubled (g : Granted inputs outputs) : Prop :=
  ∃ i a b, a ≠ b ∧ g.matching.outmatch a = some i ∧ g.matching.outmatch b = some i

omit [NeZero inputs] [NeZero outputs] in
theorem Doubled.not_consistent {g : Granted inputs outputs} (h : Doubled g) :
    ¬ g.matching.Consistent := by
  obtain ⟨i, a, b, hne, ha, hb⟩ := h
  intro hconsistent
  exact hne (hconsistent.swap.injective ha hb)

theorem Doubled.iterate {g : Granted inputs outputs} (h : Doubled g) (hkept : Kept g)
    (iter : Nat) : Doubled (iterate s.request s.outmask g iter) := by
  obtain ⟨i, a, b, hne, ha, hb⟩ := h
  exact ⟨i, a, b, hne, hkept.outmatch iter ha, hkept.outmatch iter hb⟩

/-- In the second iteration the pointer of the input stands behind what it has
accepted, so of two grants of one priority it accepts the other. -/
theorem doubled_after_two (hempty : s.matching = .empty) (hdouble : s.DoubleGrant) :
    Doubled (s.after 2) := by
  obtain ⟨i, a, b, haccept, hgrant, hne, hpri, hall⟩ := hdouble
  have hkept := kept_after hempty 1
  have hout : (s.after 1).matching.outmatch a = some i := (matching_after_one hempty i a).2.mpr haccept
  have ha : grant s.request s.outmask (s.after 1) a = some i := hkept.grant_eq hout
  have hb : grant s.request s.outmask (s.after 1) b = some i := by
    rw [grant_of_requesters_matched]
    · exact (grant_begin hempty).mpr hgrant
    · intro j hj
      obtain ⟨c, hc⟩ := hall j hj
      rw [(matching_after_one hempty j c).1.mpr hc]
      exact Option.some_ne_none c
  have haptrs : (s.after 1).aptrs i = a + 1 := iterate_aptrs_first ((chosen_begin hempty).mpr haccept)
  cases hchosen : chosen s.request s.outmask (s.after 1) i with
  | none =>
      have hmem : b ∈ s.request.inReq i := Requests.mem_inReq.mpr hgrant.leads.eligible
      have hnot := hchosen
      rw [chosen, choice, best_roundRobin Requests.sorted_inReq, best_eq_none_iff] at hnot
      have hb' := hnot b (mem_fromOffset.mpr hmem)
      have hreq : (s.request.outReq b).isEmpty = false := by
        rw [List.isEmpty_eq_false_iff]
        exact List.ne_nil_of_mem (Requests.mem_outReq.mpr hgrant.leads.eligible)
      simp [hb, hreq] at hb'
  | some c =>
      have hleads := choice_eq_some_iff.mp hchosen
      have hca : c ≠ a := by
        intro heq
        subst heq
        have hbefore := hleads.before b ⟨hgrant.leads.eligible, hb⟩ hne
        rw [haptrs] at hbefore
        obtain hlt | ⟨-, hturn⟩ := hbefore
        · omega
        · exact not_turn_succ_lt c b hturn
      rw [after_succ]
      exact ⟨i, c, a, hca, (iterate_outmatch _ 1 c i).mpr (.inl hchosen), hkept.outmatch 1 hout⟩

theorem doubled_after (hempty : s.matching = .empty) (hdouble : s.DoubleGrant) (n : Nat) :
    Doubled (s.after (n + 2)) := by
  induction n with
  | zero => exact doubled_after_two hempty hdouble
  | succ n ih =>
      rw [after_succ]
      exact ih.iterate (kept_after hempty (n + 2)) (n + 2)

/-- `SelAlloc` returns a matching exactly if there is one iteration or no double grant. -/
theorem allocate_returnsMatching (hready : s.toAllocator.Ready) :
    s.allocate.toAllocator.ReturnsMatching ↔ s.iter ≤ 1 ∨ ¬ s.DoubleGrant := by
  have hempty := hready.matching
  show (s.after s.iter).matching.Consistent ∧ (s.after s.iter).matching.Within s.request.Has ↔ _
  generalize s.iter = n
  obtain _ | _ | n := n
  · have hzero : (s.after 0).matching = .empty := hempty
    rw [hzero]
    exact iff_of_true ⟨consistent_empty, within_empty⟩ (.inl (Nat.zero_le 1))
  · refine iff_of_true ⟨consistent_after_one hempty, ?_⟩ (.inl le_rfl)
    intro i o hin
    exact ((matching_after_one hempty i o).1.mp hin).eligible.1
  · constructor
    · intro h
      right
      intro hdouble
      exact (doubled_after hempty hdouble n).not_consistent h.1
    · rintro (hle | hsingle)
      · omega
      · have hsettled := settled_after hempty hsingle (n + 1)
        exact ⟨hsettled.consistent, hsettled.within⟩

/-- Without requests nothing happens. -/
theorem after_of_forall_not (hnone : ∀ i o, ¬ s.request.Has i o) (n : Nat) :
    (s.after n).matching = s.matching := by
  have hocc : s.request.inOcc = [] := by
    apply List.eq_nil_iff_forall_not_mem.mpr
    intro i hi
    obtain ⟨o, ho⟩ := Requests.mem_inOcc.mp hi
    exact hnone i o ho
  induction n with
  | zero => rfl
  | succ n ih =>
      rw [after_succ, iterate, hocc]
      exact ih

theorem allocate_tidy (hready : s.toAllocator.Ready) : s.allocate.toAllocator.Tidy where
  requests := hready.requests
  matching hdirty := (after_of_forall_not (hready.requests hdirty) s.iter).trans hready.matching

end First

end SelAlloc

end Flyover
