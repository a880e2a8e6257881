import Mathlib.Data.List.Count
import Mathlib.Data.List.Infix
import Mathlib.Tactic.Cases
import Flyover.Config.Splitting
import Flyover.Progress.Worklist

/-!
# Lists in the configuration

A value of the configuration that starts with a brace is a list: its elements stand
between commas, and each element may again contain lists. The scanner counts the
nested braces and takes an element at each comma or closing brace that it meets with
none of them open.
-/

namespace Flyover.Config

/-! ## The scanner -/

/-- `std::string::find_first_of`, where `none` is `npos`. -/
def findFirstOf (chars data : List Char) (pos : ℕ) : Option ℕ :=
  ((data.drop pos).findIdx? fun c => decide (c ∈ chars)).map (pos + ·)

/-- `std::string::substr`. -/
def substr (data : List Char) (pos len : ℕ) : List Char := (data.drop pos).take len

/-- The variables of the loop. -/
structure Scan (τ : Type) where
  start : ℕ
  nested : ℕ
  curr : ℕ
  values : List τ

section Scanner

variable {τ : Type} (convert : List Char → τ) (data : List Char)

def Scan.first : Scan τ := { start := 1, nested := 0, curr := 1, values := [] }

/-- Take the element that ends in front of a position, unless it is empty. -/
def Scan.push (s : Scan τ) (curr : ℕ) : List τ :=
  if s.start < curr then s.values ++ [convert (substr data s.start (curr - s.start))]
  else s.values

/-- The body of the loop, at the position that the search found. -/
def Scan.visit (curr : ℕ) (s : Scan τ) : Scan τ :=
  if data[curr]? = some '{' then { s with nested := s.nested + 1, curr := curr + 1 }
  else if data[curr]? = some '}' ∧ s.nested ≠ 0 then
    { s with nested := s.nested - 1, curr := curr + 1 }
  else if s.nested = 0 then
    { s with values := s.push convert data curr, start := curr + 1, curr := curr + 1 }
  else { s with curr := curr + 1 }

def Scan.find (s : Scan τ) : Option ℕ := findFirstOf ['{', ',', '}'] data s.curr

/-- What the tokenizers share; they differ in what they make of an element. The result is
`none` where the assertion behind the loop fails. -/
def tokenize : Option (List τ) :=
  match data with
  | [] => some []
  | c :: _ =>
      if c ≠ '{' then some [convert data]
      else
        (Worklist.loop (Scan.find data) (fun curr s => some (s.visit convert data curr))
          data.length .first).bind fun s => if s.nested = 0 then some s.values else none

end Scanner

def tokenizeStr (data : List Char) : Option (List (List Char)) := tokenize id data

def tokenizeInt (atoi : List Char → ℤ) (data : List Char) : Option (List ℤ) := tokenize atoi data

def tokenizeFloat {D : Type} (atof : List Char → D) (data : List Char) : Option (List D) :=
  tokenize atof data

/-! ## What the text says -/

/-- A comma or a closing brace ends an element where no nested brace is open. -/
def braces : Splitter ℕ Char where
  next depth c := if c = '{' then depth + 1 else if c = '}' then depth - 1 else depth
  cuts depth c := decide (depth = 0 ∧ (c = ',' ∨ c = '}'))

/-- Letters that the search passes over. -/
def Plain (w : List Char) : Prop := ∀ c ∈ w, c ∉ ['{', ',', '}']

theorem Plain.whole {w : List Char} (h : Plain w) (depth : ℕ) :
    braces.Whole depth w ∧ braces.read depth w = depth := by
  induction w with
  | nil => exact ⟨trivial, rfl⟩
  | cons c w ih =>
      have hc := h c List.mem_cons_self
      simp only [List.mem_cons, List.not_mem_nil, or_false, not_or] at hc
      have hnext : braces.next depth c = depth := by simp [braces, hc]
      obtain ⟨hwhole, hread⟩ := ih fun d hd => h d (List.mem_cons_of_mem c hd)
      refine ⟨⟨by simp [braces, hc], ?_⟩, ?_⟩
      · rwa [hnext]
      · rw [Splitter.read_cons, hnext, hread]

theorem findFirstOf_eq_none {chars data : List Char} {pos : ℕ}
    (h : findFirstOf chars data pos = none) : ∀ c ∈ data.drop pos, c ∉ chars := by
  intro c hc
  rw [findFirstOf, Option.map_eq_none_iff, List.findIdx?_eq_none_iff] at h
  simpa using h c hc

/-- The search stops at the first of the characters, if there is one. -/
theorem findFirstOf_eq_some {chars data : List Char} {pos found : ℕ}
    (h : findFirstOf chars data pos = some found) :
    ∃ w c rest, data.drop pos = w ++ c :: rest ∧ (∀ x ∈ w, x ∉ chars) ∧ c ∈ chars ∧
      found = pos + w.length := by
  obtain ⟨i, hi, rfl⟩ := Option.map_eq_some_iff.mp h
  obtain ⟨hlt, hfound, hbefore⟩ := List.findIdx?_eq_some_iff_getElem.mp hi
  refine ⟨(data.drop pos).take i, (data.drop pos)[i], (data.drop pos).drop (i + 1), ?_, ?_, ?_, ?_⟩
  · rw [List.getElem_cons_drop, List.take_append_drop]
  · intro x hx
    obtain ⟨j, hj, rfl⟩ := List.getElem_of_mem hx
    rw [List.length_take] at hj
    rw [List.getElem_take]
    simpa using hbefore j (by omega)
  · simpa using hfound
  · rw [List.length_take, Nat.min_eq_left (Nat.le_of_succ_le hlt)]

theorem findFirstOf_bounds {chars data : List Char} {pos found : ℕ}
    (h : findFirstOf chars data pos = some found) : pos ≤ found ∧ found < data.length := by
  obtain ⟨w, c, rest, hdrop, -, -, rfl⟩ := findFirstOf_eq_some h
  have hlen : (data.drop pos).length = (w ++ c :: rest).length := by rw [hdrop]
  simp only [List.length_drop, List.length_append, List.length_cons] at hlen
  omega

theorem substr_of_drop_eq {data u v : List Char} {pos len : ℕ} (h : data.drop pos = u ++ v)
    (hlen : len = u.length) : substr data pos len = u := by
  rw [substr, h, hlen]
  exact List.take_left

/-! ## One round of the loop -/

section Loop

variable {τ : Type} {convert : List Char → τ} {data : List Char} {s : Scan τ}

/-- The elements taken so far and those that the rest of the text still ends. -/
def Scan.outcome (convert : List Char → τ) (data : List Char) (s : Scan τ) : List τ :=
  s.values ++ ((((braces.pieces s.nested (data.drop s.curr)).modifyHead
    (substr data s.start (s.curr - s.start) ++ ·)).dropLast.filter (· ≠ [])).map convert)

/-- The number of braces open at the end of the text. -/
def Scan.depth (data : List Char) (s : Scan τ) : ℕ := braces.read s.nested (data.drop s.curr)

/-- The search stands at a mark behind letters that it passed over. -/
theorem Scan.exists_of_find {found : ℕ} (hfind : s.find data = some found)
    (hstart : s.start ≤ s.curr) : ∃ w c rest,
      data.drop s.curr = w ++ c :: rest ∧ Plain w ∧ c ∈ ['{', ',', '}'] ∧
      data[found]? = some c ∧ data.drop (found + 1) = rest ∧
      substr data s.start (found - s.start)
        = substr data s.start (s.curr - s.start) ++ w ∧
      substr data s.start (found + 1 - s.start)
        = substr data s.start (s.curr - s.start) ++ w ++ [c] := by
  obtain ⟨w, c, rest, hdrop, hplain, hc, rfl⟩ := findFirstOf_eq_some hfind
  have hbehind :
      data.drop s.start = substr data s.start (s.curr - s.start) ++ (w ++ c :: rest) := by
    rw [← hdrop, substr]
    conv_lhs => rw [← List.take_append_drop (s.curr - s.start) (data.drop s.start)]
    rw [List.drop_drop, Nat.add_sub_cancel' hstart]
  have hlt := (findFirstOf_bounds hfind).2
  have hsub : (substr data s.start (s.curr - s.start)).length = s.curr - s.start := by
    rw [substr, List.length_take, List.length_drop]
    omega
  refine ⟨w, c, rest, hdrop, hplain, hc, ?_, ?_, ?_, ?_⟩
  · rw [← List.getElem?_drop, hdrop]
    simp
  · rw [Nat.add_assoc, ← List.drop_drop, hdrop]
    simp
  · apply substr_of_drop_eq (v := c :: rest)
    · rw [hbehind, List.append_assoc]
    · rw [List.length_append, hsub]
      omega
  · apply substr_of_drop_eq (v := rest)
    · simp [hbehind]
    · rw [List.length_append, List.length_append, hsub, List.length_singleton]
      omega

/-- A mark that ends no element stays in the element it stands in. -/
theorem Scan.visit_of_not_cuts {found : ℕ} {c : Char} (hc : data[found]? = some c)
    (hmark : c ∈ ['{', ',', '}']) (hcut : braces.cuts s.nested c = false) :
    s.visit convert data found
      = { s with nested := braces.next s.nested c, curr := found + 1 } := by
  simp only [List.mem_cons, List.not_mem_nil, or_false] at hmark
  simp only [Scan.visit, hc]
  rcases hmark with rfl | rfl | rfl
  · rfl
  · have hdepth : s.nested ≠ 0 := by simpa [braces] using hcut
    simp [braces, hdepth]
  · have hdepth : s.nested ≠ 0 := by simpa [braces] using hcut
    simp [braces, hdepth]

/-- A mark that ends an element leaves no brace open. -/
theorem Scan.visit_of_cuts (convert : List Char → τ) {found : ℕ} {c : Char} (hc : data[found]? = some c)
    (hcut : braces.cuts s.nested c = true) :
    s.visit convert data found
        = { s with values := s.push convert data found, start := found + 1, curr := found + 1 } ∧
      braces.next s.nested c = s.nested := by
  obtain ⟨hdepth, hmark⟩ : s.nested = 0 ∧ (c = ',' ∨ c = '}') := by simpa [braces] using hcut
  simp only [Scan.visit, hc]
  rcases hmark with rfl | rfl <;> simp [braces, hdepth]

/-- The scanner takes an element exactly if it is not empty. -/
theorem Scan.push_eq {found : ℕ} (hfound : found < data.length) :
    s.push convert data found = s.values
      ++ ([substr data s.start (found - s.start)].filter (· ≠ [])).map convert := by
  by_cases hlt : s.start < found
  · have hne : substr data s.start (found - s.start) ≠ [] := by
      apply List.ne_nil_of_length_pos
      rw [substr, List.length_take, List.length_drop]
      omega
    simp [push, hlt, hne]
  · simp [push, hlt, substr, Nat.sub_eq_zero_of_le (Nat.not_lt.mp hlt)]

/-- A round of the loop changes neither what is taken in the end nor how many braces are
left open. -/
theorem Scan.visit_keeps (convert : List Char → τ) {found : ℕ} (hfind : s.find data = some found)
    (hstart : s.start ≤ s.curr) :
    (s.visit convert data found).outcome convert data = s.outcome convert data ∧
      (s.visit convert data found).depth data = s.depth data ∧
      (s.visit convert data found).start ≤ (s.visit convert data found).curr := by
  obtain ⟨w, c, rest, hdrop, hplain, hmark, hc, hrest, hpiece, hpiece'⟩ :=
    exists_of_find hfind hstart
  obtain ⟨hle, hlt⟩ := findFirstOf_bounds hfind
  obtain ⟨hwhole, hread⟩ := hplain.whole s.nested
  have hdepth : s.depth data = braces.read (braces.next s.nested c) rest := by
    rw [Scan.depth, hdrop, Splitter.read_append, hread, Splitter.read_cons]
  cases hcut : braces.cuts s.nested c with
  | false =>
      rw [visit_of_not_cuts hc hmark hcut]
      refine ⟨?_, ?_, by simp only; omega⟩
      · simp only [Scan.outcome, hdrop, hrest, hpiece', Splitter.pieces_append hwhole, hread,
          Splitter.pieces_cons_of_not_cuts hcut, List.modifyHead_modifyHead]
        simp [Function.comp_def]
      · rw [hdepth, Scan.depth, hrest]
  | true =>
      obtain ⟨hvisit, hnext⟩ := visit_of_cuts convert hc hcut
      rw [hvisit]
      refine ⟨?_, ?_, Nat.le_refl _⟩
      · have hempty : substr data (found + 1) (found + 1 - (found + 1)) = [] := by simp [substr]
        have hne := Splitter.pieces_ne_nil (m := braces) (s := s.nested) rest
        simp only [Scan.outcome, push_eq hlt, hdrop, hrest, hempty,
          Splitter.pieces_append_cons hwhole (hread ▸ hcut), hread, hnext,
          Splitter.modifyHead_nil_append, List.modifyHead_cons, List.dropLast_cons_of_ne_nil hne,
          ← hpiece]
        rw [List.append_assoc, ← List.map_append, ← List.filter_append, List.singleton_append]
      · rw [hdepth, hnext, Scan.depth, hrest]

theorem Scan.curr_visit (found : ℕ) : (s.visit convert data found).curr = found + 1 := by
  unfold visit
  split_ifs <;> rfl

end Loop

/-! ## The whole scan -/

section Whole

variable {τ : Type} (convert : List Char → τ) (text : List Char)

/-- The elements that a comma or a closing brace ends, without the empty ones. -/
def ended : List (List Char) := (braces.pieces 0 text).dropLast.filter (· ≠ [])

/-- The loop runs to the end of the text, and takes the elements that are ended. -/
theorem exists_loop_scan :
    ∃ s : Scan τ, Worklist.loop (Scan.find ('{' :: text))
        (fun curr s => some (s.visit convert ('{' :: text) curr)) ('{' :: text).length .first
          = some s ∧
      s.nested = braces.read 0 text ∧ s.values = (ended text).map convert := by
  obtain ⟨s, hrun⟩ : ∃ s : Scan τ, Worklist.loop (Scan.find ('{' :: text))
      (fun curr s => some (s.visit convert ('{' :: text) curr)) ('{' :: text).length .first
        = some s := Worklist.exists_loop (fun _ _ => ⟨_, rfl⟩) _ _
  have hdone : s.find ('{' :: text) = none := by
    apply Worklist.loop_finished (fun s => ('{' :: text).length - s.curr) hrun
    · exact Nat.sub_le _ _
    · intro found t hfind
      have hbounds := findFirstOf_bounds hfind
      omega
    · rintro found t t' hfind ⟨⟩
      have hbounds := findFirstOf_bounds hfind
      rw [Scan.curr_visit]
      omega
  obtain ⟨houtcome, hdepth, -⟩ := Worklist.loop_induction (motive := fun t =>
      t.outcome convert ('{' :: text) = Scan.first.outcome convert ('{' :: text) ∧
        t.depth ('{' :: text) = (Scan.first (τ := τ)).depth ('{' :: text) ∧ t.start ≤ t.curr)
    hrun ⟨rfl, rfl, Nat.le_refl _⟩ (by
      rintro found t t' hvisits ⟨ht, htd, hstart⟩ ⟨⟩
      obtain ⟨hsame, hsamed, hstart'⟩ :=
        Scan.visit_keeps convert hvisits.front_eq hstart
      exact ⟨hsame.trans ht, hsamed.trans htd, hstart'⟩)
  obtain ⟨hwhole, hread⟩ := Plain.whole (findFirstOf_eq_none hdone) s.nested
  refine ⟨s, hrun, ?_, ?_⟩
  · rw [← hread]
    exact hdepth
  · have hleft : s.outcome convert ('{' :: text) = s.values := by
      simp [Scan.outcome, Splitter.pieces_of_whole hwhole]
    rw [← hleft, houtcome]
    simp only [Scan.outcome, Scan.first, Nat.sub_self, substr, List.take_zero,
      Splitter.modifyHead_nil_append]
    rfl

theorem tokenize_cons :
    tokenize convert ('{' :: text)
      = if braces.read 0 text = 0 then some ((ended text).map convert) else none := by
  obtain ⟨s, hrun, hdepth, hvalues⟩ := exists_loop_scan convert text
  rw [tokenize, if_neg (by simp), hrun, Option.bind_some, hdepth, hvalues]

end Whole

/-- The tokenizers split at the same places. -/
theorem tokenize_eq_map {τ : Type} (convert : List Char → τ) (data : List Char) :
    tokenize convert data = (tokenizeStr data).map (List.map convert) := by
  cases data with
  | nil => rfl
  | cons c text =>
      by_cases hc : c = '{'
      · subst hc
        rw [tokenizeStr, tokenize_cons, tokenize_cons]
        split_ifs <;> simp
      · simp [tokenizeStr, tokenize, hc]

/-! ## Tokens and elements -/

/-- A token has its braces in pairs, and no comma outside of them. -/
structure IsToken (token : List Char) : Prop where
  nonempty : token ≠ []
  opened : ∀ u, u <+: token → u.count '}' ≤ u.count '{'
  closed : token.count '}' = token.count '{'
  commas : ∀ u, u ++ [','] <+: token → u.count '}' ≠ u.count '{'

instance : DecidablePred IsToken := fun token =>
  decidable_of_iff (token ≠ [] ∧ (∀ u ∈ token.inits, u.count '}' ≤ u.count '{') ∧
      token.count '}' = token.count '{' ∧
      ∀ u ∈ token.inits, u ++ [','] ∈ token.inits → u.count '}' ≠ u.count '{') <| by
    simp only [List.mem_inits]
    constructor
    · rintro ⟨hne, hopened, hclosed, hcommas⟩
      exact ⟨hne, hopened, hclosed, fun u hu => hcommas u ((List.prefix_append u _).trans hu) hu⟩
    · intro h
      exact ⟨h.nonempty, h.opened, h.closed, fun u _ => h.commas u⟩

/-- Where no brace is closed that was not opened, the depth is a difference of counts. -/
theorem read_eq_count {text : List Char} (h : ∀ u, u <+: text → u.count '}' ≤ u.count '{') :
    braces.read 0 text = text.count '{' - text.count '}' := by
  induction text using List.reverseRecOn with
  | nil => rfl
  | append_singleton text c ih =>
      have htext := h text (List.prefix_append text [c])
      have hwhole := h (text ++ [c]) (List.prefix_refl _)
      rw [Splitter.read_append, ih fun u hu => h u (hu.trans (List.prefix_append text [c]))]
      rw [List.count_append, List.count_append] at *
      by_cases hopen : c = '{'
      · subst hopen
        simp [braces]
        omega
      · by_cases hclose : c = '}'
        · subst hclose
          simp [braces]
          omega
        · simp [braces, hopen, hclose]

theorem IsToken.whole {token : List Char} (h : IsToken token) :
    braces.Whole 0 token ∧ braces.read 0 token = 0 := by
  constructor
  · apply Splitter.whole_iff.mpr
    rintro u c v rfl
    have hread : braces.read 0 u = u.count '{' - u.count '}' :=
      read_eq_count fun w hw => h.opened w (hw.trans (List.prefix_append u (c :: v)))
    have hu := h.opened u (List.prefix_append u (c :: v))
    have huc : u ++ [c] <+: u ++ c :: v := ⟨v, by simp⟩
    simp only [braces, decide_eq_false_iff_not, not_and, not_or]
    intro hdepth
    rw [show braces.read 0 u = 0 from hdepth] at hread
    constructor
    · rintro rfl
      apply h.commas u huc
      omega
    · rintro rfl
      have hclosed := h.opened (u ++ ['}']) huc
      simp [List.count_append] at hclosed
      omega
  · rw [read_eq_count h.opened, h.closed, Nat.sub_self]

/-- A list in braces, its elements separated by commas. -/
def braced (tokens : List (List Char)) : List Char := '{' :: ([','].intercalate tokens ++ ['}'])

theorem tokenizeStr_braced {tokens : List (List Char)} (h : ∀ token ∈ tokens, IsToken token) :
    tokenizeStr (braced tokens) = some tokens := by
  by_cases hnil : tokens = []
  · subst hnil
    rfl
  · have hdepth : braces.read 0 ([','].intercalate tokens ++ ['}']) = 0 := by
      rw [Splitter.read_append, Splitter.read_intercalate rfl fun token htoken =>
        (h token htoken).whole.2]
      rfl
    have hwhole : ∀ token ∈ tokens, braces.Whole 0 token ∧ braces.read 0 token = 0 :=
      fun token htoken => (h token htoken).whole
    have hpieces := Splitter.pieces_intercalate braces ',' '}' rfl rfl rfl hnil hwhole []
    have hkept : tokens.filter (· ≠ []) = tokens :=
      List.filter_eq_self.mpr fun token htoken => by simpa using (h token htoken).nonempty
    rw [braced, tokenizeStr, tokenize_cons, if_pos hdepth, ended, hpieces, List.map_id]
    exact congrArg some ((congrArg _ (List.dropLast_concat ..)).trans hkept)

/-- The elements of the text behind the opening brace: what stands between the commas and
closing braces outside of nested ones, and behind the last of them. -/
def elements (text : List Char) : List (List Char) := (braces.pieces 0 text).filter (· ≠ [])

/-- What stands behind the last comma or closing brace outside of nested ones. -/
def unended (text : List Char) : List Char :=
  (braces.pieces 0 text).getLast (Splitter.pieces_ne_nil text)

theorem elements_eq (text : List Char) :
    elements text = ended text ++ [unended text].filter (· ≠ []) := by
  rw [elements, ended, ← List.filter_append, unended, List.dropLast_append_getLast]

theorem elements_sublist_ended_iff {text : List Char} :
    (elements text).Sublist (ended text) ↔ unended text = [] := by
  rw [elements_eq]
  constructor
  · intro hsub
    by_contra hne
    have hlen := hsub.length_le
    rw [List.length_append, List.filter_cons_of_pos (by simpa using hne), List.length_cons] at hlen
    omega
  · intro hnil
    simp [hnil]

/-- Unless the assertion fails, every element is in the result, in the order of the text. -/
def KeepsElements (text : List Char) : Prop :=
  ∀ values, tokenizeStr ('{' :: text) = some values → (elements text).Sublist values

theorem keepsElements_iff {text : List Char} :
    KeepsElements text ↔ braces.read 0 text ≠ 0 ∨ unended text = [] := by
  rw [KeepsElements, tokenizeStr, tokenize_cons, List.map_id]
  by_cases hdepth : braces.read 0 text = 0
  · simp [hdepth, elements_sublist_ended_iff]
  · simp [hdepth]

/-- What stands in front of a brace that closes the list is in the result, whatever follows. -/
theorem keepsElements_of_closed {u v : List Char} (hu : braces.read 0 u = 0)
    {values : List (List Char)} (hvalues : tokenizeStr ('{' :: (u ++ '}' :: v)) = some values) :
    (elements u).Sublist values := by
  have hcut : braces.cuts (braces.read 0 u) '}' = true := by rw [hu]; rfl
  rw [tokenizeStr, tokenize_cons, List.map_id] at hvalues
  obtain ⟨-, ⟨⟩⟩ := Option.ite_none_right_eq_some.mp hvalues
  rw [ended, Splitter.pieces_append_of_cuts hcut,
    List.dropLast_append_of_ne_nil (Splitter.pieces_ne_nil v), List.filter_append]
  exact List.sublist_append_left _ _

/-- The tokenizers read back every list of tokens, and split at the same places. Of any other
list they drop what no comma or closing brace ends, and nothing else, unless a nested brace
is left open. -/
theorem tokenizers_exact_iff {D : Type} (atoi : List Char → ℤ) (atof : List Char → D) :
    (∀ tokens, (∀ token ∈ tokens, IsToken token) → tokenizeStr (braced tokens) = some tokens) ∧
    (∀ text, KeepsElements text ↔ braces.read 0 text ≠ 0 ∨ unended text = []) ∧
    (∀ u v values, braces.read 0 u = 0 → tokenizeStr ('{' :: (u ++ '}' :: v)) = some values →
      (elements u).Sublist values) ∧
    (∀ data, tokenizeInt atoi data = (tokenizeStr data).map (List.map atoi)) ∧
    ∀ data, tokenizeFloat atof data = (tokenizeStr data).map (List.map atof) :=
  ⟨fun _ => tokenizeStr_braced, fun _ => keepsElements_iff,
    fun _ _ _ hu hvalues => keepsElements_of_closed hu hvalues, tokenize_eq_map atoi,
    tokenize_eq_map atof⟩

theorem tokenizers_exact_nested :
    tokenizeStr "{a,{b,{c}},d}".toList = some ["a".toList, "{b,{c}}".toList, "d".toList] :=
  (tokenizers_exact_iff (fun _ => 0) fun _ => ()).1 ["a".toList, "{b,{c}}".toList, "d".toList]
    (by decide)

/-- The list that is not closed loses its last element. -/
theorem not_keepsElements_unterminated :
    tokenizeStr "\x7ba,b".toList = some ["a".toList] ∧ ¬ KeepsElements "a,b".toList := by
  refine ⟨by decide, fun hkeeps => ?_⟩
  have hsub := hkeeps ["a".toList] (by decide)
  exact absurd hsub (by decide)

end Flyover.Config
