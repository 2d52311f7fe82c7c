import Mathlib.Data.List.Basic

/-!
# Patterns that are searched for and replaced

Regular expressions built from character classes, sequences and greedy repetitions, optionally
between word boundaries. `Body.ends` lists what is left of a text after each match at its start, in
the order in which a backtracking engine tries them, so its head is the match the engine finds;
`Body.Lang` says which texts match at all. The two agree on bodies whose repeated parts consume
something, which is what a `Pattern` carries.

`test` is the search of an expression with the global flag, which resumes where the last match
ended, and `replaceAll` replaces every match from left to right.

## Replacing all matches

`Replaced` describes the result of `replaceAll`: units kept because nothing matches there, and
labels in place of matches. Over it, two facts about a label whose first and last unit no pattern
can consume: nothing of the pattern is left in the result (`Replaced.free_self`), and no match of
another pattern without boundaries is created (`Replaced.free_other`).
-/

namespace Regex

variable {α : Type*}

/-! ## Bodies -/

inductive Body (α : Type*)
  | unit (p : α → Bool)
  | seq (a b : Body α)
  | rep (a : Body α) (least : ℕ) (most : Option ℕ)

namespace Body

/-- Up to `more` iterations, the longest attempt first; each must consume something. -/
def optional (f : List α → List (List α)) : ℕ → List α → List (List α)
  | 0, l => [l]
  | more + 1, l => ((f l).filter (·.length < l.length)).flatMap (optional f more) ++ [l]

/-- `least` iterations that must match, then up to `more`. -/
def iterate (f : List α → List (List α)) (more : ℕ) : ℕ → List α → List (List α)
  | 0, l => optional f more l
  | least + 1, l => (f l).flatMap (iterate f more least)

/-- What is left after a match at the start, in the order in which matches are tried. -/
def ends : Body α → List α → List (List α)
  | unit _, [] => []
  | unit p, c :: l => if p c then [l] else []
  | seq a b, l => (a.ends l).flatMap b.ends
  | rep a least none, l =>
    -- An unbounded repetition cannot go round more often than there are units.
    iterate a.ends l.length least l
  | rep a least (some n), l => iterate a.ends (n - least) least l

def Lang : Body α → List α → Prop
  | unit p, c => ∃ x, c = [x] ∧ p x = true
  | seq a b, c => ∃ x y, c = x ++ y ∧ a.Lang x ∧ b.Lang y
  | rep a least most, c => ∃ parts : List (List α), c = parts.flatten ∧ (∀ x ∈ parts, a.Lang x) ∧
      least ≤ parts.length ∧ ∀ n ∈ most, parts.length ≤ max least n

def minLength : Body α → ℕ
  | unit _ => 1
  | seq a b => a.minLength + b.minLength
  | rep a least _ => least * a.minLength

def solid : Body α → Bool
  | unit _ => true
  | seq a b => a.solid && b.solid
  | rep a _ _ => a.solid && decide (0 < a.minLength)

/-- Every unit a match can consume satisfies `P`. -/
def Over (P : α → Prop) : Body α → Prop
  | unit p => ∀ x, p x = true → P x
  | seq a b => a.Over P ∧ b.Over P
  | rep a _ _ => a.Over P

/-- No match can consume one of these units. -/
def avoids (units : List α) : Body α → Bool
  | unit p => units.all (!p ·)
  | seq a b => a.avoids units && b.avoids units
  | rep a _ _ => a.avoids units

/-- No match can start with one of these units. -/
def startAvoids (units : List α) : Body α → Bool
  | unit p => units.all (!p ·)
  | seq a b => a.startAvoids units && (decide (0 < a.minLength) || b.startAvoids units)
  | rep a _ _ => a.startAvoids units

variable {P : α → Prop} {b : Body α} {c l rest units : List α} {L : List α → Prop}
  {f : List α → List (List α)} {least more : ℕ}

theorem Over.mono {Q : α → Prop} (h : b.Over P) (hPQ : ∀ x, P x → Q x) : b.Over Q := by
  induction b with
  | unit => exact fun x hx ↦ hPQ x (h x hx)
  | seq a b iha ihb => exact ⟨iha h.1, ihb h.2⟩
  | rep a least most ih => exact ih h

theorem over_of_avoids (h : b.avoids units = true) : b.Over (· ∉ units) := by
  induction b with
  | unit =>
    intro x hx hmem
    have := List.all_eq_true.mp h x hmem
    simp [hx] at this
  | seq a b iha ihb =>
    rw [avoids, Bool.and_eq_true] at h
    exact ⟨iha h.1, ihb h.2⟩
  | rep a least most ih => exact ih h

theorem minLength_le (h : b.Lang c) : b.minLength ≤ c.length := by
  induction b generalizing c with
  | unit =>
    obtain ⟨x, rfl, -⟩ := h
    simp [minLength]
  | seq a b iha ihb =>
    obtain ⟨x, y, rfl, hx, hy⟩ := h
    have hx := iha hx
    have hy := ihb hy
    simp only [minLength, List.length_append]
    omega
  | rep a least most ih =>
    obtain ⟨parts, rfl, hparts, hleast, -⟩ := h
    have hsum : ∀ ps : List (List α), (∀ x ∈ ps, a.Lang x) →
        ps.length * a.minLength ≤ ps.flatten.length := by
      intro ps hps
      induction ps with
      | nil => simp
      | cons x ps ihps =>
        have hx := ih (hps x (by simp))
        have hrest := ihps fun y hy ↦ hps y (by simp [hy])
        simp only [List.length_cons, List.flatten_cons, List.length_append, Nat.succ_mul]
        omega
    exact Nat.le_trans (Nat.mul_le_mul_right _ hleast) (hsum parts hparts)

theorem Lang.all (h : b.Lang c) (hb : b.Over P) : ∀ x ∈ c, P x := by
  induction b generalizing c with
  | unit =>
    obtain ⟨x, rfl, hx⟩ := h
    simpa using hb x hx
  | seq a b iha ihb =>
    obtain ⟨x, y, rfl, hx, hy⟩ := h
    intro u hu
    rcases List.mem_append.mp hu with hu | hu
    · exact iha hx hb.1 u hu
    · exact ihb hy hb.2 u hu
  | rep a least most ih =>
    obtain ⟨parts, rfl, hparts, -⟩ := h
    intro u hu
    obtain ⟨x, hx, hu⟩ := List.mem_flatten.mp hu
    exact ih (hparts x hx) hb u hu

theorem Lang.head_notMem (h : b.Lang c)
    (hb : b.startAvoids units = true) : ∀ x ∈ c.head?, x ∉ units := by
  induction b generalizing c with
  | unit p =>
    obtain ⟨x, rfl, hx⟩ := h
    simpa using over_of_avoids (b := .unit p) hb x hx
  | seq a b iha ihb =>
    obtain ⟨x, y, rfl, hx, hy⟩ := h
    rw [startAvoids, Bool.and_eq_true, Bool.or_eq_true, decide_eq_true_eq] at hb
    cases x with
    | nil =>
      have hzero : a.minLength = 0 := Nat.le_zero.mp (minLength_le hx)
      exact ihb hy (hb.2.resolve_left (by omega))
    | cons => simpa using iha hx hb.1
  | rep a least most ih =>
    obtain ⟨parts, rfl, hparts, -⟩ := h
    induction parts with
    | nil => simp
    | cons x parts ihparts =>
      cases x with
      | nil => simpa using ihparts fun y hy ↦ hparts y (by simp [hy])
      | cons u x => simpa using ih (hparts (u :: x) (by simp)) hb

/-- A text made of between `least` and `top` matched parts, and a rest. -/
private def Parted (L : List α → Prop) (least top : ℕ) (l rest : List α) : Prop :=
  ∃ parts : List (List α), l = parts.flatten ++ rest ∧ (∀ x ∈ parts, L x) ∧
    least ≤ parts.length ∧ parts.length ≤ top

private theorem Parted.cons {top : ℕ} (hc : L c)
    (h : Parted L least top l rest) : Parted L (least + 1) (top + 1) (c ++ l) rest := by
  obtain ⟨parts, rfl, hparts, hle, hge⟩ := h
  exact ⟨c :: parts, by simp, by simpa using ⟨hc, hparts⟩, by simpa using hle, by simpa using hge⟩

private theorem optional_sound (hf : ∀ l, ∀ rest ∈ f l, ∃ c, l = c ++ rest ∧ L c)
    (h : rest ∈ optional f more l) : Parted L 0 more l rest := by
  induction more generalizing l with
  | zero =>
    obtain rfl : rest = l := by simpa [optional] using h
    exact ⟨[], by simp⟩
  | succ more ih =>
    rw [optional, List.mem_append, List.mem_flatMap] at h
    rcases h with ⟨mid, hmid, h⟩ | h
    · obtain ⟨c, rfl, hc⟩ := hf l _ (List.mem_of_mem_filter hmid)
      obtain ⟨parts, hl, hparts, -, hle⟩ := (ih h).cons hc
      exact ⟨parts, hl, hparts, Nat.zero_le _, hle⟩
    · obtain rfl : rest = l := by simpa using h
      exact ⟨[], by simp⟩

private theorem iterate_sound (hf : ∀ l, ∀ rest ∈ f l, ∃ c, l = c ++ rest ∧ L c)
    (h : rest ∈ iterate f more least l) : Parted L least (least + more) l rest := by
  induction least generalizing l with
  | zero =>
    rw [Nat.zero_add]
    exact optional_sound hf h
  | succ least ih =>
    rw [iterate, List.mem_flatMap] at h
    obtain ⟨mid, hmid, h⟩ := h
    obtain ⟨c, rfl, hc⟩ := hf l _ hmid
    rw [Nat.succ_add]
    exact (ih h).cons hc

theorem ends_sound (h : rest ∈ b.ends l) : ∃ c, l = c ++ rest ∧ b.Lang c := by
  induction b generalizing l rest with
  | unit p =>
    cases l with
    | nil => simp [ends] at h
    | cons x l =>
      by_cases hx : p x = true
      · obtain rfl : rest = l := by simpa [ends, hx] using h
        exact ⟨[x], rfl, x, rfl, hx⟩
      · simp [ends, hx] at h
  | seq a b iha ihb =>
    obtain ⟨mid, hmid, hrest⟩ := List.mem_flatMap.mp h
    obtain ⟨x, rfl, hx⟩ := iha hmid
    obtain ⟨y, rfl, hy⟩ := ihb hrest
    exact ⟨x ++ y, by simp, x, y, rfl, hx, hy⟩
  | rep a least most ih =>
    have hf : ∀ l, ∀ rest ∈ a.ends l, ∃ c, l = c ++ rest ∧ a.Lang c := fun l rest hr ↦ ih hr
    cases most with
    | none =>
      obtain ⟨parts, rfl, hparts, hle, -⟩ := iterate_sound hf h
      exact ⟨_, rfl, parts, rfl, hparts, hle, by simp⟩
    | some =>
      obtain ⟨parts, rfl, hparts, hle, hge⟩ := iterate_sound hf h
      refine ⟨_, rfl, parts, rfl, hparts, hle, ?_⟩
      rintro m ⟨⟩
      omega

/-- Between `least` and `least + more` parts that each consume something are among the iterations.
-/
private theorem iterate_complete (parts : List (List α)) (hne : ∀ x ∈ parts, x ≠ [])
    (hf : ∀ x ∈ parts, ∀ l, l ∈ f (x ++ l)) {least more : ℕ} (hle : least ≤ parts.length)
    (hge : parts.length ≤ least + more) :
    rest ∈ iterate f more least (parts.flatten ++ rest) := by
  induction parts generalizing least more with
  | nil =>
    obtain rfl : least = 0 := by simpa using hle
    cases more <;> simp [iterate, optional]
  | cons x parts ih =>
    have hx : parts.flatten ++ rest ∈ f ((x :: parts).flatten ++ rest) := by
      simpa using hf x (by simp) (parts.flatten ++ rest)
    have hpos : 0 < x.length := List.length_pos_iff.mpr (hne x (by simp))
    have ih := @ih (fun y hy ↦ hne y (by simp [hy])) (fun y hy ↦ hf y (by simp [hy]))
    rw [List.length_cons] at hle hge
    cases least with
    | zero =>
      obtain ⟨more, rfl⟩ : ∃ m, more = m + 1 := ⟨more - 1, by omega⟩
      rw [iterate, optional, List.mem_append, List.mem_flatMap]
      refine .inl ⟨_, List.mem_filter.mpr ⟨hx, ?_⟩, @ih 0 more (Nat.zero_le _) (by omega)⟩
      simp only [List.flatten_cons, List.length_append, decide_eq_true_eq]
      omega
    | succ =>
      rw [iterate, List.mem_flatMap]
      exact ⟨_, hx, ih (by omega) (by omega)⟩

private theorem length_le_length_flatten (parts : List (List α)) (hne : ∀ x ∈ parts, x ≠ []) :
    parts.length ≤ parts.flatten.length := by
  induction parts with
  | nil => simp
  | cons x parts ih =>
    have hpos : 0 < x.length := List.length_pos_iff.mpr (hne x (by simp))
    have ih := ih fun y hy ↦ hne y (by simp [hy])
    simp only [List.length_cons, List.flatten_cons, List.length_append]
    omega

theorem ends_complete (hb : b.solid = true) (h : b.Lang c) : rest ∈ b.ends (c ++ rest) := by
  induction b generalizing c rest with
  | unit =>
    obtain ⟨x, rfl, hx⟩ := h
    simp [ends, hx]
  | seq a b iha ihb =>
    obtain ⟨x, y, rfl, hx, hy⟩ := h
    rw [solid, Bool.and_eq_true] at hb
    rw [ends, List.mem_flatMap]
    exact ⟨y ++ rest, by simpa using iha hb.1 hx, ihb hb.2 hy⟩
  | rep a least most ih =>
    obtain ⟨parts, rfl, hparts, hle, hge⟩ := h
    rw [solid, Bool.and_eq_true, decide_eq_true_eq] at hb
    have hne : ∀ x ∈ parts, x ≠ [] := by
      rintro x hx rfl
      have := minLength_le (hparts [] hx)
      simp at this
      omega
    have hf : ∀ x ∈ parts, ∀ l, l ∈ a.ends (x ++ l) := fun x hx l ↦ ih hb.1 (hparts x hx)
    cases most with
    | none =>
      refine iterate_complete parts hne hf hle ?_
      have := length_le_length_flatten parts hne
      rw [List.length_append]
      omega
    | some n =>
      refine iterate_complete parts hne hf hle ?_
      have := hge n rfl
      omega

theorem mem_ends (hb : b.solid = true) : rest ∈ b.ends l ↔ ∃ c, l = c ++ rest ∧ b.Lang c := by
  constructor
  · exact ends_sound
  · rintro ⟨c, rfl, hc⟩
    exact ends_complete hb hc

end Body

/-! ## Patterns -/

/-- A body that consumes something, searched for anywhere or only between word boundaries. -/
structure Pattern (α : Type*) where
  body : Body α
  bounded : Bool
  solid : body.solid = true
  pos : 0 < body.minLength

/-- Whether a word boundary lies between two units, a missing one being no word character. -/
def edge (word : α → Bool) (before after : Option α) : Bool :=
  before.any word != after.any word

namespace Pattern

section Search

variable (word : α → Bool) (pt : Pattern α)

def before (prev : Option α) (l rest : List α) : Option α :=
  (l.take (l.length - rest.length)).getLast?.or prev

/-- What is left after a match at the start of a text that follows the unit `prev`. -/
def ends (prev : Option α) (l : List α) : List (List α) :=
  if pt.bounded then
    if edge word prev l.head? then
      (pt.body.ends l).filter fun rest ↦ edge word (before prev l rest) rest.head?
    else []
  else pt.body.ends l

def execFrom (prev : Option α) : List α → ℕ → Option ℕ
  | [], _ => none
  | c :: l, i =>
    match (ends word pt prev (c :: l)).head? with
    | some rest => some (i + ((c :: l).length - rest.length))
    | none => execFrom (some c) l (i + 1)

/-- Searching with the global flag: from `lastIndex` on, which moves behind the match or, when there
is none, back to the start. -/
def test (lastIndex : ℕ) (text : List α) : Bool × ℕ :=
  match execFrom word pt (text.take lastIndex).getLast? (text.drop lastIndex) lastIndex with
  | some e => (true, e)
  | none => (false, 0)

def replaceFrom (label : List α) : ℕ → Option α → List α → List α
  | 0, _, l => l
  | _ + 1, _, [] => []
  | fuel + 1, prev, c :: l =>
    match (ends word pt prev (c :: l)).head? with
    | some rest => label ++ replaceFrom label fuel (before prev (c :: l) rest) rest
    | none => c :: replaceFrom label fuel (some c) l

/-- A match consumes something, so there are at most as many rounds as units. -/
def replaceAll (label text : List α) : List α :=
  replaceFrom word pt label text.length none text

end Search

variable {word : α → Bool} {pt : Pattern α}

/-! ## Where a pattern matches -/

/-- The units `c` between `prev` and `next` match. -/
def Spans (word : α → Bool) (pt : Pattern α) (prev next : Option α) (c : List α) : Prop :=
  pt.body.Lang c ∧
    (pt.bounded = true → edge word prev c.head? = true ∧ edge word c.getLast? next = true)

variable {prev : Option α} {c l rest : List α}

theorem ne_nil_of_lang (h : pt.body.Lang c) : c ≠ [] := by
  rintro rfl
  exact absurd (Body.minLength_le h) (Nat.not_le.mpr pt.pos)

theorem before_append (prev : Option α) (rest : List α) (hc : c ≠ []) :
    before prev (c ++ rest) rest = c.getLast? := by
  rw [before, List.length_append, Nat.add_sub_cancel, List.take_left,
    List.getLast?_eq_some_getLast hc, Option.some_or]

theorem mem_ends :
    rest ∈ pt.ends word prev l ↔ ∃ c, l = c ++ rest ∧ pt.Spans word prev rest.head? c := by
  have hhead : ∀ {c : List α}, pt.body.Lang c → (c ++ rest).head? = c.head? := fun hc ↦
    List.head?_append_of_ne_nil _ (ne_nil_of_lang hc)
  unfold ends Spans
  by_cases hb : pt.bounded = true
  · rw [if_pos hb]
    constructor
    · intro h
      by_cases he : edge word prev l.head? = true
      · rw [if_pos he, List.mem_filter] at h
        obtain ⟨c, rfl, hc⟩ := (Body.mem_ends pt.solid).mp h.1
        rw [before_append _ _ (ne_nil_of_lang hc)] at h
        exact ⟨c, rfl, hc, fun _ ↦ ⟨hhead hc ▸ he, h.2⟩⟩
      · rw [if_neg he] at h
        cases h
    · rintro ⟨c, rfl, hc, hedges⟩
      rw [hhead hc, if_pos (hedges hb).1, List.mem_filter, before_append _ _ (ne_nil_of_lang hc)]
      exact ⟨Body.ends_complete pt.solid hc, (hedges hb).2⟩
  · rw [if_neg hb, Body.mem_ends pt.solid]
    simp [hb]

theorem ends_eq_nil_iff :
    pt.ends word prev l = [] ↔ ∀ c post, l = c ++ post → ¬ pt.Spans word prev post.head? c := by
  rw [List.eq_nil_iff_forall_not_mem]
  constructor
  · intro h c post hl hspan
    exact h post (mem_ends.mpr ⟨c, hl, hspan⟩)
  · intro h rest hrest
    obtain ⟨c, hl, hspan⟩ := mem_ends.mp hrest
    exact h c rest hl hspan

/-- Nothing matches anywhere in a text that follows the unit `prev`. -/
def Free (word : α → Bool) (pt : Pattern α) (prev : Option α) (l : List α) : Prop :=
  ∀ pre c post, l = pre ++ c ++ post → ¬ pt.Spans word (pre.getLast?.or prev) post.head? c

private theorem getLast?_cons_or (a : α) (pre : List α) (prev : Option α) :
    (a :: pre).getLast?.or prev = pre.getLast?.or (some a) := by
  cases pre <;> simp [List.getLast?_cons]

theorem free_nil (prev : Option α) : pt.Free word prev [] := by
  intro pre c post h hspan
  have hc : c = [] := by simp_all
  exact ne_nil_of_lang hspan.1 hc

theorem free_cons {a : α} :
    pt.Free word prev (a :: l) ↔ pt.ends word prev (a :: l) = [] ∧ pt.Free word (some a) l := by
  rw [ends_eq_nil_iff]
  constructor
  · intro h
    constructor
    · intro c post hl
      simpa using h [] c post hl
    · intro pre c post hl
      rw [← getLast?_cons_or a pre prev]
      exact h (a :: pre) c post (by rw [hl]; simp)
  · rintro ⟨hhead, htail⟩ pre c post hl
    cases pre with
    | nil => simpa using hhead c post (by simpa using hl)
    | cons b pre =>
      obtain ⟨rfl, rfl⟩ : a = b ∧ l = pre ++ c ++ post := by simpa using hl
      rw [getLast?_cons_or]
      exact htail pre c post rfl

/-- A text is free exactly if searching it from the start finds nothing. -/
theorem free_iff_execFrom (i : ℕ) : pt.Free word prev l ↔ pt.execFrom word prev l i = none := by
  induction l generalizing prev i with
  | nil => exact ⟨fun _ ↦ rfl, fun _ ↦ free_nil prev⟩
  | cons a l ih =>
    rw [free_cons, execFrom]
    cases h : pt.ends word prev (a :: l) with
    | nil => simpa using ih (i + 1)
    | cons => simp

theorem test_fst {i : ℕ} {text : List α} :
    (pt.test word i text).1 = true ↔ ∃ pre c post, text = pre ++ c ++ post ∧ i ≤ pre.length ∧
      pt.Spans word pre.getLast? post.head? c := by
  have hfree : (pt.test word i text).1 = true ↔
      ¬ pt.Free word (text.take i).getLast? (text.drop i) := by
    rw [free_iff_execFrom i, test]
    cases pt.execFrom word (text.take i).getLast? (text.drop i) i <;> simp
  rw [hfree]
  simp only [Free, not_forall, not_not]
  constructor
  · rintro ⟨pre, c, post, hl, hspan⟩
    have htext : text = text.take i ++ pre ++ c ++ post := by
      rw [List.append_assoc, List.append_assoc, ← List.append_assoc pre, ← hl,
        List.take_append_drop]
    refine ⟨text.take i ++ pre, c, post, htext, ?_, by rwa [List.getLast?_append]⟩
    have hpos := List.length_pos_iff.mpr (ne_nil_of_lang hspan.1)
    have hlen := congrArg List.length hl
    simp only [List.length_drop, List.length_append] at hlen
    rw [List.length_append, List.length_take]
    omega
  · rintro ⟨pre, c, post, rfl, hi, hspan⟩
    refine ⟨pre.drop i, c, post, ?_, ?_⟩
    · rw [List.append_assoc, List.drop_append_of_le_length hi, List.append_assoc]
    · rw [List.append_assoc, List.take_append_of_le_length hi, ← List.getLast?_append,
        List.take_append_drop]
      exact hspan

theorem Free.append_cons {P : α → Prop} (hover : pt.body.Over P) {sep : α} (hsep : ¬ P sep)
    {x y : List α} (hx : pt.Free word prev (x ++ [sep]))
    (hy : pt.Free word (some sep) y) : pt.Free word prev (x ++ sep :: y) := by
  intro pre c post hl hspan
  have hc : sep ∉ c := fun h ↦ hsep (hspan.1.all hover sep h)
  -- The match ends before the separator or starts after it.
  rcases List.append_eq_append_iff.mp hl with ⟨a, hpc, hs⟩ | ⟨post', rfl, rfl⟩
  · cases a with
    | nil =>
      obtain rfl : post = sep :: y := by simpa using hs.symm
      refine hx pre c [sep] (by rw [hpc, List.append_nil]) ?_
      exact hspan
    | cons b a =>
      obtain ⟨rfl, rfl⟩ : sep = b ∧ y = a ++ post := by simpa using hs
      rcases List.append_eq_append_iff.mp hpc with ⟨d, rfl, hcd⟩ | ⟨d, rfl, hcd⟩
      · exact hc (by rw [hcd]; simp)
      · cases d with
        | nil => exact hc (by rw [← List.nil_append c, ← hcd]; simp)
        | cons e d =>
          obtain ⟨rfl, rfl⟩ : sep = e ∧ a = d ++ c := by simpa using hcd
          refine hy d c post rfl ?_
          have hlast : (x ++ sep :: d).getLast?.or prev = d.getLast?.or (some sep) := by
            rw [List.getLast?_append, Option.or_assoc, getLast?_cons_or]
          rwa [hlast] at hspan
  · refine hx pre c (post' ++ [sep]) (by simp) ?_
    cases post' <;> exact hspan

theorem Free.congr_prev {prev' : Option α}
    (hprev : prev.any word = prev'.any word) (h : pt.Free word prev l) : pt.Free word prev' l := by
  intro pre c post hl hspan
  refine h pre c post hl ⟨hspan.1, fun hb ↦ ⟨?_, (hspan.2 hb).2⟩⟩
  have hedge := (hspan.2 hb).1
  cases hpre : pre.getLast? with
  | none => rwa [hpre, Option.none_or, edge, ← hprev] at hedge
  | some => rwa [hpre] at hedge

/-- A text free of a pattern without boundaries is free of every pattern whose matches start with
one of its matches. -/
theorem Free.of_lang {other : Pattern α} (hunbounded : pt.bounded = false)
    (hlang : ∀ c, other.body.Lang c → ∃ x y, c = x ++ y ∧ pt.body.Lang x) {p : Option α}
    (h : pt.Free word p l) : other.Free word prev l := by
  intro pre c post hl hspan
  obtain ⟨x, y, rfl, hx⟩ := hlang c hspan.1
  exact h pre x (y ++ post) (by rw [hl]; simp) ⟨hx, by simp [hunbounded]⟩

/-! ## What replacing leaves -/

/-- Reading a text from left to right, after the unit `prev`: what does not start a match is kept,
and a match is replaced by the label. -/
inductive Replaced (word : α → Bool) (pt : Pattern α) (label : List α) :
    Option α → List α → List α → Prop
  | done (prev : Option α) : Replaced word pt label prev [] []
  | keep {prev : Option α} {a : α} {l out : List α} (hnone : pt.ends word prev (a :: l) = [])
      (hrest : Replaced word pt label (some a) l out) :
      Replaced word pt label prev (a :: l) (a :: out)
  | cut {prev : Option α} {c rest out : List α} (hspan : pt.Spans word prev rest.head? c)
      (hrest : Replaced word pt label c.getLast? rest out) :
      Replaced word pt label prev (c ++ rest) (label ++ out)

private theorem replaceFrom_replaced (label : List α) {fuel : ℕ} (prev : Option α)
    (hfuel : l.length ≤ fuel) :
    Replaced word pt label prev l (pt.replaceFrom word label fuel prev l) := by
  induction fuel generalizing prev l with
  | zero =>
    obtain rfl := List.length_eq_zero_iff.mp (Nat.le_zero.mp hfuel)
    exact .done prev
  | succ fuel ih =>
    cases l with
    | nil => exact .done prev
    | cons a l =>
      rw [replaceFrom]
      cases h : pt.ends word prev (a :: l) with
      | nil => exact .keep h (ih (some a) (by simpa using hfuel))
      | cons rest =>
        obtain ⟨c, hl, hspan⟩ := mem_ends.mp (by rw [h]; exact List.mem_cons_self)
        have hne := ne_nil_of_lang hspan.1
        have hpos := List.length_pos_iff.mpr hne
        have hlen := congrArg List.length hl
        rw [List.length_append] at hlen
        simp only [List.head?_cons]
        rw [hl, before_append prev rest hne]
        exact .cut hspan (ih c.getLast? (by omega))

theorem replaceAll_replaced (label text : List α) :
    Replaced word pt label none text (pt.replaceAll word label text) :=
  replaceFrom_replaced label none (Nat.le_refl _)

theorem Replaced.eq_of_free {label : List α} {out : List α}
    (h : Replaced word pt label prev l out) (hfree : pt.Free word prev l) : out = l := by
  induction h with
  | done => rfl
  | keep hnone hrest ih => rw [ih (free_cons.mp hfree).2]
  | cut hspan => exact absurd hspan (hfree [] _ _ rfl)

section Labels

variable {P : α → Prop} {first last : α} {mid : List α}

/-- A stretch of the result without the label's first unit was there before, followed by the same
unit or by a match. -/
theorem Replaced.stretch {label : List α} {out c post : List α}
    (h : Replaced word pt (first :: label) prev l out) (hout : out = c ++ post)
    (hc : first ∉ c) :
    ∃ post', l = c ++ post' ∧ (post.head? = post'.head? ∨
      ∃ m rest, post' = m ++ rest ∧ pt.Spans word (c.getLast?.or prev) rest.head? m) := by
  induction h generalizing c with
  | done =>
    obtain ⟨rfl, rfl⟩ : c = [] ∧ post = [] := by simpa using hout
    exact ⟨[], rfl, .inl rfl⟩
  | @keep prev a l out hnone hrest ih =>
    cases c with
    | nil => exact ⟨a :: l, rfl, .inl (by rw [← List.nil_append post, ← hout]; rfl)⟩
    | cons b c =>
      obtain ⟨rfl, rfl⟩ : a = b ∧ out = c ++ post := by simpa using hout
      obtain ⟨post', rfl, hpost⟩ := ih rfl fun h ↦ hc (by simp [h])
      exact ⟨post', rfl, by rwa [getLast?_cons_or]⟩
  | @cut prev m rest out hspan =>
    cases c with
    | nil => exact ⟨m ++ rest, rfl, .inr ⟨m, rest, rfl, by simpa using hspan⟩⟩
    | cons b c =>
      obtain ⟨rfl, -⟩ : first = b ∧ label ++ out = c ++ post := by simpa using hout
      exact absurd List.mem_cons_self hc

private theorem Free.label_append (hover : pt.body.Over P) (hfirst : ¬ P first) (hlast : ¬ P last)
    (hlabel : pt.Free word none (first :: mid ++ [last])) {out : List α}
    (hout : pt.Free word (some last) out) :
    pt.Free word prev (first :: mid ++ [last] ++ out) := by
  rw [List.append_assoc]
  refine Free.append_cons hover hlast ?_ hout
  refine free_cons.mpr ⟨ends_eq_nil_iff.mpr fun c post hl hspan ↦ ?_, (free_cons.mp hlabel).2⟩
  cases c with
  | nil => exact ne_nil_of_lang hspan.1 rfl
  | cons b c =>
    obtain ⟨rfl, -⟩ : first = b ∧ mid ++ [last] = c ++ post := by simpa using hl
    exact hfirst (hspan.1.all hover first List.mem_cons_self)

/-- **Nothing of a pattern is left after replacing it**, if its label is free of it and set apart by
units it cannot consume, and, for a pattern between word boundaries, all it consumes is words. -/
theorem Replaced.free_self (hover : pt.body.Over P) (hfirst : ¬ P first) (hlast : ¬ P last)
    (hlabel : pt.Free word none (first :: mid ++ [last]))
    (hword : pt.bounded = true → ∀ a, P a → word a = true) {out : List α}
    (h : Replaced word pt (first :: mid ++ [last]) prev l out) :
    ∀ prevOut, (prevOut = prev ∨ (pt.bounded = true → l.head?.any word = false)) →
      pt.Free word prevOut out := by
  induction h with
  | done => exact fun prevOut _ ↦ free_nil prevOut
  | @keep prev a l out hnone hrest ih =>
    intro prevOut hprev
    refine free_cons.mpr ⟨ends_eq_nil_iff.mpr fun c post hl hspan ↦ ?_, ih (some a) (.inl rfl)⟩
    have hc : first ∉ c := fun h ↦ hfirst (hspan.1.all hover first h)
    obtain ⟨post', hl', hpost⟩ := Replaced.stretch (.keep hnone hrest) hl hc
    refine ends_eq_nil_iff.mp hnone c post' hl' ⟨hspan.1, fun hb ↦ ⟨?_, ?_⟩⟩
    · -- The unit before the match was there, or the match starts with no word.
      rcases hprev with rfl | hprev
      · exact (hspan.2 hb).1
      · cases c with
        | nil => exact absurd rfl (ne_nil_of_lang hspan.1)
        | cons b c =>
          obtain ⟨rfl, -⟩ : a = b ∧ out = c ++ post := by simpa using hl
          have ha := hword hb a (hspan.1.all hover a List.mem_cons_self)
          exact absurd (hprev hb) (by simp [ha])
    · -- The unit after it was there, or the next match starts at a boundary.
      rcases hpost with hpost | ⟨m, rest, rfl, hm⟩
      · exact hpost ▸ (hspan.2 hb).2
      · have hmne := ne_nil_of_lang hm.1
        have hlast := (hm.2 hb).1
        rw [List.head?_append_of_ne_nil _ hmne]
        rwa [List.getLast?_eq_some_getLast (ne_nil_of_lang hspan.1), Option.some_or,
          ← List.getLast?_eq_some_getLast (ne_nil_of_lang hspan.1)] at hlast
  | @cut prev m rest out hspan hrest ih =>
    intro prevOut _
    refine Free.label_append hover hfirst hlast hlabel (ih (some last) (.inr fun hb ↦ ?_))
    have hedge := (hspan.2 hb).2
    have hm := List.getLast?_eq_some_getLast (ne_nil_of_lang hspan.1)
    have hw := hword hb _ (hspan.1.all hover _ (List.getLast_mem (ne_nil_of_lang hspan.1)))
    rw [hm, edge, Option.any_some, hw] at hedge
    simpa using hedge

theorem Replaced.free_other {other : Pattern α} (hover : other.body.Over P) (hfirst : ¬ P first)
    (hlast : ¬ P last) (hlabel : other.Free word none (first :: mid ++ [last]))
    (hunbounded : other.bounded = false) {out : List α}
    (h : Replaced word pt (first :: mid ++ [last]) prev l out)
    (hfree : ∀ p, other.Free word p l) : ∀ p, other.Free word p out := by
  have hspans : ∀ {p n p' n' : Option α} {c : List α}, other.Spans word p n c →
      other.Spans word p' n' c := fun h ↦ ⟨h.1, by simp [hunbounded]⟩
  induction h with
  | done => exact hfree
  | @keep prev a l out hnone hrest ih =>
    intro p
    have hih := ih fun _ ↦ fun pre c post hl hspan ↦
      hfree p (a :: pre) c post (by rw [hl]; simp) (hspans hspan)
    refine free_cons.mpr ⟨ends_eq_nil_iff.mpr fun c post hl hspan ↦ ?_, hih (some a)⟩
    have hc : first ∉ c := fun h ↦ hfirst (hspan.1.all hover first h)
    obtain ⟨post', hl', -⟩ := Replaced.stretch (.keep hnone hrest) hl hc
    exact hfree p [] c post' hl' (hspans hspan)
  | @cut prev m rest out hspan hrest ih =>
    intro p
    refine Free.label_append hover hfirst hlast hlabel (ih (fun _ ↦ ?_) (some last))
    intro pre c post hl hspan
    exact hfree p (m ++ pre) c post (by rw [hl]; simp) (hspans hspan)

/-- How replacing changes the length: `k` matches of `x` units in all become labels, and what is
left of a class that labels have no part in was there before. -/
theorem Replaced.length_eq (Q Q' : α → Bool) {label : List α} (hQ : ∀ a, Q a = true → Q' a = true)
    (hover : pt.body.Over (Q' · = true)) (hlabel : label.countP Q = 0)
    {out : List α} (h : Replaced word pt label prev l out) :
    ∃ k x, out.length + x = l.length + label.length * k ∧ pt.body.minLength * k ≤ x ∧
      out.countP Q + x ≤ l.countP Q' := by
  induction h with
  | done => exact ⟨0, 0, by simp⟩
  | @keep prev a l out hnone hrest ih =>
    obtain ⟨k, x, hlen, hk, hx⟩ := ih
    refine ⟨k, x, by simp only [List.length_cons]; omega, hk, ?_⟩
    rw [List.countP_cons, List.countP_cons]
    split_ifs <;> simp_all <;> omega
  | @cut prev m rest out hspan hrest ih =>
    obtain ⟨k, x, hlen, hk, hx⟩ := ih
    have hmin := Body.minLength_le hspan.1
    have hm : m.countP Q' = m.length := List.countP_eq_length.mpr (hspan.1.all hover)
    refine ⟨k + 1, x + m.length, ?_, ?_, ?_⟩
    · simp only [List.length_append, Nat.mul_succ]
      omega
    · rw [Nat.mul_succ]
      omega
    · rw [List.countP_append, List.countP_append]
      omega

end Labels

end Pattern

end Regex
