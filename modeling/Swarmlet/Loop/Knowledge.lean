import Swarmlet.Lib.JsString

/-!
# The knowledge prompt

Refinements are commits of a git repository, whose knowledge is read as one prompt. Git is what the
code uses of it: the line that `ls-tree` prints for each file of a commit, and what `show` prints
for a path. How a path is printed is left open, but that `system.md` is printed as itself.

The prompt is to hold `system.md`, and then every note in path order, with their contents. But a
note comes before `system.md` in the order of the paths, and what git prints is trimmed: so it does
for a commit without notes only, whose core has no blank space at its ends (`complete_iff`).
-/

namespace Swarmlet.Knowledge

open Js

/-- A commit as git shows it. -/
structure Commit where
  /-- The files by path, as `ls-tree` lists them. -/
  files : List (String × String)
  distinct : (files.map (·.1)).Nodup
  /-- The line of `ls-tree` for a path; unusual names are quoted. -/
  printed : String → String
  printed_core : printed "system.md" = "system.md"
  /-- `show` for a path, which fails for some that are no files. -/
  «show» : String → Option String
  shown : ∀ f ∈ files, «show» f.1 = some f.2

def trimmed (l : List Char) : List Char :=
  ((l.dropWhile isSpace).reverse.dropWhile isSpace).reverse

def trim (s : String) : String := String.ofList (trimmed s.toList)

def isNote (p : String) : Bool :=
  startsWith "skills/".toList p.toList || startsWith "memory/".toList p.toList

def isKnowledge (p : String) : Bool := p = "system.md" || isNote p

def part (p blob : String) : String := s!"<<<FILE: {p}>>>\n{blob}\n<<<END>>>"

namespace Commit

variable (c : Commit)

def line (f : String × String) : String := trim (c.printed f.1)

def paths : List String := sortBy compareText ((c.files.map c.line).filter isKnowledge)

def knowledgePrompt : Option String :=
  (c.paths.mapM fun p ↦ (c.show p).map fun blob ↦ part p (trim blob)).map ("\n".intercalate ·)

def notes : List (String × String) :=
  sortBy (fun a b ↦ compareText a.1 b.1) (c.files.filter fun f ↦ isNote f.1)

/-- The prompt is `system.md` and then every note. -/
def Complete : Prop :=
  ∃ core, ("system.md", core) ∈ c.files ∧ c.knowledgePrompt =
    some ("\n".intercalate (part "system.md" core :: c.notes.map fun f ↦ part f.1 f.2))

end Commit

/-! ## Texts -/

def opening : List Char := ['<', '<', '<', 'F', 'I', 'L', 'E', ':', ' ']

def ending : List Char := ['\n', '<', '<', '<', 'E', 'N', 'D', '>', '>', '>']

theorem toList_part (p blob : String) : (part p blob).toList =
    opening ++ (p.toList ++ (['>', '>', '>', '\n'] ++ (blob.toList ++ ending))) := by
  have hopening : "<<<FILE: ".toList = opening := by decide +kernel
  have hclosing : ">>>\n".toList = ['>', '>', '>', '\n'] := by decide +kernel
  have hending : "\n<<<END>>>".toList = ending := by decide +kernel
  rw [← hopening, ← hclosing, ← hending, part]
  simp only [toString, String.toList_append, List.append_assoc]

theorem toList_join (x : String) (l : List String) :
    ("\n".intercalate (x :: l)).toList = x.toList ++ l.flatMap fun y ↦ '\n' :: y.toList := by
  have hsep : "\n".toList = ['\n'] := rfl
  rw [String.toList_intercalate, List.map_cons, hsep]
  induction l generalizing x with
  | nil => simp
  | cons y l ih =>
    rw [List.map_cons, List.intercalate_cons_cons, ih]
    simp

theorem exists_append {n l : List Char} (h : startsWith n l = true) : ∃ r, l = n ++ r := by
  induction n generalizing l with
  | nil => exact ⟨l, rfl⟩
  | cons a n ih =>
    cases l with
    | nil => cases h
    | cons c l =>
      simp only [startsWith, Bool.and_eq_true, beq_iff_eq] at h
      obtain ⟨r, rfl⟩ := ih h.2
      exact ⟨r, by rw [h.1]; rfl⟩

theorem note_lt {p : String} (h : isNote p = true) : compareText p "system.md" = .lt := by
  rcases (Bool.or_eq_true _ _).mp h with h | h <;> obtain ⟨r, hr⟩ := exists_append h <;>
    rw [compareText, units, hr] <;> rfl

theorem part_ne {p blob core : String} (h : isNote p = true) (r r' : List Char) :
    (part p blob).toList ++ r ≠ (part "system.md" core).toList ++ r' := by
  have hskills : "skills/".toList = 's' :: 'k' :: "ills/".toList := by decide +kernel
  have hmemory : "memory/".toList = 'm' :: "emory/".toList := by decide +kernel
  have hcore : "system.md".toList = 's' :: 'y' :: "stem.md".toList := by decide +kernel
  intro heq
  simp only [toList_part, List.append_assoc, List.append_right_inj, hcore] at heq
  rcases (Bool.or_eq_true _ _).mp h with h | h <;> obtain ⟨s, hs⟩ := exists_append h
  · rw [hs, hskills] at heq
    simp only [List.cons_append, List.cons.injEq] at heq
    exact absurd heq.2.1 (by decide)
  · rw [hs, hmemory] at heq
    simp only [List.cons_append, List.cons.injEq] at heq
    exact absurd heq.1 (by decide)

theorem eq_nil_of_ending {v r r' : List Char} (hv : ∀ c ∈ v, isSpace c = true)
    (h : ending ++ r = v ++ (ending ++ r')) : v = [] := by
  rcases v with _ | ⟨c, _ | ⟨d, v⟩⟩
  · rfl
  · simp only [ending, List.cons_append, List.nil_append, List.cons.injEq] at h
    exact absurd h.2.1 (by decide)
  · simp only [ending, List.cons_append, List.cons.injEq] at h
    have hspace := hv d (by simp)
    rw [← h.2.1] at hspace
    exact absurd hspace (by decide)

theorem exists_trimmed (l : List Char) : ∃ w w', (∀ c ∈ w, isSpace c = true) ∧
    (∀ c ∈ w', isSpace c = true) ∧ l = w ++ (trimmed l ++ w') ∧
    ∀ c ∈ (trimmed l ++ w').head?, isSpace c = false := by
  have hmid : trimmed l ++ ((l.dropWhile isSpace).reverse.takeWhile isSpace).reverse =
      l.dropWhile isSpace := by
    rw [trimmed, ← List.reverse_append, List.takeWhile_append_dropWhile, List.reverse_reverse]
  refine ⟨l.takeWhile isSpace, ((l.dropWhile isSpace).reverse.takeWhile isSpace).reverse,
    fun c hc ↦ List.mem_takeWhile_imp hc,
    fun c hc ↦ List.mem_takeWhile_imp (List.mem_reverse.mp hc), ?_, ?_⟩
  · rw [hmid, List.takeWhile_append_dropWhile]
  · rw [hmid]
    intro c hc
    have hhead := List.head?_dropWhile_not isSpace l
    rw [hc] at hhead
    simpa using hhead

theorem eq_trimmed_of_ending {l r r' : List Char}
    (h : trimmed l ++ (ending ++ r) = l ++ (ending ++ r')) : trimmed l = l ∧ r = r' := by
  obtain ⟨w, w', hw, hw', hl, hhead⟩ := exists_trimmed l
  have hends : w = [] ∧ w' = [] := by
    generalize trimmed l = b at *
    subst hl
    cases b with
    | nil =>
      have hw'nil : w' = [] := by
        cases w' with
        | nil => rfl
        | cons c w' => simpa [hhead c rfl] using hw' c List.mem_cons_self
      subst hw'nil
      exact ⟨eq_nil_of_ending hw (by simpa using h), rfl⟩
    | cons x b =>
      have hwnil : w = [] := by
        cases w with
        | nil => rfl
        | cons c w =>
          simp only [List.cons_append, List.cons.injEq] at h
          simpa [← h.1, hhead x rfl] using hw c List.mem_cons_self
      subst hwnil
      simp only [List.nil_append, List.append_assoc, List.append_right_inj] at h
      exact ⟨rfl, eq_nil_of_ending hw' h⟩
  rw [hends.1, hends.2, List.nil_append, List.append_nil] at hl
  rw [← hl, List.append_right_inj, List.append_right_inj] at h
  exact ⟨hl.symm, h⟩

/-! ## The prompt -/

namespace Commit

variable {c : Commit}

theorem line_core (core : String) : c.line ("system.md", core) = "system.md" := by
  rw [line, c.printed_core]
  decide +kernel

theorem paths_eq_core {core : String} (hcore : ("system.md", core) ∈ c.files) :
    c.paths = ["system.md"] ↔
      ∀ f ∈ c.files, f.1 ≠ "system.md" → isKnowledge (c.line f) = false := by
  have hmem (f : String × String) : f ∈ c.files.filter (isKnowledge ∘ c.line) ↔
      f ∈ c.files ∧ isKnowledge (c.line f) = true := List.mem_filter
  have hknown : ("system.md", core) ∈ c.files.filter (isKnowledge ∘ c.line) :=
    (hmem _).mpr ⟨hcore, by rw [line_core]; decide +kernel⟩
  rw [paths, List.filter_map]
  constructor
  · intro h f hf hne
    have hperm := sortBy_perm compareText ((c.files.filter (isKnowledge ∘ c.line)).map c.line)
    rw [h, List.singleton_perm] at hperm
    obtain ⟨x, hx, -⟩ := List.map_eq_singleton_iff.mp hperm.symm
    by_contra hf'
    have hfx := (hmem f).mpr ⟨hf, (Bool.not_eq_false _).mp hf'⟩
    rw [hx, List.mem_singleton] at hfx hknown
    exact hne (by rw [hfx, ← hknown])
  · intro h
    have hperm : (c.files.filter (isKnowledge ∘ c.line)).Perm [("system.md", core)] := by
      refine (List.perm_ext_iff_of_nodup (c.distinct.of_map.filter _)
        (List.nodup_singleton _)).mpr fun f ↦ ?_
      rw [List.mem_singleton]
      refine ⟨fun hf ↦ ?_, fun hf ↦ hf ▸ hknown⟩
      obtain ⟨hf, hline⟩ := (hmem f).mp hf
      by_contra hne
      have hpath : f.1 ≠ "system.md" := fun heq ↦
        hne (List.inj_on_of_nodup_map c.distinct hf hcore heq)
      simp [h f hf hpath] at hline
    rw [List.perm_singleton.mp hperm, List.map_singleton, line_core]
    rfl

theorem mem_notes {f : String × String} : f ∈ c.notes ↔ f ∈ c.files ∧ isNote f.1 = true := by
  simp [notes]

theorem prompt_eq_some {p text : String} {l : List String} (h : c.paths = p :: l) :
    c.knowledgePrompt = some text ↔ ∃ blob, c.show p = some blob ∧ ∃ parts,
      (l.mapM fun p ↦ (c.show p).map fun blob ↦ part p (trim blob)) = some parts ∧
        "\n".intercalate (part p (trim blob) :: parts) = text := by
  simp only [knowledgePrompt, h, List.mapM_cons, Option.bind_eq_bind, Option.map_eq_some_iff,
    Option.bind_eq_some_iff]
  constructor
  · rintro ⟨_, ⟨_, ⟨blob, hblob, rfl⟩, parts, hparts, hpure⟩, rfl⟩
    cases hpure
    exact ⟨blob, hblob, parts, hparts, rfl⟩
  · rintro ⟨blob, hblob, parts, hparts, rfl⟩
    exact ⟨_, ⟨_, ⟨blob, hblob, rfl⟩, parts, hparts, rfl⟩, rfl⟩

theorem paths_of_complete {core : String} (hcore : ("system.md", core) ∈ c.files)
    (h : c.knowledgePrompt =
      some ("\n".intercalate (part "system.md" core :: c.notes.map fun f ↦ part f.1 f.2))) :
    c.paths = ["system.md"] ∧ trim core = core ∧ c.notes = [] := by
  have hsorted : c.paths.Pairwise fun a b ↦ (compareText a b).isLE = true := sorted_sortBy _
  have hknown {p : String} (hp : p ∈ c.paths) : p = "system.md" ∨ isNote p = true := by
    simpa [isKnowledge] using (List.mem_filter.mp (mem_sortBy.mp hp)).2
  cases hpaths : c.paths with
  | nil =>
    have hmem : "system.md" ∈ c.paths := mem_sortBy.mpr (List.mem_filter.mpr
      ⟨List.mem_map.mpr ⟨_, hcore, line_core core⟩, by decide +kernel⟩)
    simp [hpaths] at hmem
  | cons p l =>
    rw [hpaths, List.pairwise_cons] at hsorted
    rw [hpaths] at hknown
    obtain ⟨blob, hblob, parts, hparts, htext⟩ := (prompt_eq_some hpaths).mp h
    replace htext := congrArg String.toList htext
    rw [toList_join, toList_join] at htext
    obtain rfl : p = "system.md" := (hknown List.mem_cons_self).resolve_right fun hnote ↦
      part_ne hnote _ _ htext
    obtain rfl : core = blob := Option.some.inj ((c.shown _ hcore).symm.trans hblob)
    simp only [toList_part, trim, String.toList_ofList, List.append_assoc,
      List.append_right_inj] at htext
    obtain ⟨htrim, hrest⟩ := eq_trimmed_of_ending htext
    have hl : l = [] := by
      cases l with
      | nil => rfl
      | cons q l =>
        obtain rfl : q = "system.md" := (hknown (by simp)).resolve_right fun hnote ↦ by
          have hle := hsorted.1 q List.mem_cons_self
          rw [@Std.OrientedCmp.eq_swap _ compareText, note_lt hnote] at hle
          cases hle
        simp only [List.mapM_cons, hblob, Option.map_some, Option.bind_eq_bind, Option.bind_some,
          Option.bind_eq_some_iff] at hparts
        obtain ⟨parts, -, hparts⟩ := hparts
        cases hparts
        cases hnotes : c.notes with
        | nil => simp [hnotes] at hrest
        | cons f notes =>
          rw [hnotes, List.map_cons, List.flatMap_cons, List.flatMap_cons, List.cons_append,
            List.cons_append, List.cons.injEq] at hrest
          have hnote := (mem_notes.mp (hnotes ▸ List.mem_cons_self : f ∈ c.notes)).2
          exact absurd hrest.2.symm (part_ne hnote _ _)
    subst hl
    cases hparts
    refine ⟨rfl, String.toList_injective (by rw [trim, String.toList_ofList, htrim]), ?_⟩
    cases hnotes : c.notes with
    | nil => rfl
    | cons f notes => simp [hnotes] at hrest

/-- **The prompt is complete and in order only without notes**, where the core has no blank space at
its ends and no other file is listed as knowledge: a note is sorted before `system.md`, or it is not
read at all. -/
theorem complete_iff (c : Commit) : c.Complete ↔
    ∃ core, ("system.md", core) ∈ c.files ∧ trim core = core ∧
      ∀ f ∈ c.files, f.1 ≠ "system.md" → isNote f.1 = false ∧ isKnowledge (c.line f) = false := by
  refine exists_congr fun core ↦ and_congr_right fun hcore ↦ ⟨fun h ↦ ?_, fun ⟨htrim, hall⟩ ↦ ?_⟩
  · obtain ⟨hpaths, htrim, hnotes⟩ := paths_of_complete hcore h
    refine ⟨htrim, fun f hf hne ↦ ⟨?_, (paths_eq_core hcore).mp hpaths f hf hne⟩⟩
    by_contra hnote
    have hmem := mem_notes.mpr ⟨hf, (Bool.not_eq_false _).mp hnote⟩
    simp [hnotes] at hmem
  · have hpaths := (paths_eq_core hcore).mpr fun f hf hne ↦ (hall f hf hne).2
    have hnotes : c.notes = [] := by
      refine List.eq_nil_iff_forall_not_mem.mpr fun f hf ↦ ?_
      obtain ⟨hf, hnote⟩ := mem_notes.mp hf
      have hne : f.1 ≠ "system.md" := fun heq ↦ by
        rw [heq] at hnote
        exact absurd hnote (by decide +kernel)
      simp [(hall f hf hne).1] at hnote
    refine (prompt_eq_some hpaths).mpr ⟨core, c.shown _ hcore, [], rfl, ?_⟩
    rw [htrim, hnotes]
    rfl

end Commit

def skilled : Commit where
  files := [("skills/a.md", "a"), ("system.md", "core")]
  distinct := by decide
  printed := id
  printed_core := rfl
  «show» p := if p = "skills/a.md" then some "a" else some "core"
  shown := by decide

theorem note_before_core : skilled.knowledgePrompt =
      some "<<<FILE: skills/a.md>>>\na\n<<<END>>>\n<<<FILE: system.md>>>\ncore\n<<<END>>>" ∧
    ¬ skilled.Complete := by
  refine ⟨by decide +kernel, ?_⟩
  rintro ⟨core, hcore, h⟩
  exact absurd (Commit.paths_of_complete hcore h).2.2 (by decide +kernel)

end Swarmlet.Knowledge
