import Swarmlet.Loop.Events

/-!
# Personal data and what leaves the event store

Captured events are to be flagged exactly if their payload holds personal data, and the lines of a
summary that quote payloads are to hold none. Three properties of the code stand in the way. The
detector's expressions remember where their last match ended, so a payload whose only match lies
before that position is not flagged. The excerpt folds blanks and cuts
after redaction, which can bring digits together that a double space held apart, or end an account
number at a word boundary it did not have. And the kind of an imported event is quoted as it is.

`captured_flagged_and_lines_clean` shows that these are all: in a run that avoids them, every record
that `capture` returned is flagged exactly if it should be, and no line of a summary holds personal
data.
-/

namespace Swarmlet.Loop

open Js Regex EventMachine

/-! ## Excerpts of plain texts -/

def gaps : Text → Bool
  | [] => true
  | u :: l => (!isBlank u || (decide (u = 32) && l.head?.any (!isBlank ·))) && gaps l

def tidy (text : Text) : Bool := text.head?.all (!isBlank ·) && gaps text

variable {l text : Text} {r : EventRecord} {rows : List EventRecord}

theorem gaps_cons {u : ℕ} :
    gaps (u :: l) = true ↔
      (isBlank u = true → u = 32 ∧ l.head?.any (!isBlank ·) = true) ∧ gaps l = true := by
  rw [gaps]
  cases isBlank u <;> simp

theorem gaps_of_append {m rest : Text} (h : gaps (m ++ rest) = true) : gaps rest = true := by
  induction m with
  | nil => exact h
  | cons u m ih => exact ih (gaps_cons.mp h).2

theorem gaps_append {m rest : Text} (hm : m.all (!isBlank ·) = true) (h : gaps rest = true) :
    gaps (m ++ rest) = true := by
  induction m with
  | nil => exact h
  | cons u m ih =>
    rw [List.all_cons, Bool.and_eq_true] at hm
    exact gaps_cons.mpr ⟨fun hu ↦ by simp [hu] at hm, ih hm.2⟩

private theorem replaced_gaps {pt : Pattern ℕ} {first : ℕ} {label : Text}
    (hlabel : (first :: label).all (!isBlank ·) = true) {prev : Option ℕ} {out : Text}
    (h : Pattern.Replaced isWord pt (first :: label) prev l out) (hl : gaps l = true) :
    gaps out = true ∧ (l.head?.any (!isBlank ·) = true → out.head?.any (!isBlank ·) = true) ∧
      (l.head?.all (!isBlank ·) = true → out.head?.all (!isBlank ·) = true) := by
  have hfirst : isBlank first = false := by simpa using (List.all_eq_true.mp hlabel) first (by simp)
  induction h with
  | done => exact ⟨rfl, id, id⟩
  | @keep prev a l out hnone hrest ih =>
    obtain ⟨hblank, hgaps⟩ := gaps_cons.mp hl
    obtain ⟨hout, hhead, -⟩ := ih hgaps
    exact ⟨gaps_cons.mpr ⟨fun ha ↦ ⟨(hblank ha).1, hhead (hblank ha).2⟩, hout⟩, id, id⟩
  | @cut prev m rest out hspan hrest ih =>
    refine ⟨gaps_append hlabel (ih (gaps_of_append hl)).1, fun _ ↦ ?_, fun _ ↦ ?_⟩
    · simp [hfirst]
    · simp [hfirst]

theorem tidy_redactPii (h : tidy text = true) : tidy (redactPii text) = true := by
  have hpass : ∀ (c : PiiClass) (t : Text), tidy t = true →
      tidy (c.pattern.replaceAll isWord c.label t) = true := by
    intro c t ht
    obtain ⟨first, label, hlabel, hblank⟩ : ∃ first label, c.label = first :: label ∧
        (first :: label).all (!isBlank ·) = true := by
      cases c <;> exact ⟨_, _, rfl, by decide +kernel⟩
    rw [tidy, Bool.and_eq_true] at ht ⊢
    obtain ⟨hgaps, -, hhead⟩ := replaced_gaps hblank
      (hlabel ▸ Pattern.replaceAll_replaced c.label t) ht.2
    rw [hlabel]
    exact ⟨hhead ht.1, hgaps⟩
  have hfold : ∀ (cs : List PiiClass) (t : Text), tidy t = true →
      tidy (cs.foldl (fun out c ↦ c.pattern.replaceAll isWord c.label out) t) = true := by
    intro cs
    induction cs with
    | nil => exact fun t ht ↦ ht
    | cons c cs ih => exact fun t ht ↦ ih _ (hpass c t ht)
  exact hfold PiiClass.all text h

private theorem foldBlanks_eq (h : gaps l = true) (inRun : Bool)
    (hrun : inRun = true → l.head?.all (!isBlank ·) = true) : foldBlanks inRun l = l := by
  induction l generalizing inRun with
  | nil => rfl
  | cons u l ih =>
    obtain ⟨hblank, hgaps⟩ := gaps_cons.mp h
    rw [foldBlanks]
    by_cases hu : isBlank u = true
    · obtain ⟨rfl, hnext⟩ := hblank hu
      have hout : inRun ≠ true := fun hin ↦ by simp [hu] at hrun; simp [hrun] at hin
      rw [if_pos hu, if_neg hout, ih hgaps true fun _ ↦ ?_]
      cases hl : l.head? with
      | none => rfl
      | some => simpa [hl] using hnext
    · rw [if_neg hu, ih hgaps false (by simp)]

private theorem getLast?_of_gaps (h : gaps l = true) :
    ∀ u ∈ l.getLast?, isBlank u = false := by
  induction l with
  | nil => simp
  | cons u l ih =>
    obtain ⟨hblank, hgaps⟩ := gaps_cons.mp h
    cases l with
    | nil =>
      by_contra hu
      simpa using (hblank (by simpa using hu)).2
    | cons => simpa using ih hgaps

private theorem trim_eq (hhead : l.head?.all (!isBlank ·) = true)
    (hlast : ∀ u ∈ l.getLast?, isBlank u = false) : trim l = l := by
  have hdrop : ∀ l : Text, (∀ u ∈ l.head?, isBlank u = false) → l.dropWhile isBlank = l := by
    intro l hl
    cases l with
    | nil => rfl
    | cons u => simp [hl u rfl]
  rw [trim, hdrop l, hdrop l.reverse, List.reverse_reverse]
  · simpa using hlast
  · simpa [Option.all_eq_true] using hhead

theorem excerpt_eq (h : tidy text = true) (hlen : text.length ≤ 140) :
    excerpt text = text := by
  rw [tidy, Bool.and_eq_true] at h
  rw [excerpt, foldBlanks_eq h.2 false (by simp), trim_eq h.1 (getLast?_of_gaps h.2), if_pos hlen]

/-! ## Lines -/

theorem line_clean (kind : EventKind) (h : ¬ HasPii text) :
    ¬ HasPii (units "- [" ++ units kind.name ++ units "] " ++ text) := by
  refine not_hasPii.mpr fun c ↦ ?_
  have hsplit : units "- [" ++ units kind.name ++ units "] " ++ text =
      (units "- [" ++ units kind.name) ++ 93 :: 32 :: text := by
    rw [List.append_assoc]
    rfl
  rw [hsplit]
  refine Pattern.Free.append_cons (over_brackets c) (by decide) ?_ ?_
  · refine (Pattern.free_iff_execFrom 0).mpr ?_
    cases c <;> cases kind <;> decide +kernel
  · -- No pattern starts with a space, and a space is no word character.
    refine Pattern.free_cons.mpr ⟨Pattern.ends_eq_nil_iff.mpr fun m post hm hspan ↦ ?_, ?_⟩
    · have hstart : c.pattern.body.startAvoids [32] = true := by cases c <;> decide +kernel
      cases m with
      | nil => exact Pattern.ne_nil_of_lang hspan.1 rfl
      | cons u m =>
        obtain ⟨rfl, -⟩ : 32 = u ∧ text = m ++ post := by simpa using hm
        exact hspan.1.head_notMem hstart 32 rfl (by simp)
    · exact (not_hasPii.mp h c).congr_prev (by decide)

/-- A payload whose excerpt is the payload, redacted or not. -/
structure Plain (payload : Text) : Prop where
  tidy : tidy payload = true
  short : payload.length ≤ 140
  shorter : HasPii payload → payload.length ≤ 52

/-- A record that is flagged exactly if it holds personal data, with a plain payload and a kind of
the store's own. -/
structure EventRecord.Sound (r : EventRecord) : Prop where
  flagged : r.piiFlagged = true ↔ HasPii r.payload
  plain : Plain r.payload
  known : ∃ kind : EventKind, r.kind = kind.name

theorem excerptLine_clean (h : r.Sound) (lastIndex : LastIndex) :
    ¬ HasPii (excerptLine lastIndex r).1 := by
  obtain ⟨kind, hkind⟩ := h.known
  rw [excerptLine]
  rw [hkind]
  refine line_clean kind ?_
  by_cases hflag : r.piiFlagged = true
  · rw [if_pos hflag]
    have hlen := length_redactPii_le r.payload
    have hshort := h.plain.shorter (h.flagged.mp hflag)
    rw [if_pos rfl, excerpt_eq (tidy_redactPii h.plain.tidy) (by omega)]
    exact redactPii_clean r.payload
  · -- What is not flagged holds nothing to detect.
    have hclean : ¬ HasPii r.payload := fun hpii ↦ hflag (h.flagged.mpr hpii)
    have hdetect : ¬ (detectPii lastIndex r.payload).1 = true := fun hd ↦
      hclean (detectPii_fst.mp hd).hasPii
    rw [if_neg hflag, if_neg hdetect, excerpt_eq h.plain.tidy h.plain.short]
    exact hclean

theorem excerptLines_clean {events : List EventRecord} (h : ∀ r ∈ events, r.Sound)
    (lastIndex : LastIndex) : ∀ line ∈ (excerptLines lastIndex events).1, ¬ HasPii line := by
  induction events generalizing lastIndex with
  | nil => simp [excerptLines]
  | cons r events ih =>
    refine List.forall_mem_cons.mpr ⟨excerptLine_clean (h r (by simp)) lastIndex, ?_⟩
    exact ih (fun r' hr' ↦ h r' (by simp [hr'])) _

theorem summarizeAll_clean {sessions : List (String × List EventRecord)}
    (h : ∀ p ∈ sessions, ∀ r ∈ p.2, r.Sound) (lastIndex : LastIndex) :
    ∀ c ∈ (summarizeAll lastIndex sessions).1, ∀ line ∈ c.lines, ¬ HasPii line := by
  induction sessions generalizing lastIndex with
  | nil => simp [summarizeAll]
  | cons p sessions ih =>
    refine List.forall_mem_cons.mpr ⟨?_, ih (fun q hq ↦ h q (by simp [hq])) _⟩
    exact excerptLines_clean (fun r hr ↦ h p (by simp) r (List.mem_of_mem_take hr)) lastIndex

private theorem mem_of_mem_bySession {events : List EventRecord} {p : String × List EventRecord}
    (hp : p ∈ (bySession events).entries) (hr : r ∈ p.2) : r ∈ events := by
  have hfold : ∀ (es : List EventRecord) (m : JsMap String (List EventRecord)),
      (∀ q ∈ m.entries, ∀ x ∈ q.2, x ∈ events) → (∀ x ∈ es, x ∈ events) →
      ∀ q ∈ (es.foldl (fun m e ↦ m.set e.session ((m.get e.session).getD [] ++ [e])) m).entries,
        ∀ x ∈ q.2, x ∈ events := by
    intro es
    induction es with
    | nil => exact fun m hm _ ↦ hm
    | cons e es ih =>
      intro m hm hes
      refine ih _ (fun q hq x hx ↦ ?_) fun x hx ↦ hes x (by simp [hx])
      rcases JsMap.mem_entries_set hq with rfl | hq
      · rcases List.mem_append.mp hx with hx | hx
        · cases hget : m.get e.session with
          | none => simp [hget] at hx
          | some => exact hm _ (JsMap.mem_entries_of_get hget) x (by simpa [hget] using hx)
        · exact hes x (by simpa using .inl (List.mem_singleton.mp hx))
      · exact hm q hq x hx
  exact hfold events JsMap.empty (by simp [JsMap.empty]) (fun x hx ↦ hx) p hp r hr

/-! ## The table -/

theorem mem_insertOrIgnore {x : EventRecord} (h : x ∈ insertOrIgnore rows r) :
    x ∈ rows ∨ x = r := by
  rw [insertOrIgnore] at h
  split_ifs at h
  · exact .inl h
  · simpa using h

private theorem sound_importRaw {raw : List RawRow} (hrows : ∀ r ∈ rows, r.Sound)
    (hraw : ∀ w ∈ raw, ∀ r ∈ w.record, r.Sound) :
    ∀ r ∈ importRaw rows raw, r.Sound := by
  have hfold : ∀ (new rows : List EventRecord), (∀ r ∈ rows, r.Sound) → (∀ r ∈ new, r.Sound) →
      ∀ r ∈ new.foldl insertOrIgnore rows, r.Sound := by
    intro new
    induction new with
    | nil => exact fun rows hrows _ ↦ hrows
    | cons n new ih =>
      intro rows hrows hnew
      refine ih _ (fun r hr ↦ ?_) fun r hr ↦ hnew r (by simp [hr])
      rcases mem_insertOrIgnore hr with hr | rfl
      · exact hrows r hr
      · exact hnew r (by simp)
  refine hfold _ rows hrows fun r hr ↦ ?_
  obtain ⟨w, hw, hrec⟩ := List.mem_filterMap.mp hr
  exact hraw w hw r hrec

/-! ## Runs -/

namespace State

/-- Steps that keep clear of the three ways in which personal data gets out: a captured payload is
plain, and a match in it is not hidden before the position where the detector resumes; an imported
row is sound. -/
def Careful (s : State) : Event → Prop
  | .capture input _ => Plain input.payload ∧
      (HasPii input.payload → HasPiiFrom s.lastIndex input.payload)
  | .importRaw raw => ∀ w ∈ raw, ∀ r ∈ w.record, r.Sound
  | .curateBegin _ => True
  | .curateEnd _ _ => True

structure Discreet (s : State) : Prop where
  rows : ∀ r ∈ s.rows, r.Sound
  passes : ∀ batch ∈ s.passes, ∀ r ∈ batch, r.Sound
  captured : ∀ r ∈ s.captured, r.piiFlagged = true ↔ HasPii r.payload
  curated : ∀ c ∈ s.curated, ∀ line ∈ c.lines, ¬ HasPii line

theorem discreet_init : init.Discreet := by
  constructor <;> simp [init]

variable {toLowerCase : Text → Text}

theorem Discreet.capture {s : State} (hs : s.Discreet) {input : CaptureInput} (now : String)
    (hplain : Plain input.payload)
    (hfound : HasPii input.payload → HasPiiFrom s.lastIndex input.payload) :
    (s.capture input now).Discreet := by
  have hnew : (captureRecord s.lastIndex input now).1.Sound := by
    refine ⟨?_, hplain, _, rfl⟩
    rw [captureRecord, detectPii_fst]
    exact ⟨HasPiiFrom.hasPii, hfound⟩
  have hrows : ∀ r ∈ (s.capture input now).rows, r.Sound := by
    intro r hr
    rcases mem_insertOrIgnore hr with hr | rfl
    · exact hs.rows r hr
    · exact hnew
  refine ⟨hrows, hs.passes, fun r hr ↦ ?_, hs.curated⟩
  rcases List.mem_append.mp hr with hr | hr
  · exact hs.captured r hr
  · -- The record that is returned is a row, or the new one.
    obtain rfl := List.mem_singleton.mp hr
    cases hget : (insertOrIgnore s.rows (captureRecord s.lastIndex input now).1).find?
        (·.id = (captureRecord s.lastIndex input now).1.id) with
    | none => exact hnew.flagged
    | some r => exact (hrows r (List.mem_of_find?_eq_some hget)).flagged

theorem Discreet.step {s t : State} {e : Event} (hs : s.Discreet) (hcareful : s.Careful e)
    (hstep : s.step toLowerCase e = some t) : t.Discreet := by
  cases e with
  | capture input now =>
    cases hstep
    exact hs.capture now hcareful.1 hcareful.2
  | importRaw =>
    cases hstep
    exact ⟨sound_importRaw hs.rows hcareful, hs.passes, hs.captured, hs.curated⟩
  | curateBegin =>
    cases hstep
    refine ⟨hs.rows, fun batch hbatch r hr ↦ ?_, hs.captured, hs.curated⟩
    rcases List.mem_append.mp hbatch with hbatch | hbatch
    · exact hs.passes batch hbatch r hr
    · rw [List.mem_singleton.mp hbatch] at hr
      exact hs.rows r (List.mem_of_mem_filter (mem_sortBy.mp (List.mem_of_mem_take hr)))
  | curateEnd i reply =>
    obtain ⟨batch, hbatch, rfl⟩ := Option.map_eq_some_iff.mp hstep
    have hsound := hs.passes batch (List.mem_of_getElem? hbatch)
    refine ⟨fun r hr ↦ ?_, fun b hb ↦ hs.passes b (List.mem_of_mem_eraseIdx hb),
      hs.captured, fun c hc ↦ ?_⟩
    · obtain ⟨r', hr', rfl⟩ := List.mem_map.mp hr
      split_ifs
      · exact { hs.rows r' hr' with }
      · exact hs.rows r' hr'
    rcases List.mem_append.mp hc with hc | hc
    · exact hs.curated c hc
    · refine summarizeAll_clean (fun p hp r hr ↦ hsound r ?_) s.lastIndex c hc
      exact List.mem_of_mem_filter (mem_of_mem_bySession (mem_sortBy.mp hp) hr)

/-- **In a run of careful steps**, every record that `capture` returned is flagged exactly if its
payload holds personal data, and no line of a summary that quotes a payload holds any. -/
theorem captured_flagged_and_lines_clean {es : List Event} {t : State}
    (hrun : run (step toLowerCase) init es = some t)
    (hcareful : Always (step toLowerCase) Careful init es) :
    (∀ r ∈ t.captured, r.piiFlagged = true ↔ HasPii r.payload) ∧
      ∀ c ∈ t.curated, ∀ line ∈ c.lines, ¬ HasPii line := by
  have h : t.Discreet := (path_of_run hrun hcareful).invariant discreet_init
    fun s e s' hs hc hstep ↦ hs.step hc hstep
  exact ⟨h.captured, h.curated⟩

end State

/-! ## An address captured twice, folded digits, and a run without either -/

def correction (payload ts : String) : Event :=
  .capture { session := "s", kind := .correction, payload := units payload, ts := some ts } ""

def curation : List Event := [.curateBegin 500, .curateEnd 0 fun _ ↦ none]

private theorem hasPii_of_detect {text : Text} (h : (detectPii (fun _ ↦ 0) text).1 = true) :
    HasPii text :=
  (detectPii_fst.mp h).hasPii

/-- The first capture of an address leaves the detector behind it, so the second is not flagged. And
digits that two spaces hold apart are no phone number, but the line that quotes them has one. -/
theorem capture_twice_flags_once_and_folding_joins :
    (∃ t r₁ r₂, run (State.step id) State.init
        [correction "a@b.co" "1", correction "a@b.co" "2"] = some t ∧
      t.captured = [r₁, r₂] ∧ HasPii r₂.payload ∧ r₂.piiFlagged = false) ∧
    ∃ t c, run (State.step id) State.init (correction "1234  5678" "1" :: curation) = some t ∧
      t.curated = [c] ∧ ∃ line ∈ c.lines, HasPii line := by
  constructor
  · exact ⟨_, _, _, rfl, rfl, hasPii_of_detect (by decide +kernel), by decide +kernel⟩
  · exact ⟨_, _, rfl, rfl, _, List.mem_cons_self, hasPii_of_detect (by decide +kernel)⟩

theorem plain_address : Plain (units "a@b.co") where
  tidy := by decide +kernel
  short := by decide +kernel
  shorter := fun _ ↦ by decide +kernel

/-- An address that is captured once is flagged, and its line does not have it. -/
theorem captured_address_is_redacted :
    ∃ t r c, run (State.step id) State.init (correction "a@b.co" "1" :: curation) = some t ∧
      t.captured = [r] ∧ t.curated = [c] ∧ c.lines = [units "- [correction] [redacted:email]"] ∧
      (∀ r ∈ t.captured, r.piiFlagged = true ↔ HasPii r.payload) ∧
      ∀ c ∈ t.curated, ∀ line ∈ c.lines, ¬ HasPii line := by
  refine ⟨_, _, _, rfl, rfl, rfl, by decide +kernel,
    @State.captured_flagged_and_lines_clean id (correction "a@b.co" "1" :: curation) _ rfl ?_⟩
  refine (always_cons rfl).mpr ⟨⟨plain_address, fun _ ↦ detectPii_fst.mp (by decide +kernel)⟩, ?_⟩
  refine (always_cons rfl).mpr ⟨trivial, (always_cons rfl).mpr ⟨trivial, trivial⟩⟩

end Swarmlet.Loop
