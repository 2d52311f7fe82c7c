import Mathlib.Algebra.Order.Ring.Abs
import Mathlib.Algebra.Order.Ring.Unbundled.Rat
import Mathlib.Data.List.Induction
import Swarmlet.Loop.Events

/-!
# Graduation

A pattern of failures graduates to an adapter when its events were captured often enough and over
enough days. Both are counted over the rows of the event store, so every event is to be a row, once.

But the id of a row is made of what was passed to `capture`, and an event that comes without a time
is recorded with the current one. Two such events at different times have one id, and the second is
ignored. `State.captureMany_exact` says when the rows are the captured events: exactly if a capture
passes what an earlier one passed where it records what an earlier one recorded, as far as the
hashes of different events differ. What is counted for a pattern is then what was captured of it.
-/

namespace Swarmlet.Loop

open Js

/-! ## Verdicts -/

/-- Host functions: the signature of a payload, the order of texts, and `Date.parse`. -/
structure Graduation where
  patternKeyOf : Text → Text
  localeCompare : String → String → Ordering
  parse : String → Option ℚ

inductive Unsaturated
  | belowThreshold
  | burstNotRecurring
  | textPathNotExhausted

structure GraduateOptions where
  minOccurrences : ℕ := 20
  minSpanDays : ℚ := 7
  /-- The ids in the provenance of the knowledge repository, where one is given. -/
  triggered : Option (List String) := none

structure SaturationVerdict where
  patternKey : Text
  occurrences : ℕ
  firstSeen : String
  lastSeen : String
  /-- `none` for a time that cannot be parsed. -/
  spanDays : Option ℚ
  textSkillTried : Bool
  /-- `none` for a saturated pattern. -/
  reason : Option Unsaturated

def SIGNAL_KINDS : List String := [.correction, .retry, .toolFailure].map EventKind.name

structure Values where
  session : String
  kind : String
  payload : Text
  ts : String
deriving DecidableEq

def EventRecord.values (r : EventRecord) : Values := ⟨r.session, r.kind, r.payload, r.ts⟩

namespace Graduation

variable (g : Graduation) (opts : GraduateOptions)

def daysBetween (a b : String) : Option ℚ :=
  (g.parse a).bind fun x ↦ (g.parse b).map fun y ↦ |(y - x) / (24 * 60 * 60 * 1000)|

/-- The pattern of an event that carries a signal; noise has none. -/
def patternOf (v : Values) : Option Text :=
  if v.kind ∈ SIGNAL_KINDS ∧ g.patternKeyOf v.payload ≠ [] then some (g.patternKeyOf v.payload)
  else none

def groups (events : List EventRecord) : JsMap Text (List EventRecord) :=
  events.foldl (fun m e ↦ match g.patternOf e.values with
    | none => m
    | some key => m.set key ((m.get key).getD [] ++ [e])) JsMap.empty

def sorted (events : List EventRecord) : List EventRecord :=
  sortBy (fun a b ↦ g.localeCompare a.ts b.ts) events

def verdict (patternKey : Text) (events : List EventRecord) : SaturationVerdict :=
  let sorted := g.sorted events
  let firstSeen := ((sorted.map (·.ts)).head?).getD ""
  let lastSeen := ((sorted.map (·.ts)).getLast?).getD ""
  let spanDays := g.daysBetween firstSeen lastSeen
  let textSkillTried := opts.triggered.any fun ids ↦ sorted.any (·.id ∈ ids)
  { patternKey, occurrences := sorted.length, firstSeen, lastSeen, spanDays, textSkillTried
    reason :=
      if sorted.length < opts.minOccurrences then some .belowThreshold
      else if spanDays.any (· < opts.minSpanDays) then some .burstNotRecurring
      else if !textSkillTried then some .textPathNotExhausted
      else none }

def detectSaturatedPatterns (events : List EventRecord) : List SaturationVerdict :=
  sortBy (fun a b ↦ compare b.occurrences a.occurrences)
    ((g.groups events).entries.map fun e ↦ g.verdict opts e.1 e.2)

theorem get_groups (events : List EventRecord) (key : Text) : (g.groups events).get key =
    let group := events.filter fun e ↦ g.patternOf e.values = some key
    if group = [] then none else some group := by
  induction events using List.reverseRecOn with
  | nil => rfl
  | append_singleton l e ih =>
    rw [groups, List.foldl_append] at *
    rw [List.foldl_cons, List.foldl_nil, List.filter_append]
    cases hp : g.patternOf e.values with
    | none => simpa [hp] using ih
    | some k =>
      by_cases hk : k = key
      · subst hk
        -- an empty group is a missing entry of the map
        simp only [JsMap.get_set_self, ih]
        split_ifs <;> simp_all
      · have hne : key ≠ k := fun h ↦ hk h.symm
        simpa [hp, hk, JsMap.get_set_of_ne _ hne] using ih

end Graduation

/-! ## Captures -/

/-- What a capture passes. The id of its row is made of this. -/
def passed (c : CaptureInput × String) : Values :=
  ⟨c.1.session, c.1.kind.name, c.1.payload, c.1.ts.getD ""⟩

/-- What is recorded of a capture: an event that comes without a time gets the current one. -/
def recorded (c : CaptureInput × String) : Values :=
  ⟨c.1.session, c.1.kind.name, c.1.payload, c.1.ts.getD c.2⟩

def State.captureMany (s : State) (inputs : List (CaptureInput × String)) : State :=
  inputs.foldl (fun s c ↦ s.capture c.1 c.2) s

def State.all (s : State) : List EventRecord := sortBy compareRows s.rows

/-- The rows are the events that were captured, each once. -/
structure Holds (done : List (CaptureInput × String)) (rows : List EventRecord) : Prop where
  once : (rows.map EventRecord.values).Nodup
  all : ∀ v, v ∈ rows.map EventRecord.values ↔ v ∈ done.map recorded

section

variable (done inputs : List (CaptureInput × String)) (c : CaptureInput × String)

/-- The 32-bit hash does not tell a capture from an earlier one that passed something else. -/
def Collides : Prop := ∃ c' ∈ done, passed c' ≠ passed c ∧ eventId c'.1 = eventId c.1

/-- Each capture passes what an earlier one passed exactly if it records what an earlier one
recorded. A collision counts as something that was passed before. -/
def Timed : Prop :=
  ∀ n, (hn : n < inputs.length) →
    (passed inputs[n] ∈ (inputs.take n).map passed ∨ Collides (inputs.take n) inputs[n] ↔
      recorded inputs[n] ∈ (inputs.take n).map recorded)

instance : Decidable (Collides done c) := inferInstanceAs (Decidable (∃ c' ∈ done, _))

instance : Decidable (Timed inputs) :=
  inferInstanceAs (Decidable (∀ n, (hn : n < inputs.length) → _))

theorem passed_or_collides_iff :
    passed c ∈ done.map passed ∨ Collides done c ↔ eventId c.1 ∈ done.map (eventId ·.1) := by
  have hid : ∀ c', passed c' = passed c → eventId c'.1 = eventId c.1 := by
    intro c' h
    simp only [passed, Values.mk.injEq] at h
    simp only [eventId, h]
  simp only [List.mem_map, Collides]
  constructor
  · rintro (⟨c', hc', h⟩ | ⟨c', hc', -, h⟩)
    · exact ⟨c', hc', hid c' h⟩
    · exact ⟨c', hc', h⟩
  · rintro ⟨c', hc', h⟩
    by_cases hp : passed c' = passed c
    · exact .inl ⟨c', hc', hp⟩
    · exact .inr ⟨c', hc', hp, h⟩

theorem captureMany_concat (s : State) :
    s.captureMany (done ++ [c]) = (s.captureMany done).capture c.1 c.2 := by
  simp [State.captureMany]

theorem rows_capture (s : State) : ∃ r : EventRecord, r.id = eventId c.1 ∧ r.values = recorded c ∧
    (s.capture c.1 c.2).rows =
      if eventId c.1 ∈ s.rows.map (·.id) then s.rows else s.rows ++ [r] := by
  refine ⟨(captureRecord s.lastIndex c.1 c.2).1, rfl, rfl, ?_⟩
  simp only [State.capture, insertOrIgnore, List.any_eq_true, decide_eq_true_eq, List.mem_map]
  rfl

/-- **The ids of the rows are those of the captures.** -/
theorem mem_ids_captureMany (id : String) :
    id ∈ (State.init.captureMany done).rows.map (·.id) ↔ id ∈ done.map (eventId ·.1) := by
  induction done using List.reverseRecOn with
  | nil => rfl
  | append_singleton l c ih =>
    obtain ⟨r, hid, -, hrows⟩ := rows_capture c (State.init.captureMany l)
    rw [captureMany_concat, hrows, List.map_append, List.mem_append, ← ih]
    split_ifs with hknown
    · simp only [List.map_cons, List.map_nil, List.mem_singleton, iff_self_or]
      rintro rfl
      exact hknown
    · simp [hid]

end

section

variable {done : List (CaptureInput × String)} {s : State}

/-- A capture keeps the rows exact exactly if its id tells whether its event is new. -/
theorem Holds.capture_iff (h : Holds done s.rows) (c : CaptureInput × String) :
    Holds (done ++ [c]) (s.capture c.1 c.2).rows ↔
      (eventId c.1 ∈ s.rows.map (·.id) ↔ recorded c ∈ done.map recorded) := by
  obtain ⟨r, -, hvalues, hrows⟩ := rows_capture c s
  rw [hrows]
  split_ifs with hknown
  · refine ⟨fun h' ↦ iff_of_true hknown ?_, fun hrec ↦ ⟨h.once, fun v ↦ ?_⟩⟩
    · rw [← h.all, h'.all]
      simp
    · rw [h.all, List.map_append, List.mem_append, iff_self_or, List.map_singleton,
        List.mem_singleton]
      rintro rfl
      exact hrec.mp hknown
  · refine ⟨fun h' ↦ iff_of_false hknown fun hrec ↦ ?_, fun hrec ↦ ⟨?_, fun v ↦ ?_⟩⟩
    · have honce := h'.once
      rw [List.map_append, List.nodup_append] at honce
      exact honce.2.2 _ ((h.all _).mpr hrec) _ (.head _) hvalues.symm
    · rw [List.map_append, List.nodup_append]
      refine ⟨h.once, List.nodup_singleton _, fun v hv w hw heq ↦ hknown (hrec.mpr ?_)⟩
      obtain rfl := List.mem_singleton.mp hw
      exact (h.all _).mp (hvalues ▸ heq ▸ hv)
    · rw [List.map_append, List.mem_append, h.all, List.map_append, List.mem_append,
        List.map_singleton, List.map_singleton, hvalues]

theorem holds_take_iff (inputs : List (CaptureInput × String)) :
    (∀ n, Holds (inputs.take n) (State.init.captureMany (inputs.take n)).rows) ↔ Timed inputs := by
  have hstep : ∀ n, (hn : n < inputs.length) →
      Holds (inputs.take n) (State.init.captureMany (inputs.take n)).rows →
      (Holds (inputs.take (n + 1)) (State.init.captureMany (inputs.take (n + 1))).rows ↔
        (passed inputs[n] ∈ (inputs.take n).map passed ∨ Collides (inputs.take n) inputs[n] ↔
          recorded inputs[n] ∈ (inputs.take n).map recorded)) := by
    intro n hn h
    rw [List.take_succ_eq_append_getElem hn, captureMany_concat, h.capture_iff,
      mem_ids_captureMany, passed_or_collides_iff]
  refine ⟨fun h n hn ↦ (hstep n hn (h n)).mp (h (n + 1)), fun htimed n ↦ ?_⟩
  induction n with
  | zero => exact ⟨List.nodup_nil, fun v ↦ Iff.rfl⟩
  | succ n ih =>
    by_cases hn : n < inputs.length
    · exact (hstep n hn ih).mpr (htimed n hn)
    · rw [List.take_of_length_le (by omega)] at ih ⊢
      exact ih

theorem Holds.perm (h : Holds done s.rows) (p : Values → Bool) :
    ((s.all.filter (p ·.values)).map EventRecord.values).Perm
      ((distinct (done.map recorded)).filter p) := by
  have hrows : (s.rows.map EventRecord.values).Perm (distinct (done.map recorded)) :=
    (List.perm_ext_iff_of_nodup h.once (nodup_distinct _)).mpr fun v ↦ by
      rw [h.all, mem_distinct]
  have hall : (s.all.map EventRecord.values).Perm (distinct (done.map recorded)) :=
    ((sortBy_perm compareRows s.rows).map _).trans hrows
  have hfilter := hall.filter p
  rwa [List.filter_map] at hfilter

end

/-! ## Counting -/

def Graduation.occurred (g : Graduation) (done : List (CaptureInput × String)) (key : Text) :
    List Values :=
  (distinct (done.map recorded)).filter fun v ↦ g.patternOf v = some key

/-- A verdict says how often a pattern was captured, and when first and last. -/
structure SaturationVerdict.Counts (v : SaturationVerdict) (g : Graduation)
    (events : List Values) : Prop where
  occurrences : v.occurrences = events.length
  firstSeen : ∃ e ∈ events, v.firstSeen = e.ts
  lastSeen : ∃ e ∈ events, v.lastSeen = e.ts
  between : ∀ e ∈ events, (g.localeCompare v.firstSeen e.ts).isLE ∧
    (g.localeCompare e.ts v.lastSeen).isLE
  spanDays : v.spanDays = g.daysBetween v.firstSeen v.lastSeen

theorem SaturationVerdict.Counts.perm {g : Graduation} {v : SaturationVerdict}
    {events events' : List Values} (h : v.Counts g events) (hperm : events.Perm events') :
    v.Counts g events' where
  occurrences := h.occurrences.trans hperm.length_eq
  firstSeen := h.firstSeen.imp fun _ ↦ .imp_left hperm.mem_iff.mp
  lastSeen := h.lastSeen.imp fun _ ↦ .imp_left hperm.mem_iff.mp
  between e he := h.between e (hperm.mem_iff.mpr he)
  spanDays := h.spanDays

section

variable {g : Graduation} [Std.TransCmp g.localeCompare] {opts : GraduateOptions}
  {done : List (CaptureInput × String)} {s : State}

theorem counts_verdict (key : Text) {events : List EventRecord} (hne : events ≠ []) :
    (g.verdict opts key events).Counts g (events.map EventRecord.values) := by
  have htrans : Std.TransCmp fun a b : EventRecord ↦ g.localeCompare a.ts b.ts :=
    transCmp_on g.localeCompare EventRecord.ts
  have hsorted : (g.sorted events).Pairwise fun a b ↦ (g.localeCompare a.ts b.ts).isLE :=
    sorted_sortBy events
  have hperm : (g.sorted events).Perm events := sortBy_perm _ events
  have hmem : ∀ r ∈ g.sorted events, r.values ∈ events.map EventRecord.values := fun r hr ↦
    List.mem_map_of_mem (hperm.mem_iff.mp hr)
  have hself (t : String) : (g.localeCompare t t).isLE := by
    rw [show g.localeCompare t t = .eq from Std.ReflCmp.compare_self]
    rfl
  have hne' : g.sorted events ≠ [] := fun h ↦ hne (h ▸ hperm).nil_eq.symm
  obtain ⟨first, rest, hfirst⟩ := List.exists_cons_of_ne_nil hne'
  obtain ⟨init, last, hlast⟩ := (List.eq_nil_or_concat' (g.sorted events)).resolve_left hne'
  have hfirstSeen : (g.verdict opts key events).firstSeen = first.ts := by
    simp [Graduation.verdict, hfirst]
  have hlastSeen : (g.verdict opts key events).lastSeen = last.ts := by
    simp [Graduation.verdict, hlast]
  refine ⟨hperm.length_eq.trans (List.length_map _).symm,
    ⟨first.values, hmem _ (by simp [hfirst]), hfirstSeen⟩,
    ⟨last.values, hmem _ (by simp [hlast]), hlastSeen⟩, fun e he ↦ ?_, rfl⟩
  obtain ⟨r, hr, rfl⟩ := List.mem_map.mp he
  rw [hfirstSeen, hlastSeen]
  have hr' := hperm.mem_iff.mpr hr
  constructor
  · rw [hfirst] at hr' hsorted
    rcases List.mem_cons.mp hr' with rfl | hrest
    · exact hself r.ts
    · exact (List.pairwise_cons.mp hsorted).1 r hrest
  · rw [hlast] at hr' hsorted
    rcases List.mem_append.mp hr' with hinit | hr'
    · exact (List.pairwise_append.mp hsorted).2.2 r hinit last (.head _)
    · rw [List.mem_singleton.mp hr']
      exact hself last.ts

theorem Holds.counts (h : Holds done s.rows) :
    (∀ v ∈ g.detectSaturatedPatterns opts s.all, v.Counts g (g.occurred done v.patternKey)) ∧
      ∀ c ∈ done, ∀ key, g.patternOf (recorded c) = some key →
        ∃ v ∈ g.detectSaturatedPatterns opts s.all, v.patternKey = key := by
  simp only [Graduation.detectSaturatedPatterns, mem_sortBy, List.mem_map]
  have hget := g.get_groups s.all
  constructor
  · rintro _ ⟨⟨key, events⟩, he, rfl⟩
    have hgroup := JsMap.get_of_mem _ he
    rw [hget] at hgroup
    obtain ⟨hne, hevents⟩ := Option.ite_none_left_eq_some.mp hgroup
    rw [Option.some_inj] at hevents
    exact (counts_verdict key (hevents ▸ hne)).perm
      (hevents ▸ h.perm fun v ↦ g.patternOf v = some key)
  · intro c hc key hkey
    have hmem : recorded c ∈ g.occurred done key := by
      simp only [Graduation.occurred, List.mem_filter, mem_distinct, decide_eq_true_eq]
      exact ⟨List.mem_map_of_mem hc, hkey⟩
    obtain ⟨r, hr, -⟩ := List.mem_map.mp ((h.perm _).mem_iff.mpr hmem)
    have hgroup := hget key
    rw [if_neg (List.ne_nil_of_mem hr)] at hgroup
    exact ⟨_, ⟨_, JsMap.mem_entries_of_get hgroup, rfl⟩, rfl⟩

end

/-- **Captures are neither lost nor doubled**, after each of them, exactly if the condition on their
times holds; and then each verdict counts the captured events of its pattern, and no pattern is
without one. -/
theorem State.captureMany_exact (g : Graduation) [Std.TransCmp g.localeCompare]
    (opts : GraduateOptions) (inputs : List (CaptureInput × String)) :
    ((∀ n, Holds (inputs.take n) (State.init.captureMany (inputs.take n)).rows) ↔ Timed inputs) ∧
      (Timed inputs →
        let verdicts := g.detectSaturatedPatterns opts (State.init.captureMany inputs).all
        (∀ v ∈ verdicts, v.Counts g (g.occurred inputs v.patternKey)) ∧
          ∀ c ∈ inputs, ∀ key, g.patternOf (recorded c) = some key →
            ∃ v ∈ verdicts, v.patternKey = key) := by
  have hiff := holds_take_iff inputs
  refine ⟨hiff, fun htimed ↦ ?_⟩
  have hall := hiff.mpr htimed inputs.length
  rw [List.take_length] at hall
  exact hall.counts

/-- A payload is its own pattern, and the time of a day is its last digit. -/
def daily : Graduation where
  patternKeyOf := id
  localeCompare := compareText
  parse day := day.toList.getLast?.map fun c ↦ ((c.toNat - 48 : ℕ) : ℚ) * (24 * 60 * 60 * 1000)

instance : Std.TransCmp daily.localeCompare := inferInstanceAs (Std.TransCmp compareText)

def failure (ts : Option String) (now : String) : CaptureInput × String :=
  (⟨"s", .retry, units "timeout", none, ts⟩, now)

/-- Two failures a week apart and the first reported again. -/
theorem State.captureMany_exact_week :
    let week := [failure (some "2026-01-01") "2026-01-02", failure none "2026-01-08",
      failure (some "2026-01-01") "2026-01-09"]
    Timed week ∧ (∀ n, Holds (week.take n) (State.init.captureMany (week.take n)).rows) ∧
      ∃ v ∈ daily.detectSaturatedPatterns {} (State.init.captureMany week).all,
        v.occurrences = 2 ∧ v.spanDays = some 7 ∧
        v.Counts daily (daily.occurred week v.patternKey) := by
  intro week
  have htimed : Timed week := by decide +kernel
  obtain ⟨hiff, hcounts⟩ := State.captureMany_exact daily {} week
  have hverdict : ∃ v ∈ daily.detectSaturatedPatterns {} (State.init.captureMany week).all,
      v.occurrences = 2 ∧ v.spanDays = some 7 := by decide +kernel
  obtain ⟨v, hv, hoccurrences, hspan⟩ := hverdict
  exact ⟨htimed, hiff.mpr htimed, v, hv, hoccurrences, hspan, (hcounts htimed).1 v hv⟩

/-- Without times of their own, two failures a week apart are one row, and no time has passed. -/
theorem captureMany_loses :
    let first := failure none "2026-01-01"
    let second := failure none "2026-01-08"
    let s := State.init.captureMany [first, second]
    recorded first ≠ recorded second ∧ s.rows.map EventRecord.values = [recorded first] ∧
      (daily.detectSaturatedPatterns {} s.all).map (fun v ↦ (v.occurrences, v.spanDays)) =
        [(1, some 0)] := by
  decide +kernel

end Swarmlet.Loop
