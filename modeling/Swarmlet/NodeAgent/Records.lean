import Swarmlet.NodeAgent.Assignments

/-!
# The record of an assignment under everything that happens to it

The clean-up of a record makes it gone one step after the other: the engine first, then the start
task, then the external service. Nothing undoes a step that is done. An engine is spawned and a
service is stopped by the start task only, which looks at `stopping` before it spawns, and which the
clean-up waits for before it restores the service.

`Turn` is what a turn of the start task can do, `Sound` what holds of a record at all times, and
`kept_react` says that whatever happens to a record keeps it sound.
-/

namespace Swarmlet.Agent

namespace Active

/-! ## One turn of the start task -/

/-- What a turn of the start task leaves alone. -/
structure Turn (here : Bool) (x x' : Active) (reports : List Report) : Prop where
  a : x'.a = x.a := by rfl
  stopping : x'.stopping = x.stopping := by rfl
  cleanup : x'.cleanup = x.cleanup := by rfl
  stopTask : x'.stopTask = x.stopTask := by rfl
  failing : x'.failing = x.failing := by rfl
  proc : x.stopping = true → x'.proc = x.proc := by exact fun _ ↦ rfl
  tracked : (x.down = true → x.stoppedExternal.isSome) → x'.down = true →
    x'.stoppedExternal.isSome := by exact fun h ↦ h
  reports : ∀ r ∈ reports, r.state ≠ .stopped ∧ here = true := by simp

theorem Turn.refl (here : Bool) (x : Active) : Turn here x x [] := { }

variable {x y : Active} {here : Bool} {rs : List Report} {fault failure : Option String}
  {offer : Offer} {faults : List (Option String)} {result : Except String (List Op)}

section

variable {x' z : Active} {op : Op} {ops : List Op} {fitMiB : ℕ} {code : ℤ} {text why : String}
  {answer : Answer}

theorem Turn.trans {rs' : List Report} (h : Turn here x y rs)
    (h' : Turn here y z rs') : Turn here x z (rs ++ rs') where
  a := h'.a.trans h.a
  stopping := h'.stopping.trans h.stopping
  cleanup := h'.cleanup.trans h.cleanup
  stopTask := h'.stopTask.trans h.stopTask
  failing := h'.failing.trans h.failing
  proc hx := (h'.proc (h.stopping.trans hx)).trans (h.proc hx)
  tracked := h'.tracked ∘ h.tracked
  reports r hr := (List.mem_append.mp hr).elim (h.reports r) (h'.reports r)

theorem Turn.withStart (h : Turn here x y rs) (start : Start) :
    Turn here x { y with start } rs :=
  ⟨h.a, h.stopping, h.cleanup, h.stopTask, h.failing, h.proc, h.tracked, h.reports⟩

theorem setAndPersist_spec {state : LiveState} {detail : Option String}
    (h : x.setAndPersist here state detail fault = (y, rs, failure)) :
    (∃ state detail, y = { x with state, detail }) ∧ ∀ r ∈ rs, r.state ≠ .stopped ∧ here =
    true := by
  rw [setAndPersist, set] at h
  split_ifs at h with hskip
  · cases h
    exact ⟨⟨x.state, x.detail, rfl⟩, by simp⟩
  · cases h
    rw [Bool.or_eq_true, not_or, Bool.not_eq_true', Bool.not_eq_false] at hskip
    refine ⟨⟨_, _, rfl⟩, fun r hr ↦ ?_⟩
    rw [List.mem_singleton.mp hr]
    exact ⟨state.state_ne_stopped, hskip.2⟩

theorem observe_spec {ok : Bool} (h : x.observe here fault ok = (y, rs, failure)) :
    (∃ state detail, y = { x with state, detail }) ∧ ∀ r ∈ rs, r.state ≠ .stopped ∧ here =
    true := by
  unfold observe at h
  by_cases hsame : x.state = if ok then .ready else .failed
  · rw [if_pos hsame] at h
    cases h
    exact ⟨⟨x.state, x.detail, rfl⟩, by simp⟩
  · rw [if_neg hsame] at h
    exact setAndPersist_spec h

theorem turn_of_reports
    (h : (∃ state detail, y = { x with state, detail }) ∧
      ∀ r ∈ rs, r.state ≠ .stopped ∧ here = true) : Turn here x y rs := by
  obtain ⟨⟨state, detail, rfl⟩, hreports⟩ := h
  exact { reports := hreports }

theorem turn_exec {ending : Ending} (h : x.exec here offer fault op = (y, rs, ending)) :
    Turn here x y rs := by
  cases op with
  | set =>
    cases h
    exact turn_of_reports (setAndPersist_spec rfl)
  | replicaLimits | watch =>
    cases h
    exact { }
  | ask =>
    cases h
    exact { tracked := fun _ _ ↦ rfl }
  | _ =>
    cases h
    exact .refl here x

/-- Where the start task waits for the maintenance script to stop a service, that service is on
record. -/
def Asking (x : Active) : Prop :=
  ∀ ext fitMiB rest, x.start = .awaiting (.ask ext fitMiB) rest → x.stoppedExternal.isSome

theorem advance_spec (h : x.advance here offer ops faults = (y, rs)) :
    Turn here x y rs ∧ y.Asking := by
  induction ops generalizing faults x y rs with
  | nil =>
    cases h
    exact ⟨(Turn.refl here x).withStart .settled, fun _ _ _ hstart ↦ nomatch hstart⟩
  | cons op ops ih =>
    rw [advance] at h
    rcases hexec : x.exec here offer faults.head?.join op with ⟨z, rs', _ | _ | why⟩ <;>
      rw [hexec] at h <;> cases h
    · exact ⟨(turn_exec hexec).trans (ih rfl).1, (ih rfl).2⟩
    · refine ⟨(turn_exec hexec).withStart _, ?_⟩
      rintro ext fitMiB rest ⟨⟩
      obtain rfl : { x with stoppedExternal := some ext } = z := congrArg Prod.fst hexec
      rfl
    · exact ⟨(turn_exec hexec).withStart _, fun _ _ _ hstart ↦ nomatch hstart⟩

theorem stopping_of_assertStarting (h : x.assertStarting here offer = .ok ()) :
    x.stopping = false := by
  rw [assertStarting] at h
  split_ifs at h with hskip
  rw [Bool.or_eq_true, not_or, Bool.not_eq_true] at hskip
  exact hskip.1

theorem turn_fits {stopExternal : Option String} {requireKnown : Bool} {mib : Option ℕ}
    {registered : Bool} (h : x.fits fitMiB stopExternal requireKnown mib registered = (y, result)) :
    Turn here x y [] := by
  unfold fits at h
  cases mib with
  | none =>
    cases h
    exact .refl here x
  | some free =>
    by_cases hfits : fitMiB ≤ free
    · simp only [hfits, if_true] at h
      cases h
      exact { }
    · simp only [hfits, if_false] at h
      cases stopExternal <;> cases h <;> exact .refl here x

theorem turn_asked {ext : String} {late down : Bool} (hask : x.stoppedExternal.isSome)
    (h : x.asked here offer fault ext fitMiB code text late down = (y, result)) :
    Turn here x y [] := by
  unfold asked at h
  by_cases hstopped : code = 0
  · rw [if_pos hstopped] at h
    cases h
    exact { tracked := fun _ _ ↦ hask }
  rw [if_neg hstopped] at h
  split at h <;> cases h
  · exact { tracked := fun _ hdown ↦ (nomatch hdown) }
  · exact { tracked := fun _ _ ↦ hask }

/-- An operation that goes on with its answer spawns an engine only if the record is not stopping,
and stops a service only if it is on record. -/
theorem turn_resume (hask : ∀ ext fitMiB, op = .ask ext fitMiB → x.stoppedExternal.isSome)
    (h : x.resume here offer fault op answer = some (y, rs, result)) : Turn here x y rs := by
  unfold resume at h
  split at h
  -- Answers that an operation does not get.
  iterate 4 cases h
  -- It throws, or simply returns.
  iterate 2
    cases h
    exact .refl here x
  · rename_i summary how
    split at h
    · cases h
      exact .refl here x
    · rename_i hstarting
      cases h
      have hnot := stopping_of_assertStarting hstarting
      cases how <;> exact { proc := by simp [hnot] }
  · cases h
    exact turn_of_reports (observe_spec rfl)
  · split at h
    · cases h
      exact .refl here x
    · cases h
      exact turn_fits rfl
  · cases h
    exact turn_asked (hask _ _ rfl) rfl
  · cases h
    exact { tracked := fun _ _ ↦ hask _ _ rfl }
  · cases h
    exact .refl here x
  · split at h
    · cases h
      exact .refl here x
    · split_ifs at h
      · cases h
        exact { }
      · cases h
        exact .refl here x
  · cases h
    exact .refl here x
  · cases h

theorem turn_answered (hask : x.Asking) (h : x.answered here offer faults answer = some (y, rs)) :
    Turn here x y rs ∧ y.Asking ∧ x.start.isSettled = false := by
  unfold answered at h
  split at h
  · rename_i op rest hstart
    obtain ⟨⟨z, rs', result⟩, hresume, heq⟩ := Option.map_eq_some_iff.mp h
    have hz := turn_resume (fun ext fitMiB hop ↦ hask ext fitMiB rest (hop ▸ hstart)) hresume
    refine (and_assoc.mp ⟨?_, by rw [hstart]; rfl⟩)
    cases result with
    | ok =>
      cases heq
      exact ⟨hz.trans (advance_spec rfl).1, (advance_spec rfl).2⟩
    | error =>
      cases heq
      exact ⟨hz.withStart _, fun _ _ _ hstart ↦ nomatch hstart⟩
  · cases h

/-! ## The tasks of one record -/

/-- What holds of a record at all times. The clean-up has come past a step only once that step has
done what it is for. -/
structure Sound (x : Active) : Prop where
  tracked : x.down = true → x.stoppedExternal.isSome
  asking : x.Asking
  cleaning : x.cleanup ≠ none → x.stopping = true
  engine : x.cleanup ∈ [some .start, some .external, some .resolved] → x.proc ≠ .running
  settled : x.cleanup ∈ [some .external, some .resolved] → x.start.isSettled = true
  restored : x.cleanup = some .resolved → x.stoppedExternal = none
  due : ∀ why, x.stopTask = some (.due why none) → x.cleanup = some .resolved

/-- **Gone**: the engine has exited, the start task has settled, and the external service runs. -/
structure Gone (x : Active) : Prop where
  engine : x.proc ≠ .running
  start : x.start.isSettled = true
  external : x.down = false

theorem Sound.gone (hx : x.Sound) (h : x.cleanup = some .resolved) : x.Gone where
  engine := hx.engine (by simp [h])
  start := hx.settled (by simp [h])
  external := by
    by_contra hdown
    have hsome := hx.tracked (by simpa using hdown)
    rw [hx.restored h] at hsome
    cases hsome

def stopPending (x : Active) : Bool :=
  match x.stopTask with
  | some (.cleanup _) | some (.due _ _) => true
  | _ => false

/-- What anything that happens to a record leaves alone. -/
structure Kept (here : Bool) (x x' : Active) (reports : List Report) : Prop where
  sound : x'.Sound
  a : x'.a = x.a := by rfl
  resolved : x.cleanup = some .resolved → x'.cleanup = some .resolved := by exact fun h ↦ h
  stopPending : x'.stopPending = true → x.stopPending = true := by exact fun h ↦ h
  stopResolved : x.stopTask = some .resolved → x'.stopTask = some .resolved := by exact fun h ↦ h
  failing : x.failing = [] → x'.failing = [] := by exact fun h ↦ h
  /-- Nothing is reported of a record that is off the map, has settled its clean-up and has no
  rejected stop to report. -/
  reports : ∀ r ∈ reports, r.state ≠ .stopped ∧
    (here = true ∨ x.stopping = false ∨ x.failing ≠ []) := by simp

theorem Turn.kept (h : Turn here x x' rs) (hx : x.Sound) (hasking : x'.Asking)
    (hstart : x.start.isSettled = false) :
    Kept here x x' rs := by
  have hcleanup : x.cleanup ∉ [some .external, some .resolved] := fun hmem ↦ by
    rw [hx.settled hmem] at hstart
    cases hstart
  refine ⟨⟨h.tracked hx.tracked, hasking, ?_, ?_, ?_, ?_, ?_⟩, h.a, ?_, ?_, ?_, ?_, ?_⟩
  · exact h.cleanup ▸ h.stopping ▸ hx.cleaning
  · intro hmem
    rw [h.cleanup] at hmem
    have hstopping := hx.cleaning fun hnone ↦ by simp [hnone] at hmem
    rw [h.proc hstopping]
    exact hx.engine hmem
  · rw [h.cleanup]
    exact fun hmem ↦ absurd hmem hcleanup
  · rw [h.cleanup]
    exact fun heq ↦ absurd (by simp [heq]) hcleanup
  · exact h.stopTask ▸ h.cleanup ▸ hx.due
  · exact fun heq ↦ absurd (by simp [heq]) hcleanup
  · rw [stopPending, stopPending, h.stopTask]
    exact id
  · exact h.stopTask ▸ id
  · exact h.failing ▸ id
  · exact fun r hr ↦ ⟨(h.reports r hr).1, .inl (h.reports r hr).2⟩

theorem stopPending_settleCleanup (failure : Option String) (x : Active) :
    (x.settleCleanup failure).stopPending = x.stopPending := by
  unfold settleCleanup stopPending
  rcases x.stopTask with _ | (_ | _ | _ | _) <;> rfl

theorem sound_reject (hx : x.Sound) (hcleanup : x.cleanup ≠ some .resolved)
    (hstopping : x.stopping = true) (why : String) : (x.settleCleanup (some why)).Sound where
  __ := hx
  cleaning _ := hstopping
  engine h := by simp [settleCleanup] at h
  settled h := by simp [settleCleanup] at h
  restored h := by simp [settleCleanup] at h
  due why' h := by
    refine absurd (hx.due why' ?_) hcleanup
    simp only [settleCleanup] at h
    split at h
    · cases h
    · exact h

theorem sound_resolve (hx : x.Sound) (hstopping : x.stopping = true) (hproc : x.proc ≠ .running)
    (hstart : x.start.isSettled = true) (hexternal : x.stoppedExternal = none) :
    (x.settleCleanup none).Sound where
  __ := hx
  cleaning _ := hstopping
  engine _ := hproc
  settled _ := hstart
  restored _ := hexternal
  due _ _ := rfl

theorem kept_settleCleanup (hx : x.cleanup ≠ some .resolved)
    (hsound : (x.settleCleanup failure).Sound) : Kept here x (x.settleCleanup failure) [] where
  sound := hsound
  resolved h := absurd h hx
  stopPending h := by rwa [stopPending_settleCleanup] at h
  stopResolved h := by simp [settleCleanup, h]

theorem sound_beginCleanup (hx : x.Sound) (fault : Option String) :
    (x.beginCleanup fault).Sound := by
  unfold beginCleanup
  split
  · exact hx
  · rename_i hnone
    have hdue : ∀ why, x.stopTask ≠ some (.due why none) := fun why h ↦ by
      rw [hx.due why h] at hnone
      cases hnone
    have hx' : Sound { x with stopping := true } :=
      { hx with cleaning := fun _ ↦ rfl }
    cases fault with
    | some why => exact sound_reject hx' (by simp [hnone]) rfl why
    | none =>
      exact ⟨hx.tracked, hx.asking, fun _ ↦ rfl, by simp, by simp, by simp,
        fun why h ↦ absurd h (hdue why)⟩

theorem beginCleanup_spec (x : Active) (fault : Option String) :
    (x.beginCleanup fault).a = x.a ∧ (x.beginCleanup fault).failing = x.failing ∧
    (x.beginCleanup fault).stopPending = x.stopPending ∧
    (x.stopTask = some .resolved → (x.beginCleanup fault).stopTask = some .resolved) ∧
    (x.stopTask = none → (x.beginCleanup fault).stopTask = none) ∧
    (x.cleanup = some .resolved → (x.beginCleanup fault).cleanup = some .resolved) := by
  unfold beginCleanup
  split
  · exact ⟨rfl, rfl, rfl, id, id, id⟩
  · rename_i hnone
    cases fault with
    | some =>
      refine ⟨rfl, rfl, stopPending_settleCleanup _ _, fun h ↦ ?_, fun h ↦ ?_, fun h ↦ ?_⟩
      · simp [settleCleanup, h]
      · simp [settleCleanup, h]
      · simp [hnone] at h
    | none => exact ⟨rfl, rfl, rfl, id, id, fun h ↦ by simp [hnone] at h⟩

theorem kept_fail (hx : x.Sound) (h : x.fail fault why = (y, rs)) : Kept here x y rs := by
  unfold fail at h
  split_ifs at h with hstopping
  · cases h
    exact { sound := hx }
  · cases h
    obtain ⟨ha, hfailing, hpending, hresolved, -, hdone⟩ :=
      beginCleanup_spec { x with state := .failed, detail := some why } fault
    have hsound : Sound { x with state := .failed, detail := some why } :=
      { hx with }
    refine ⟨sound_beginCleanup hsound fault, ha, hdone, fun h ↦ hpending ▸ h, hresolved,
      fun h ↦ hfailing.trans h, fun r hr ↦ ?_⟩
    rw [List.mem_singleton.mp hr]
    exact ⟨fun h ↦ (nomatch h), .inr (.inl (by simpa using hstopping))⟩

theorem sound_exited (hx : x.Sound) {proc : Engine} (hproc : proc ≠ .running) :
    Sound { x with proc } :=
  { hx with engine := fun _ ↦ hproc }

theorem kept_procStopped (hx : x.Sound) (h : x.react here (.procStopped fault) = some (y, rs)) :
    Kept here x y rs := by
  obtain ⟨hcleanup, h⟩ := Option.ite_none_right_eq_some.mp h
  have hstopping := hx.cleaning (by simp [hcleanup])
  have hundone : x.cleanup ≠ some .resolved := by simp [hcleanup]
  cases fault with
  | some why =>
    cases h
    exact kept_settleCleanup hundone (sound_reject hx hundone hstopping why)
  | none =>
    split_ifs at h with hproc
    cases h
    exact { sound := ⟨hx.tracked, hx.asking, fun _ ↦ hstopping, fun _ ↦ hproc, by simp, by simp,
      fun why hdue ↦ absurd (hx.due why hdue) hundone⟩, resolved := fun h ↦ absurd h hundone }

theorem kept_startAwaited (hx : x.Sound) (h : x.react here (.startAwaited fault) = some (y, rs)) :
    Kept here x y rs := by
  obtain ⟨⟨hcleanup, hstart⟩, h⟩ := Option.ite_none_right_eq_some.mp h
  have hstopping := hx.cleaning (by simp [hcleanup])
  have hproc := hx.engine (by simp [hcleanup])
  have hundone : x.cleanup ≠ some .resolved := by simp [hcleanup]
  cases fault with
  | some why =>
    cases h
    exact kept_settleCleanup hundone (sound_reject hx hundone hstopping why)
  | none =>
    by_cases hexternal : x.stoppedExternal = none
    · simp only [hexternal, if_true] at h
      cases h
      exact kept_settleCleanup hundone (sound_resolve hx hstopping hproc hstart hexternal)
    · simp only [hexternal, if_false] at h
      cases h
      exact { sound := ⟨hx.tracked, hx.asking, fun _ ↦ hstopping, fun _ ↦ hproc, fun _ ↦ hstart,
        by simp, fun why hdue ↦ absurd (hx.due why hdue) hundone⟩, resolved :=
        fun h ↦ absurd h hundone }

theorem kept_restored (hx : x.Sound) (h : x.react here (.restored code text fault) = some (y, rs)) :
    Kept here x y rs := by
  obtain ⟨hcleanup, h⟩ := Option.ite_none_right_eq_some.mp h
  have hstopping := hx.cleaning (by simp [hcleanup])
  have hstart := hx.settled (by simp [hcleanup])
  have hundone : x.cleanup ≠ some .resolved := by simp [hcleanup]
  by_cases hcode : code = 0
  · simp only [hcode, if_true] at h
    cases h
    have hx' : Sound { x with stoppedExternal := none, down := false } := by
      refine ⟨fun h ↦ (nomatch h), fun ext fitMiB rest hask ↦ ?_, hx.cleaning, hx.engine,
        hx.settled, fun _ ↦ rfl, hx.due⟩
      rw [show x.start = _ from hask] at hstart
      cases hstart
    refine { kept_settleCleanup (x := { x with stoppedExternal := none, down := false }) hundone
      ?_ with }
    cases fault with
    | some why => exact sound_reject hx' hundone hstopping why
    | none => exact sound_resolve hx' hstopping (hx.engine (by simp [hcleanup])) hstart rfl
  · simp only [hcode, if_false] at h
    cases h
    exact kept_settleCleanup hundone (sound_reject hx hundone hstopping _)

end

/-- **Whatever happens to a record keeps it sound.** -/
theorem kept_react (hx : x.Sound) {happening : Happening}
    (h : x.react here happening = some (y, rs)) : Kept here x y rs := by
  cases happening <;> simp only [react] at h
  case begins =>
    split_ifs at h with hstart
    obtain ⟨hturn, hasking⟩ := advance_spec (Option.some.inj h)
    exact hturn.kept hx hasking (by rw [hstart]; rfl)
  case answered =>
    obtain ⟨hturn, hasking, hstart⟩ := turn_answered hx.asking h
    exact hturn.kept hx hasking hstart
  case startFailed =>
    split at h
    · rename_i why hstart
      have hsettled : Kept here x { x with start := .settled } [] :=
        ((Turn.refl here x).withStart .settled).kept hx (fun _ _ _ h ↦ nomatch h)
          (by rw [hstart]; rfl)
      exact { kept_fail hsettled.sound (Option.some.inj h) with }
    · cases h
  case engineExits =>
    split_ifs at h
    cases h
    exact { sound := sound_exited hx (by simp) }
  case exitNoticed =>
    have hx' := sound_exited hx (show Engine.noticed ≠ .running by decide)
    split_ifs at h with hproc hfailed
    · cases h
      exact { sound := hx' }
    · exact { kept_fail hx' (Option.some.inj h) with }
  case procStopped => exact kept_procStopped hx h
  case startAwaited => exact kept_startAwaited hx h
  case restored => exact kept_restored hx h
  case restoreBroken why =>
    split_ifs at h with hcleanup
    cases h
    exact kept_settleCleanup (by simp [hcleanup])
      (sound_reject hx (by simp [hcleanup]) (hx.cleaning (by simp [hcleanup])) why)
  case cleanupCleared =>
    split at h
    · rename_i why hcleanup
      cases h
      have hundone : x.cleanup ≠ some .resolved := by simp [hcleanup]
      exact { sound := ⟨hx.tracked, hx.asking, fun h ↦ absurd rfl h, by simp, by simp, by simp,
        fun why' hdue ↦ absurd (hx.due why' hdue) hundone⟩, resolved := fun h ↦ absurd h hundone }
    · cases h
  case stopCleared =>
    split at h
    · rename_i why htask
      cases h
      exact {
        sound := { hx with due := fun _ h ↦ nomatch h }
        stopPending := fun h ↦ nomatch h
        stopResolved := fun h ↦ by simp [htask] at h }
    · cases h
  case stopReported =>
    split at h
    · rename_i why failing hfailing
      cases h
      refine {
        sound := { hx with }
        failing := fun h ↦ by simp [hfailing] at h
        reports := fun r hr ↦ ?_ }
      rw [List.mem_singleton.mp hr]
      exact ⟨fun h ↦ (nomatch h), .inr (.inr (by simp [hfailing]))⟩
    · cases h
  case health ok fault =>
    split_ifs at h
    rcases hobserve : x.observe here fault ok with ⟨z, rs', failure⟩
    rw [hobserve] at h
    cases h
    obtain ⟨⟨state, detail, rfl⟩, hreports⟩ := observe_spec hobserve
    exact { sound := { hx with }, reports :=
      fun r hr ↦ ⟨(hreports r hr).1, .inl (hreports r hr).2⟩ }

/-! ## Stopping a record -/

theorem sound_beginStop (hx : x.Sound) (fault : Option String) (why : String) :
    (x.beginStop fault why).Sound := by
  have h := sound_beginCleanup hx fault
  refine { h with due := fun why' hdue ↦ ?_ }
  simp only [beginStop] at hdue ⊢
  split at hdue
  · assumption
  · cases hdue
  · cases hdue

theorem sound_await (hx : x.Sound) (caught : Bool) : (x.await caught).Sound := by
  unfold await
  split_ifs
  · split <;> exact { hx with }
  · exact hx

theorem await_spec (x : Active) (caught : Bool) :
    (x.await caught).a = x.a ∧ (x.await caught).cleanup = x.cleanup ∧
    (x.await caught).stopTask = x.stopTask ∧
    (x.stopPending = true → (x.await caught).failing = x.failing) := by
  unfold await
  split_ifs
  · split
    · rename_i why htask
      exact ⟨rfl, rfl, rfl, fun h ↦ by simp [stopPending, htask] at h⟩
    · exact ⟨rfl, rfl, rfl, fun _ ↦ rfl⟩
  · exact ⟨rfl, rfl, rfl, fun _ ↦ rfl⟩

theorem sound_rejectStop (hx : x.Sound) (why : String) : (x.rejectStop why).Sound :=
  { hx with due := fun _ h ↦ nomatch h }

end Active

end Swarmlet.Agent
