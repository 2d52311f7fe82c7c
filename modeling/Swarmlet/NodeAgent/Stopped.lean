import Swarmlet.Lib.Entries
import Swarmlet.NodeAgent.Records

/-!
# What the agent's `stopped` report means

Two properties of the runner, over all of its runs.

When the agent reports `stopped` for an id, every assignment it had under that id is gone: the
engine has exited, the start task has settled and the external service that was stopped for it runs
again. A record leaves the map only when its clean-up is done, and `stopped` is reported of an id
that is not on the map.

After that report, the agent reports nothing else of the id until it is assigned again — provided
the write of `assignments.json` that follows the report goes through. The report is made before the
write, and a write that fails rejects the stop, which `handle` reports as `failed`.
-/

namespace Swarmlet.Agent

namespace Runner

/-! ## The runner -/

/-- What holds of the runner at all times. -/
structure Sound (s : Runner) : Prop where
  mapped : ∀ id i, s.active.get id = some i → ∃ x, s.records[i]? = some x ∧ x.a.id = id
  record : ∀ (i : ℕ) (x : Active), s.records[i]? = some x → x.Sound
  retired : ∀ (i : ℕ) (x : Active), s.records[i]? = some x → s.active.get x.a.id ≠ some i →
    x.cleanup = some .resolved
  pending : ∀ (i : ℕ) (x : Active), s.records[i]? = some x → x.stopPending = true →
    s.active.get x.a.id = some i

theorem sound_init : init.Sound := by
  constructor <;> simp [init]

variable {s s' : Runner} {x y : Active} {i : ℕ} {fault : Option String} {e : Event}
  {rs : List Report} {id : AssignmentId} {es : List Event} {log new : List Entry} {why : String}
  {caught : Bool}

theorem Sound.put (hs : s.Sound) (hx : s.records[i]? = some x) (ha : y.a = x.a) (hy : y.Sound)
    (hretired : s.active.get x.a.id ≠ some i → y.cleanup = some .resolved)
    (hpending : y.stopPending = true → s.active.get x.a.id = some i) : (s.put i y rs).Sound where
  mapped id j hget := by
    obtain ⟨z, hz, hid⟩ := hs.mapped id j hget
    rcases Entries.set_cases (y := y) hx rfl hz with ⟨-, rfl, hy⟩ | ⟨-, hz⟩
    · exact ⟨y, hy, by rw [ha, hid]⟩
    · exact ⟨z, hz, hid⟩
  record := Entries.forall_set rfl hy fun j z _ ↦ hs.record j z
  retired := Entries.forall_set rfl (fun hoff ↦ hretired (ha ▸ hoff)) fun j z _ ↦ hs.retired j z
  pending := Entries.forall_set rfl (fun hpend ↦ ha ▸ hpending hpend) fun j z _ ↦ hs.pending j z

/-- What a caller of `stop` does to the record under the id: the stop begins unless it is under way,
and the caller waits. -/
def stopped (fault : Option String) (why : String) (caught : Bool) (x : Active) : Active :=
  (if x.stopTask.isSome then x else x.beginStop fault why).await caught

theorem stop_spec (hs : s.Sound) (h : s.stop id why caught fault = some s') :
    s.active.get id = none ∧ s' = s.report id ⟨.stopped, some "not running"⟩ ∨
    ∃ i x, s.active.get x.a.id = some i ∧ s.records[i]? = some x ∧
      s' = s.put i (stopped fault why caught x) [] := by
  unfold stop at h
  cases hget : s.active.get id with
  | none =>
    rw [hget] at h
    exact .inl ⟨rfl, (Option.some.inj h).symm⟩
  | some i =>
    obtain ⟨x, hx, hid⟩ := hs.mapped id i hget
    simp only [hget, hx, Option.bind_eq_bind, Option.bind_some] at h
    exact .inr ⟨i, x, hid ▸ hget, hx, (Option.some.inj h).symm⟩

theorem stopped_a (fault : Option String) (why : String) (caught : Bool) (x : Active) :
    (stopped fault why caught x).a = x.a := by
  unfold stopped
  rw [(Active.await_spec _ caught).1]
  split_ifs
  · rfl
  · exact (Active.beginCleanup_spec x fault).1

theorem sound_stop (hs : s.Sound) (h : s.stop id why caught fault = some s') :
    s'.Sound := by
  rcases stop_spec hs h with ⟨-, rfl⟩ | ⟨i, x, hget, hx, rfl⟩
  · exact { hs with }
  · refine hs.put hx (stopped_a ..) ?_ (fun hoff ↦ absurd hget hoff) fun _ ↦ hget
    have hsound := hs.record i x hx
    unfold stopped
    split_ifs
    · exact Active.sound_await hsound caught
    · exact Active.sound_await (Active.sound_beginStop hsound fault why) caught

def fresh (a : Assignment) (fault : Option String) : Active :=
  { a, start := if fault.isNone then .due else .absent }

theorem sound_fresh (a : Assignment) (fault : Option String) : (fresh a fault).Sound := by
  refine ⟨fun h ↦ (nomatch h), fun ext fitMiB rest h ↦ ?_, fun h ↦ absurd rfl h, ?_, ?_, ?_, ?_⟩
  · simp only [fresh] at h
    split_ifs at h
  all_goals simp [fresh]

theorem assign_spec (hs : s.Sound) {a : Assignment} (h : s.assign a fault = some s') :
    (∃ i x, s.active.get a.id = some i ∧ s.records[i]? = some x ∧
      s' = s.report a.id ⟨x.state.state, some "already running"⟩) ∨
    s.active.get a.id = none ∧ s' =
      { records := s.records ++ [fresh a fault]
        active := s.active.set a.id s.records.length
        log := s.log ++ [.assigned a.id, .reported a.id ⟨.starting, none⟩] } := by
  unfold assign at h
  cases hget : s.active.get a.id with
  | some i =>
    obtain ⟨x, hx, -⟩ := hs.mapped a.id i hget
    simp only [hget, hx, Option.bind_eq_bind, Option.bind_some] at h
    exact .inl ⟨i, x, rfl, hx, (Option.some.inj h).symm⟩
  | none =>
    rw [hget] at h
    exact .inr ⟨rfl, (Option.some.inj h).symm⟩

theorem sound_assign (hs : s.Sound) {a : Assignment} (h : s.assign a fault = some s') :
    s'.Sound := by
  rcases assign_spec hs h with ⟨i, x, -, -, rfl⟩ | ⟨hfree, rfl⟩
  · exact { hs with }
  refine ⟨fun id j hj ↦ ?_, Entries.forall_append rfl (sound_fresh a fault) hs.record,
    Entries.forall_append rfl (absurd (JsMap.get_set_self ..)) fun j z hz hoff ↦ hs.retired j z hz
      fun hget ↦ hoff (JsMap.get_set_of_get hfree hget),
    Entries.forall_append rfl (fun hpend ↦ nomatch hpend) fun j z hz hpend ↦
      JsMap.get_set_of_get hfree (hs.pending j z hz hpend)⟩
  by_cases hid : id = a.id
  · subst hid
    rw [JsMap.get_set_self] at hj
    cases hj
    exact ⟨fresh a fault, List.getElem?_concat_length, rfl⟩
  · rw [JsMap.get_set_of_ne _ hid] at hj
    obtain ⟨x, hx, hxid⟩ := hs.mapped id j hj
    exact ⟨x, Entries.append_left rfl hx, hxid⟩

def retire (fault : Option String) (x : Active) : Active :=
  match fault with
  | none => { x with stopTask := some .resolved, waiting := 0 }
  | some failure => x.rejectStop failure

theorem finishStop_spec (hs : s.Sound) (h : s.finishStop i fault = some s') :
    ∃ x, s.records[i]? = some x ∧ s.active.get x.a.id = some i ∧
      ((∃ why failure, x.stopTask = some (.due why (some failure)) ∧
        s' = s.put i (x.rejectStop failure) []) ∨
      ∃ why, x.stopTask = some (.due why none) ∧
        s' = ({ s with active := s.active.erase x.a.id } : Runner).put i (retire fault x)
          [⟨.stopped, some why⟩]) := by
  obtain ⟨x, hx, h⟩ := Option.bind_eq_some_iff.mp h
  split at h
  · rename_i why failure htask
    have hget := hs.pending i x hx (by rw [Active.stopPending, htask])
    exact ⟨x, hx, hget, .inl ⟨why, failure, htask, (Option.some.inj h).symm⟩⟩
  · rename_i why htask
    have hget := hs.pending i x hx (by rw [Active.stopPending, htask])
    have hhere : s.here i x = true := by rw [here, hget, decide_eq_true rfl]
    rw [if_pos hhere] at h
    exact ⟨x, hx, hget, .inr ⟨why, htask, (Option.some.inj h).symm⟩⟩
  · cases h

theorem retire_spec (fault : Option String) (x : Active) :
    (retire fault x).a = x.a ∧ (retire fault x).cleanup = x.cleanup ∧
    (retire fault x).stopPending = false := by
  cases fault <;> exact ⟨rfl, rfl, rfl⟩

theorem sound_retire (hx : x.Sound) (fault : Option String) :
    (retire fault x).Sound := by
  cases fault with
  | none =>
    exact { hx with due := fun _ h ↦ nomatch h }
  | some failure => exact Active.sound_rejectStop hx failure

theorem sound_erase (hs : s.Sound) (hx : s.records[i]? = some x)
    (hget : s.active.get x.a.id = some i) (ha : y.a = x.a) (hy : y.Sound)
    (hcleanup : y.cleanup = some .resolved) (hsettled : y.stopPending = false) :
    (({ s with active := s.active.erase x.a.id } : Runner).put i y rs).Sound where
  mapped id j hj := by
    obtain ⟨hid, hj⟩ := JsMap.get_of_erase hj
    obtain ⟨z, hz, hzid⟩ := hs.mapped id j hj
    rcases Entries.set_cases (y := y) hx rfl hz with ⟨-, rfl, -⟩ | ⟨-, hz⟩
    · exact absurd hzid.symm hid
    · exact ⟨z, hz, hzid⟩
  record := Entries.forall_set rfl hy fun j z _ ↦ hs.record j z
  retired := Entries.forall_set rfl (fun _ ↦ hcleanup) fun j z hne hz hoff ↦ hs.retired j z hz
    fun hzget ↦ hoff (JsMap.get_erase_of_get hget hzget hne.symm)
  pending := Entries.forall_set rfl (fun hpend ↦ nomatch hsettled.symm.trans hpend)
    fun j z hne hz hpend ↦ JsMap.get_erase_of_get hget (hs.pending j z hz hpend) hne.symm

theorem sound_finishStop (hs : s.Sound) (h : s.finishStop i fault = some s') :
    s'.Sound := by
  obtain ⟨x, hx, hget, ⟨why, failure, -, rfl⟩ | ⟨why, htask, rfl⟩⟩ := finishStop_spec hs h
  · exact hs.put hx rfl (Active.sound_rejectStop (hs.record i x hx) failure)
      (fun hoff ↦ absurd hget hoff) fun hpend ↦ (nomatch hpend)
  · obtain ⟨ha, hcleanup, hsettled⟩ := retire_spec fault x
    have hsound := hs.record i x hx
    exact sound_erase hs hx hget ha (sound_retire hsound fault)
      (hcleanup.trans (hsound.due why htask)) hsettled

theorem step_spec (h : s.step e = some s') :
    (s.quiet = true ∧ ∃ id why caught fault, s.stop id why caught fault = some s') ∨
    (s.quiet = true ∧ ∃ a fault, s.assign a fault = some s') ∨
    (∃ i x y rs happening, s.records[i]? = some x ∧ x.react (s.here i x) happening = some (y, rs) ∧
      s' = s.put i y rs) ∨
    (∃ i fault, e = .stopDone i fault ∧ s.finishStop i fault = some s') ∨
    s' = { s with log := s.log ++ s.states } := by
  cases e with
  | message =>
    simp only [step] at h
    split_ifs at h with hquiet
    unfold handle at h
    split at h
    · exact .inl ⟨hquiet, _, _, _, _, h⟩
    · exact .inr (.inl ⟨hquiet, _, _, h⟩)
  | shutdown =>
    simp only [step] at h
    split_ifs at h with hquiet
    exact .inl ⟨hquiet, _, _, _, _, h⟩
  | record i happening =>
    obtain ⟨x, hx, h⟩ := Option.bind_eq_some_iff.mp h
    obtain ⟨⟨y, rs⟩, hreact, h⟩ := Option.bind_eq_some_iff.mp h
    exact .inr (.inr (.inl ⟨i, x, y, rs, happening, hx, hreact, (Option.some.inj h).symm⟩))
  | stopDone i fault => exact .inr (.inr (.inr (.inl ⟨i, fault, rfl, h⟩)))
  | hello => exact .inr (.inr (.inr (.inr (Option.some.inj h).symm)))

theorem sound_step (hs : s.Sound) (h : s.step e = some s') :
    s'.Sound := by
  rcases step_spec h with ⟨-, _, _, _, _, h⟩ | ⟨-, _, _, h⟩ | ⟨i, x, y, rs, happening, hx,
    hreact, rfl⟩ | ⟨i, fault, -, h⟩ | rfl
  · exact sound_stop hs h
  · exact sound_assign hs h
  · have hkept := Active.kept_react (hs.record i x hx) hreact
    exact hs.put hx hkept.a hkept.sound (fun hoff ↦ hkept.resolved (hs.retired i x hx hoff))
      fun hpend ↦ hs.pending i x hx (hkept.stopPending hpend)
  · exact sound_finishStop hs h
  · exact { hs with }

/-! ## What a step reports -/

/-- What a step adds to the history. -/
inductive News (s s' : Runner) : List Entry → Prop
  | stopped {id : AssignmentId} {r : Report} (hr : r.state = .stopped)
      (hoff : s'.active.get id = none)
      (hothers : ∀ id', s.active.get id' = none → s'.active.get id' = none) :
      News s s' [.reported id r]
  | assigned {id : AssignmentId} {r : Report} (hr : r.state ≠ .stopped)
      (hothers : ∀ id', id' ≠ id → s'.active.get id' = s.active.get id') :
      News s s' [.assigned id, .reported id r]
  /-- Other states are reported of records that are on the map, or owe the report of a stop that was
  rejected. -/
  | others {new : List Entry}
      (hnew : ∀ e ∈ new, ∃ i x r, s.records[i]? = some x ∧ e = .reported x.a.id r ∧
        r.state ≠ .stopped ∧ (s.active.get x.a.id = some i ∨ x.failing ≠ []))
      (hactive : s'.active = s.active) : News s s' new

theorem news_put (hs : s.Sound) {happening : Happening} (hx : s.records[i]? = some x)
    (hreact : x.react (s.here i x) happening = some (y, rs)) :
    News s (s.put i y rs) (rs.map (.reported y.a.id)) := by
  have hkept := Active.kept_react (hs.record i x hx) hreact
  refine .others (fun e he ↦ ?_) rfl
  obtain ⟨r, hr, rfl⟩ := List.mem_map.mp he
  obtain ⟨hstate, hwhere⟩ := hkept.reports r hr
  refine ⟨i, x, r, hx, by rw [hkept.a], hstate, ?_⟩
  rcases hwhere with hhere | hstopping | hfailing
  · exact .inl (of_decide_eq_true hhere)
  · refine .inl (by_contra fun hoff ↦ ?_)
    have hcleanup := hs.retired i x hx hoff
    rw [(hs.record i x hx).cleaning (by simp [hcleanup])] at hstopping
    cases hstopping
  · exact .inr hfailing

theorem news_states (hs : s.Sound) :
    News s { s with log := s.log ++ s.states } s.states := by
  refine .others (fun e he ↦ ?_) rfl
  obtain ⟨⟨id, i⟩, hmem, heq⟩ := List.mem_filterMap.mp he
  have hget : s.active.get id = some i := s.active.get_of_mem hmem
  obtain ⟨x, hx, hid⟩ := hs.mapped id i hget
  rw [hx, Option.map_some, Option.some.injEq] at heq
  exact ⟨i, x, _, hx, heq.symm, x.state.state_ne_stopped, .inl (hid ▸ hget)⟩

theorem step_news (hs : s.Sound) (h : s.step e = some s') :
    ∃ new, s'.log = s.log ++ new ∧ News s s' new := by
  rcases step_spec h with ⟨-, id, _, _, _, h⟩ | ⟨-, a, _, h⟩ |
    ⟨i, x, y, rs, happening, hx, hreact, rfl⟩ | ⟨i, fault, -, h⟩ | rfl
  · rcases stop_spec hs h with ⟨hget, rfl⟩ | ⟨i, x, hget, hx, rfl⟩
    · exact ⟨_, rfl, .stopped rfl hget fun _ h ↦ h⟩
    · exact ⟨[], by simp [put], .others (by simp) rfl⟩
  · rcases assign_spec hs h with ⟨i, x, hget, hx, rfl⟩ | ⟨hfree, rfl⟩
    · refine ⟨_, rfl, .others (fun e he ↦ ?_) rfl⟩
      obtain ⟨x', hx', hid⟩ := hs.mapped a.id i hget
      rw [List.mem_singleton.mp he]
      exact ⟨i, x', _, hx', by rw [hid], x.state.state_ne_stopped, .inl (hid ▸ hget)⟩
    · exact ⟨_, rfl, .assigned (by simp) fun id' hne ↦ JsMap.get_set_of_ne _ hne _⟩
  · exact ⟨_, rfl, news_put hs hx hreact⟩
  · obtain ⟨x, hx, hget, ⟨why, failure, -, rfl⟩ | ⟨why, htask, rfl⟩⟩ := finishStop_spec hs h
    · exact ⟨[], by simp [put], .others (by simp) rfl⟩
    · refine ⟨_, rfl, .stopped rfl ?_ fun id' hnone ↦ ?_⟩
      · rw [(retire_spec fault x).1]
        exact JsMap.get_erase_self _ _
      · by_contra hsome
        obtain ⟨j, hj⟩ := Option.ne_none_iff_exists'.mp hsome
        rw [(JsMap.get_of_erase hj).2] at hnone
        cases hnone
  · exact ⟨_, rfl, news_states hs⟩

theorem Sound.gone (hs : s.Sound) (hx : x ∈ s.records) (hoff : s.active.get x.a.id = none) :
    x.Gone := by
  obtain ⟨i, hlt, rfl⟩ := List.getElem_of_mem hx
  have hget : s.records[i]? = some s.records[i] := List.getElem?_eq_getElem hlt
  exact (hs.record i _ hget).gone (hs.retired i _ hget (by simp [hoff]))

theorem sound_run (h : EventMachine.run step init es = some s) :
    s.Sound :=
  EventMachine.run_invariant h sound_init fun _ _ _ hs hstep ↦ sound_step hs hstep

/-- **Stopped means gone.** In every run, when a step reports `stopped` for an id, every assignment
the agent has had under that id is gone: its engine has exited, its start task has settled and the
external service that was stopped for it has been restored. -/
theorem stopped_means_gone {es : List Event} {s s' : Runner} {e : Event}
    (hrun : EventMachine.run step init es = some s) (hstep : s.step e = some s') :
    ∃ new, s'.log = s.log ++ new ∧ ∀ id r, .reported id r ∈ new → r.state = .stopped →
      ∀ x ∈ s'.records, x.a.id = id → x.Gone := by
  have hs := sound_run hrun
  obtain ⟨new, hlog, hnews⟩ := step_news hs hstep
  refine ⟨new, hlog, ?_⟩
  rintro _ r hmem hstopped x hx rfl
  refine (sound_step hs hstep).gone hx ?_
  cases hnews with
  | stopped _ hoff _ =>
    obtain ⟨rfl, -⟩ : x.a.id = _ ∧ r = _ := by simpa using hmem
    exact hoff
  | assigned hr _ =>
    obtain ⟨-, rfl⟩ : x.a.id = _ ∧ r = _ := by simpa using hmem
    exact absurd hstopped hr
  | others hnew _ =>
    obtain ⟨i, y, r', -, heq, hne, -⟩ := hnew _ hmem
    obtain ⟨-, rfl⟩ := Entry.reported.inj heq
    exact absurd hstopped hne

/-! ## Nothing after `stopped` -/

/-- `stopped` has been reported of an id, which has not been assigned since. -/
def closed (id : AssignmentId) (log : List Entry) : Bool :=
  log.foldl
    (fun b e ↦ match e with
      | .assigned id' => if id' = id then false else b
      | .reported id' r => if id' = id ∧ r.state = .stopped then true else b) false

theorem closed_assigned (id id' : AssignmentId) (log : List Entry) :
    closed id (log ++ [.assigned id']) = if id' = id then false else closed id log := by
  rw [closed, List.foldl_append]
  rfl

theorem closed_reported (id id' : AssignmentId) (r : Report) (log : List Entry) :
    closed id (log ++ [.reported id' r])
      = if id' = id ∧ r.state = .stopped then true else closed id log := by
  rw [closed, List.foldl_append]
  rfl

theorem closed_append (h : ∀ e ∈ new, ∃ id' r, e = .reported id' r ∧ r.state ≠ .stopped) :
    closed id (log ++ new) = closed id log := by
  induction new generalizing log with
  | nil => rw [List.append_nil]
  | cons e new ih =>
    obtain ⟨id', r, rfl, hr⟩ := h e List.mem_cons_self
    rw [List.append_cons, ih fun e he ↦ h e (List.mem_cons_of_mem _ he), closed_reported,
      if_neg fun h ↦ hr h.2]

theorem closed_of_not_assigned {mid : List Entry} (hlog : closed id log = true)
    (h : .assigned id ∉ mid) : closed id (log ++ mid) = true := by
  induction mid generalizing log with
  | nil => rwa [List.append_nil]
  | cons e mid ih =>
    rw [List.mem_cons, not_or] at h
    rw [List.append_cons]
    refine ih ?_ h.2
    cases e with
    | assigned => rwa [closed_assigned, if_neg fun heq ↦ h.1 (by rw [heq])]
    | reported => rw [closed_reported, hlog, ite_self]

def Final (log : List Entry) : Prop :=
  ∀ pre id r post, log = pre ++ .reported id r :: post → closed id pre = true → r.state = .stopped

theorem Final.snoc (h : Final log) {e : Entry}
    (he : ∀ id r, e = .reported id r → closed id log = true → r.state = .stopped) :
    Final (log ++ [e]) := by
  intro pre id r post heq hclosed
  rcases List.eq_nil_or_concat post with rfl | ⟨post, e', rfl⟩
  · obtain ⟨rfl, hlast⟩ := List.append_inj' heq rfl
    exact he id r (List.singleton_inj.mp hlast) hclosed
  · rw [List.concat_eq_append, ← List.cons_append, ← List.append_assoc] at heq
    exact h pre id r post (List.append_inj' heq rfl).1 hclosed

theorem Final.append (h : Final log)
    (hnew : ∀ e ∈ new, ∃ id r, e = .reported id r ∧ r.state ≠ .stopped ∧ closed id log = false) :
    Final (log ++ new) := by
  induction new generalizing log with
  | nil => rwa [List.append_nil]
  | cons e new ih =>
    obtain ⟨id, r, rfl, hr, hopen⟩ := hnew e List.mem_cons_self
    rw [List.append_cons]
    refine ih (h.snoc fun id' r' heq hclosed ↦ ?_) fun e he ↦ ?_
    · obtain ⟨rfl, rfl⟩ := Entry.reported.inj heq
      rw [hopen] at hclosed
      cases hclosed
    · obtain ⟨id', r', rfl, hr', hopen'⟩ := hnew e (List.mem_cons_of_mem _ he)
      exact ⟨id', r', rfl, hr', by rw [closed_reported, if_neg fun h ↦ hr h.2, hopen']⟩

/-- The write of `assignments.json` that follows a `stopped` report succeeds. -/
def writesStopped (_ : Runner) : Event → Prop
  | .stopDone _ fault => fault = none
  | _ => True

/-- What holds besides, in runs in which those writes succeed. -/
structure Quieted (s : Runner) : Prop where
  retired : ∀ (i : ℕ) (x : Active), s.records[i]? = some x → s.active.get x.a.id ≠ some i →
    x.stopTask = some .resolved ∧ x.failing = []
  pending : ∀ (i : ℕ) (x : Active), s.records[i]? = some x → x.stopPending = true → x.failing = []
  closed : ∀ id, closed id s.log = true → s.active.get id = none
  final : Final s.log

theorem history_of_news (hq : s.Quieted) (hlog : s'.log = s.log ++ new) (hnews : News s s' new) :
    (∀ id, closed id s'.log = true → s'.active.get id = none) ∧ Final s'.log := by
  rw [hlog]
  cases hnews with
  | @stopped id r hr hoff hothers =>
    refine ⟨fun id' hclosed ↦ ?_, hq.final.snoc fun _ _ heq _ ↦ ?_⟩
    · rw [closed_reported] at hclosed
      split_ifs at hclosed with hid
      · exact hid.1 ▸ hoff
      · exact hothers id' (hq.closed id' hclosed)
    · obtain ⟨-, rfl⟩ := Entry.reported.inj heq
      exact hr
  | @assigned id r hr hothers =>
    have hopen : closed id (s.log ++ [.assigned id]) = false := by
      rw [closed_assigned, if_pos rfl]
    have hassigned : Final (s.log ++ [.assigned id]) := hq.final.snoc fun _ _ heq ↦ nomatch heq
    rw [show s.log ++ [.assigned id, .reported id r] = s.log ++ [.assigned id] ++ [.reported id r]
      by simp]
    refine ⟨fun id' hclosed ↦ ?_, hassigned.snoc fun id' r' heq hclosed ↦ ?_⟩
    · rw [closed_reported, if_neg fun h ↦ hr h.2, closed_assigned] at hclosed
      split_ifs at hclosed with hid
      rw [hothers id' fun heq ↦ hid heq.symm]
      exact hq.closed id' hclosed
    · obtain ⟨rfl, -⟩ := Entry.reported.inj heq
      rw [hopen] at hclosed
      cases hclosed
  | others hnew hactive =>
    have hopen : ∀ e ∈ new, ∃ id r, e = .reported id r ∧ r.state ≠ .stopped ∧
        Runner.closed id s.log = false := by
      intro e he
      obtain ⟨i, x, r, hx, rfl, hr, hwhere⟩ := hnew e he
      refine ⟨_, r, rfl, hr, ?_⟩
      by_contra hclosed
      have hoff := hq.closed x.a.id (by simpa using hclosed)
      rcases hwhere with hget | hfailing
      · rw [hoff] at hget
        cases hget
      · exact hfailing (hq.retired i x hx (by simp [hoff])).2
    refine ⟨fun id hclosed ↦ ?_, hq.final.append hopen⟩
    rw [hactive]
    refine hq.closed id ?_
    rwa [closed_append fun e he ↦ ?_] at hclosed
    obtain ⟨id', r, heq, hr, -⟩ := hopen e he
    exact ⟨id', r, heq, hr⟩

theorem failing_stopped (hx : x.failing = [])
    (h : (stopped fault why caught x).stopPending = true) :
    (stopped fault why caught x).failing = [] := by
  unfold stopped at h ⊢
  set y := if x.stopTask.isSome then x else x.beginStop fault why with hy
  have hfailing : y.failing = [] := by
    rw [hy]
    split_ifs
    · exact hx
    · exact ((Active.beginCleanup_spec x fault).2.1).trans hx
  have hpending : y.stopPending = true := by
    rwa [Active.stopPending, (y.await_spec caught).2.2.1] at h
  exact ((y.await_spec caught).2.2.2 hpending).trans hfailing

theorem owes_put (hq : s.Quieted) (ha : y.a = x.a)
    (hretired : s.active.get x.a.id ≠ some i → y.stopTask = some .resolved ∧ y.failing = [])
    (hpending : y.stopPending = true → y.failing = []) :
    (∀ (j : ℕ) (z : Active), (s.put i y rs).records[j]? = some z → s.active.get z.a.id ≠ some j →
      z.stopTask = some .resolved ∧ z.failing = []) ∧
    ∀ (j : ℕ) (z : Active), (s.put i y rs).records[j]? = some z → z.stopPending = true →
      z.failing = [] := by
  exact ⟨Entries.forall_set rfl (fun hoff ↦ hretired (ha ▸ hoff)) fun j z _ ↦ hq.retired j z,
    Entries.forall_set rfl hpending fun j z _ ↦ hq.pending j z⟩

theorem owes_step (hs : s.Sound) (hq : s.Quieted) (hok : writesStopped s e)
    (h : s.step e = some s') :
    (∀ (j : ℕ) (z : Active), s'.records[j]? = some z → s'.active.get z.a.id ≠ some j →
      z.stopTask = some .resolved ∧ z.failing = []) ∧
    ∀ (j : ℕ) (z : Active), s'.records[j]? = some z → z.stopPending = true → z.failing = [] := by
  rcases step_spec h with ⟨hquiet, id, _, _, _, h⟩ | ⟨-, a, fault, h⟩ |
    ⟨i, x, y, rs, happening, hx, hreact, rfl⟩ | ⟨i, fault, rfl, h⟩ | rfl
  · rcases stop_spec hs h with ⟨-, rfl⟩ | ⟨i, x, hget, hx, rfl⟩
    · exact ⟨hq.retired, hq.pending⟩
    · have hfailing : x.failing = [] := by
        simpa using List.all_eq_true.mp hquiet x (List.mem_of_getElem? hx)
      exact owes_put hq (stopped_a ..) (fun hoff ↦ absurd hget hoff) (failing_stopped hfailing)
  · rcases assign_spec hs h with ⟨i, x, -, -, rfl⟩ | ⟨hfree, rfl⟩
    · exact ⟨hq.retired, hq.pending⟩
    · exact ⟨Entries.forall_append rfl (absurd (JsMap.get_set_self ..)) fun j z hz hoff ↦
        hq.retired j z hz fun hget ↦ hoff (JsMap.get_set_of_get hfree hget),
        Entries.forall_append rfl (fun _ ↦ rfl) hq.pending⟩
  · have hkept := Active.kept_react (hs.record i x hx) hreact
    refine owes_put hq hkept.a (fun hoff ↦ ?_) fun hpend ↦ ?_
    · obtain ⟨htask, hfailing⟩ := hq.retired i x hx hoff
      exact ⟨hkept.stopResolved htask, hkept.failing hfailing⟩
    · exact hkept.failing (hq.pending i x hx (hkept.stopPending hpend))
  · obtain ⟨x, hx, hget, ⟨why, failure, -, rfl⟩ | ⟨why, htask, rfl⟩⟩ := finishStop_spec hs h
    · exact owes_put hq rfl (fun hoff ↦ absurd hget hoff) fun hpend ↦ (nomatch hpend)
    · obtain rfl : fault = none := hok
      have hfailing := hq.pending i x hx (by rw [Active.stopPending, htask])
      exact ⟨Entries.forall_set rfl (fun _ ↦ ⟨rfl, hfailing⟩) fun j z hne hz hoff ↦
        hq.retired j z hz fun hzget ↦ hoff (JsMap.get_erase_of_get hget hzget hne.symm),
        Entries.forall_set rfl (fun _ ↦ hfailing) fun j z _ ↦ hq.pending j z⟩
  · exact ⟨hq.retired, hq.pending⟩

theorem quieted_step (hs : s.Sound) (hq : s.Quieted) (hok : writesStopped s e)
    (h : s.step e = some s') : s'.Quieted := by
  obtain ⟨new, hlog, hnews⟩ := step_news hs h
  obtain ⟨hretired, hpending⟩ := owes_step hs hq hok h
  obtain ⟨hclosed, hfinal⟩ := history_of_news hq hlog hnews
  exact ⟨hretired, hpending, hclosed, hfinal⟩

theorem quieted_init : init.Quieted :=
  ⟨by simp [init], by simp [init], by simp [init, closed], by simp [Final, init]⟩

theorem quieted_path (h : EventMachine.Path step writesStopped init es s) :
    s.Sound ∧ s.Quieted :=
  h.invariant (I := fun s ↦ s.Sound ∧ s.Quieted) ⟨sound_init, quieted_init⟩
    fun _ _ _ hs hok hstep ↦ ⟨sound_step hs.1 hstep, quieted_step hs.1 hs.2 hok hstep⟩

/-- **Stopped is final**, in every run in which the writes that follow a `stopped` report succeed:
between that report of an id and the report of another state, the id was assigned again. -/
theorem stopped_is_final {es : List Event} {s : Runner}
    (h : EventMachine.Path step writesStopped init es s) {id : AssignmentId} {r r' : Report}
    {pre mid post : List Entry}
    (hlog : s.log = pre ++ .reported id r :: mid ++ .reported id r' :: post)
    (hr : r.state = .stopped) (hr' : r'.state ≠ .stopped) : .assigned id ∈ mid := by
  by_contra hmid
  refine hr' ((quieted_path h).2.final (pre ++ .reported id r :: mid) id r' post hlog ?_)
  rw [List.append_cons]
  refine closed_of_not_assigned ?_ hmid
  rw [closed_reported, if_pos ⟨rfl, hr⟩]

/-! ### A write that fails

A worker is assigned and stopped before its start task has had a turn. -/

def worker : WorkerAssignment where
  id := "w"
  deploymentId := "d"
  port := 50000
  device := "cpu"
  threads := 1
  memCapMiB := none
  layers := none
  modelLayers := none
  peerPort := none
  peers := none
  serve := none
  allow := []
  enforce := none

def workerOffer : Offer := ⟨true, ⟨true, true, true⟩, [], 1024, 2⟩

/-- The clean-up goes through: there is no engine, and the start task finds itself cancelled. -/
def stopRun : List Event :=
  [.message (.worker worker) none, .message (.stop "w" "d") none, .record 0 (.procStopped none),
    .record 0 (.begins workerOffer []), .record 0 (.startFailed none),
    .record 0 (.startAwaited none)]

instance (s : Runner) (e : Event) : Decidable (writesStopped s e) := by
  cases e <;> unfold writesStopped <;> infer_instance

/-- The report is `stopped`, and then `failed`. -/
theorem stopped_then_failed :
    ∃ es s, EventMachine.run step init es = some s ∧
      s.log = [.assigned "w", .reported "w" ⟨.starting, none⟩] ++
        .reported "w" ⟨.stopped, some "stopped by control"⟩ :: [] ++
        .reported "w" ⟨.failed, some "cleanup incomplete: no space left on device"⟩ :: [] := by
  refine ⟨stopRun ++ [.stopDone 0 (some "no space left on device"), .record 0 .stopReported], ?_⟩
  exact EventMachine.exists_run _ _ _ _ (by decide +kernel)

theorem stopped_is_final_again :
    ∃ es s, EventMachine.Path step writesStopped init es s ∧
      s.log = [.assigned "w", .reported "w" ⟨.starting, none⟩] ++
        .reported "w" ⟨.stopped, some "stopped by control"⟩ :: [.assigned "w"] ++
        .reported "w" ⟨.starting, none⟩ :: [] ∧
      .assigned "w" ∈ [Entry.assigned "w"] := by
  obtain ⟨s, hrun, hlog⟩ := EventMachine.exists_run step init
    (stopRun ++ [.stopDone 0 none, .message (.worker worker) none])
    (fun s ↦ s.log = [.assigned "w", .reported "w" ⟨.starting, none⟩] ++
        .reported "w" ⟨.stopped, some "stopped by control"⟩ :: [.assigned "w"] ++
        .reported "w" ⟨.starting, none⟩ :: []) (by decide +kernel)
  have hpath : EventMachine.Path step writesStopped init _ s :=
    EventMachine.path_of_run hrun (by decide +kernel)
  exact ⟨_, s, hpath, hlog, stopped_is_final hpath hlog rfl (by decide)⟩

/-- The engine runs when the stop comes, and has exited before its start task fails. -/
def engineRun : List Event :=
  [.message (.worker worker) none, .record 0 (.begins workerOffer []),
    .record 0 (.answered (.enforced "cpu" .ok) workerOffer []), .message (.stop "w" "d") none,
    .record 0 .engineExits, .record 0 (.procStopped none),
    .record 0 (.answered (.threw "not listening") workerOffer []), .record 0 (.startFailed none),
    .record 0 (.startAwaited none)]

theorem stopped_means_gone_worker :
    ∃ s s', EventMachine.run step init engineRun = some s ∧ s.step (.stopDone 0 none) = some s' ∧
      s'.log = s.log ++ [.reported "w" ⟨.stopped, some "stopped by control"⟩] ∧
      s'.records.map (·.proc) = [.exited] ∧ ∀ x ∈ s'.records, x.a.id = "w" → x.Gone := by
  obtain ⟨s, hrun, hdone⟩ := EventMachine.exists_run step init engineRun
    (fun s ↦ ∃ s' ∈ s.step (.stopDone 0 none),
      s'.log = s.log ++ [.reported "w" ⟨.stopped, some "stopped by control"⟩] ∧
      s'.records.map (·.proc) = [.exited]) (by decide +kernel)
  obtain ⟨s', hstep, hlog, hproc⟩ := hdone
  obtain ⟨new, hnew, hgone⟩ := stopped_means_gone hrun hstep
  obtain rfl := List.append_cancel_left (hnew.symm.trans hlog)
  exact ⟨s, s', hrun, hstep, hlog, hproc, hgone "w" _ List.mem_cons_self rfl⟩

end Runner

end Swarmlet.Agent
