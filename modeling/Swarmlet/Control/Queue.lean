import Swarmlet.Control.FleetAgreement
import Swarmlet.Control.Launches

/-!
# Operations and continuations are small steps

The head of a queue goes on only when no continuation of its deployment is due, so the moves that
settle it find at most one. A continuation runs after it has been taken off the list of jobs; what
the invariant said of it while it was due is what its moves need.

A fleet apply stops every deployment it names, then writes their specs, then starts them. It begins
while nothing is under way, so its stops are the first operations of their queues.
-/

namespace Swarmlet

open Js Checked

/-! ## The entries of a preview -/

theorem fleetId_ne {id : String} (h : fleetId id = true) : id ≠ "" := by
  rintro rfl
  exact absurd h (by decide)

theorem parseFleetRequest_ok {request : FleetRequest} (h : parseFleetRequest request = .ok ()) :
    (∀ id ∈ request.poolNodeIds, id ≠ "") ∧
      ∀ item ∈ request.items, ∀ p, item.mode = .manual p → p.Shaped := by
  unfold parseFleetRequest at h
  split_ifs at h with hbad
  refine ⟨fun id hid ↦ fleetId_ne ?_, fun item hitem p hmode ↦ ?_⟩
  · have hall : request.poolNodeIds.all fleetId = true := by
      simpa using (not_or.mp (not_or.mp (not_or.mp (not_or.mp hbad).2).2).2).2
    exact List.all_eq_true.mp hall id hid
  · have hparse := forM_ok h item hitem
    unfold parseFleetItem at hparse
    split_ifs at hparse
    simp only [hmode, parsePlacement] at hparse
    split_ifs at hparse with hreplica hsplit
    unfold FleetPlacement.Shaped
    cases hkind : p.kind with
    | replica => exact (not_not.mp fun hno ↦ hreplica ⟨hkind, hno⟩).2.1
    | split => exact (not_not.mp fun hno ↦ hsplit ⟨hkind, hno⟩).2.1

theorem planAttempt_spec {c : AttemptContext} {placement : FleetPlacement} {w : Winner}
    (h : planAttempt c placement = .ok w) :
    (∀ id ∈ placement.ids, ∃ x ∈ id, x ∈ c.pool) ∧
      ∃ budgets,
        w.spec = { placementSpec c.dep.spec placement with allocations := some budgets } := by
  obtain ⟨spec, hspec, h⟩ := bind_ok h
  obtain ⟨plan, -, h⟩ := bind_ok h
  cases h
  unfold budgetedSpec at hspec
  split_ifs at hspec with hpool
  obtain ⟨base, -, hspec⟩ := bind_ok hspec
  cases hspec
  refine ⟨fun id hid ↦ ?_, _, rfl⟩
  simp only [List.any_eq_true, not_exists, not_and, Bool.not_eq_true, Bool.not_eq_false'] at hpool
  simpa [Option.any_eq_true] using hpool id hid

theorem planAttempt_pinned {c : AttemptContext} (hpool : ∀ id ∈ c.pool, id ≠ "")
    {placement : FleetPlacement} (hshaped : placement.Shaped) {w : Winner}
    (h : planAttempt c placement = .ok w) : Control.pinsNodes w.spec = true := by
  obtain ⟨hids, budgets, hspec⟩ := planAttempt_spec h
  obtain ⟨x, hx, hmem⟩ := hids _ List.mem_cons_self
  have hne := hpool x hmem
  rw [hspec]
  unfold FleetPlacement.Shaped at hshaped
  cases hkind : placement.kind with
  | replica =>
    rw [hkind] at hshaped
    cases hreplica : placement.replicaNodeId with
    | none => simp [hshaped, hreplica] at hx
    | some y =>
      obtain rfl : y = x := by simpa [hreplica] using hx
      simpa [Control.pinsNodes, placementSpec, hkind, PlacementKind.kind, hreplica] using hne
  | split =>
    rw [hkind] at hshaped
    rw [hshaped, Option.orElse_none] at hx
    simp [Control.pinsNodes, placementSpec, hkind, PlacementKind.kind, Option.mem_def.mp hx, hne]

/-- An entry that brings a spec is for a planned deployment, keeps it one and fixes its nodes. -/
def FleetEntry.Planned (input : FleetInput) (e : FleetEntry) : Prop :=
  ∀ spec, e.spec = some spec → spec.kind.planned = true ∧ Control.pinsNodes spec = true ∧
    ∃ dep ∈ input.deployments, dep.id = e.deploymentId ∧ dep.spec.kind.planned = true

theorem placeItem_planned {c : FleetContext} (hpool : ∀ id ∈ c.pool, id ≠ "") {sharing : ℕ}
    {s : FleetState} {item : FleetItem} (hitem : ∀ p, item.mode = .manual p → p.Shaped)
    {dep : Deployment} (hdep : dep ∈ c.input.deployments)
    (hs : ∀ e ∈ s.entries, e.Planned c.input) :
    ∀ e ∈ (placeItem c sharing s item dep).entries, e.Planned c.input := by
  have hsnoc : ∀ {e : FleetEntry}, e.Planned c.input → ∀ e' ∈ s.entries ++ [e], e'.Planned
      c.input := by
    intro e he e' he'
    rcases List.mem_append.mp he' with he' | he'
    · exact hs e' he'
    · exact List.mem_singleton.mp he' ▸ he
  obtain ⟨_, e, -, -, hnone, heq⟩ | ⟨profile, w, _, -, hkind, hw, heq⟩ :=
    placeItem_cases c sharing s item dep <;> rw [heq]
  · exact hsnoc fun spec hspec ↦ nomatch hnone.symm.trans hspec
  · obtain ⟨placement, htries, hattempt⟩ := searchPlacement_found _ w hw
    obtain ⟨-, budgets, hw⟩ := planAttempt_spec hattempt
    refine hsnoc fun spec hspec ↦ ?_
    cases hspec
    refine ⟨?_, planAttempt_pinned hpool (htries.elim id (hitem placement)) hattempt, dep, hdep,
      rfl, by rcases hkind with hkind | hkind <;> rw [hkind] <;> rfl⟩
    rw [hw]
    show placement.kind.kind.planned = true
    cases placement.kind <;> rfl

theorem previewFleet_entries {rt : Runtime} {quals : List Qwen35NativeQualification}
    {request : FleetRequest} {input : FleetInput} {preview : FleetPreview}
    (hparse : parseFleetRequest request = .ok ())
    (h : previewFleet rt quals request input = .ok preview) :
    (preview.entries.map (·.deploymentId)).Nodup ∧ ∀ e ∈ preview.entries, e.Planned input := by
  obtain ⟨hpool, hmanual⟩ := parseFleetRequest_ok hparse
  obtain ⟨items, hitems, h⟩ := bind_ok h
  obtain ⟨_, -, h⟩ := bind_ok h
  simp only at h
  split at h
  · cases h
  rename_i best hbest
  cases h
  obtain ⟨sharing, -, hstate⟩ := List.mem_map.mp (better_mem hbest)
  have hplanned : ∀ e ∈ (placeAll (request.context rt quals input) sharing
      (sortBy (fleetOrder (request.context rt quals input)) items)).entries, e.Planned input := by
    refine List.foldlRecOn _ _
      (motive := fun s : FleetState ↦ ∀ e ∈ s.entries, e.Planned input) (by simp) fun s hs p hp ↦ ?_
    obtain ⟨hitem, -, hdep⟩ := selectedDeployments_mem hitems ((sortBy_perm _ _).mem_iff.mp hp)
    exact placeItem_planned hpool (hmanual p.1 hitem) hdep hs
  obtain ⟨-, hids, -⟩ := placeAll_placed (request.context rt quals input) sharing
    (sortBy (fleetOrder (request.context rt quals input)) items)
  rw [hstate] at hplanned hids
  have hperm : (best.entries.map (·.deploymentId)).Perm (request.items.map (·.deploymentId)) := by
    rw [hids, ← selectedDeployments_ids hitems]
    exact (sortBy_perm _ _).map _
  have hread := filterMap_find?_perm hperm request.distinctItems
  rw [List.filterMap_map] at hread
  exact ⟨((hread.map _).trans hperm).nodup_iff.mpr request.distinctItems,
    fun e he ↦ hplanned e (hread.mem_iff.mp he)⟩

theorem Job.Fleet.not_grave {j : Job} (h : j.Fleet) : ¬j.Grave := by
  intro hgrave
  cases j with
  | settled cont =>
    cases cont with
    | move origin => cases origin <;> simp_all [Job.Fleet, Job.Grave, Cont.Fleet, Cont.Grave]
    | _ => simp_all [Job.Fleet, Job.Grave, Cont.Fleet, Cont.Grave]
  | lateFailure => exact h

section

variable {k : Deps} {T : Terms} {s s' : Control} {d : DeploymentId}

namespace Control

/-! ## The head of a queue -/

theorem Good.mem_known_of_jobs (hs : s.Good) {j : Job} (hj : j ∈ (s.slots d).jobs) :
    d ∈ s.known := by
  by_contra hd
  have hjobs : (s.slots d).jobs = [] := (hs.unknown d hd).2.2.2
  simp [hjobs] at hj

theorem Good.mem_known_of_ops (hs : s.Good) {op : Op} {rest : List Op}
    (hops : (s.slots d).ops = op :: rest) : d ∈ s.known := by
  by_contra hd
  have := (hs.unknown d hd).2.2.1
  rw [view, view_ops_cons hops] at this
  cases this

theorem clear_of_not_any (h : ¬(s.slots d).jobs.any Job.isSettled = true) : (s.view d).Clear := by
  intro j hj
  simp only [List.any_eq_true, not_exists, not_and, Bool.not_eq_true] at h
  exact h j hj

variable {op : Op} {rest : List Op}

section

variable {x : Slot} {ids lost : List AssignmentId} {spec : DeploymentSpec} {t : FleetTask} {i : ℕ}

theorem setHead_micros (hx : x.view = s.view d) (hops : x.ops = op :: rest) {f : Op → Op}
    (hf : (f op).view = op.view) : Micros k T s (s.on d fun _ ↦ x.setHead f) := by
  refine Micros.book ?_
  rw [Slot.view_setHead hops, hf, ← view_ops_cons hops, ← hx]

theorem live_of_cleanupPending {abandon : Bool} {online : NodeId → Bool}
    (h : x.cleanupPending abandon online = []) {r : AssignmentRow} (hr : r ∈ x.rows)
    (hlive : r.live = true) : abandon = true ∧ online r.nodeId = false := by
  have hmem : r ∈ x.listAssignments := (sortBy_perm _ _).mem_iff.mpr hr
  have := List.filter_eq_nil_iff.mp h r hmem
  simpa [hlive] using this

section

variable (hs : s.Good) (hops : (s.slots d).ops = op :: rest) (hclear : (s.view d).Clear)

include hs hops hclear

theorem settleError_micros (error : String) : Micros k T s (s.on d (·.settle (.error error))) := by
  refine Micros.on (.inl (hs.mem_known_of_ops hops)) ?_
  rw [Slot.view_settle hops]
  exact .settleError error (view_ops_cons hops) hclear

theorem throwOp_micros (error : String) :
    Micros k T s (s.on d (·.throwOp k s.now op.work error)) := by
  cases hwork : op.work with
  | start dep generation =>
    by_cases hcurrent : (s.slots d).generation = generation
    · subst hcurrent
      refine Micros.on (.inl (hs.mem_known_of_ops hops)) ?_
      rw [Slot.throwOp, view_catchStart hops]
      have hcaught := Move.caught (k := k) (T := T) (c := s.ambient) (d := d) []
        (view_ops_cons hops) hwork hclear
      rw [List.append_nil] at hcaught
      exact hcaught
    · have hsettle : (s.on d (·.throwOp k s.now (.start dep generation) error)) =
          s.on d (·.settle (.error error)) := by
        simp only [on, Slot.throwOp, Slot.catchStart, if_neg hcurrent]
      rw [hsettle]
      exact settleError_micros hs hops hclear error
  | stop | teardown => exact settleError_micros hs hops hclear error

theorem tornDown_micros (hstand : op.phase.stand = .idle)
    (hpending : (s.slots d).cleanupPending op.work.abandons s.isOnline = [])
    (hfresh : s.fresh ids = true)
    (h : s.tornDown k d op.work ids lost = some s') : Micros k T s s' := by
  have hknown := hs.mem_known_of_ops hops
  cases hwork : op.work with
  | stop =>
    rw [hwork] at h hpending
    cases h
    refine Micros.on (f := fun x ↦ (x.update s.now fun dep ↦ { dep with state := .stopped }).settle
      (.ok ())) (.inl hknown) ?_
    rw [Slot.view_settle (x := (s.slots d).update s.now _) hops,
      Slot.view_update (g := fun f ↦ { f with state := .stopped }) fun _ ↦ rfl]
    refine .stopDone (view_ops_cons hops) hwork (fun r hr ↦ ?_) hclear
    obtain ⟨row, hrow, rfl⟩ := List.mem_map.mp hr
    by_contra hlive
    exact nomatch (live_of_cleanupPending hpending hrow (Bool.of_not_eq_false hlive)).1
  | teardown =>
    rw [hwork] at h
    cases h
    refine Micros.on (.inl hknown) ?_
    rw [Slot.view_settle hops]
    exact .teardownDone (view_ops_cons hops) hwork hclear
  | start =>
    rw [hwork] at h
    unfold tornDown at h
    dsimp only at h
    split_ifs at h with hrunning
    · obtain ⟨launched, hl, rfl⟩ := Option.map_eq_some_iff.mp h
      simp only [Slot.assertRunning, Bool.and_eq_true, decide_eq_true_eq] at hrunning
      obtain ⟨hrunning, rfl⟩ := hrunning
      rw [← hwork]
      refine launch_micros hs ⟨⟨hknown, hops, hwork, hrunning, hclear⟩, hstand, fun r hr hlive ↦ ?_,
        hfresh⟩ hl
      exact (live_of_cleanupPending hpending hr hlive).2
    · cases h
      rw [← hwork]
      exact throwOp_micros hs hops hclear _

theorem reached_micros {target : Target} (hstand : op.phase.stand = .awaiting target [])
    (hfresh : s.fresh ids = true) (h : s.reached k d op.work target ids lost = some s') :
    Micros k T s s' := by
  have hknown := hs.mem_known_of_ops hops
  cases hwork : op.work with
  | stop | teardown =>
    rw [hwork] at h
    cases h
  | start dep =>
    rw [hwork] at h
    unfold reached at h
    dsimp only at h
    split_ifs at h with hrunning
    · cases h
      rw [← hwork]
      exact throwOp_micros hs hops hclear _
    · simp only [Slot.assertRunning, Bool.not_eq_false, Bool.and_eq_true, decide_eq_true_eq]
        at hrunning
      obtain ⟨hrunning, rfl⟩ := hrunning
      cases target with
      | workers plan coord workers =>
        obtain ⟨launched, hl, rfl⟩ := Option.map_eq_some_iff.mp h
        have hmem : op.view ∈ (s.view d).ops := by
          rw [view, view_ops_cons hops]
          exact List.mem_cons_self
        obtain ⟨-, hid, f, hf, -⟩ := (hs.slots d).queue.snapshot op.view hmem dep _ hwork
        obtain ⟨r, hdep, -⟩ := Option.map_eq_some_iff.mp hf
        obtain ⟨-, -, hcoord, hnative, -⟩ :=
          ((hs.slots d).start op.view hmem).waiting dep hwork plan coord workers [] hstand
        rw [← hwork]
        refine startCoordinator_micros hs ⟨hknown, hops, hwork, hrunning, hclear⟩ hfresh hdep hid
          hstand ?_ hl
        rw [hcoord, planNodes, hnative]
        exact List.mem_cons_self
      | route endpoint =>
        cases h
        refine Micros.on (f := fun x ↦ (x.update s.now fun dep ↦
          { dep with state := .ready, endpoint := some endpoint }).settle (.ok ())) (.inl hknown) ?_
        rw [Slot.view_settle (x := (s.slots d).update s.now _) hops,
          Slot.view_update (g := fun f ↦ { f with state := .ready, endpoint := some endpoint })
            fun _ ↦ rfl]
        exact .ready (view_ops_cons hops) hwork hstand hrunning hclear

end

/-- **A piece of an operation is a sequence of small steps.** -/
theorem opStep_micros (hs : s.Good) (hfresh : s.fresh ids = true)
    (h : s.opStep k d ids lost = some s') : Micros k T s s' := by
  unfold opStep at h
  dsimp only at h
  split_ifs at h with hsettled
  have hclear := clear_of_not_any hsettled
  split at h
  · cases h
  rename_i op rest hops
  have hthrow := throwOp_micros (k := k) (T := T) hs hops hclear
  have hgoto : ∀ {phase : Phase}, phase.stand = op.phase.stand →
      Micros k T s (s.on d (·.setHead fun op ↦ { op with phase })) := fun hphase ↦
    setHead_micros rfl hops (by simp only [Op.view, hphase])
  -- One row of a teardown: only the retired mark of a row and the wait change.
  have htear : ∀ {phase : Option Wait → Phase} (r : AssignmentRow),
      (∀ wait, (phase wait).stand = op.phase.stand) →
      Micros k T s (s.on d fun x ↦ s.tearRow k x op.work.abandons r phase) := fun r hphase ↦
    setHead_micros (Slot.view_retireAssignment (s.slots d) r.id)
      (show ((s.slots d).retireAssignment r.id).ops = op :: rest from hops)
      (by simp only [Op.view, hphase])
  split at h <;> rename_i hphase
  · cases h
    exact hgoto (by rw [hphase]; rfl)
  · split_ifs at h
    cases h
    exact hgoto (by rw [hphase]; rfl)
  · cases h
    exact htear _ fun _ ↦ by rw [hphase]; rfl
  · split at h
    · rename_i hpending
      exact tornDown_micros hs hops hclear (by rw [hphase]; rfl) hpending hfresh h
    · cases h
      exact hthrow _
  · split at h
    · cases h
      exact hthrow _
    · exact reached_micros hs hops hclear (by rw [hphase]; rfl) hfresh h
    · split_ifs at h
      cases h
      exact hthrow _
  · split_ifs at h
    cases h
    exact hgoto (by rw [hphase]; rfl)
  · cases h
    exact htear _ fun _ ↦ by rw [hphase]; rfl
  · cases h
    exact settleError_micros hs hops hclear _

/-! ## Continuations -/

theorem applyFailed_micros (e : String) : Micros k T s (s.applyFailed d e) := by
  refine Micros.book ?_
  have hface : ∀ dep : Deployment,
      ({ dep with error := some s!"Apply distribution: Error: {e}" } : Deployment).face =
      dep.face :=
    fun _ ↦ rfl
  exact (s.slots d).view_update_same hface s.now

theorem applySpec_steps (hs : s.Good) (hname : T.names d)
    (hold : ∀ f, (s.view d).face = some f → f.spec.kind.planned = true)
    (hnew : spec.kind.planned = true) (hops : ∀ o ∈ (s.view d).ops, o.work.isStart = false)
    (hfleet : s.fleet.isSome = true → T.fleet) : Steps k T s (s.on d (applySpec s.now spec)) := by
  cases hdep : (s.slots d).dep with
  | none =>
    refine Steps.book (.of_eq rfl rfl) ?_
    simp [applySpec, Slot.update, Slot.view, Control.view, hdep]
  | some =>
    refine Steps.on (.of_eq rfl rfl) (.inl (hs.mem_known hdep)) ?_
    have hface := Slot.face_of_dep hdep
    have hview : (applySpec s.now spec (s.slots d)).view = { s.view d with
        face := some { spec, state := .planned, plan := none, endpoint := none } } := by
      simp [applySpec, Slot.update, Slot.view, Control.view, hdep, Deployment.face]
    rw [hview]
    exact .applySpec spec hface hname (hold _ hface) hnew hops hfleet

theorem distributionStopped_micros (hs : s.Good) {generation : ℕ}
    (hjobs : (s.slots d).jobs = []) (hname : (s.slots d).generation = generation → T.names d)
    (hfits : (Cont.distribution spec generation).Fits (s.view d))
    (hops : ∀ o ∈ (s.view d).ops, o.Behind) (hfleet : s.fleet = none) :
    Micros k T s (s.distributionStopped k d spec generation) := by
  unfold distributionStopped
  split_ifs with hgen
  · exact applyFailed_micros _
  have hname := hname (not_ne_iff.mp hgen)
  have htouch : Rest k T d s (s.planTouch k d spec) := .planTouch spec
  dsimp only
  generalize s.planTouch k d spec = s₁ at htouch ⊢
  refine htouch.micros.trans ?_
  have hs₁ := htouch.micros.good hs
  split
  · exact applyFailed_micros _
  · have hspec : Steps k T s₁ (s₁.on d (applySpec s₁.now spec)) := by
      refine applySpec_steps hs₁ hname (fun f hf ↦ ?_) hfits.2.1 ?_ ?_
      · obtain ⟨r, hr, rfl⟩ := Option.map_eq_some_iff.mp hf
        exact htouch.planned (fun r hr ↦ hfits.2.2 _ (Slot.face_of_dep hr)) r hr
      · rw [htouch.view_ops]
        exact fun o ho ↦ (hops o ho).work
      · simp [htouch.fleet, hfleet]
    generalize s₁.on d (applySpec s₁.now spec) = s₂ at hspec ⊢
    have hstart : Steps k T s₂ (s₂.start k d false false false .applied).1 := by
      refine start_steps (hspec.micros.good hs₁) ?_ (.inr hname) (.inr (.inr (.inl rfl))) (by simp)
      simp [(hspec.still d).jobs, (htouch.still d).jobs, hjobs]
    refine hspec.micros.trans ?_
    rcases hresult : s₂.start k d false false false .applied with ⟨s₃, _ | e⟩
    · rw [hresult] at hstart
      exact hstart.micros
    · rw [hresult] at hstart
      exact hstart.micros.trans (applyFailed_micros e)

/-! ## The fleet apply around the deployments -/

theorem fleet_micros {runs : List FleetRun} {fleet : Option FleetTask}
    (hruns : ∀ run ∈ runs, s.EntriesGood run.entries) (happlies : fleet = s.fleet ∨ T.fleet)
    (hfleet : ∀ t' ∈ fleet,
      (∃ t ∈ s.fleet, t'.run.entries = t.run.entries ∧
      (t'.isStopping = true → t.isStopping = true)) ∨ s.EntriesGood t'.run.entries ∧
      (∀ e ∈ t'.run.entries, T.names e.deploymentId) ∧
        ∀ d, (s.view d).ops = [] ∧ (s.view d).jobs = []) :
    Micros k T s { s with runs, fleet } :=
  .single (.around _ {
    slots := rfl
    known := rfl
    now := le_rfl
    heard := List.Subset.refl _
    offers := offers_refl _
    lost := fun _ hn hn' ↦ nomatch hn.symm.trans hn'
    lease := .inl rfl
    applies := happlies
    runs := hruns
    fleet := hfleet })

theorem saveRun_good (hs : s.Good) (run : FleetRun) (hrun : s.EntriesGood run.entries) :
    ∀ run' ∈ (s.saveRun run).runs, s.EntriesGood run'.entries := by
  intro run' hmem
  rcases List.mem_cons.mp hmem with rfl | hmem
  · exact hrun
  · exact hs.runs run' (List.mem_of_mem_filter hmem)

theorem fleetDone_micros (hs : s.Good) {run : FleetRun} (hrun : s.EntriesGood run.entries)
    (status : RunStatus) (hfleet : T.fleet) : Micros k T s (s.fleetDone run status) :=
  fleet_micros (saveRun_good hs { run with status } hrun) (.inr hfleet) (by simp)

theorem setFleet_micros (hs : s.Good) {t' : FleetTask} (ht : s.fleet = some t)
    (hrun : t'.run.entries = t.run.entries) (hstop : t'.isStopping = true → t.isStopping = true)
    (hfleet : T.fleet) : Micros k T s { s with fleet := some t' } := by
  refine fleet_micros hs.runs (.inr hfleet) fun u hu ↦ .inl ⟨t, ht, ?_⟩
  obtain rfl := Option.mem_some_iff.mp hu
  exact ⟨hrun, hstop⟩

theorem mapFleet_micros (hs : s.Good) {f : FleetTask → FleetTask}
    (hf : ∀ t, (f t).run = t.run ∧ ((f t).isStopping = true → t.isStopping = true))
    (hfleet : T.fleet) : Micros k T s { s with fleet := s.fleet.map f } := by
  refine fleet_micros hs.runs (.inr hfleet) fun u hu ↦ ?_
  obtain ⟨t, ht, rfl⟩ := Option.map_eq_some_iff.mp hu
  exact .inl ⟨t, ht, by rw [(hf t).1], (hf t).2⟩

theorem fleetHeard_micros (hs : s.Good) (result : Except String Unit) (hfleet : T.fleet) :
    Micros k T s (s.fleetHeard d result) := by
  refine mapFleet_micros hs (fun t ↦ ?_) hfleet
  obtain ⟨run, stage, ready⟩ := t
  cases stage <;> cases result <;> simp [FleetTask.isStopping]

theorem continueOp_micros (hs : s.Good) {cont : Cont} {result : Except String Unit}
    {sent : List AssignmentId} {excluded : List NodeId}
    (hj : (s.slots d).jobs[i]? = some (.settled cont result sent excluded))
    (hname : ∀ spec generation, cont = .distribution spec generation →
      (s.slots d).generation = generation → T.names d)
    (hfleet : cont = .fleetStop ∨ cont = .fleetStart → T.fleet) :
    Micros k T s ((s.on d fun x ↦ { x with jobs := x.jobs.eraseIdx i }).continueOp k d cont
    result) := by
  have hmem : Job.settled cont result sent excluded ∈ (s.view d).jobs := List.mem_of_getElem? hj
  have hknown : d ∈ s.known := hs.mem_known_of_jobs hmem
  set s₁ := s.on d fun x ↦ { x with jobs := x.jobs.eraseIdx i } with hs₁
  have hpop : Micros k T s s₁ :=
    Micros.on (.inl hknown) (.popJob i fun result' sent' excluded' hj' ↦ by
      cases hj.symm.trans hj'
      exact hfleet (.inl rfl))
  have hgood := hpop.good hs
  have hempty : cont ≠ .remove → (s₁.slots d).jobs = [] := fun hcont ↦ by
    rw [hs₁, slots_on_self]
    refine List.eq_nil_iff_forall_not_mem.mpr fun j hj' ↦ ?_
    cases j with
    | settled => exact nomatch not_of_mem_eraseIdx (hs.slots d).queue.one hj rfl _ hj'
    | lateFailure why =>
      exact hcont ((hs.slots d).queue.late why (List.mem_of_mem_eraseIdx hj') cont result sent
        excluded hmem)
  have hops : (s₁.view d).ops = (s.view d).ops := by
    rw [hs₁, view_on_self]
    rfl
  have hbehind : cont.Grave → ∀ o ∈ (s.view d).ops, o.Behind := (hs.slots d).queue.grave _ hmem
  unfold continueOp
  split
  · exact hpop
  · exact hpop
  · rename_i origin error
    refine hpop.trans (moveFailed_micros ⟨hgood, hempty (by simp)⟩ hknown origin ?_
      (fun hfleet ↦ ?_) fun horigin ↦ ?_)
    · rw [hs₁, slots_on_self]
      refine ((hs.slots d).intent.refused origin error sent excluded hmem).imp id fun hne hnil ↦ ?_
      exact hne (by rw [view, Slot.view, hnil]; rfl)
    · have := (hs.conts hfleet d).2 _ hmem
      cases origin with
      | other => rfl
      | expired => cases this
    · rw [hops]
      cases origin with
      | other => exact absurd rfl horigin
      | expired => exact hbehind trivial
  · rename_i spec generation _
    refine hpop.trans (distributionStopped_micros hgood (hempty (by simp)) ?_ ?_ ?_ ?_)
    · rw [hs₁, slots_on_self]
      exact hname spec generation rfl
    · rw [hs₁, view_on_self]
      exact (hs.slots d).queue.fitsJobs _ _ _ _ hmem
    · rw [hops]
      exact hbehind trivial
    · -- A fleet apply begins only when no distribution is under way.
      by_contra hsome
      exact (hs.conts (Option.isSome_iff_ne_none.mpr hsome) d).2 _ hmem
  · exact hpop.trans (applyFailed_micros _)
  · exact hpop.trans (Micros.book rfl)
  · exact hpop.trans (applyFailed_micros _)
  · rw [hs₁, on_on]
    exact Micros.on (.inl hknown) (.removed i sent excluded hj)
  · exact hpop
  · exact hpop.trans (fleetHeard_micros hgood _ (hfleet (.inl rfl)))
  · exact hpop.trans (fleetHeard_micros hgood _ (hfleet (.inr rfl)))

/-- **A continuation is a sequence of small steps.** A distribution that is still current is one the
event names. -/
theorem runJob_micros (hs : s.Good) (hname : ∀ spec generation result sent excluded,
      (s.slots d).jobs[i]? = some (.settled (.distribution spec generation) result sent excluded) →
      (s.slots d).generation = generation → T.names d)
    (hfleet : ∀ cont result sent excluded,
      (s.slots d).jobs[i]? = some (.settled cont result sent excluded) →
      cont = .fleetStop ∨ cont = .fleetStart → T.fleet)
    (h : s.runJob k d i = some s') : Micros k T s s' := by
  unfold runJob at h
  cases hj : (s.slots d).jobs[i]? with
  | none =>
    rw [hj] at h
    cases h
  | some job =>
    rw [hj] at h
    cases job with
    | settled cont result sent excluded =>
      cases h
      refine continueOp_micros hs hj (fun spec generation hcont ↦ ?_)
        (hfleet cont result sent excluded hj)
      subst hcont
      exact hname spec generation result sent excluded hj
    | lateFailure why =>
      cases h
      rw [on_on]
      refine Micros.on (.inl (hs.mem_known_of_jobs (List.mem_of_getElem? hj))) ?_
      rw [Slot.view_recordFailure]
      exact .late i why hj

/-! ## The steps of a fleet apply -/

theorem applyFleetSpecs_steps (hs : s.Good) (ht : s.fleet = some t)
    (hstop : t.isStopping = true) (hnames : ∀ e ∈ t.run.entries, T.names e.deploymentId)
    (hfleet : T.fleet) : Steps k T s (s.applyFleetSpecs t.run.entries) := by
  refine .foldl t.run.entries hs fun s' hs' hsteps e he ↦ ?_
  have ht' : s'.fleet = some t := hsteps.fleet.trans ht
  cases hspec : e.spec with
  | none => exact .refl s'
  | some spec =>
    obtain ⟨hnew, -, hold⟩ := (hs'.task t ht').planned e he spec hspec
    exact applySpec_steps hs' (hnames e he) hold hnew (hs'.stopping t ht' hstop e.deploymentId)
      fun _ ↦ hfleet

end

/-- **A fleet apply goes on in small steps.** -/
theorem fleetStep_micros (hs : s.Good)
    (hnames : ∀ t ∈ s.fleet, ∀ e ∈ t.run.entries, T.names e.deploymentId) (happlies : T.fleet)
    (h : s.fleetStep k = some s') : Micros k T s s' := by
  unfold fleetStep at h
  cases hfleet : s.fleet with
  | none =>
    rw [hfleet] at h
    cases h
  | some t =>
    rw [hfleet] at h
    have hentries := hs.task t hfleet
    dsimp only at h
    split at h
    · cases h
    · rename_i failures hstage
      have hstop : t.isStopping = true := by simp [FleetTask.isStopping, hstage]
      split_ifs at h
      · cases h
        exact fleetDone_micros hs hentries _ happlies
      · split at h
        · cases h
          exact fleetDone_micros hs hentries _ happlies
        · cases h
          have hspecs : Steps k T s (s.applyFleetSpecs t.run.entries) :=
            applyFleetSpecs_steps hs hfleet hstop (hnames t hfleet) happlies
          exact hspecs.micros.trans (setFleet_micros (hspecs.micros.good hs)
            (hspecs.fleet.trans hfleet) rfl (fun _ ↦ hstop) happlies)
    · cases h
      exact fleetDone_micros hs hentries _ happlies
    · cases h
    · rename_i next active due hstage
      have hstop : t.isStopping = false := by simp [FleetTask.isStopping, hstage]
      split at h
      · cases h
        exact setFleet_micros hs hfleet rfl (by simp [FleetTask.isStopping]) happlies
      · rename_i entry hentry
        have hstart :
            Steps k T s (s.start k entry.deploymentId false true false .fleetStart).1 := by
          refine start_steps hs (fun j hj ↦ ?_)
            (.inr (hnames t hfleet entry (List.mem_of_getElem? hentry)))
            (.inr (.inr (.inr rfl))) fun _ ↦ ⟨⟨happlies, rfl⟩, fun t' ht' ↦ ?_⟩
          · exact ((hs.conts (by rw [hfleet]; rfl) entry.deploymentId).2 j hj).not_grave
          · obtain rfl := Option.mem_unique hfleet ht'
            exact hstop
        split at h
        all_goals
          rename_i s₁ _ hresult
          rw [hresult] at hstart
          cases h
          exact hstart.micros.trans (setFleet_micros (hstart.micros.good hs)
            (hstart.fleet.trans hfleet) rfl (by simp [FleetTask.isStopping]) happlies)

/-! ## The stops of a fleet apply -/

theorem stop_local (token : Bool) (cont : Cont) : Local d s (s.stop d token cont).1 := by
  unfold stop
  split_ifs
  · exact .refl d s
  · split
    · exact .refl d s
    · exact Local.on d s fun x ↦ x.acceptStop s.now cont

theorem drain_steps (l : List FleetEntry) (hs : s.Good) (hidle : ∀ d, (s.slots d).ops = [])
    (hnames : ∀ e ∈ l, T.names e.deploymentId) (hfleet : s.fleet = none) :
    let s' := l.foldl (fun s e ↦ s.on e.deploymentId
      (·.update s.now fun dep ↦ { dep with state := .draining, endpoint := none })) s
    Steps k T s s' ∧ (∀ d, (s'.slots d).ops = []) ∧ s'.runs = s.runs := by
  induction l generalizing s with
  | nil => exact ⟨.refl s, hidle, rfl⟩
  | cons e l ih =>
    have hview : ((s.slots e.deploymentId).update s.now fun dep ↦
        { dep with state := .draining, endpoint := none }).view =
        (s.view e.deploymentId).setState .draining := Slot.view_update_state (fun _ ↦ rfl) _ _
    have hstep : Steps k T s (s.on e.deploymentId
        (·.update s.now fun dep ↦ { dep with state := .draining, endpoint := none })) := by
      refine Steps.on (.of_eq rfl rfl) ?_ ?_
      · by_cases hknown : e.deploymentId ∈ s.known
        · exact .inl hknown
        · refine .inr (hview.trans ?_)
          simp only [View.setState, (hs.unknown _ hknown).1, Option.map_none]
          rw [← (hs.unknown _ hknown).1]
      · rw [hview]
        exact .drain (hnames e List.mem_cons_self) (by simp [view, Slot.view, hidle]) hfleet
    have hidle' : ∀ d, ((s.on e.deploymentId (·.update s.now fun dep ↦
        { dep with state := .draining, endpoint := none })).slots d).ops = [] := fun d ↦
      slots_on_cases (P := fun x ↦ x.ops = []) (fun _ ↦ hidle d) (hidle d)
    obtain ⟨hsteps, hops, hruns⟩ := ih (hstep.micros.good hs) hidle'
      (fun e' he' ↦ hnames e' (List.mem_cons_of_mem e he')) hfleet
    exact ⟨hstep.trans hsteps, hops, hruns⟩

theorem fleetStop_micros (hs : s.Good) {e : FleetEntry} (hops : (s.slots e.deploymentId).ops = [])
    (hjobs : (s.slots e.deploymentId).jobs = []) (hname : T.names e.deploymentId)
    (hfleet : T.fleet) : Micros k T s (s.fleetStop e) ∧
      ∀ d, d ≠ e.deploymentId → (s.fleetStop e).slots d = s.slots d := by
  have hstop : Steps k T s (s.stop e.deploymentId true .fleetStop).1 :=
    stop_steps hs (.inr (.inr ⟨hops, hjobs, hname, .inl rfl⟩)) fun _ ↦ ⟨hfleet, rfl⟩
  have hlocal := stop_local (s := s) (d := e.deploymentId) true .fleetStop
  unfold fleetStop
  dsimp only
  split
  all_goals
    rename_i s₁ _ hresult
    rw [hresult] at hstop hlocal
    refine ⟨hstop.micros.trans (mapFleet_micros (hstop.micros.good hs) (fun t ↦ ?_) hfleet),
      fun d hd ↦ hlocal.slots_of_ne hd⟩
    obtain ⟨run, stage, ready⟩ := t
    cases stage <;> simp [FleetTask.isStopping]

theorem fleetStops_micros {l : List FleetEntry} (hl : (l.map (·.deploymentId)).Nodup) (hs : s.Good)
    (hidle : ∀ e ∈ l, (s.slots e.deploymentId).ops = [] ∧ (s.slots e.deploymentId).jobs = [])
    (hnames : ∀ e ∈ l, T.names e.deploymentId) (hfleet : T.fleet) :
    Micros k T s (l.foldl fleetStop s) := by
  induction l generalizing s with
  | nil => exact .refl
  | cons e l ih =>
    obtain ⟨hnot, hl⟩ := List.nodup_cons.mp hl
    obtain ⟨hops, hjobs⟩ := hidle e List.mem_cons_self
    obtain ⟨hmicros, hother⟩ := fleetStop_micros hs hops hjobs
      (hnames e List.mem_cons_self) hfleet
    refine hmicros.trans (ih hl (hmicros.good hs) (fun e' he' ↦ ?_)
      (fun e' he' ↦ hnames e' (List.mem_cons_of_mem e he')))
    have hne : e'.deploymentId ≠ e.deploymentId := fun heq ↦
      hnot (List.mem_map.mpr ⟨e', he', heq⟩)
    rw [hother _ hne]
    exact hidle e' (List.mem_cons_of_mem e he')

theorem Good.ops_of_idle (hs : s.Good)
    (h : ¬s.known.any (fun d ↦ s.operating d || (s.slots d).distributing ||
      (s.slots d).reconnecting.isSome) = true) (d : DeploymentId) : (s.slots d).ops = [] := by
  by_cases hd : d ∈ s.known
  · simp only [List.any_eq_true, not_exists, not_and, Bool.or_eq_true, not_or,
      Bool.not_eq_true] at h
    exact ops_eq_nil_of_not_operating (h d hd).1.1
  · exact List.map_eq_nil_iff.mp (hs.unknown d hd).2.2.1

/-- **The beginning of a fleet apply is a sequence of small steps.** -/
theorem applyAllocation_micros (hs : s.Good) (hjobs : ∀ d ∈ s.known, (s.slots d).jobs = [])
    (id : String)
    (hnames : ∀ run, s.runs.find? (·.id = id) = some run →
    ∀ e ∈ run.entries, T.names e.deploymentId) (hfleet : T.fleet) :
    Micros k T s (s.applyAllocation k id) := by
  unfold applyAllocation
  split
  · exact .refl
  rename_i run hrun
  have hnames := hnames run hrun
  split_ifs with hskip
  · exact .refl
  split
  · exact .refl
  have hentries : s.EntriesGood run.entries := hs.runs run (List.mem_of_find?_eq_some hrun)
  have hidle : ∀ d, (s.slots d).ops = [] ∧ (s.slots d).jobs = [] := by
    intro d
    refine ⟨hs.ops_of_idle (not_or.mp (not_or.mp (not_or.mp (not_or.mp hskip).2).2).2).1 d, ?_⟩
    by_cases hd : d ∈ s.known
    · exact hjobs d hd
    · exact (hs.unknown d hd).2.2.2
  have hfree : s.fleet = none := by simpa using (not_or.mp (not_or.mp hskip).2).1
  dsimp only
  -- The run is stored as applying before anything else.
  have hsave : Micros k T s (s.saveRun { run with status := .applying }) :=
    fleet_micros (saveRun_good hs { run with status := .applying } hentries) (.inl rfl)
      fun t ht ↦ .inl ⟨t, ht, rfl, fun h ↦ h⟩
  have hs₁ := hsave.good hs
  have hmem : { run with status := .applying } ∈
    (s.saveRun { run with status := .applying }).runs :=
    List.mem_cons_self
  obtain ⟨hdrain, hops, hruns⟩ := drain_steps (k := k) run.entries hs₁
    (fun d ↦ (hidle d).1) hnames hfree
  rw [← hruns] at hmem
  have hjobs₂ := fun d ↦ (hdrain.still d).jobs.trans (hidle d).2
  generalize (run.entries.foldl (fun s e ↦ s.on e.deploymentId
    (·.update s.now fun dep ↦ { dep with state := .draining, endpoint := none }))
    (s.saveRun { run with status := .applying })) = s₂ at hdrain hops hjobs₂ hmem ⊢
  have hs₂ := hdrain.micros.good hs₁
  have hentries₂ := hs₂.runs _ hmem
  have hbegin : Micros k T s₂ { s₂ with fleet := some ⟨{ run with status := .applying },
    .stopping [] [], []⟩ } := by
    refine fleet_micros hs₂.runs (.inr hfleet) fun t ht ↦ ?_
    obtain rfl := Option.mem_some_iff.mp ht
    exact .inr ⟨hentries₂, hnames, fun d ↦ ⟨by simp [view, Slot.view, hops d], hjobs₂ d⟩⟩
  refine hsave.trans (hdrain.micros.trans (hbegin.trans
    (fleetStops_micros hentries.distinct (hbegin.good hs₂) (fun e _ ↦ ⟨hops _, hjobs₂ _⟩) hnames
      hfleet)))

theorem previewAllocation_micros (hs : s.Good) (id : String) (request : FleetRequest) :
    Micros k T s (s.previewAllocation k id request) := by
  unfold previewAllocation
  split_ifs
  · exact .refl
  · split
    · exact .refl
    · rename_i preview hpreview
      obtain ⟨_, hparse, hpreview⟩ := bind_ok hpreview
      obtain ⟨hdistinct, hplanned⟩ := previewFleet_entries hparse hpreview
      refine fleet_micros (saveRun_good hs _ ⟨hdistinct,
        fun e he spec hspec ↦ (hplanned e he spec hspec).2.1, fun e he spec hspec ↦ ?_⟩) (.inl rfl)
        fun t ht ↦ .inl ⟨t, ht, rfl, fun h ↦ h⟩
      obtain ⟨hkind, -, dep, hdep, hid, hold⟩ := hplanned e he spec hspec
      obtain ⟨d, hd, hget⟩ := List.mem_filterMap.mp hdep
      obtain ⟨r, hr, rfl⟩ := getDeployment_some hget
      refine ⟨hkind, hid ▸ hd, fun f hf ↦ ?_⟩
      rw [← hid, view, Slot.face_of_dep hr] at hf
      cases hf
      exact hold

end Control

end

end Swarmlet
