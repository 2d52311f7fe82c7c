import Swarmlet.Control.Routing

/-!
# A fleet apply is all or nothing

An apply of several deployments first stops them all, then writes all their specs in one
transaction, then starts them. Between these points other events go on: messages of agents, timers,
requests, the end of the process.

## Why the specs stay together

While the apply waits for its stops, the deployments it selects are not to run, so the automatic
choice of a model leaves them alone; afterwards their specs fix their nodes, and the choice leaves
those alone too. The specs are written in one step, which comes after every stop has settled well. A
stop settles well only when every row was acknowledged, and no row is added before the apply itself
starts something, because a request without the apply's token is refused.
-/

namespace Swarmlet

open Js EventMachine

def Control.specOf (s : Control) (d : DeploymentId) : Option DeploymentSpec :=
  (s.slots d).dep.map (·.spec)

/-- An apply of the entries of a run began in `s₀`, and is under way. -/
inductive Applying (k : Deps) (s₀ : Control) (entries : List FleetEntry) : Control → Prop
  | begin {id : String} {run : FleetRun} {s : Control} (hidle : s₀.fleet = none)
      (hrun : s₀.runs.find? (·.id = id) = some run) (hentries : run.entries = entries)
      (hstep : step k s₀ (.applyAllocation id) = some s) (hon : s.fleet.isSome = true) :
      Applying k s₀ entries s
  | next {s s' : Control} {e : Event} (h : Applying k s₀ entries s) (hstep : step k s e = some s')
      (hon : s'.fleet.isSome = true) : Applying k s₀ entries s'

section

variable {k : Deps} {T : Terms} {c : Ambient} {d : DeploymentId} {e : Surroundings} {v w : View}
  {s s' s₀ : Control} {entries : List FleetEntry}

/-! ## Only the apply's own operations -/

def OpView.Own (o : OpView) : Prop :=
  o.work = .teardown ∨ o.cont = .fleetStop ∨ o.cont = .fleetStart

private theorem own_of_task_eq {ops ops' : List OpView}
    (h : ops'.map OpView.task = ops.map OpView.task) (hops : ∀ o ∈ ops, o.Own) :
    ∀ o ∈ ops', o.Own := by
  intro o ho
  obtain ⟨p, hp, hw, hc⟩ := exists_of_task_eq h ho
  rw [OpView.Own, ← hw, ← hc]
  exact hops p hp

theorem Move.own (h : Move k T c d v w) (hfleet : c.fleet.isSome = true)
    (hops : ∀ o ∈ v.ops, o.Own) : ∀ o ∈ w.ops, o.Own := by
  cases h with
  | heard => exact own_of_task_eq v.task_hear hops
  | caught excluded hqueue => exact own_of_task_eq (by rw [hqueue]; rfl) hops
  | _ => grind [View.settle, View.setRowState, View.expire, View.block, View.setState,
      View.setReady, View.halt, OpView.Own]

/-- During an apply everything that is queued is its own, or a cleanup. -/
def Control.Own (s : Control) : Prop :=
  s.fleet.isSome = true → ∀ d, ∀ o ∈ (s.view d).ops, o.Own

theorem Micro.own (hm : Micro k T s s') (hs : s.Own) : s'.Own := by
  intro hfleet
  by_cases hwas : s.fleet.isSome = true
  · exact hm.slotwise (P := fun _ v ↦ ∀ o ∈ v.ops, o.Own) (hs hwas)
      (fun d _ h ↦ h.own hwas (hs hwas d)) (fun d _ h ↦ own_of_task_eq h.same.1 (hs hwas d))
      (fun _ _ _ ↦ by simp [View.created]) fun _ _ _ h ↦ by simp [h.ops]
  · -- An apply begins only where nothing is queued.
    intro d
    cases hm with
    | around s' h =>
      obtain ⟨t', ht'⟩ := Option.isSome_iff_exists.mp hfleet
      rcases h.fleet t' ht' with ⟨t, ht, -⟩ | ⟨-, -, hidle⟩
      · exact absurd (Option.isSome_iff_exists.mpr ⟨t, ht⟩) hwas
      · have hnil : (s.slots d).view.ops = [] := (hidle d).1
        rw [Control.view, h.slots]
        simp [hnil]
    | restart s' hknown hslots hnow hheard hpresent hlease hnone => simp [hnone] at hfleet
    | _ => exact absurd hfleet hwas

/-! ## What keeps a spec -/

/-- The automatic choice leaves a deployment alone that fixes its nodes or is not to run. -/
def View.Settled (v : View) : Prop :=
  ∀ f, v.face = some f → Control.pinsNodes f.spec = true ∨ v.running = false

theorem Move.spec_same (h : Move k T c d v w) (hfleet : c.fleet.isSome = true) (hacts : ¬T.fleet)
    (hjobs : ∀ j ∈ v.jobs, j.Fleet) (hv : v.Settled) :
    w.face.map (·.spec) = v.face.map (·.spec) := by
  cases h with
  | @respec f spec hface hops hold hnew hpins hrunning =>
    rcases hv f hface with hpinned | hstopped
    · cases hpinned.symm.trans hpins
    · cases hrunning.symm.trans hstopped
  | removed i sent excluded hj => exact (hjobs _ (List.mem_of_getElem? hj)).elim
  | applySpec spec hface hname hold hnew hops happlies => exact absurd (happlies hfleet) hacts
  | _ => simp [View.settle, View.setRowState, View.hear, View.expire, View.block, View.setState,
      View.setReady, View.halt, Function.comp_def]

theorem Dispatch.spec_same (h : Dispatch d e v w) : w.face.map (·.spec) = v.face.map (·.spec) := by
  cases h <;> simp [*]

theorem Dispatch.exists_start (h : Dispatch d e v w) : ∃ o ∈ v.ops, o.work.isStart = true := by
  cases h with
  | planned plan state rows stand excluded hface hops hwork
  | coordinator rows stand hface hops hwork | watch rows stand excluded hface hops hwork =>
    exact ⟨_, hops ▸ List.mem_cons_self, by rw [hwork]; rfl⟩

/-! ## The stop of one deployment -/

def View.Halted (heard : List Heard) (v : View) : Prop :=
  ∀ r ∈ v.rows, ⟨r.nodeId, r.id, .stopped⟩ ∈ heard

/-- How far a fleet apply's stop of a deployment has come: it is queued, or has settled and waits to
be heard, or it failed, or every row was acknowledged. -/
structure View.Stops (pending failed : Prop) (heard : List Heard) (v : View) : Prop where
  work : ∀ o ∈ v.ops, o.cont = .fleetStop → o.work = .stop
  acked : ∀ sent excluded, .settled .fleetStop (.ok ()) sent excluded ∈ v.jobs → v.Halted heard
  stage : pending ∧ ((∃ o ∈ v.ops, o.cont = .fleetStop) ∨
      ∃ result sent excluded, .settled .fleetStop result sent excluded ∈ v.jobs) ∨
    failed ∨ v.Halted heard

namespace View.Stops

variable {pending failed : Prop} {heard : List Heard}

theorem keep (h : v.Stops pending failed heard)
    (hrows : ∀ r ∈ w.rows, ∃ q ∈ v.rows, q.nodeId = r.nodeId ∧ q.id = r.id)
    (hold : ∀ o ∈ w.ops, o.cont = .fleetStop → ∃ q ∈ v.ops, q.work = o.work ∧ q.cont = o.cont)
    (hops : ∀ q ∈ v.ops, q.cont = .fleetStop → ∃ o ∈ w.ops, o.cont = .fleetStop)
    (hjobs : ∀ result sent excluded, .settled .fleetStop result sent excluded ∈ w.jobs ↔
      .settled .fleetStop result sent excluded ∈ v.jobs) : w.Stops pending failed heard := by
  have hhalted : v.Halted heard → w.Halted heard := by
    intro hv r hr
    obtain ⟨q, hq, hnode, hid⟩ := hrows r hr
    exact hnode ▸ hid ▸ hv q hq
  refine ⟨fun o ho hcont ↦ ?_, fun sent excluded hj ↦ hhalted (h.acked sent excluded ?_), ?_⟩
  · obtain ⟨q, hq, hwork, hqo⟩ := hold o ho hcont
    exact hwork ▸ h.work q hq (hqo.trans hcont)
  · exact (hjobs _ _ _).mp hj
  · refine h.stage.imp (And.imp_right ?_) (Or.imp_right hhalted)
    rintro (⟨q, hq, hcont⟩ | ⟨result, sent, excluded, hj⟩)
    · exact .inl (hops q hq hcont)
    · exact .inr ⟨result, sent, excluded, (hjobs _ _ _).mpr hj⟩

theorem keep_task (h : v.Stops pending failed heard)
    (hrows : ∀ r ∈ w.rows, ∃ q ∈ v.rows, q.nodeId = r.nodeId ∧ q.id = r.id)
    (htask : w.ops.map OpView.task = v.ops.map OpView.task)
    (hjobs : ∀ result sent excluded, .settled .fleetStop result sent excluded ∈ w.jobs ↔
      .settled .fleetStop result sent excluded ∈ v.jobs) : w.Stops pending failed heard := by
  refine h.keep hrows (fun o ho _ ↦ exists_of_task_eq htask ho) (fun q hq hc ↦ ?_) hjobs
  obtain ⟨o, ho, -, hoq⟩ := exists_of_task_eq htask.symm hq
  exact ⟨o, ho, hoq.trans hc⟩

theorem settle {u : View} {o : OpView} {rest : List OpView} {result : Except String Unit}
    (h : v.Stops pending failed heard) (hops : v.ops = o :: rest) (hrows : u.rows = v.rows)
    (hjobs : u.jobs = v.jobs) (hok : result = .ok () → o.work = .stop → v.Halted heard) :
    (u.settle o rest result).Stops pending failed heard := by
  have hhalted : v.Halted heard → (u.settle o rest result).Halted heard := fun hv r hr ↦
    hv r (hrows ▸ hr)
  have hrest : ∀ p ∈ rest, p ∈ v.ops := fun p hp ↦ hops ▸ List.mem_cons_of_mem o hp
  have hhead : o ∈ v.ops := hops ▸ List.mem_cons_self
  refine ⟨fun p hp ↦ h.work p (hrest p hp), fun sent excluded hj ↦ hhalted ?_, ?_⟩
  · rcases List.mem_append.mp hj with hj | hj
    · exact h.acked sent excluded (hjobs ▸ hj)
    · split_ifs at hj
      · cases hj
      · obtain ⟨hcont, hresult, -⟩ := Job.settled.inj (List.mem_singleton.mp hj)
        exact hok hresult.symm (h.work o hhead hcont.symm)
  · refine h.stage.imp (And.imp_right ?_) (Or.imp_right hhalted)
    rintro (⟨p, hp, hcont⟩ | ⟨result', sent, excluded, hj⟩)
    · rcases List.mem_cons.mp (hops ▸ hp) with rfl | hp
      · exact .inr ⟨result, p.sent, p.excluded, by simp [View.settle, hcont]⟩
      · exact .inl ⟨p, hp, hcont⟩
    · exact .inr ⟨result', sent, excluded, List.mem_append_left _ (hjobs ▸ hj)⟩

end View.Stops

variable {pending failed : Prop} {spec : Option DeploymentSpec}

theorem Move.stops (h : Move k T c d v w) (hfleet : c.fleet.isSome = true) (hacts : ¬T.fleet)
    (hacked : v.Acked c.heard) (hjobs : ∀ j ∈ v.jobs, j.Fleet)
    (hv : v.Stops pending failed c.heard) : w.Stops pending failed c.heard := by
  have hsame : ∀ {u : View}, u.rows = v.rows → ∀ r ∈ u.rows, ∃ q ∈ v.rows,
      q.nodeId = r.nodeId ∧ q.id = r.id := fun hrows r hr ↦ ⟨r, hrows ▸ hr, rfl, rfl⟩
  -- A job that is no settled stop is taken.
  have hpop : ∀ i, (∀ result sent excluded,
      v.jobs[i]? ≠ some (.settled .fleetStop result sent excluded)) → ∀ result sent excluded,
      (.settled .fleetStop result sent excluded ∈ v.jobs.eraseIdx i ↔
        .settled .fleetStop result sent excluded ∈ v.jobs) := by
    intro i hother result sent excluded
    refine ⟨List.mem_of_mem_eraseIdx, fun hj ↦ ?_⟩
    obtain ⟨n, hn, hget⟩ := List.mem_iff_getElem.mp hj
    rw [List.mem_eraseIdx_iff_getElem]
    refine ⟨n, hn, fun hni ↦ hother result sent excluded ?_, hget⟩
    rw [← hni, List.getElem?_eq_getElem hn, hget]
  cases h with
  | rowState =>
    refine hv.keep_task (fun r hr ↦ ?_) rfl fun _ _ _ ↦ Iff.rfl
    obtain ⟨q, hq, rfl⟩ := List.mem_map.mp hr
    refine ⟨q, hq, ?_⟩
    split_ifs <;> exact ⟨rfl, rfl⟩
  | heard => exact hv.keep_task (hsame rfl) v.task_hear fun _ _ _ ↦ Iff.rfl
  | drain hname hops hidle | pushLate why hops hempty hidle => simp [hidle] at hfleet
  | caught excluded hops =>
    exact hv.keep_task (hsame rfl) (by rw [hops]; rfl) fun _ _ _ ↦ Iff.rfl
  | settleError error hops => exact hv.settle hops rfl rfl fun h ↦ nomatch h
  | teardownDone hops hwork | ready hops hwork =>
    exact hv.settle hops rfl rfl fun _ h ↦ nomatch hwork.symm.trans h
  | stopDone hops hwork hrows =>
    exact hv.settle hops rfl rfl fun _ _ r hr ↦ hacked r hr (hrows r hr)
  | popJob i htaken =>
    exact hv.keep_task (hsame rfl) rfl (hpop i fun _ _ _ hj ↦ hacts (htaken _ _ _ hj))
  | late i why hj =>
    exact hv.keep_task (hsame rfl) rfl (hpop i fun _ _ _ h ↦ nomatch hj.symm.trans h)
  | removed i sent excluded hj => exact (hjobs _ (List.mem_of_getElem? hj)).elim
  | pushRefused origin error hops hempty =>
    exact hv.keep_task (hsame rfl) rfl (by simp [hempty])
  | _ =>
    -- The rest queues cleanups at most.
    exact hv.keep (hsame rfl) (by grind [View.expire, View.setState, View.setReady, View.block])
      (by grind [View.expire, View.setState, View.setReady, View.block]) fun _ _ _ ↦ Iff.rfl

theorem Move.idle (h : Move k T c d v w) (hfleet : c.fleet.isSome = true) (hacts : ¬T.fleet)
    (hv : v.face = none ∨ v.running = false) : w.face = none ∨ w.running = false := by
  cases h with
  | _ => grind [View.settle, View.setRowState, View.hear, View.expire, View.block, View.setState,
      View.setReady, View.halt]

def View.Unstarted (v : View) : Prop :=
  (∀ o ∈ v.ops, o.cont ≠ .fleetStart) ∧
    ∀ result sent excluded, .settled .fleetStart result sent excluded ∉ v.jobs

theorem Move.unstarted (h : Move k T c d v w) (hfleet : c.fleet.isSome = true) (hacts : ¬T.fleet)
    (hv : v.Unstarted) : w.Unstarted := by
  obtain ⟨hops, hjobs⟩ := hv
  cases h with
  | heard =>
    refine ⟨fun o ho ↦ ?_, hjobs⟩
    obtain ⟨p, hp, -, hc⟩ := exists_of_task_eq v.task_hear ho
    exact hc ▸ hops p hp
  | _ => constructor <;> grind [View.settle, View.setRowState, View.expire, View.block,
      View.setState, View.setReady, View.halt, List.mem_of_mem_eraseIdx]

/-! ## Where an apply stands -/

/-- A deployment whose stop a fleet apply waits for: it has the spec it had, is not to run, and its
stop has come so far. -/
structure View.Waits (spec : Option DeploymentSpec) (pending failed : Prop) (heard : List Heard)
    (v : View) : Prop where
  spec : v.face.map (·.spec) = spec
  idle : v.face = none ∨ v.running = false
  unstarted : v.Unstarted
  there : failed ∨ v.face.isSome = true
  stops : v.Stops pending failed heard

theorem View.Waits.settled {heard : List Heard} (h : v.Waits spec pending failed heard) :
    v.Settled := by
  intro f hf
  refine .inr (h.idle.resolve_left ?_)
  simp [hf]

theorem View.Waits.mono {pending' failed' : Prop} {heard heard' : List Heard}
    (h : v.Waits spec pending failed heard) (hheard : heard ⊆ heard')
    (hpending : pending → pending') (hfailed : failed → failed') :
    v.Waits spec pending' failed' heard' := by
  have hhalted : v.Halted heard → v.Halted heard' := fun hv r hr ↦ hheard (hv r hr)
  exact ⟨h.spec, h.idle, h.unstarted, h.there.imp_left hfailed, h.stops.work,
    fun sent excluded hj ↦ hhalted (h.stops.acked sent excluded hj),
    h.stops.stage.imp (And.imp_left hpending) (Or.imp hfailed hhalted)⟩

theorem Micro.waits (hm : Micro k T s s') (hs : s.Good) {t : FleetTask} (ht : s.fleet = some t)
    (hstopping : t.isStopping = true) (hd : d ∈ s.known) (hacts : ¬T.fleet)
    (hrestarts : ¬T.restarts) (h : (s.view d).Waits spec pending failed s.heard) :
    (s'.view d).Waits spec pending failed s'.heard := by
  have hfleet : s.ambient.fleet.isSome = true := by simp [Control.ambient, ht]
  obtain ⟨-, hjobs⟩ := hs.conts (by simp [ht]) d
  refine hm.keeps_at hd h
    (fun heard v hheard hv ↦ hv.mono hheard id id) (fun w hmove ↦ ?_) (fun w hdispatch ↦ ?_)
    fun hr ↦ absurd hr hrestarts
  · have hsame := hmove.spec_same hfleet hacts hjobs h.settled
    refine ⟨hsame.trans h.spec, hmove.idle hfleet hacts h.idle,
      hmove.unstarted hfleet hacts h.unstarted, h.there.imp_right fun hv ↦ ?_,
      hmove.stops hfleet hacts (hs.acked d) hjobs h.stops⟩
    simpa [hv] using congrArg Option.isSome hsame
  · -- Nothing that starts is queued.
    obtain ⟨o, ho, hstart⟩ := hdispatch.exists_start
    cases (hs.stopping t ht hstopping d o ho).symm.trans hstart

theorem Micro.pinned (hm : Micro k T s s') (hs : s.Good) (hfleet : s.fleet.isSome = true)
    (hd : d ∈ s.known) (hacts : ¬T.fleet) (hrestarts : ¬T.restarts) {spec : DeploymentSpec}
    (hpins : Control.pinsNodes spec = true) (h : (s.view d).face.map (·.spec) = some spec) :
    (s'.view d).face.map (·.spec) = some spec := by
  refine hm.keeps_at (P := fun _ v ↦ v.face.map (·.spec) = some spec) hd h (fun _ _ _ hv ↦ hv)
    (fun w hmove ↦ ?_) (fun w hdispatch ↦ hdispatch.spec_same.trans h) fun hr ↦ absurd hr hrestarts
  refine (hmove.spec_same hfleet hacts (hs.conts hfleet d).2 fun f hf ↦ .inl ?_).trans h
  rw [hf, Option.map_some, Option.some.injEq] at h
  rwa [h]

theorem Micro.fleet_same (hm : Micro k T s s') (hacts : ¬T.fleet) (hrestarts : ¬T.restarts) :
    s'.fleet = s.fleet := by
  cases hm with
  | around s' h => exact h.applies.resolve_right hacts
  | restart s' _ _ _ _ _ _ _ _ _ hrestarts' => exact absurd hrestarts' hrestarts
  | _ => rfl

namespace Control

theorem specOf_eq (s : Control) (d : DeploymentId) : s.specOf d = (s.view d).face.map (·.spec) := by
  rw [specOf, view, Slot.view, Option.map_map]
  rfl

theorem specOf_on {f : Slot → Slot} (hf : ∀ x, (f x).dep.map (·.spec) = x.dep.map (·.spec))
    (d' : DeploymentId) : (s.on d f).specOf d' = s.specOf d' :=
  slots_on_cases (P := fun x ↦ x.dep.map (·.spec) = s.specOf d') (fun _ ↦ hf _) rfl

/-- Where an apply that began in `s₀` stands: it waits for the stops of all its deployments, or it
has written all their specs. -/
def At (s s₀ : Control) (entries : List FleetEntry) : FleetStage → Prop
  | .stopping pending failures => ∀ e ∈ entries, (s.view e.deploymentId).Waits
      (s₀.specOf e.deploymentId) (e.deploymentId ∈ pending) (e.deploymentId ∈ failures.map Prod.fst)
      s.heard
  | .starting _ _ _ => ∀ e ∈ entries, s.specOf e.deploymentId = e.spec

/-- The invariant of an apply that is under way. -/
structure Progress (s s₀ : Control) (entries : List FleetEntry) (t : FleetTask) : Prop where
  task : s.fleet = some t
  run : t.run.entries = entries
  specs : ∀ e ∈ entries, e.spec.isSome = true
  stage : s.At s₀ entries t.stage

def Old (s s₀ : Control) (entries : List FleetEntry) : Prop :=
  ∀ e ∈ entries, s.specOf e.deploymentId = s₀.specOf e.deploymentId

def New (s : Control) (entries : List FleetEntry) : Prop :=
  ∀ e ∈ entries, s.specOf e.deploymentId = e.spec

theorem At.old_or_new {stage : FleetStage} (h : s.At s₀ entries stage) :
    s.Old s₀ entries ∨ s.New entries := by
  cases stage with
  | stopping => exact .inl fun e he ↦ (s.specOf_eq _).trans (h e he).spec
  | starting => exact .inr h

theorem At.specOf_same {stage : FleetStage} (h : s.At s₀ entries stage)
    (h' : s'.At s₀ entries stage) :
    ∀ e ∈ entries, s'.specOf e.deploymentId = s.specOf e.deploymentId := by
  intro e he
  cases stage with
  | stopping => rw [specOf_eq, specOf_eq, (h e he).spec, (h' e he).spec]
  | starting => rw [h e he, h' e he]

/-! ## Steps beside the apply -/

variable {t : FleetTask} {l : List FleetEntry} {e : Event} {pending : List DeploymentId}
  {failures : List (DeploymentId × String)}

theorem Progress.micro (h : s.Progress s₀ entries t) (hs : s.Good) (hm : Micro k T s s')
    (hacts : ¬T.fleet) (hrestarts : ¬T.restarts) :
    s'.Progress s₀ entries t := by
  refine ⟨(hm.fleet_same hacts hrestarts).trans h.task, h.run, h.specs, ?_⟩
  have hgood : s.EntriesGood entries := h.run ▸ hs.task t h.task
  have hknown : ∀ e ∈ entries, ∃ spec, e.spec = some spec ∧ e.deploymentId ∈ s.known := by
    intro e he
    obtain ⟨spec, hspec⟩ := Option.isSome_iff_exists.mp (h.specs e he)
    exact ⟨spec, hspec, (hgood.planned e he spec hspec).2.1⟩
  have hat := h.stage
  cases hstage : t.stage with
  | stopping =>
    rw [hstage] at hat
    intro e he
    obtain ⟨-, -, hmem⟩ := hknown e he
    exact hm.waits hs h.task (by simp [FleetTask.isStopping, hstage]) hmem hacts hrestarts
      (hat e he)
  | starting =>
    rw [hstage] at hat
    intro e he
    obtain ⟨spec, hspec, hmem⟩ := hknown e he
    rw [specOf_eq, hspec]
    exact hm.pinned hs (by simp [h.task]) hmem hacts hrestarts (hgood.pinned e he spec hspec)
      ((s.specOf_eq _).symm.trans ((hat e he).trans hspec))

/-! ## The beginning -/

theorem fleetStop_waits (ht : s.fleet = some t) (hstage : t.stage = .stopping pending failures)
    {e : FleetEntry}
    (hidle : (s.slots e.deploymentId).ops = [] ∧ (s.slots e.deploymentId).jobs = []) :
    ∃ pending' failures', (s.fleetStop e).fleet =
        some { t with stage := .stopping pending' failures' } ∧
      pending ⊆ pending' ∧ failures ⊆ failures' ∧ (s.fleetStop e).heard = s.heard ∧
      (∀ d, d ≠ e.deploymentId → (s.fleetStop e).slots d = s.slots d) ∧
      ((s.fleetStop e).view e.deploymentId).Waits (s.specOf e.deploymentId)
        (e.deploymentId ∈ pending') (e.deploymentId ∈ failures'.map Prod.fst) s.heard := by
  obtain ⟨hops, hjobs⟩ := hidle
  cases hdep : s.getDeployment e.deploymentId with
  | none =>
    have hnone : (s.slots e.deploymentId).dep = none := by simpa [getDeployment] using hdep
    have hstop : s.stop e.deploymentId true .fleetStop = (s, some (mustText e.deploymentId)) := by
      simp [stop, fleetAccess, hdep]
    simp only [fleetStop, hstop, ht, Option.map_some, hstage]
    refine ⟨pending, failures ++ [(e.deploymentId, mustText e.deploymentId)], rfl,
      List.Subset.refl _, List.subset_append_left _ _, trivial, fun _ _ ↦ trivial, ?_, .inl ?_,
      ⟨?_, ?_⟩, .inl ?_, ?_, ?_, .inr (.inl ?_)⟩
    all_goals simp [hnone, hops, hjobs, view, Slot.view, specOf]
  | some =>
    have hstop : s.stop e.deploymentId true .fleetStop =
        (s.on e.deploymentId (·.acceptStop s.now .fleetStop), none) := by
      simp [stop, fleetAccess, hdep]
    obtain ⟨r, hr, rfl⟩ := getDeployment_some hdep
    simp only [fleetStop, hstop]
    have hview : (s.on e.deploymentId (·.acceptStop s.now .fleetStop)).view e.deploymentId = _ :=
      (view_on_self ..).trans ((s.slots e.deploymentId).view_acceptStop s.now .fleetStop)
    refine ⟨pending ++ [e.deploymentId], failures, by simp [on, ht, hstage],
      List.subset_append_left _ _, List.Subset.refl _, rfl, fun d hd ↦ slots_on_of_ne s hd _, ?_⟩
    change View.Waits _ _ _ _ ((s.on e.deploymentId (·.acceptStop s.now .fleetStop)).view _)
    rw [hview]
    refine ⟨?_, .inr rfl, ⟨?_, ?_⟩, .inr ?_, ?_, ?_, .inl ⟨?_, .inl ?_⟩⟩
    all_goals simp [hr, hops, hjobs, View.setState, Slot.view, specOf, Deployment.face]

theorem fleetStops_wait (hl : (l.map (·.deploymentId)).Nodup) (ht : s.fleet = some t)
    (hstage : t.stage = .stopping pending failures)
    (hidle : ∀ e ∈ l, (s.slots e.deploymentId).ops = [] ∧ (s.slots e.deploymentId).jobs = []) :
    ∃ pending' failures', (l.foldl fleetStop s).fleet =
        some { t with stage := .stopping pending' failures' } ∧
      pending ⊆ pending' ∧ failures ⊆ failures' ∧ (l.foldl fleetStop s).heard = s.heard ∧
      (∀ d ∉ l.map (·.deploymentId), (l.foldl fleetStop s).slots d = s.slots d) ∧
      (l.foldl fleetStop s).At s l (.stopping pending' failures') := by
  induction l generalizing s t pending failures with
  | nil =>
    refine ⟨pending, failures, ?_, List.Subset.refl _, List.Subset.refl _, rfl, fun _ _ ↦ rfl,
      by simp [At]⟩
    rw [List.foldl_nil, ht, ← hstage]
  | cons e l ih =>
    obtain ⟨hnot, hl⟩ := List.nodup_cons.mp hl
    have hne : ∀ e' ∈ l, e'.deploymentId ≠ e.deploymentId := fun e' hmem h ↦
      hnot (List.mem_map.mpr ⟨e', hmem, h⟩)
    obtain ⟨p₁, f₁, hfleet₁, hp₁, hf₁, hheard₁, hother₁, hwaits⟩ :=
      fleetStop_waits ht hstage (hidle e List.mem_cons_self)
    obtain ⟨p₂, f₂, hfleet₂, hp₂, hf₂, hheard₂, hother₂, hrest⟩ := ih hl hfleet₁ rfl fun e' he' ↦ by
      rw [hother₁ _ (hne e' he')]
      exact hidle e' (List.mem_cons_of_mem e he')
    rw [List.foldl_cons]
    refine ⟨p₂, f₂, hfleet₂, fun _ h ↦ hp₂ (hp₁ h), fun _ h ↦ hf₂ (hf₁ h), hheard₂.trans hheard₁,
      fun d hd ↦ ?_, fun e' he' ↦ ?_⟩
    · rw [List.map_cons, List.mem_cons, not_or] at hd
      rw [hother₂ d hd.2, hother₁ d hd.1]
    · rcases List.mem_cons.mp he' with rfl | hmem
      · rw [hheard₂.trans hheard₁, view, hother₂ _ hnot]
        exact hwaits.mono (List.Subset.refl _) (fun h ↦ hp₂ h) fun h ↦ List.map_subset _ hf₂ h
      · have hspec : (s.fleetStop e).specOf e'.deploymentId = s.specOf e'.deploymentId := by
          rw [specOf, specOf, hother₁ _ (hne e' hmem)]
        exact hspec ▸ hrest e' hmem

theorem validateEntries_specs {rt : Runtime} {quals : List Qwen35NativeQualification}
    {input : FleetInput} {reserved : ResourceLedger}
    (h : validateEntries rt quals input reserved l = .ok ()) : ∀ e ∈ l, e.spec.isSome = true := by
  induction l generalizing reserved with
  | nil => simp
  | cons e l ih =>
    unfold validateEntries at h
    split at h
    · rename_i spec plan hspec hplan herror
      split at h
      · cases h
      · split at h
        · cases h
        · exact List.forall_mem_cons.mpr ⟨by simp [hspec], ih h⟩
    · cases h

theorem drain_specOf (l : List FleetEntry) (s : Control) (d : DeploymentId) :
    let s' := l.foldl (fun s e ↦ s.on e.deploymentId
      (·.update s.now fun dep ↦ { dep with state := .draining, endpoint := none })) s
    s'.specOf d = s.specOf d ∧ (s'.slots d).ops = (s.slots d).ops ∧
      (s'.slots d).jobs = (s.slots d).jobs := by
  induction l generalizing s with
  | nil => exact ⟨rfl, rfl, rfl⟩
  | cons e l ih =>
    obtain ⟨hspec, hops, hjobs⟩ := ih (s.on e.deploymentId
      (·.update s.now fun dep ↦ { dep with state := .draining, endpoint := none }))
    rw [List.foldl_cons]
    dsimp only
    rw [hspec, hops, hjobs, specOf_on (by simp [Slot.update, Function.comp_def])]
    exact ⟨rfl, slots_on_cases (P := fun x ↦ x.ops = _ ∧ x.jobs = _) (fun _ ↦ ⟨rfl, rfl⟩)
      ⟨rfl, rfl⟩⟩

/-- **The apply begins with every stop on its way.** -/
theorem applyAllocation_progress {id : String} {run : FleetRun} (hs : s.Good)
    (hjobs : ∀ d, (s.slots d).jobs = []) (hidle : s.fleet = none)
    (hrun : s.runs.find? (·.id = id) = some run)
    (hon : (s.applyAllocation k id).fleet.isSome = true) : ∃ t, (s.applyAllocation k id).Progress s
    run.entries t := by
  have hdistinct := (hs.runs run (List.mem_of_find?_eq_some hrun)).distinct
  unfold applyAllocation at hon ⊢
  simp only [hrun] at hon ⊢
  split_ifs at hon ⊢ with hskip
  · simp [hidle] at hon
  have hops := hs.ops_of_idle (not_or.mp (not_or.mp (not_or.mp (not_or.mp hskip).2).2).2).1
  cases hvalid : validateFleetPlans k.rt k.nativeQualifications (s.fleetInput k) run.entries with
  | error => simp [hvalid, hidle] at hon
  | ok _ =>
    generalize hdrain : run.entries.foldl (fun s e ↦ s.on e.deploymentId (·.update s.now fun dep ↦
      { dep with state := .draining, endpoint := none }))
        (s.saveRun { run with status := .applying })
      = s₁
    have hsame : ∀ d, s₁.specOf d = s.specOf d ∧ (s₁.slots d).ops = (s.slots d).ops ∧
        (s₁.slots d).jobs = (s.slots d).jobs := by
      intro d
      rw [← hdrain]
      exact drain_specOf run.entries (s.saveRun { run with status := .applying }) d
    obtain ⟨pending, failures, hfleet, -, -, -, -, hat⟩ := fleetStops_wait hdistinct
      (s := { s₁ with fleet := some { run := { run with status := .applying },
                                      stage := .stopping [] [] } }) rfl rfl
      fun e _ ↦ ⟨(hsame e.deploymentId).2.1.trans (hops _), (hsame e.deploymentId).2.2.trans
      (hjobs _)⟩
    obtain ⟨_, hspecs, -⟩ := Checked.bind_ok hvalid
    refine ⟨_, hfleet, rfl, validateEntries_specs hspecs, fun e he ↦ ?_⟩
    exact (hsame e.deploymentId).1 ▸ hat e he

/-! ## The apply acts -/

section

variable (s : Control) (d : DeploymentId) (i : ℕ) (d' : DeploymentId)

def taken : Control :=
  s.on d fun x ↦ { x with jobs := x.jobs.eraseIdx i }

theorem view_taken :
    (s.taken d i).view d' = if d' = d then { s.view d with jobs := (s.view d).jobs.eraseIdx i }
      else s.view d' := by
  unfold taken
  split_ifs with hd
  · subst hd
    rw [view_on_self]
    rfl
  · exact view_on_of_ne s hd _

theorem specOf_taken : (s.taken d i).specOf d' = s.specOf d' :=
  specOf_on (f := fun x ↦ { x with jobs := x.jobs.eraseIdx i }) (fun _ ↦ rfl) d'

end

section

variable {sent : List AssignmentId} {cont : Cont} {excluded : List NodeId} {i : ℕ}
  {result : Except String Unit}

theorem At.heard (h : s.At s₀ entries (.stopping pending failures))
    (hcont : cont = .fleetStop ∨ cont = .fleetStart)
    (hj : (s.slots d).jobs[i]? = some (.settled cont result sent excluded))
    (failures' : List (DeploymentId × String)) (hfailures : failures ⊆ failures')
    (herror : ∀ error, result = .error error → d ∈ failures'.map Prod.fst) :
    (s.taken d i).At s₀ entries (.stopping (pending.erase d) failures') := by
  have hmem : Job.settled cont result sent excluded ∈ (s.view d).jobs := List.mem_of_getElem? hj
  have hfailed : ∀ d', d' ∈ failures.map Prod.fst → d' ∈ failures'.map Prod.fst :=
    fun _ hd ↦ List.map_subset _ hfailures hd
  intro e he
  have hwaits := h e he
  rw [view_taken]
  split_ifs with hd
  · rw [hd] at hwaits ⊢
    obtain ⟨hspec, hidle, hunstarted, hthere, hstops⟩ := hwaits
    have hstop : cont = .fleetStop := hcont.resolve_right fun hstart ↦
      hunstarted.2 result sent excluded (hstart ▸ hmem)
    subst hstop
    -- It failed, or every row was acknowledged.
    have hdone : d ∈ failures'.map Prod.fst ∨ (s.view d).Halted s.heard := by
      cases result with
      | ok => exact .inr (hstops.acked sent excluded hmem)
      | error error => exact .inl (herror error rfl)
    exact ⟨hspec, hidle,
      ⟨hunstarted.1, fun _ _ _ hj ↦ hunstarted.2 _ _ _ (List.mem_of_mem_eraseIdx hj)⟩,
      hthere.imp_left (hfailed d), hstops.work, fun _ _ hj ↦
      hstops.acked _ _ (List.mem_of_mem_eraseIdx hj), .inr hdone⟩
  · exact hwaits.mono (List.Subset.refl _) (List.mem_erase_of_ne hd).mpr (hfailed _)

theorem Progress.heard (h : s.Progress s₀ entries t)
    (hcont : cont = .fleetStop ∨ cont = .fleetStart)
    (hj : (s.slots d).jobs[i]? = some (.settled cont result sent excluded)) :
    ∃ t', ((s.taken d i).fleetHeard d result).Progress s₀ entries t' := by
  obtain ⟨run, stage, ready⟩ := t
  have htask : (s.taken d i).fleet = some ⟨run, stage, ready⟩ := h.task
  have hat := h.stage
  cases stage with
  | starting next active due =>
    have hnew : ∀ e ∈ entries, (s.taken d i).specOf e.deploymentId = e.spec := fun e he ↦
      (specOf_taken ..).trans (hat e he)
    cases result with
    | ok =>
      exact ⟨⟨run, .starting next (active.erase d) (due + 1), d :: ready⟩, by
        simp [fleetHeard, htask], h.run, h.specs, hnew⟩
    | error =>
      exact ⟨⟨run, .starting next (active.erase d) (due + 1), ready⟩, by simp [fleetHeard, htask],
        h.run, h.specs, hnew⟩
  | stopping pending failures =>
    cases result with
    | ok _ =>
      exact ⟨⟨run, .stopping (pending.erase d) failures, ready⟩, by simp [fleetHeard, htask], h.run,
        h.specs, hat.heard hcont hj failures (List.Subset.refl _) fun _ h ↦ by cases h⟩
    | error error =>
      exact ⟨⟨run, .stopping (pending.erase d) (failures ++ [(d, error)]), ready⟩,
        by simp [fleetHeard, htask], h.run, h.specs,
        hat.heard hcont hj _ (List.subset_append_left _ _) (by simp)⟩

end

theorem applyFleetSpecs_specOf (hl : (l.map (·.deploymentId)).Nodup)
    (hspecs : ∀ e ∈ l, e.spec.isSome = true)
    (hthere : ∀ e ∈ l, (s.specOf e.deploymentId).isSome = true) :
    (∀ e ∈ l, (s.applyFleetSpecs l).specOf e.deploymentId = e.spec) ∧
      ∀ d ∉ l.map (·.deploymentId), (s.applyFleetSpecs l).specOf d = s.specOf d := by
  unfold applyFleetSpecs
  induction l generalizing s with
  | nil => exact ⟨by simp, fun _ _ ↦ rfl⟩
  | cons e l ih =>
    obtain ⟨hnot, hl⟩ := List.nodup_cons.mp hl
    obtain ⟨spec, hspec⟩ := Option.isSome_iff_exists.mp (hspecs e List.mem_cons_self)
    have hself : (s.on e.deploymentId (applySpec s.now spec)).specOf e.deploymentId =
        some spec := by
      have hsome := hthere e List.mem_cons_self
      cases hdep : (s.slots e.deploymentId).dep with
      | none => simp [specOf, hdep] at hsome
      | some => simp [specOf, applySpec, Slot.update, hdep]
    have hother : ∀ d, d ≠ e.deploymentId →
        (s.on e.deploymentId (applySpec s.now spec)).specOf d = s.specOf d := by
      intro d hd
      simp [specOf, hd]
    rw [List.foldl_cons, hspec]
    obtain ⟨hnew, hrest⟩ := ih hl
      (fun e' he' ↦ hspecs e' (List.mem_cons_of_mem e he')) fun e' he' ↦ by
        rw [hother _ fun h ↦ hnot (List.mem_map.mpr ⟨e', he', h⟩)]
        exact hthere e' (List.mem_cons_of_mem e he')
    refine ⟨fun e' he' ↦ ?_, fun d hd ↦ ?_⟩
    · rcases List.mem_cons.mp he' with rfl | hmem
      · rw [hrest _ hnot, hself, hspec]
      · exact hnew e' hmem
    · rw [List.map_cons, List.mem_cons, not_or] at hd
      rw [hrest d hd.2, hother d hd.1]

theorem start_specOf (s : Control) (d d' : DeploymentId) (recovering token fromReady : Bool)
    (cont : Cont) : (s.start k d recovering token fromReady cont).1.specOf d' = s.specOf d' := by
  have hclear : (if recovering = true then s else s.on d Slot.clearExclusions).specOf d' =
      s.specOf d' := by
    split_ifs
    · rfl
    · exact specOf_on (f := Slot.clearExclusions) (fun _ ↦ rfl) d'
  unfold start
  dsimp only
  split
  · exact hclear
  · dsimp only
    refine (specOf_on (fun x ↦ ?_) d').trans hclear
    simp [Slot.acceptStart, Slot.update, Slot.enqueue, Function.comp_def]

/-- What the apply's own job does: it goes on, or ends with the specs as they are, or, once every
row was acknowledged and the plans were validated again, writes all specs. -/
theorem Progress.fleetStep (h : s.Progress s₀ entries t) (hs : s.Good)
    (hstep : s.fleetStep k = some s') :
    (s'.fleet.isSome = true → ∃ t', s'.Progress s₀ entries t') ∧
      ((∀ e ∈ entries, s'.specOf e.deploymentId = s.specOf e.deploymentId) ∨
        s.Old s₀ entries ∧ s'.New entries ∧
          (∀ e ∈ entries, (s.view e.deploymentId).Halted s.heard) ∧
          validateFleetPlans k.rt k.nativeQualifications (s.fleetInput k) entries = .ok ()) := by
  obtain ⟨run, stage, ready⟩ := t
  obtain ⟨htask, hrun, hspecs, hat⟩ := h
  obtain rfl : run.entries = entries := hrun
  have hdone : ∀ status, s.fleetDone run status = s' →
      (s'.fleet.isSome = true → ∃ t', s'.Progress s₀ run.entries t') ∧
        (∀ e ∈ run.entries, s'.specOf e.deploymentId = s.specOf e.deploymentId) := by
    rintro status rfl
    exact ⟨fun hon ↦ (nomatch hon), fun _ _ ↦ rfl⟩
  unfold Control.fleetStep at hstep
  rw [htask] at hstep
  cases stage with
  | stopping pending failures =>
    cases pending with
    | cons => cases hstep
    | nil =>
      dsimp only at hstep
      split_ifs at hstep with hfirst
      · obtain ⟨hnext, hsame⟩ := hdone _ (Option.some.inj hstep)
        exact ⟨hnext, .inl hsame⟩
      cases hvalid : validateFleetPlans k.rt k.nativeQualifications (s.fleetInput k)
        run.entries with
      | error =>
        rw [hvalid] at hstep
        obtain ⟨hnext, hsame⟩ := hdone _ (Option.some.inj hstep)
        exact ⟨hnext, .inl hsame⟩
      | ok _ =>
        rw [hvalid] at hstep
        cases hstep
        -- No stop failed and none is pending, so every row was acknowledged.
        have hnone : ∀ e ∈ run.entries, e.deploymentId ∉ failures.map Prod.fst := by
          intro e he hfailed
          obtain ⟨p, hp, hpe⟩ := List.mem_map.mp hfailed
          rw [Bool.not_eq_true, Option.isSome_eq_false_iff, Option.isNone_iff_eq_none,
            List.findSome?_eq_none_iff] at hfirst
          simpa [hpe] using List.find?_eq_none.mp (hfirst e he) p hp
        have hnew : ∀ e ∈ run.entries,
            (s.applyFleetSpecs run.entries).specOf e.deploymentId = e.spec :=
          (applyFleetSpecs_specOf (hs.task _ htask).distinct hspecs fun e he ↦ by
            rw [specOf_eq, Option.isSome_map]
            exact (hat e he).there.resolve_left (hnone e he)).1
        refine ⟨fun _ ↦ ⟨_, rfl, rfl, hspecs, hnew⟩, .inr ⟨fun e he ↦ ?_, hnew, fun e he ↦ ?_, rfl⟩⟩
        · exact (s.specOf_eq _).trans (hat e he).spec
        · rcases (hat e he).stops.stage with ⟨hpending, -⟩ | hfailed | hhalted
          · cases hpending
          · exact absurd hfailed (hnone e he)
          · exact hhalted
  | starting next active due =>
    cases due with
    | zero =>
      cases active with
      | cons => cases hstep
      | nil =>
        obtain ⟨hnext, hsame⟩ := hdone _ (Option.some.inj hstep)
        exact ⟨hnext, .inl hsame⟩
    | succ =>
      have hstart := fun d d' ↦ start_specOf (k := k) s d d' false true false .fleetStart
      -- The match looks at the active starts before it looks at those that are due.
      cases active
      all_goals
        dsimp only at hstep
        split at hstep
        · cases hstep
          exact ⟨fun _ ↦ ⟨_, rfl, rfl, hspecs, hat⟩, .inl fun _ _ ↦ rfl⟩
        · rename_i entry _
          have hsame := hstart entry.deploymentId
          split at hstep
          all_goals
            rename_i heq
            rw [heq] at hsame
            cases hstep
            exact ⟨fun _ ↦ ⟨_, rfl, rfl, hspecs, fun e he ↦ (hsame _).trans (hat e he)⟩,
              .inl fun e _ ↦ hsame _⟩

theorem restart_specOf (hs : s.Good) (d : DeploymentId) :
    (s.restart k).fleet = none ∧ (s.restart k).specOf d = s.specOf d := by
  obtain ⟨s₁, slots, hrestart, hslots, -, -, -, -, -, hfleet, -⟩ := restart_eq hs
  rw [hrestart]
  refine ⟨hfleet, ?_⟩
  rw [specOf_eq, specOf_eq]
  cases hface : (s.view d).face with
  | none => exact congrArg (Option.map _) ((hslots d).gone hface)
  | some f =>
    obtain ⟨g, hg, hspec, -⟩ := (hslots d).face f hface
    rw [show (({ s₁ with slots } : Control).view d).face = some g from hg, Option.map_some,
      Option.map_some, hspec]

/-- **One event of an apply**: it goes on or is over with the specs as they are, or its own job
writes all of them. -/
theorem Progress.step (h : s.Progress s₀ entries t) (hs : s.Good) (hstep : step k s e = some s') :
    (s'.fleet.isSome = true → ∃ t', s'.Progress s₀ entries t') ∧
      ((∀ x ∈ entries, s'.specOf x.deploymentId = s.specOf x.deploymentId) ∨
        s.Old s₀ entries ∧ s'.New entries ∧
          (∀ x ∈ entries, (s.view x.deploymentId).Halted s.heard) ∧
          validateFleetPlans k.rt k.nativeQualifications (s.fleetInput k) entries = .ok ()) := by
  by_cases hrestarts : e.Restarts
  · cases e with
    | restart =>
      obtain rfl : s.restart k = s' := by simpa [Swarmlet.step, Event.microtask, Event.effect]
        using hstep
      refine ⟨fun hon ↦ ?_, .inl fun x _ ↦ (restart_specOf hs x.deploymentId).2⟩
      simp [(restart_specOf hs "").1] at hon
    | _ => exact hrestarts.elim
  by_cases hacts : e.Fleet s
  · cases e with
    | applyAllocation id =>
      -- Another apply is refused.
      have hrefused : s.applyAllocation k id = s := by
        unfold applyAllocation
        split
        · rfl
        · rw [if_pos (.inr (.inl (by simp [h.task])))]
      obtain rfl : s = s' := by
        unfold Swarmlet.step at hstep
        split_ifs at hstep
        exact hrefused.symm.trans (Option.some.inj hstep)
      exact ⟨fun _ ↦ ⟨t, h⟩, .inl fun _ _ ↦ rfl⟩
    | fleetJob =>
      exact h.fleetStep hs (by simpa [Swarmlet.step, Event.microtask, Event.effect] using hstep)
    | job d i =>
      obtain ⟨cont, result, sent, excluded, hj, hcont⟩ := hacts
      have heq : (s.taken d i).fleetHeard d result = s' := by
        have hrun : s.runJob k d i = some s' := by
          simpa [Swarmlet.step, Event.microtask, Event.effect] using hstep
        unfold runJob at hrun
        rw [hj] at hrun
        rcases hcont with rfl | rfl <;> exact Option.some.inj hrun
      subst heq
      obtain ⟨t', h'⟩ := h.heard hcont hj
      exact ⟨fun _ ↦ ⟨t', h'⟩, .inl fun x _ ↦ s.specOf_taken d i x.deploymentId⟩
    | _ => exact hacts.elim
  · have h' := (step_micros hs hstep).invariant (I := fun s ↦ s.Progress s₀ entries t) hs h
      fun _ _ hs₁ h₁ hm ↦ h₁.micro hs₁ hm hacts hrestarts
    exact ⟨fun _ ↦ ⟨t, h'⟩, .inl (h.stage.specOf_same h'.stage)⟩

theorem request_refused (hfleet : s.fleet.isSome = true) (hstep : step k s e = some s')
    (he : e = .start d ∨ e = .stop d ∨ e = .remove d ∨ e = .applyDistribution d)
    (d' : DeploymentId) : s'.view d' = s.view d' := by
  have haccess : s.fleetAccess false = false := by
    simpa [fleetAccess, Option.isNone_eq_false_iff] using hfleet
  have hstop : ∀ cont, (s.stop d false cont).1 = s := fun cont ↦ by simp [stop, haccess]
  unfold step at hstep
  split_ifs at hstep
  rcases he with rfl | rfl | rfl | rfl
  · cases hstep
    have hadmit : (s.on d Slot.clearExclusions).admitStart k d false false false =
        .error fleetBusyText := by
      unfold admitStart
      rw [if_pos (show (s.on d Slot.clearExclusions).fleetAccess false = false from haccess)]
    simp only [start, Bool.false_eq_true, if_false, hadmit]
    exact slots_on_cases (P := fun x ↦ x.view = s.view d') (fun _ ↦ rfl) rfl
  · cases hstep
    rw [hstop]
  · cases hstep
    unfold remove
    split
    · rfl
    · split_ifs
      · rw [hstop]
      · rfl
  · cases hstep
    simp [applyDistribution, hfleet]

end Control

theorem Applying.run {es : List Event} (h : Applying k s₀ entries s)
    (hrun : run (step k) s es = some s')
    (halways : Always (step k) (fun s _ ↦ s.fleet.isSome = true) s es)
    (hon : s'.fleet.isSome = true) : Applying k s₀ entries s' := by
  induction es generalizing s with
  | nil => exact Option.some.inj hrun ▸ h
  | cons e es ih =>
    obtain ⟨s₁, hstep, hrest⟩ := run_cons.mp hrun
    have halways₁ := ((always_cons hstep).mp halways).2
    refine ih (h.next hstep ?_) hrest halways₁
    cases es with
    | nil => exact Option.some.inj hrest ▸ hon
    | cons => exact halways₁.1

/-- **An apply under way keeps its invariant.** -/
theorem Applying.progress (h : Applying k s₀ entries s) (hs₀ : s₀.Good) :
    s.Good ∧ ∃ t, s.Progress s₀ entries t := by
  induction h with
  | @begin id run s hidle hrun hentries hstep hon =>
    refine ⟨(step_micros hs₀ hstep).good hs₀, ?_⟩
    unfold step at hstep
    split_ifs at hstep with hquiet
    cases hstep
    have hjobs := hs₀.jobs_of_quiet (hquiet.resolve_left (by simp [Event.microtask]))
    exact hentries ▸ Control.applyAllocation_progress hs₀ hjobs hidle hrun hon
  | next h hstep hon ih =>
    obtain ⟨hs, t, hprogress⟩ := ih
    exact ⟨(step_micros hs hstep).good hs, (hprogress.step hs hstep).1 hon⟩

theorem Applying.keeps {I : Control → Prop} (h : Applying k s₀ entries s) (hs₀ : s₀.Good)
    (hI : I s₀) (hmicro : ∀ T s₁ s₂, s₁.Good → I s₁ → Micro k T s₁ s₂ → I s₂) : s.Good ∧ I s := by
  have hone : ∀ {s s' : Control} {e : Event}, s.Good ∧ I s → step k s e = some s' →
      s'.Good ∧ I s' := by
    intro s s' e hsI hstep
    have hmicros := step_micros hsI.1 hstep
    exact ⟨hmicros.good hsI.1, hmicros.invariant hsI.1 hsI.2 (hmicro _)⟩
  induction h with
  | begin hidle hrun hentries hstep => exact hone ⟨hs₀, hI⟩ hstep
  | next h hstep hon ih => exact hone ih hstep

/-- **Applying a fleet allocation is all or nothing.** Whatever happens next in a reachable apply,
the stored specs of the selected deployments are all the old ones or all the new ones, before and
after. They change only together, and only once every row of every selected deployment was
acknowledged stopped and the plans were validated again. Whatever is queued is a cleanup or the
apply's own, and a request of anyone else changes no deployment. -/
theorem fleet_apply_all_or_nothing {es : List Event} {e : Event}
    (h₀ : run (step k) Control.init es = some s₀) (h : Applying k s₀ entries s)
    (hstep : step k s e = some s') :
    (s.Old s₀ entries ∨ s.New entries) ∧ (s'.Old s₀ entries ∨ s'.New entries) ∧
    ((∃ x ∈ entries, s'.specOf x.deploymentId ≠ s.specOf x.deploymentId) →
      s.Old s₀ entries ∧ s'.New entries ∧
      (∀ x ∈ entries, ∀ r ∈ (s.slots x.deploymentId).rows, ⟨r.nodeId, r.id, .stopped⟩ ∈ s.heard) ∧
      validateFleetPlans k.rt k.nativeQualifications (s.fleetInput k) entries = .ok ()) ∧
    (∀ d, ∀ o ∈ (s.slots d).ops,
      o.work = .teardown ∨ o.cont = .fleetStop ∨ o.cont = .fleetStart) ∧
    ∀ d, e = .start d ∨ e = .stop d ∨ e = .remove d ∨ e = .applyDistribution d →
      ∀ d', s'.view d' = s.view d' := by
  obtain ⟨hs₀, hown₀⟩ := run_keeps h₀ Control.init_good
    (fun hsome ↦ nomatch hsome) fun _ _ _ _ hI hm ↦ hm.own hI
  have hown := (h.keeps hs₀ hown₀ fun _ _ _ _ hI hm ↦ hm.own hI).2
  obtain ⟨hs, t, hprogress⟩ := h.progress hs₀
  have hon : s.fleet.isSome = true := by simp [hprogress.task]
  have hspecs := hprogress.stage.old_or_new
  obtain ⟨-, hchange⟩ := hprogress.step hs hstep
  refine ⟨hspecs, ?_, fun ⟨x, hx, hne⟩ ↦ ?_, fun d o ho ↦
    hown hon d o.view (List.mem_map_of_mem ho), fun d he ↦ Control.request_refused hon hstep he⟩
  · rcases hchange with hsame | ⟨-, hnew, -⟩
    · exact hspecs.imp (fun hold x hx ↦ (hsame x hx).trans (hold x hx)) fun hnew x hx ↦
        (hsame x hx).trans (hnew x hx)
    · exact .inr hnew
  · obtain ⟨hold, hnew, hhalted, hvalid⟩ := hchange.resolve_left fun hsame ↦ hne (hsame x hx)
    exact ⟨hold, hnew, fun x hx r hr ↦ hhalted x hx r.view (List.mem_map_of_mem hr), hvalid⟩

end

def bothOf : FleetRequest where
  items := [⟨"d", .balanced, some 1⟩, ⟨"e", .balanced, some 1⟩]
  poolNodeIds := ["n"]
  distinctItems := by decide
  distinctPool := List.nodup_singleton "n"

def previewed : List Event :=
  joins "n" ++ serves replicaSpec ++ [.create "e" replicaSpec, .previewAllocation "f" bothOf]

def stopsBoth : List Event :=
  [.proceed "d" [] [], .report "n" "a" .stopped none, .proceed "d" [] [], .proceed "d" [] [],
    .job "d" 0, .proceed "e" [] [], .proceed "e" [] [], .job "e" 0]

/-- The specs of a serving replica and of one at rest are written, after both have stopped. -/
theorem fleet_apply_writes_both_specs :
    ∃ s₀ entries s s', run (step smallDeps) Control.init previewed = some s₀ ∧
      Applying smallDeps s₀ entries s ∧ step smallDeps s .fleetJob = some s' ∧
      entries.map (·.deploymentId) = ["d", "e"] ∧ s.Old s₀ entries ∧ s'.New entries ∧
      s'.specOf "d" ≠ s.specOf "d" ∧ s'.specOf "e" ≠ s.specOf "e" := by
  obtain ⟨s₀, h₀, hidle, hlisted, happly⟩ := exists_run (step smallDeps) Control.init previewed
    (fun s₀ ↦ s₀.fleet.isNone = true ∧
      (s₀.runs.find? (·.id = "f")).any (·.entries.map (·.deploymentId) = ["d", "e"]) = true ∧
      (step smallDeps s₀ (.applyAllocation "f")).any (fun s₁ ↦ s₁.fleet.isSome = true ∧
        Always (step smallDeps) (fun s _ ↦ s.fleet.isSome = true) s₁ stopsBoth ∧
        (run (step smallDeps) s₁ stopsBoth).any (fun s ↦ s.fleet.isSome = true ∧
          (step smallDeps s .fleetJob).any (fun s' ↦ s'.specOf "d" ≠ s.specOf "d" ∧
            s'.specOf "e" ≠ s.specOf "e") = true) = true) = true) (by decide +kernel)
  simp only [Option.any_eq_true, decide_eq_true_eq] at hlisted happly
  obtain ⟨r, hr, hids⟩ := hlisted
  obtain ⟨s₁, hbegin, hon₁, halways, s, hstops, hon, s', hjob, hne, hne'⟩ := happly
  have hboth : Applying smallDeps s₀ r.entries s :=
    (Applying.begin (Option.isNone_iff_eq_none.mp hidle) hr rfl hbegin hon₁).run hstops halways hon
  obtain ⟨x, hx, hxd⟩ : ∃ x ∈ r.entries, x.deploymentId = "d" :=
    List.mem_map.mp (hids ▸ List.mem_cons_self)
  obtain ⟨-, -, hchange, -⟩ := fleet_apply_all_or_nothing h₀ hboth hjob
  obtain ⟨hold, hnew, -⟩ := hchange ⟨x, hx, hxd ▸ hne⟩
  exact ⟨s₀, r.entries, s, s', h₀, hboth, hjob, hids, hold, hnew, hne, hne'⟩

end Swarmlet
