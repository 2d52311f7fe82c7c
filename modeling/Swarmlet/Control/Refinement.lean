import Swarmlet.Control.Micro

/-!
# Events are sequences of small steps

The faithful manager refines the abstract machine: in a good state, every function that handles an
event takes only moves the machine has. Functions that push no continuation and put no row are
`Steps`; they can be chained freely, because what the next one needs to know is still true.
-/

namespace Swarmlet

open Js

/-! ## What functions on slots leave alone -/

namespace Slot

def keys (x : Slot) : List (AssignmentId × NodeId × Bool) :=
  x.rows.map fun r ↦ (r.id, r.nodeId, r.healthWatch)

structure Still (x y : Slot) : Prop where
  jobs : y.jobs = x.jobs
  keys : y.keys = x.keys

namespace Still

variable {x y z : Slot}

theorem of_eq (hjobs : y.jobs = x.jobs) (hrows : y.rows = x.rows) : x.Still y :=
  ⟨hjobs, by rw [Slot.keys, hrows]; rfl⟩

theorem rfl' : x.Still x := ⟨rfl, rfl⟩

theorem trans (h : x.Still y) (h' : y.Still z) : x.Still z :=
  ⟨h'.jobs.trans h.jobs, h'.keys.trans h.keys⟩

end Still

section

variable (x : Slot) (k : Deps) (now : ℕ) (id : AssignmentId) (state : AssignmentState)

@[simp] theorem kept_update (patch : Deployment → Deployment) :
    (x.update now patch).rows = x.rows ∧ (x.update now patch).jobs = x.jobs := ⟨rfl, rfl⟩

@[simp] theorem kept_enqueue (work : Work) (cont : Cont) :
    (x.enqueue work cont).rows = x.rows ∧ (x.enqueue work cont).jobs = x.jobs := ⟨rfl, rfl⟩

private theorem foldl_notify_same (l : List AssignmentRow) (x : Slot) :
    let y := l.foldl (fun x r ↦ x.notify r.id .failed "deployment operation cancelled") x
    y.dep = x.dep ∧ y.rows = x.rows ∧ y.jobs = x.jobs := by
  induction l generalizing x with
  | nil => exact ⟨rfl, rfl, rfl⟩
  | cons r l ih => exact ih _

@[simp] theorem kept_cancel :
    x.cancel.dep = x.dep ∧ x.cancel.rows = x.rows ∧ x.cancel.jobs = x.jobs := foldl_notify_same _ _

@[simp] theorem kept_recordFailure (why : String) :
    (x.recordFailure k now why).rows = x.rows ∧ (x.recordFailure k now why).jobs = x.jobs := by
  unfold recordFailure scheduleRecovery
  split_ifs <;> exact ⟨rfl, rfl⟩

@[simp] theorem kept_fail (why : String) :
    (x.fail k now why).rows = x.rows ∧ (x.fail k now why).jobs = x.jobs := by
  rcases x.fail_eq k now why with h | ⟨dep, hdep, hstate⟩
  · simp [h]
  · rw [fail_of_state hdep hstate]
    simp

@[simp] theorem kept_finishDraining :
    (x.finishDraining now).rows = x.rows ∧ (x.finishDraining now).jobs = x.jobs := by
  unfold finishDraining
  split_ifs <;> exact ⟨rfl, rfl⟩

@[simp] theorem kept_observeReconnect (present : NodeId → Bool) :
    (x.observeReconnect k now present).rows = x.rows ∧
      (x.observeReconnect k now present).jobs = x.jobs := by
  unfold observeReconnect
  split
  · exact ⟨rfl, rfl⟩
  · split_ifs <;> exact ⟨rfl, rfl⟩

@[simp] theorem kept_offline (now graceFrom : ℕ) (nodeId : NodeId) :
    (x.offline k now graceFrom nodeId).rows = x.rows ∧
      (x.offline k now graceFrom nodeId).jobs = x.jobs := by
  unfold offline
  split
  · exact ⟨rfl, rfl⟩
  · simp only
    split_ifs <;> simp

@[simp] theorem kept_watchReport (nodeId : NodeId) (dep : Deployment)
    (state : AssignmentState) (detail : String) :
    (x.watchReport k now nodeId dep state detail).rows = x.rows ∧
      (x.watchReport k now nodeId dep state detail).jobs = x.jobs := by
  unfold watchReport
  split_ifs
  · exact ⟨rfl, rfl⟩
  · split <;> exact ⟨rfl, rfl⟩
  · exact ⟨rfl, rfl⟩

theorem keys_setRow {f : AssignmentRow → AssignmentRow}
    (h : ∀ r, (f r).id = r.id ∧ (f r).nodeId = r.nodeId ∧ (f r).healthWatch = r.healthWatch) :
    (x.setRow id f).keys = x.keys := by
  simp only [keys, setRow, List.map_map]
  congr 1
  funext r
  simp only [Function.comp_apply]
  split_ifs
  · rw [(h r).1, (h r).2.1, (h r).2.2]
  · rfl

@[simp] theorem keys_setAssignmentState (detail : Option String) :
    (x.setAssignmentState now id state detail).keys = x.keys :=
  x.keys_setRow id fun _ ↦ ⟨rfl, rfl, rfl⟩

@[simp] theorem keys_retireAssignment : (x.retireAssignment id).keys = x.keys :=
  x.keys_setRow id fun _ ↦ ⟨rfl, rfl, rfl⟩

@[simp] theorem keys_reissue : (x.reissue now id).keys = x.keys :=
  x.keys_setRow id fun _ ↦ ⟨rfl, rfl, rfl⟩

@[simp] theorem keys_notify (detail : String) : (x.notify id state detail).keys = x.keys := rfl

end

end Slot

theorem View.Good.withdrawn {d : DeploymentId} {v : View} (h : v.Good d)
    (hdown : v.running = false ∨ v.reconnecting = true ∨
      ∀ f, v.face = some f → f.state ∈ [.stopped, .failed, .planned, .draining]) (n : NodeId) :
    v.Withdrawn n := by
  intro f plan hf _ _ _
  have hup : v.running = true ∧ v.reconnecting = false →
      f.state ∈ [.stopped, .failed, .planned, .draining] := by
    rintro ⟨hrunning, hreconnecting⟩
    rcases hdown with hdown | hdown | hdown
    · cases hdown.symm.trans hrunning
    · cases hdown.symm.trans hreconnecting
    · exact hdown f hf
  constructor
  · intro hready
    simpa [hready] using hup (h.intent.serving f hf hready)
  · intro o ho dep hwork target pending hstand
    obtain ⟨g, hg, hrising⟩ := (h.start o ho).rising dep hwork (by simp [hstand])
    obtain rfl : f = g := Option.some.inj (hf.symm.trans hg)
    have hstate := hup (h.intent.current o ho dep hwork)
    rcases hrising with hs | hs | ⟨hs, -⟩ <;> simp [hs] at hstate

theorem Slot.offline_withdrawn {x : Slot} {d : DeploymentId} (hx : x.view.Good d) {k : Deps}
    {now graceFrom : ℕ} {nodeId : NodeId} :
    (x.offline k now graceFrom nodeId).view.Withdrawn nodeId := by
  have hgood : (x.offline k now graceFrom nodeId).view.Good d :=
    (offline_move (T := ⟨fun _ ↦ True, False, False, fun _ ↦ False, fun _ ↦ False, False,
      False, False⟩) (c := ⟨now, [], none, fun _ ↦ x.view⟩) hx.rows graceFrom nodeId).good hx
  unfold offline at hgood ⊢
  cases hdep : x.dep with
  | none => exact hx.withdrawn (.inr (.inr (by simp [view, hdep]))) nodeId
  | some dep =>
    have hface := face_of_dep hdep
    simp only [hdep] at hgood ⊢
    split_ifs at hgood ⊢ with hskip hnone hwatch
    · refine hx.withdrawn ?_ nodeId
      rcases hskip with hrunning | hstate | hreconnecting
      · exact .inl hrunning
      · refine .inr (.inr fun f hf ↦ ?_)
        obtain rfl := Option.some.inj (hf.symm.trans hface)
        exact hstate
      · exact .inr (.inl hreconnecting)
    · intro f plan hf _ hplan hmem
      obtain rfl := Option.some.inj (hf.symm.trans hface)
      have hplan : dep.plan = some plan := hplan
      simp [hplan, hmem] at hnone
    · -- Rows that watch belong to an external deployment.
      obtain ⟨hsome, hall⟩ := hwatch
      obtain ⟨r, hr⟩ := List.exists_mem_of_ne_nil _ hsome
      have hkind := (hx.rows.watch _ hface r.view
        (List.mem_map_of_mem (List.mem_of_mem_filter hr))).mp (List.all_eq_true.mp hall r hr)
      rw [view_update_state fun _ ↦ rfl]
      intro f plan hf hne
      obtain ⟨g, hg, hspec, -⟩ := View.face_of_setState hf
      obtain rfl := Option.some.inj (hg.symm.trans hface)
      exact absurd (hspec ▸ hkind) hne
    · exact hgood.withdrawn (.inr (.inl rfl)) nodeId

/-! ## Chains of steps -/

section

variable (k : Deps) (T : Terms)

/-- Small steps that neither put a row nor push a continuation nor touch the fleet. -/
structure Steps (s s' : Control) : Prop where
  micros : Micros k T s s'
  known : s'.known = s.known
  now : s'.now = s.now
  fleet : s'.fleet = s.fleet
  heard : s.heard ⊆ s'.heard
  still : ∀ d, (s.slots d).Still (s'.slots d)

def Local (d : DeploymentId) (s s' : Control) : Prop := ∃ y, s' = s.on d fun _ ↦ y

/-- Small steps that touch one deployment. -/
structure Touch (d : DeploymentId) (s s' : Control) : Prop where
  micros : Micros k T s s'
  only : Local d s s'

end

section

variable {k : Deps} {T : Terms} {s s' s'' : Control} {d : DeploymentId}

theorem Micros.good (h : Micros k T s s') (hs : s.Good) : s'.Good := by
  induction h with
  | refl => exact hs
  | tail _ hm ih => exact hm.good ih

variable {f : Slot → Slot} {token : Bool} {dep : Deployment}

theorem Micros.on (hknown : d ∈ s.known ∨ (f (s.slots d)).view = s.view d)
    (h : Move k T s.ambient d (s.view d) (f (s.slots d)).view) : Micros k T s (s.on d f) :=
  .single (.slot d _ hknown h)

theorem Micros.book (h : (f (s.slots d)).view = s.view d) : Micros k T s (s.on d f) :=
  .on (.inr h) (h ▸ .book)

namespace Steps

theorem refl (s : Control) : Steps k T s s :=
  ⟨.refl, rfl, rfl, rfl, List.Subset.refl _, fun _ ↦ .rfl'⟩

theorem trans (h : Steps k T s s') (h' : Steps k T s' s'') : Steps k T s s'' :=
  ⟨h.micros.trans h'.micros, h'.known.trans h.known, h'.now.trans h.now, h'.fleet.trans h.fleet,
    List.Subset.trans h.heard h'.heard, fun d ↦ (h.still d).trans (h'.still d)⟩

theorem on (hstill : (s.slots d).Still (f (s.slots d)))
    (hknown : d ∈ s.known ∨ (f (s.slots d)).view = s.view d)
    (h : Move k T s.ambient d (s.view d) (f (s.slots d)).view) : Steps k T s (s.on d f) :=
  ⟨.on hknown h, rfl, rfl, rfl, List.Subset.refl _, fun _ ↦
    Control.slots_on_cases (fun hd ↦ hd ▸ hstill) .rfl'⟩

theorem allJobs (h : Steps k T s s') (hjobs : ∀ d ∈ s.known, (s.slots d).jobs = []) :
    ∀ d ∈ s'.known, (s'.slots d).jobs = [] :=
  fun d hd ↦ (h.still d).jobs.trans (hjobs d (h.known ▸ hd))

theorem book (hstill : (s.slots d).Still (f (s.slots d)))
    (h : (f (s.slots d)).view = s.view d) : Steps k T s (s.on d f) :=
  .on hstill (.inr h) (h ▸ .book)

theorem foldl {α : Type*} {f : Control → α → Control} (l : List α) (hs : s.Good)
    (h : ∀ s', s'.Good → Steps k T s s' → ∀ a ∈ l, Steps k T s' (f s' a)) :
    Steps k T s (l.foldl f s) := by
  suffices ∀ s', s'.Good → Steps k T s s' → Steps k T s (l.foldl f s') from
    this s hs (.refl s)
  induction l with
  | nil => exact fun s' _ h' ↦ h'
  | cons a l ih =>
    intro s' hs' h'
    have hstep := h s' hs' h' a List.mem_cons_self
    exact ih (fun s'' hs'' h'' b hb ↦ h s'' hs'' h'' b (List.mem_cons_of_mem a hb)) _
      (hstep.micros.good hs') (h'.trans hstep)

end Steps

structure Control.Quiet (s : Control) (d : DeploymentId) : Prop where
  good : s.Good
  jobs : (s.slots d).jobs = []

theorem Steps.quiet (h : Steps k T s s') (hs : s.Quiet d) : s'.Quiet d :=
  ⟨h.micros.good hs.good, (h.still d).jobs.trans hs.jobs⟩

/-! ## Looking deployments up -/

namespace Control

theorem getDeployment_some (h : s.getDeployment d = some dep) :
    ∃ r, (s.slots d).dep = some r ∧ dep = { r with id := d } := by
  obtain ⟨r, hr, rfl⟩ := Option.map_eq_some_iff.mp h
  exact ⟨r, hr, rfl⟩

theorem Good.mem_known (hs : s.Good) {r : Deployment} (h : (s.slots d).dep = some r) :
    d ∈ s.known := by
  by_contra hd
  have := (hs.unknown d hd).1
  rw [view, Slot.face_of_dep h] at this
  cases this

theorem ops_eq_nil_of_not_operating (h : s.operating d = false) : (s.slots d).ops = [] := by
  simpa [operating] using h

/-! ## Starts and stops -/

theorem admitStart_ok {recovering fromReady : Bool}
    (h : s.admitStart k d recovering token fromReady = .ok dep) :
    s.fleetAccess token = true ∧ s.getDeployment d = some dep ∧ s.operating d = false ∧
      (dep.spec.kind = .external → s.uniqueExternalProblem k dep.spec (some d) = none) := by
  unfold admitStart at h
  by_cases haccess : s.fleetAccess token = false
  · simp [haccess] at h
  rw [if_neg haccess] at h
  cases hdep : s.getDeployment d with
  | none => simp [hdep] at h
  | some r =>
    simp only [hdep] at h
    split_ifs at h with hupdate hop hstate hext
    · split at h
      · cases h
      · rename_i hnone
        cases h
        refine ⟨by simpa using haccess, rfl, by simpa using hop, fun _ ↦ ?_⟩
        exact (Option.or_eq_none_iff.mp (Option.orElse_eq_or.symm.trans hnone)).2
    · cases h
      exact ⟨by simpa using haccess, rfl, by simpa using hop, fun hk ↦ absurd hk hext⟩

theorem not_owns_of_unique (hs : s.Good) {spec : DeploymentSpec}
    (h : s.uniqueExternalProblem k spec (some d) = none) : ∃ server, spec.server k.rt =
    some server ∧
      ∀ d', d' ≠ d → ¬(s.view d').Owns k.rt server := by
  unfold uniqueExternalProblem at h
  split at h
  · cases h
  · rename_i ext key hserver
    obtain ⟨e, he, hkey⟩ := Option.bind_eq_some_iff.mp hserver
    obtain ⟨key', hkey', hpair⟩ := Option.map_eq_some_iff.mp hkey
    cases hpair
    refine ⟨(ext.nodeId, key), by simp [DeploymentSpec.server, he, hkey'], ?_⟩
    rintro d' hne ⟨hrunning, f, hf, hkind, hother⟩
    obtain ⟨dep, hdep, rfl⟩ := Option.map_eq_some_iff.mp hf
    have hmem : { dep with id := d' } ∈ s.listDeployments :=
      List.mem_filterMap.mpr ⟨d', hs.mem_known hdep, by simp [getDeployment, hdep]⟩
    obtain ⟨e', he', hkey₁⟩ := Option.bind_eq_some_iff.mp hother
    obtain ⟨key₁, hkey₁', hpair⟩ := Option.map_eq_some_iff.mp hkey₁
    have hnot := List.find?_eq_none.mp (Option.map_eq_none_iff.mp h) _ hmem
    have he'' : dep.spec.external = some e' := he'
    have hkind' : dep.spec.kind = .external := hkind
    have hrunning' : (s.slots d').intent.running = true := hrunning
    simp_all

theorem fleet_of_access (h : s.fleetAccess token = true) (ht : token = false) : s.fleet = none := by
  simpa [fleetAccess, ht] using h

theorem start_steps (hs : s.Good) {recovering fromReady : Bool} {cont : Cont}
    (hjobs : ∀ j ∈ (s.slots d).jobs, ¬j.Grave) (hlicense : (s.slots d).intent.running = true ∨
    T.names d) (hcont : cont = .none ∨ (∃ o, cont = .move o) ∨ cont = .applied ∨ cont = .fleetStart)
    (htoken : token = true →
      (T.fleet ∧ cont = .fleetStart) ∧ ∀ t ∈ s.fleet, t.isStopping = false) :
    Steps k T s (s.start k d recovering token fromReady cont).1 := by
  have hclear : Steps k T s (if recovering then s else s.on d Slot.clearExclusions) := by
    split_ifs
    · exact .refl s
    · exact .book (.of_eq rfl rfl) rfl
  have hjobs' : ∀ j ∈ ((if recovering then s else s.on d Slot.clearExclusions).slots d).jobs,
      ¬j.Grave := by
    rwa [(hclear.still d).jobs]
  have hlicense' : ((if recovering then s else s.on d Slot.clearExclusions).slots d).intent.running
      = true ∨ T.names d := by
    split_ifs
    · exact hlicense
    · simpa [Slot.clearExclusions] using hlicense
  unfold start
  generalize hs₁ : (if recovering then s else s.on d Slot.clearExclusions) = s₁
    at hclear hjobs' hlicense'
  simp only
  cases hadmit : s₁.admitStart k d recovering token fromReady with
  | error e => exact hclear
  | ok dep =>
    obtain ⟨haccess, hdep, hop, hunique⟩ := admitStart_ok hadmit
    obtain ⟨r, hr, rfl⟩ := getDeployment_some hdep
    refine hclear.trans
      (Steps.on (f := fun x ↦ x.acceptStart s₁.now { r with id := d } recovering cont)
      (.of_eq rfl rfl) (.inl ((hclear.micros.good hs).mem_known hr)) ?_)
    rw [Slot.view_acceptStart]
    refine .acceptStart _ cont (Slot.face_of_dep hr) rfl rfl
      (by simp [view, Slot.view, ops_eq_nil_of_not_operating hop]) hjobs' hlicense' hcont ?_ ?_
      fun hkind ↦ not_owns_of_unique (hclear.micros.good hs) (hunique hkind)
    · intro hfleet
      cases htok : token with
      | false => simp [ambient, fleet_of_access haccess htok] at hfleet
      | true => exact (htoken htok).1
    · intro t ht
      cases htok : token with
      | false => simp [ambient, fleet_of_access haccess htok] at ht
      | true => exact (htoken htok).2 t (hclear.fleet ▸ ht)

theorem stop_steps (hs : s.Good) {cont : Cont}
    (hcont : cont = .none ∨ cont = .remove ∨ (s.slots d).ops = [] ∧ (s.slots d).jobs = [] ∧
    T.names d ∧
      (cont = .fleetStop ∨ ∃ spec dep, cont = .distribution spec ((s.slots d).generation + 1) ∧
        spec.kind.planned = true ∧ (s.slots d).dep = some dep ∧ dep.spec.kind.planned = true))
    (htoken : token = true → T.fleet ∧ cont = .fleetStop) :
    Steps k T s (s.stop d token cont).1 := by
  unfold stop
  split_ifs with haccess
  · exact .refl s
  cases hdep : s.getDeployment d with
  | none => exact .refl s
  | some dep =>
    obtain ⟨r, hr, -⟩ := getDeployment_some hdep
    refine Steps.on (f := fun x ↦ x.acceptStop s.now cont)
      (.of_eq (by simp [Slot.acceptStop]) (by simp [Slot.acceptStop])) (.inl (hs.mem_known hr)) ?_
    rw [Slot.view_acceptStop]
    refine .acceptStop cont (by simp [view, Slot.view, hr]) ?_ fun hfleet ↦ ?_
    · refine hcont.imp_right (Or.imp_right ?_)
      rintro ⟨hops, hjobs, hname, hcont⟩
      refine ⟨by simp [view, Slot.view, hops], hjobs, hname, hcont.imp_right ?_⟩
      rintro ⟨spec, dep, hcont, hspec, hdep, hkind⟩
      exact ⟨spec, dep.face, hcont, hspec, Slot.face_of_dep hdep, hkind⟩
    · cases htok : token with
      | false => simp [ambient, fleet_of_access (by simpa using haccess) htok] at hfleet
      | true => exact htoken htok

end Control

/-! ## Re-placements -/

namespace Local

theorem refl (d : DeploymentId) (s : Control) : Local d s s :=
  ⟨s.slots d, by simp [Control.on]⟩

theorem on (d : DeploymentId) (s : Control) (f : Slot → Slot) : Local d s (s.on d f) :=
  ⟨f (s.slots d), rfl⟩

theorem trans (h : Local d s s') (h' : Local d s' s'') : Local d s s'' := by
  obtain ⟨y, rfl⟩ := h
  obtain ⟨z, rfl⟩ := h'
  exact ⟨z, by simp [Control.on]⟩

theorem slots_of_ne (h : Local d s s') {d' : DeploymentId} (hd : d' ≠ d) :
    s'.slots d' = s.slots d' := by
  obtain ⟨y, rfl⟩ := h
  exact Control.slots_on_of_ne s hd _

theorem known (h : Local d s s') : s'.known = s.known := by
  obtain ⟨y, rfl⟩ := h
  rfl

theorem eq_on (h : Local d s s') : s' = s.on d fun _ ↦ s'.slots d := by
  obtain ⟨y, rfl⟩ := h
  rw [Control.slots_on_self]

end Local

theorem Touch.refl (d : DeploymentId) (s : Control) : Touch k T d s s := ⟨.refl, .refl d s⟩

theorem Touch.trans (h : Touch k T d s s') (h' : Touch k T d s' s'') : Touch k T d s s'' :=
  ⟨h.micros.trans h'.micros, h.only.trans h'.only⟩

theorem Control.start_local (recovering token fromReady : Bool) (cont : Cont) :
    Local d s (s.start k d recovering token fromReady cont).1 := by
  unfold Control.start
  have hclear : Local d s (if recovering then s else s.on d Slot.clearExclusions) := by
    split_ifs
    · exact .refl d s
    · exact .on d s _
  dsimp only
  split
  · exact hclear
  · exact hclear.trans (Local.on d _ fun x ↦ x.acceptStart _ _ recovering cont)

variable (k T) in
/-- Steps of one deployment that leave its queue and its intent alone. -/
structure Rest (d : DeploymentId) (s s' : Control) : Prop extends Steps k T s s' where
  only : Local d s s'
  ops : (s'.slots d).ops = (s.slots d).ops
  running : (s'.slots d).intent.running = (s.slots d).intent.running
  there : (s'.slots d).dep.isSome = (s.slots d).dep.isSome
  planned : (∀ r, (s.slots d).dep = some r → r.spec.kind.planned = true) →
    ∀ r, (s'.slots d).dep = some r → r.spec.kind.planned = true

namespace Rest

theorem refl (d : DeploymentId) (s : Control) : Rest k T d s s :=
  ⟨.refl s, .refl d s, rfl, rfl, rfl, fun h ↦ h⟩

theorem trans (h : Rest k T d s s') (h' : Rest k T d s' s'') : Rest k T d s s'' :=
  ⟨h.toSteps.trans h'.toSteps, h.only.trans h'.only, h'.ops.trans h.ops,
    h'.running.trans h.running, h'.there.trans h.there, fun hp ↦ h'.planned (h.planned hp)⟩

theorem book (hview : (f (s.slots d)).view = s.view d) (hstill : (s.slots d).Still (f (s.slots d)))
    (hops : (f (s.slots d)).ops = (s.slots d).ops) (hdep : (f (s.slots d)).dep = (s.slots d).dep) :
    Rest k T d s (s.on d f) where
  toSteps := .book hstill hview
  only := .on d s f
  ops := by rw [Control.slots_on_self, hops]
  running := by
    rw [Control.slots_on_self]
    exact congrArg View.running hview
  there := by rw [Control.slots_on_self, hdep]
  planned := by
    rw [Control.slots_on_self, hdep]
    exact fun h ↦ h

theorem view_ops (h : Rest k T d s s') : (s'.view d).ops = (s.view d).ops := by
  simp [Control.view, Slot.view, h.ops]

theorem touch (h : Rest k T d s s') : Touch k T d s s' := ⟨h.micros, h.only⟩

theorem planTouch (spec : DeploymentSpec) : Rest k T d s (s.planTouch k d spec) := by
  unfold Control.planTouch
  split_ifs
  · exact .book rfl (.of_eq rfl rfl) rfl rfl
  · exact .refl d s

theorem expireBlock (hs : s.Good) {r : Deployment} (hdep : (s.slots d).dep = some r)
    (hkind : r.spec.kind.planned = true) (plan : Plan) :
    Rest k T d s (s.on d (·.expireBlock s.now plan)) where
  toSteps := by
    refine Steps.on (.of_eq rfl rfl) (.inl (hs.mem_known hdep)) ?_
    exact .expire (planFingerprint plan) (Slot.face_of_dep hdep) hkind
  only := .on d s _
  ops := by simp [Slot.expireBlock]
  running := by simp [Slot.expireBlock]
  there := by simp [Slot.expireBlock]
  planned := by simp [Slot.expireBlock]

end Rest

namespace Control

theorem planned_of_not_pinned {spec : DeploymentSpec} (h : pinsNodes spec = false) :
    spec.kind.planned = true := by
  unfold pinsNodes at h
  cases hk : spec.kind <;> simp [hk, DeploymentKind.planned] at h ⊢

theorem chooseAuto_planned {base spec : DeploymentSpec} {replacing : Option DeploymentId}
    {exclude : List NodeId} (h : s.chooseAuto k base replacing exclude = some spec) :
    spec.kind.planned = true := by
  obtain ⟨⟨profile, choice⟩, hfind, rfl⟩ := Option.map_eq_some_iff.mp h
  have hmem := List.mem_of_find?_eq_some hfind
  simp only [autoCandidates, List.mem_flatMap, List.mem_map] at hmem
  obtain ⟨_, -, kind, hkind, hpair⟩ := hmem
  cases hpair
  rcases List.mem_cons.mp hkind with rfl | hkind
  · rfl
  · rw [List.mem_singleton.mp hkind]
    rfl

theorem redecide_rest (hs : s.Good) (hdep : s.getDeployment d = some dep)
    (hop : s.operating d = false) (hpins : pinsNodes dep.spec = false)
    (hrunning : (s.slots d).intent.running = true) : Rest k T d s (s.redecide k d dep).1 := by
  unfold redecide
  by_cases hauto : dep.spec.autoModel ≠ some true
  · rw [if_pos hauto]
    exact .refl d s
  rw [if_neg hauto]
  obtain ⟨r, hr, rfl⟩ := getDeployment_some hdep
  have hforget : Rest k T d s (if (autoCandidates k r.spec).isEmpty then s
      else s.on d (·.expireExclusions s.now)) := by
    split_ifs
    · exact .refl d s
    · exact .book rfl (.of_eq rfl rfl) rfl rfl
  have hdep' : ((if (autoCandidates k r.spec).isEmpty then s
      else s.on d (·.expireExclusions s.now)).slots d).dep = some r := by
    split_ifs
    · exact hr
    · simpa [Slot.expireExclusions] using hr
  cases hchoice : s.chooseAuto k r.spec (some d) (s.rememberedNodes d) with
  | none => exact hforget
  | some spec =>
    dsimp only
    generalize (if (autoCandidates k r.spec).isEmpty then s
      else s.on d (·.expireExclusions s.now)) = s₁ at hforget hdep' ⊢
    split_ifs
    · have hview : ((s₁.slots d).update s₁.now fun r ↦ { r with spec }).view =
          { s₁.view d with face := some { r.face with spec } } := by
        simp [Slot.update, Slot.view, Control.view, hdep', Deployment.face]
      refine hforget.trans ⟨Steps.on (f := (·.update s₁.now fun r ↦ { r with spec }))
        (.of_eq rfl rfl) (.inl ((hforget.micros.good hs).mem_known hdep')) ?_,
        Local.on d s₁ (·.update s₁.now _), ?_, ?_, ?_, ?_⟩
      · rw [hview]
        refine .respec spec (Slot.face_of_dep hdep') ?_ (planned_of_not_pinned hpins)
          (chooseAuto_planned hchoice) hpins (hforget.running.trans hrunning)
        simpa [Control.view, Slot.view, hforget.ops] using ops_eq_nil_of_not_operating hop
      · simp [Slot.update]
      · simp [Slot.update]
      · simp [Slot.update]
      · intro _ r' hr'
        simp only [slots_on_self, Slot.update, hdep', Option.map_some, Option.some.injEq] at hr'
        subst hr'
        exact chooseAuto_planned hchoice
    · exact hforget

/-- What a re-placement has done to its deployment before its first await. -/
def Moved (k : Deps) (T : Terms) (d : DeploymentId) (s : Control) :
    Control × MoveOutcome → Prop
  | (s', .kept) => Rest k T d s s'
  | (s', .refused _) => Rest k T d s s' ∧ (s.slots d).ops = []
  | (s', .started) => Steps k T s s' ∧ Local d s s'

theorem Moved.after {r : Control × MoveOutcome} (h : Rest k T d s s')
    (hr : Moved k T d s' r) : Moved k T d s r := by
  obtain ⟨t, outcome⟩ := r
  cases outcome with
  | kept => exact h.trans hr
  | refused e => exact ⟨h.trans hr.1, h.ops ▸ hr.2⟩
  | started => exact ⟨h.toSteps.trans hr.1, h.only.trans hr.2⟩

theorem replace_moved (hs : s.Quiet d) {modelChanged : Bool} {origin : Origin}
    (hdep : ∀ r, (s.slots d).dep = some r → r.spec.kind.planned = true)
    (hsome : (s.slots d).dep.isSome = true) (hops : (s.slots d).ops = [])
    (hrunning : (s.slots d).intent.running = true) :
    Moved k T d s (s.replace k d dep modelChanged origin) := by
  unfold replace
  have htouch : Rest k T d s (s.planTouch k d dep.spec) := .planTouch dep.spec
  cases s.plan k dep.spec (some d) [] with
  | error e => exact htouch
  | ok candidate =>
    dsimp only
    obtain ⟨r, hr⟩ := Option.isSome_iff_exists.mp (htouch.there.trans hsome)
    have hexpire : Rest k T d s ((s.planTouch k d dep.spec).on d
        (·.expireBlock (s.planTouch k d dep.spec).now candidate)) :=
      htouch.trans (.expireBlock (htouch.quiet hs).good hr (htouch.planned hdep r hr) candidate)
    generalize (s.planTouch k d dep.spec).on d
      (·.expireBlock (s.planTouch k d dep.spec).now candidate) = s₂ at hexpire ⊢
    have hpaced : Rest k T d s (s₂.on d fun x ↦ { x with lastMove := s₂.now }) :=
      hexpire.trans (.book rfl (.of_eq rfl rfl) rfl rfl)
    split_ifs
    · exact hpaced
    · exact hpaced
    · exact hpaced
    generalize (s₂.on d fun x ↦ { x with lastMove := s₂.now }) = s₃ at hpaced ⊢
    have hreset : Rest k T d s (s₃.on d fun x ↦
        { x with intent := { x.intent with attempts := 0, retryAt := 0 } }) :=
      hpaced.trans (.book rfl (.of_eq rfl rfl) rfl rfl)
    generalize (s₃.on d fun x ↦
      { x with intent := { x.intent with attempts := 0, retryAt := 0 } }) = s₄ at hreset ⊢
    have hquiet := hreset.quiet hs
    have hstart : Steps k T s (s₄.start k d true false true (.move origin)).1 :=
      hreset.toSteps.trans (start_steps hquiet.good (by simp [hquiet.jobs])
        (.inl (hreset.running.trans hrunning)) (.inr (.inl ⟨origin, rfl⟩)) (by simp))
    have hlocal := hreset.only.trans (start_local (k := k) true false true (.move origin))
    rcases hresult : s₄.start k d true false true (.move origin) with ⟨s', _ | e⟩
    · rw [hresult] at hstart hlocal
      exact ⟨hstart, hlocal⟩
    · obtain rfl : s' = s₄ := by
        unfold start at hresult
        simp only [if_true] at hresult
        split at hresult <;> simp_all
      exact ⟨hreset, hops⟩

theorem redistribute_moved (hs : s.Quiet d) (origin : Origin)
    (hrunning : (s.slots d).intent.running = true ∨ (s.slots d).ops ≠ []) :
    Moved k T d s (s.redistribute k d origin) := by
  unfold redistribute
  cases hdep : s.getDeployment d with
  | none => exact .refl d s
  | some dep =>
    dsimp only
    by_cases hskip : (s.operating d || pinsNodes dep.spec) = true
    · rw [if_pos hskip]
      exact .refl d s
    rw [if_neg hskip]
    simp only [Bool.or_eq_true, not_or, Bool.not_eq_true] at hskip
    obtain ⟨r, hr, rfl⟩ := getDeployment_some hdep
    have hops := ops_eq_nil_of_not_operating hskip.1
    have hrunning : (s.slots d).intent.running = true := hrunning.resolve_right (by simp [hops])
    have hrest : Rest k T d s (s.redecide k d { r with id := d }).1 :=
      redecide_rest hs.good hdep hskip.1 hskip.2 hrunning
    rcases hresult : s.redecide k d { r with id := d } with ⟨s₁, _ | ⟨dep', modelChanged⟩⟩
    · rw [hresult] at hrest
      exact hrest
    · rw [hresult] at hrest
      refine .after hrest (replace_moved (hrest.quiet hs) (hrest.planned ?_) ?_ ?_ ?_)
      · intro r' hr'
        cases hr.symm.trans hr'
        exact planned_of_not_pinned hskip.2
      · rw [hrest.there, hr]
        rfl
      · rw [hrest.ops, hops]
      · rw [hrest.running, hrunning]

theorem notMoved_micros (hknown : d ∈ s.known) (origin : Origin) (hjobs : (s.slots d).jobs = [])
    (hfleet : s.fleet.isSome = true → origin = .other)
    (hbehind : origin ≠ .other → ∀ o ∈ (s.view d).ops, o.Behind) :
    Touch k T d s (s.notMoved d origin) := by
  cases origin with
  | other => exact .refl d s
  | expired why =>
    refine ⟨Micros.on (f := fun x ↦ { x with jobs := x.jobs ++ [.lateFailure why] })
      (.inl hknown) ?_, Local.on d s fun x ↦ { x with jobs := x.jobs ++ [.lateFailure why] }⟩
    have hview : ({ s.slots d with jobs := (s.slots d).jobs ++ [.lateFailure why] } : Slot).view =
        { s.view d with jobs := [.lateFailure why] } := by
      rw [hjobs]
      rfl
    rw [hview]
    refine .pushLate why (hbehind (by simp)) hjobs ?_
    by_contra hsome
    simpa using hfleet (Option.isSome_iff_ne_none.mpr hsome)

section

variable (hs : s.Quiet d) (hknown : d ∈ s.known) (origin : Origin)
  (hrunning : (s.slots d).intent.running = true ∨ (s.slots d).ops ≠ [])
  (hfleet : s.fleet.isSome = true → origin = .other)
  (hbehind : origin ≠ .other → ∀ o ∈ (s.view d).ops, o.Behind)

include hs hknown hrunning hfleet hbehind

theorem move_micros : Touch k T d s (s.move k d origin) := by
  have hmoved : Moved k T d s (s.redistribute k d origin) :=
    redistribute_moved hs origin hrunning
  unfold move
  generalize s.redistribute k d origin = r at hmoved ⊢
  obtain ⟨s₁, _ | e | _⟩ := r
  · have hrest : Rest k T d s s₁ := hmoved
    exact hrest.touch.trans (notMoved_micros (hrest.known ▸ hknown) origin (hrest.quiet hs).jobs
      (hrest.fleet ▸ hfleet) (hrest.view_ops ▸ hbehind))
  · obtain ⟨hrest, hops⟩ : Rest k T d s s₁ ∧ (s.slots d).ops = [] := hmoved
    refine hrest.touch.trans
      ⟨.on (.inl (hrest.known ▸ hknown)) ?_, .on d s₁ fun x ↦ { x with jobs := _ }⟩
    have hjobs₁ := (hrest.quiet hs).jobs
    have hview : ({ s₁.slots d with jobs := (s₁.slots d).jobs ++
        [.settled (.move origin) (.error e) [] []] } : Slot).view =
        { s₁.view d with jobs := [.settled (.move origin) (.error e) [] []] } := by
      rw [hjobs₁]
      rfl
    rw [hview]
    refine .pushRefused origin e (by simp [view, Slot.view, hrest.ops.trans hops]) hjobs₁
      (hrest.running.trans ?_) (show s₁.fleet.isSome = true → _ from hrest.fleet ▸ hfleet)
    exact hrunning.resolve_right (by simp [hops])
  · exact ⟨hmoved.1.micros, hmoved.2⟩

theorem moveFailed_micros : Micros k T s (s.moveFailed k d origin) := by
  unfold moveFailed
  dsimp only
  split_ifs
  · exact (notMoved_micros hknown origin hs.jobs hfleet hbehind).1
  · have hexclude : Rest k T d s (s.on d (·.exclude s.now (failedNodes (s.slots d)))) :=
      .book rfl (.of_eq rfl rfl) rfl rfl
    refine hexclude.micros.trans (move_micros (hexclude.quiet hs) hknown origin ?_ hfleet
      (hexclude.view_ops ▸ hbehind)).1
    rw [hexclude.running, hexclude.ops]
    exact hrunning

end

/-! ## The sweeper -/

theorem recovering_steps (hs : s.Quiet d)
    (hrunning : (s.slots d).intent.running = true) (fromReady : Bool) :
    Steps k T s (s.start k d true false fromReady .none).1 :=
  start_steps hs.good (by simp [hs.jobs]) (.inl hrunning) (.inl rfl) (by simp)

theorem recover_micros (hs : s.Quiet d) (hrunning : (s.slots d).intent.running = true) :
    Touch k T d s (s.recover k d) := by
  have hcount : Rest k T d s (s.on d fun x ↦
      { x with intent := { x.intent with attempts := x.intent.attempts + 1 } }) :=
      .book rfl (.of_eq rfl rfl) rfl rfl
  exact hcount.touch.trans
    ⟨(recovering_steps (hcount.quiet hs) (hcount.running.trans hrunning) false).micros,
    start_local true false false .none⟩

theorem recoverFailed_micros (hs : s.Quiet d) (dep : Deployment) :
    Touch k T d s (s.recoverFailed k d dep) := by
  unfold recoverFailed
  dsimp only
  by_cases hskip : (s.slots d).intent.running = false ∨
      (dep.state ≠ .failed ∧ (s.slots d).reconnecting = none) ∨ s.operating d = true ∨
      MAX_RECOVERY_ATTEMPTS ≤ (s.slots d).intent.attempts ∨ s.now < (s.slots d).intent.retryAt
  · rw [if_pos hskip]
    exact .refl d s
  rw [if_neg hskip]
  have hrunning : (s.slots d).intent.running = true := by simpa using (not_or.mp hskip).1
  have htouch : Rest k T d s
      (if requiredNodes dep = [] then s.planTouch k d dep.spec else s) := by
    split_ifs
    · exact .planTouch dep.spec
    · exact .refl d s
  generalize (if requiredNodes dep = [] then s.planTouch k d dep.spec else s) = s₁ at htouch ⊢
  have hs₁ := htouch.quiet hs
  have hrunning₁ := htouch.running.trans hrunning
  -- Whatever is planned first, what follows starts from a state at rest.
  refine htouch.touch.trans ?_
  split
  · exact .refl d s₁
  · rename_i required _
    split_ifs with hhere hpinned
    · exact recover_micros hs₁ hrunning₁
    · exact .refl d s₁
    · generalize required.filter (!s₁.present ·) = offline
      have hexclude : Rest k T d s₁ (s₁.on d (·.exclude s₁.now offline)) :=
        .book rfl (.of_eq rfl rfl) rfl rfl
      generalize s₁.on d (·.exclude s₁.now offline) = s₂ at hexclude ⊢
      have hreplan : Rest k T d s₁ (s₂.planTouch k d dep.spec) :=
        hexclude.trans (.planTouch dep.spec)
      generalize s₂.planTouch k d dep.spec = s₃ at hreplan ⊢
      split
      · exact hreplan.touch
      · split_ifs
        · have hretry : Rest k T d s₁ (s₃.on d fun x ↦
              { x with intent := { x.intent with retryAt := s₃.now + 5000 } }) :=
            hreplan.trans (.book rfl (.of_eq rfl rfl) rfl rfl)
          exact hretry.touch.trans
            (recover_micros (hretry.quiet hs₁) (hretry.running.trans hrunning₁))
        · exact hreplan.touch

theorem settled_rest (dep : Deployment) : Rest k T d s (s.on d (settled dep s.now)) := by
  refine .book ?_ (.of_eq ?_ ?_) ?_ ?_ <;> unfold settled <;> dsimp only <;> split_ifs <;> rfl

theorem reconcileOne_micros (hs : s.Quiet d) (hknown : d ∈ s.known) (hfleet : s.fleet = none) :
    Touch k T d s (s.reconcileOne k d) := by
  unfold reconcileOne
  cases s.getDeployment d with
  | none => exact .refl d s
  | some dep =>
    dsimp only
    have hfirst : Steps k T s (s.on d fun x ↦
        (x.finishDraining s.now).observeReconnect k s.now s.present) := by
      refine Steps.on (f := fun x ↦ (x.finishDraining s.now).observeReconnect k s.now s.present)
        (.of_eq (by simp) (by simp)) (.inl hknown) ?_
      rw [Slot.observeReconnect_view]
      exact Slot.finishDraining_move (c := s.ambient) _
    have hturn : Touch k T d s (s.on d fun x ↦
        (x.finishDraining s.now).observeReconnect k s.now s.present) := ⟨hfirst.micros, .on d s _⟩
    generalize (s.on d fun x ↦ (x.finishDraining s.now).observeReconnect k s.now s.present) = s₁
      at hfirst hturn ⊢
    have hs₁ := hfirst.quiet hs
    have hknown₁ : d ∈ s₁.known := hfirst.known ▸ hknown
    have hfleet₁ : s₁.fleet = none := hfirst.fleet.trans hfleet
    have hrecover : Touch k T d s ((s₁.on d (settled dep s₁.now)).recoverFailed k d dep) := by
      have hsettled := settled_rest (k := k) (T := T) (s := s₁) (d := d) dep
      exact hturn.trans (hsettled.touch.trans (recoverFailed_micros (hsettled.quiet hs₁) dep))
    cases hreconnecting : (s₁.slots d).reconnecting with
    | some r =>
      dsimp only
      by_cases hexpired : s₁.reconnectExpired (s₁.slots d) r = true ∨
          MAX_RECOVERY_ATTEMPTS ≤ (s₁.slots d).intent.attempts
      · rw [if_pos hexpired]
        split_ifs with hop
        · exact hturn
        · have hops := ops_eq_nil_of_not_operating (by simpa using hop)
          have hrunning : (s₁.slots d).intent.running = true :=
            (hs₁.good.slots d).intent.reconnect (by simp [Control.view, Slot.view, hreconnecting])
          exact hturn.trans (move_micros hs₁ hknown₁ (.expired (expiredText r)) (.inl hrunning)
            (by simp [hfleet₁]) (by simp [Control.view, Slot.view, hops]))
      · rw [if_neg hexpired]
        exact hrecover
    | none =>
      dsimp only
      split_ifs with hwedged
      · have hpace : Rest k T d s₁ (s₁.on d fun x ↦ { x with lastMove := s₁.now }) :=
          .book rfl (.of_eq rfl rfl) rfl rfl
        exact hturn.trans (hpace.touch.trans (move_micros (hpace.quiet hs₁) hknown₁ .other
          (.inl (hpace.running.trans hwedged.1)) (fun _ ↦ rfl) (by simp)))
      · exact hrecover

theorem foldl_micros {f : Control → DeploymentId → Control} {l : List DeploymentId}
    (hnodup : l.Nodup) (hs : s.Good) (hknown : ∀ d ∈ l, d ∈ s.known)
    (hjobs : ∀ d ∈ l, (s.slots d).jobs = [])
    (h : ∀ s' d, s'.Quiet d → s'.fleet = s.fleet → d ∈ s'.known →
      Touch k T d s' (f s' d)) : Micros k T s (l.foldl f s) := by
  suffices ∀ s', s'.Good → s'.fleet = s.fleet → (∀ d ∈ l, d ∈ s'.known) →
      (∀ d ∈ l, (s'.slots d).jobs = []) → Micros k T s' (l.foldl f s') from
    this s hs rfl hknown hjobs
  induction l with
  | nil => exact fun _ _ _ _ _ ↦ .refl
  | cons d l ih =>
    intro s' hs' hfleet hknown' hjobs'
    obtain ⟨hmicros, hlocal⟩ := h s' d ⟨hs', hjobs' d List.mem_cons_self⟩ hfleet
      (hknown' d List.mem_cons_self)
    have hnot := (List.nodup_cons.mp hnodup).1
    refine hmicros.trans
      (ih (List.nodup_cons.mp hnodup).2 (fun d' hd ↦ hknown d' (List.mem_cons_of_mem d hd))
      (fun d' hd ↦ hjobs d' (List.mem_cons_of_mem d hd)) _ (hmicros.good hs') ?_ ?_ ?_)
    · obtain ⟨y, hy⟩ := hlocal
      rw [hy]
      exact hfleet
    · intro d' hd
      rw [hlocal.known]
      exact hknown' d' (List.mem_cons_of_mem d hd)
    · intro d' hd
      rw [hlocal.slots_of_ne (by rintro rfl; exact hnot hd)]
      exact hjobs' d' (List.mem_cons_of_mem d hd)

theorem reconcile_micros (hs : s.Good) (hjobs : ∀ d ∈ s.known, (s.slots d).jobs = []) :
    Micros k T s (s.reconcile k) := by
  unfold reconcile
  split_ifs with hskip
  · exact .refl
  · have hfleet : s.fleet = none := by simpa using (not_or.mp hskip).2
    exact foldl_micros s.distinctKnown hs (fun _ hd ↦ hd) hjobs
      fun s' d hs' hf hd ↦ reconcileOne_micros hs' hd (hf.trans hfleet)

/-! ## Nodes that come and go -/

theorem onOffline_steps (hs : s.Good) (nodeId : NodeId) :
    Steps k T s (s.onOffline k nodeId) := by
  unfold onOffline
  refine .foldl s.known hs fun s' hs' hsteps d hd ↦ ?_
  exact Steps.on
    (.of_eq (by simp) (by simp)) (.inl (hsteps.known ▸ hd))
    (Slot.offline_move (hs'.slots d).rows _ nodeId)

theorem foldl_on_eq (g : ℕ → Slot → Slot) {l : List DeploymentId} (hl : l.Nodup) (s : Control) :
    l.foldl (fun s d ↦ s.on d (g s.now)) s =
      { s with slots := fun d ↦ if d ∈ l then g s.now (s.slots d) else s.slots d } := by
  induction l generalizing s with
  | nil => simp
  | cons e l ih =>
    obtain ⟨he, hl⟩ := List.nodup_cons.mp hl
    rw [List.foldl_cons, ih hl]
    simp only [on]
    congr 1
    funext d
    by_cases hd : d = e
    · subst hd
      simp [he]
    · simp [hd]

def graceFrom (s : Control) (nodeId : NodeId) : ℕ :=
  max s.now (((s.updateLease.filter (·.nodeId = nodeId)).map (·.expiresAt)).getD 0)

theorem onOffline_eq (k : Deps) (s : Control) (nodeId : NodeId) : s.onOffline k nodeId =
    { s with slots := fun d ↦ if d ∈ s.known then
        (s.slots d).offline k s.now (s.graceFrom nodeId) nodeId else s.slots d } :=
  foldl_on_eq (fun now x ↦ x.offline k now (max now _) nodeId) s.distinctKnown s

theorem onOffline_withdrawn (hs : s.Good) (nodeId : NodeId) :
    ((s.onOffline k nodeId).view d).Withdrawn nodeId := by
  rw [view, onOffline_eq]
  dsimp only
  split_ifs with hd
  · exact Slot.offline_withdrawn (hs.slots d)
  · intro f plan hf
    cases ((hs.unknown d hd).1).symm.trans hf

theorem retryPlan_steps (hs : s.Quiet d) : Steps k T s (s.retryPlan k d) := by
  unfold retryPlan
  split
  · exact .refl s
  · rename_i dep _
    split_ifs with hretry
    · simp only [Bool.and_eq_true] at hretry
      have hpace : Rest k T d s (s.on d fun x ↦ { x with lastMove := s.now }) :=
        .book rfl (.of_eq rfl rfl) rfl rfl
      exact hpace.toSteps.trans (recovering_steps (hpace.quiet hs)
        (hpace.running.trans hretry.1.1.1.2) false)
    · exact .refl s

theorem improve_micros (hs : s.Quiet d) (hknown : d ∈ s.known) :
    Touch k T d s (s.improve k d) := by
  unfold improve
  split
  · exact .refl d s
  · rename_i dep _
    by_cases hready : (dep.state = .ready && (s.slots d).intent.running && !pinsNodes dep.spec &&
        (s.slots d).reconnecting.isNone && !s.operating d && s.paced k d &&
        dep.updatedAt + k.moveSettleMs ≤ s.now) = true
    · rw [if_pos hready]
      simp only [Bool.and_eq_true] at hready
      have hrunning := hready.1.1.1.1.1.2
      split_ifs
      · exact move_micros hs hknown .other (.inl hrunning) (fun _ ↦ rfl) (by simp)
      · have htouch : Rest k T d s (s.planTouch k d dep.spec) := .planTouch dep.spec
        dsimp only
        split
        · exact htouch.touch
        · split_ifs
          · exact htouch.touch.trans (move_micros (htouch.quiet hs) (htouch.known ▸ hknown) .other
              (.inl (htouch.running.trans hrunning)) (fun _ ↦ rfl) (by simp))
          · exact htouch.touch
    · rw [if_neg hready]
      exact .refl d s

theorem onNodeOnline_micros (hs : s.Good) (hjobs : ∀ d ∈ s.known, (s.slots d).jobs = [])
    (nodeId : NodeId) : Micros k T s (s.onNodeOnline k nodeId) := by
  unfold onNodeOnline
  dsimp only
  have hforget : Steps k T s (s.known.foldl (fun s d ↦ s.on d (forgetNode nodeId)) s) :=
    .foldl s.known hs fun s' _ _ d _ ↦ Steps.book (.of_eq rfl rfl) rfl
  generalize s.known.foldl (fun s d ↦ s.on d (forgetNode nodeId)) s = s₁ at hforget ⊢
  have hs₁ := hforget.micros.good hs
  have hjobs₁ := hforget.allJobs hjobs
  have hretry : Steps k T s₁ (s₁.known.foldl (fun s d ↦ s.retryPlan k d) s₁) :=
    .foldl s₁.known hs₁ fun s' hs' h d hd ↦
      retryPlan_steps ⟨hs', (h.still d).jobs.trans (hjobs₁ d hd)⟩
  generalize s₁.known.foldl (fun s d ↦ s.retryPlan k d) s₁ = s₂ at hretry ⊢
  refine hforget.micros.trans (hretry.micros.trans
    (foldl_micros s₂.distinctKnown (hretry.micros.good hs₁) (fun _ hd ↦ hd) (hretry.allJobs hjobs₁)
      fun s' d hs' _ hd ↦ improve_micros hs' hd))

end Control

end

end Swarmlet
