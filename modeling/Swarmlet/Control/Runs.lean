import Swarmlet.Control.Queue

/-!
# Runs of the control plane

Every event is a sequence of small steps, under the terms the event itself sets: the deployments it
names, the node it greets, and, where it is a message of an agent, whether that agent is honest and
keeps its offer. So whatever every small step keeps, every run keeps.
-/

namespace Swarmlet

open Js EventMachine

namespace Event

/-! ## The terms of an event -/

/-- The deployments an event asks to run. A continuation asks for its deployment only while the
distribution it belongs to is current. -/
def Names (s : Control) : Event → DeploymentId → Prop
  | start d, d' => d' = d
  | applyDistribution d, d' => d' = d
  | applyAllocation id, d' => ∃ run, s.runs.find? (·.id = id) = some run ∧
      ∃ e ∈ run.entries, e.deploymentId = d'
  | job d i, d' => d' = d ∧ ∃ spec result sent excluded, (s.slots d).jobs[i]? =
      some (.settled (.distribution spec (s.slots d).generation) result sent excluded)
  | fleetJob, d' => ∃ t ∈ s.fleet, ∃ e ∈ t.run.entries, e.deploymentId = d'
  | _, _ => False

/-- An agent that has reported an assignment stopped, or left it out of a hello, does not report it
live again. A health watch is the exception: it is sent again under its old id. -/
def Honest (s : Control) : Event → Prop
  | report n id state _ => state ≠ .stopped → s.LiveOn n id
  | hello n m => Control.Hello.Ordered m.assignments ∧
      ∀ a ∈ m.assignments, a.state ≠ .stopped → s.LiveOn n a.id
  | _ => True

def OffersKept (s : Control) : Event → Prop
  | offer n o => ∀ r ∈ s.nodes.rows, r.id = n → ∀ o', r.offer = some o' → o' = o
  | hello n m => ∀ r ∈ s.nodes.rows, r.id = n → ∀ o', r.offer = some o' → o' = m.offer
  | _ => True

def Greets : Event → NodeId → Prop
  | hello n _, n' => n' = n
  | _, _ => False

def Traffic : Event → DeploymentId → Prop
  | inflight d _, d' => d' = d
  | _, _ => False

def Leases : Event → Prop
  | acquireUpdate _ _ | releaseUpdate _ _ => True
  | _ => False

/-- The pieces of a fleet apply: its beginning, the continuations of its stops and starts, and its
own jobs. -/
def Fleet (s : Control) : Event → Prop
  | applyAllocation _ | fleetJob => True
  | job d i => ∃ cont result sent excluded,
      (s.slots d).jobs[i]? = some (.settled cont result sent excluded) ∧
      (cont = .fleetStop ∨ cont = .fleetStart)
  | _ => False

def Restarts : Event → Prop
  | restart => True
  | _ => False

def terms (s : Control) (e : Event) : Terms where
  names := e.Names s
  honest := e.Honest s
  offers := e.OffersKept s
  greets := e.Greets
  traffic := e.Traffic
  leases := e.Leases
  fleet := e.Fleet s
  restarts := e.Restarts

end Event

section

variable {k : Deps} {T : Terms} {s s' : Control} {d : DeploymentId}

namespace Control

/-! ## Requests -/

theorem create_micros (spec : DeploymentSpec) : Micros k T s (s.create k d spec) := by
  unfold create
  split_ifs with hd
  · exact .refl
  · split
    · exact .refl
    · rename_i spec _
      exact .single (.created d _ spec hd rfl)

theorem remove_micros (hs : s.Good) : Micros k T s (s.remove d) := by
  unfold remove
  split
  · exact .refl
  · split_ifs
    · exact (stop_steps hs (.inr (.inl rfl)) (by simp)).micros
    · exact .refl

theorem saveDistribution_micros (value : LayerDistribution) :
    Micros k T s (s.saveDistribution k d value) := by
  unfold saveDistribution
  split_ifs
  · exact .refl
  split
  · exact .refl
  · rename_i spec _
    have htouch : Rest k T d s (s.planTouch k d spec) := .planTouch spec
    dsimp only
    generalize s.planTouch k d spec = s₁ at htouch ⊢
    split
    · exact htouch.micros
    · refine htouch.micros.trans (Micros.book ?_)
      have hface : ∀ dep : Deployment,
          ({ dep with savedDistribution := some value } : Deployment).face = dep.face := fun _ ↦ rfl
      exact (s₁.slots d).view_update_same hface s₁.now

theorem distributionSpec_ok {value : Option LayerDistribution} {spec : DeploymentSpec}
    (h : s.distributionSpec d value = .ok spec) : spec.kind.planned = true ∧
      ∃ r, (s.slots d).dep = some r ∧ r.spec.kind.planned = true := by
  unfold distributionSpec at h
  split at h
  · cases h
  · rename_i dep hdep
    obtain ⟨r, hr, rfl⟩ := getDeployment_some hdep
    split_ifs at h with hshared hkind
    have hkind : r.spec.kind = .split := not_ne_iff.mp hkind
    split at h
    · cases h
    · split_ifs at h
      cases h
      exact ⟨by simp [hkind, DeploymentKind.planned], r,
        hr, by simp [hkind, DeploymentKind.planned]⟩

theorem applyDistribution_micros (hs : s.Good) (hjobs : (s.slots d).jobs = []) (hname : T.names d) :
    Micros k T s (s.applyDistribution k d) := by
  unfold applyDistribution
  dsimp only
  by_cases hskip : s.fleet.isSome = true ∨ (s.slots d).distributing = true ∨ s.operating d = true ∨
      0 < (s.slots d).inflight
  · rw [if_pos hskip]
  rw [if_neg hskip]
  simp only [not_or, Bool.not_eq_true] at hskip
  have hops := ops_eq_nil_of_not_operating hskip.2.2.1
  split
  · exact .refl
  · rename_i spec hspec
    obtain ⟨hnew, r, hr, hold⟩ := distributionSpec_ok hspec
    have htouch : Rest k T d s (s.planTouch k d spec) := .planTouch spec
    obtain ⟨⟨e, b, heq⟩, -⟩ := planTouch_touched spec
    split
    · exact htouch.micros
    · have hmark :
          Rest k T d s ((s.planTouch k d spec).on d fun x ↦ { x with distributing := true }) :=
        htouch.trans (.book rfl (.of_eq rfl rfl) rfl rfl)
      refine hmark.micros.trans
        (stop_steps (hmark.micros.good hs)
        (.inr (.inr ⟨hmark.ops.trans hops, (hmark.still d).jobs.trans hjobs, hname,
        .inr ⟨spec, r, ?_, hnew, ?_, hold⟩⟩)) (by simp)).micros
      · rw [slots_on_self]
      · rw [slots_on_self, heq]
        exact hr

/-! ## The update lease -/

theorem lease_micros (hs : s.Good) (hleases : T.leases) (updateLease : Option UpdateLease)
    (updateRecovery : List DeploymentId) :
    Micros k T s { s with updateLease, updateRecovery } :=
  .single (.around _ {
    slots := rfl
    known := rfl
    now := le_rfl
    heard := List.Subset.refl _
    offers := offers_refl _
    lost := fun _ hn hn' ↦ nomatch hn.symm.trans hn'
    lease := .inr hleases
    applies := .inl rfl
    runs := hs.runs
    fleet := fun t ht ↦ .inl ⟨t, ht, rfl, id⟩ })

/-! ## Nodes that come and go -/

theorem get_upsert (t : NodeTable) (r : NodeRow) {n : NodeId} {m : NodeRow} (h : t.get n = some m) :
    ∃ m', (t.upsert r).get n = some m' ∧ m'.online = m.online ∧ m'.offer = m.offer := by
  unfold NodeTable.upsert
  split_ifs with hid
  · rw [get_modify, h]
    refine ⟨_, rfl, ?_, ?_⟩ <;> dsimp only <;> split_ifs <;> rfl
  · refine ⟨m, ?_, rfl, rfl⟩
    unfold NodeTable.get at h ⊢
    rw [List.find?_append, h]
    rfl

theorem mem_of_get {t : NodeTable} {n : NodeId} {m : NodeRow} (h : t.get n = some m) :
    m ∈ t.rows ∧ m.id = n :=
  ⟨List.mem_of_find?_eq_some h, by simpa using List.find?_some h⟩

theorem enroll_micros (hs : s.Good) (r : NodeRow) :
    Micros k T s { s with nodes := s.nodes.upsert r } := by
  refine Steps.micros (.around hs rfl rfl rfl (List.Subset.refl _) rfl rfl rfl (fun n hn ↦ ?_)
    fun _ n hn o ho ↦ ?_)
  · simp only [present, Bool.and_eq_true, Option.any_eq_true] at hn ⊢
    obtain ⟨honline, m, hm, hrow⟩ := hn
    obtain ⟨m', hm', hon, -⟩ := get_upsert s.nodes r hm
    exact ⟨honline, m', hm', hon.trans hrow⟩
  · obtain ⟨m', hm', -, hoffer⟩ := get_upsert s.nodes r (get_of_mem hn)
    exact ⟨m', (mem_of_get hm').1, (mem_of_get hm').2, hoffer.trans ho⟩

theorem connect_steps (hs : s.Good) (nodeId : NodeId) :
    Steps k T s { s with conns := Function.update s.conns nodeId (some false) } := by
  refine .around hs rfl rfl rfl (List.Subset.refl _) rfl rfl rfl (fun n hn ↦ ?_) (offers_refl _)
  simp only [present, isOnline, Bool.and_eq_true, decide_eq_true_eq] at hn ⊢
  refine ⟨?_, hn.2⟩
  by_cases h : n = nodeId
  · simp [h]
  · simpa [h] using hn.1

theorem onOffline_with (k : Deps) (s : Control) (nodeId : NodeId) (conns : NodeId → Option Bool)
    (nodes : NodeTable) : ({ s with conns, nodes } : Control).onOffline k nodeId =
      { s.onOffline k nodeId with conns, nodes } := by
  rw [onOffline_eq, onOffline_eq]
  rfl

/-- **A node is lost in small steps**: first everything that depended on it is withdrawn. -/
theorem nodeLost_micros (hs : s.Good) (nodeId : NodeId) (conn : Option Bool) :
    Micros k T s (s.nodeLost k nodeId conn) := by
  have hoff : Steps k T s (s.onOffline k nodeId) := onOffline_steps hs nodeId
  have hs₁ := hoff.micros.good hs
  unfold nodeLost
  rw [onOffline_with]
  refine hoff.micros.trans (.single (.around _ {
    slots := rfl
    known := rfl
    now := le_rfl
    heard := List.Subset.refl _
    offers := fun _ r hr o ho ↦ ?_
    lost := fun n hn hn' d ↦ ?_
    lease := .inl rfl
    applies := .inl rfl
    runs := hs₁.runs
    fleet := fun t ht ↦ .inl ⟨t, ht, rfl, id⟩ }))
  · rw [onOffline_eq] at hr
    refine ⟨_, List.mem_map_of_mem hr, ?_, ?_⟩ <;> dsimp only <;> split_ifs <;>
      first | rfl | exact ho
  · by_cases hnode : n = nodeId
    · subst hnode
      exact onOffline_withdrawn hs n
    · -- The other nodes are where they were.
      refine absurd hn ?_
      rw [Bool.not_eq_true, ← hn']
      simp only [present, isOnline, onOffline_eq, Function.update_of_ne hnode, get_modify]
      cases hget : s.nodes.get n with
      | none => rfl
      | some m =>
        have hid : m.id ≠ nodeId := (mem_of_get hget).2 ▸ hnode
        simp [hid]

end Control

/-! ## Restarts -/

/-- A deployment that has lost what was kept in memory, with its row written anew. -/
def View.rested (v : View) (running : Bool) (g : Face → Face) : View where
  face := v.face.map g
  running := running
  rows := v.rows
  ops := []
  jobs := []
  generation := 0
  reconnecting := false
  blocked := fun _ ↦ none
  crashes := v.crashes
  inflight := 0

theorem View.Restored.rested {v : View} {running : Bool} {g : Face → Face}
    (hrunning : running = true → v.running = true)
    (hg : ∀ f, v.face = some f → (g f).spec = f.spec ∧ (g f).plan = f.plan ∧ (g f).state ≠ .ready ∧
      ((g f).endpoint = none ∨ (g f).endpoint = f.endpoint ∧ f.state ≠ .ready) ∧
      ((g f).state = .stopped → running = false ∧ (f.state = .stopped ∨ f.spec.kind = .external))) :
    v.Restored (v.rested running g) where
  rows := rfl
  ops := rfl
  jobs := rfl
  reconnecting := rfl
  crashes := rfl
  inflight := rfl
  running := hrunning
  gone h := by simp [View.rested, h]
  face f hf := ⟨g f, by simp [View.rested, hf], hg f hf⟩

namespace Control

theorem view_persisted (x : Slot) : (persisted x).view = x.view.rested x.intent.running id := by
  simp [persisted, Slot.view, View.rested]

theorem view_persisted_update {patch : Deployment → Deployment} {g : Face → Face}
    (h : ∀ dep, (patch dep).face = g dep.face) (x : Slot) (now : ℕ) :
    ((persisted x).update now patch).view = x.view.rested x.intent.running g := by
  rw [Slot.view_update h, view_persisted]
  simp [View.rested]

theorem restoreOne_local (seen : List (NodeId × Option String)) :
    Local d s (restoreOne k (s, seen) d).1 := by
  unfold restoreOne
  dsimp only
  split
  · exact .refl d s
  · split_ifs
    all_goals first | exact .refl d s | exact ⟨_, rfl⟩

theorem restoreStopped_restored {x : Slot} {r : Deployment} (hdep : x.dep = some r)
    (hrunning : x.intent.running = false) (now : ℕ) :
    x.view.Restored (restoreStopped now (persisted x) { r with id := d }).view := by
  have hface : ∀ f, x.view.face = some f → f = r.face := fun f hf ↦
    Option.some.inj (hf.symm.trans (Slot.face_of_dep hdep))
  have hrest : r.state.active = false → r.state ≠ .ready := by
    rintro hactive hs
    simp [hs, DeploymentState.active] at hactive
  unfold restoreStopped
  split_ifs with hactive hend
  · rw [view_persisted_update (g := fun f ↦ { f with state := .draining, endpoint := none })
      fun _ ↦ rfl]
    exact .rested id fun f _ ↦ ⟨rfl, rfl, by simp, .inl rfl, by simp⟩
  · rw [view_persisted_update (g := fun f ↦ { f with endpoint := none }) fun _ ↦ rfl]
    refine .rested id fun f hf ↦ ?_
    obtain rfl := hface f hf
    exact ⟨rfl, rfl, hrest (by simpa using hactive), .inl rfl, fun hs ↦ ⟨hrunning, .inl hs⟩⟩
  · rw [view_persisted]
    refine .rested id fun f hf ↦ ?_
    obtain rfl := hface f hf
    have hready := hrest (by simpa using hactive)
    exact ⟨rfl, rfl, hready, .inr ⟨rfl, hready⟩, fun hs ↦ ⟨hrunning, .inl hs⟩⟩

theorem restoreOne_restored {x : Slot} (hx : s.slots d = persisted x)
    (seen : List (NodeId × Option String)) :
    x.view.Restored ((restoreOne k (s, seen) d).1.slots d).view := by
  have hdep' : ∀ {r}, (s.slots d).dep = some r → x.dep = some r := fun hr ↦ by rwa [hx] at hr
  unfold restoreOne
  dsimp only
  split
  · rename_i hnone
    have hdep : x.dep = none := by simpa [getDeployment, hx, persisted] using hnone
    rw [hx, view_persisted]
    exact .rested id fun f hf ↦ by simp [Slot.view, hdep] at hf
  · rename_i dep hget
    obtain ⟨r, hr, rfl⟩ := getDeployment_some hget
    have hdep := hdep' hr
    have hface : ∀ f, x.view.face = some f → f = r.face := fun f hf ↦
      Option.some.inj (hf.symm.trans (Slot.face_of_dep hdep))
    by_cases hrunning : (s.slots d).intent.running = false
    · rw [if_pos hrunning, slots_on_self, hx]
      rw [hx] at hrunning
      exact restoreStopped_restored hdep hrunning s.now
    -- A row that is written at rest, and serves nothing.
    have hwritten : ∀ {patch : Deployment → Deployment} {state : DeploymentState},
        (∀ dep, (patch dep).face = { dep.face with state, endpoint := none }) → state ≠ .ready →
        state ≠ .stopped → x.view.Restored ((persisted x).update s.now patch).view := by
      intro patch state hpatch hready hstopped
      rw [view_persisted_update (g := fun f ↦ { f with state, endpoint := none }) hpatch]
      exact .rested id fun f _ ↦ ⟨rfl, rfl, hready, .inl rfl, fun hs ↦ absurd hs hstopped⟩
    by_cases hext : r.spec.kind = .external
    · rw [if_pos hext]
      split_ifs with hseen hwatch
      · rw [slots_on_self, hx, Slot.view_update (g := fun f ↦
          { f with state := .stopped, endpoint := none }) fun _ ↦ rfl]
        refine View.Restored.rested (fun h ↦ by cases h) fun f hf ↦ ?_
        obtain rfl := hface f hf
        exact ⟨rfl, rfl, by simp, .inl rfl, fun _ ↦ ⟨rfl, .inr hext⟩⟩
      · rw [slots_on_self, hx]
        exact hwritten (fun _ ↦ rfl) (by simp) (by simp)
      · rw [slots_on_self, hx, Slot.view_scheduleRecovery]
        exact hwritten (fun _ ↦ rfl) (by simp) (by simp)
    · rw [if_neg hext]
      split_ifs with hfailed
      · rw [slots_on_self, hx, Slot.view_scheduleRecovery]
        exact hwritten (fun _ ↦ rfl) (by simp) (by simp)
      · have hfailed : r.state = .failed := not_ne_iff.mp hfailed
        rw [hx, view_persisted]
        refine .rested id fun f hf ↦ ?_
        obtain rfl := hface f hf
        have hready : r.face.state ≠ .ready := by simp [Deployment.face, hfailed]
        exact ⟨rfl, rfl, hready, .inr ⟨rfl, hready⟩, by simp [Deployment.face, hfailed]⟩

theorem foldl_restoreOne {l : List DeploymentId} (hl : l.Nodup)
    (acc : Control × List (NodeId × Option String)) :
    ∃ slots, (l.foldl (restoreOne k) acc).1 = { acc.1 with slots } ∧
      (∀ d ∉ l, slots d = acc.1.slots d) ∧
      ∀ d ∈ l, ∀ x, acc.1.slots d = persisted x → x.view.Restored (slots d).view := by
  induction l generalizing acc with
  | nil => exact ⟨acc.1.slots, rfl, fun _ _ ↦ rfl, by simp⟩
  | cons e l ih =>
    obtain ⟨he, hl⟩ := List.nodup_cons.mp hl
    obtain ⟨y, hy⟩ := restoreOne_local acc.2
    obtain ⟨slots, hfold, hother, hrestored⟩ := ih hl (restoreOne k acc e)
    rw [hy] at hfold hother hrestored
    refine ⟨slots, hfold, fun d hd ↦ ?_, fun d hd x hx ↦ ?_⟩
    · rw [List.mem_cons, not_or] at hd
      rw [hother d hd.2, slots_on_of_ne acc.1 hd.1]
    · rcases List.mem_cons.mp hd with rfl | hmem
      · have hone := restoreOne_restored (k := k) hx acc.2
        rw [hy, slots_on_self] at hone
        rwa [hother d he, slots_on_self]
      · refine hrestored d hmem x ?_
        rwa [slots_on_of_ne acc.1 (by rintro rfl; exact he hmem)]

theorem restart_eq (hs : s.Good) : ∃ (s₁ : Control) (slots : DeploymentId → Slot),
    s.restart k = { s₁ with slots } ∧ (∀ d, (s.view d).Restored (slots d).view) ∧
      s₁.known = s.known ∧ s₁.now = s.now ∧ s₁.heard = s.heard ∧ (∀ n, s₁.conns n = none) ∧
      s₁.updateLease = none ∧ s₁.fleet = none ∧
      s₁.runs = s.runs.map (fun run ↦
        if run.status = .applying then { run with status := .interrupted } else run) ∧
      s₁.nodes.rows = s.nodes.rows.map fun n ↦ { n with online := false } := by
  obtain ⟨s₁, hrestart, hslots, hknown, hrest⟩ :
      ∃ s₁ : Control, s.restart k =
        (((sortBy (restoreOrder k) s₁.listDeployments).map (·.id)).foldl (restoreOne k)
        (s₁, [])).1 ∧
      (∀ d, s₁.slots d = persisted (s.slots d)) ∧ s₁.known = s.known ∧ s₁.now = s.now ∧
      s₁.heard = s.heard ∧ (∀ n, s₁.conns n = none) ∧ s₁.updateLease = none ∧ s₁.fleet = none ∧
      s₁.runs = s.runs.map (fun run ↦
        if run.status = .applying then { run with status := .interrupted } else run) ∧
      s₁.nodes.rows = s.nodes.rows.map fun n ↦ { n with online := false } :=
    ⟨_, rfl, fun _ ↦ rfl, rfl, rfl, rfl, fun _ ↦ rfl, rfl, rfl, rfl, rfl⟩
  have hnodup : ((sortBy (restoreOrder k) s₁.listDeployments).map (·.id)).Nodup :=
    ((sortBy_perm _ _).map _).nodup_iff.mpr (s₁.map_id_listDeployments.nodup s₁.distinctKnown)
  obtain ⟨slots, hfold, hother, hrestored⟩ := foldl_restoreOne hnodup (s₁, [])
  refine ⟨s₁, slots, hrestart.trans hfold, fun d ↦ ?_, hknown, hrest⟩
  by_cases hd : d ∈ (sortBy (restoreOrder k) s₁.listDeployments).map (·.id)
  · exact hrestored d hd _ (hslots d)
  · -- What is not restored is not there.
    have hnone : (s.slots d).dep = none := by
      by_contra hsome
      obtain ⟨r, hr⟩ := Option.ne_none_iff_exists'.mp hsome
      refine hd (List.mem_map.mpr ⟨{ r with id := d }, (sortBy_perm _ _).mem_iff.mpr
        (List.mem_filterMap.mpr ⟨d, hknown ▸ hs.mem_known hr, ?_⟩), rfl⟩)
      simp [getDeployment, hslots, persisted, hr]
    have hview : (slots d).view = (s.view d).rested (s.view d).running id := by
      rw [hother d hd, hslots, view_persisted]
      rfl
    rw [hview]
    exact .rested id fun f hf ↦ by simp [view, Slot.view, hnone] at hf

/-- **A restart is one small step.** -/
theorem restart_micros (hs : s.Good) (hrestarts : T.restarts) : Micros k T s (s.restart k) := by
  obtain ⟨s₁, slots, hrestart, hslots, hknown, hnow, hheard, hconns, hlease, hfleet, hruns,
    hnodes⟩ :=
    restart_eq hs
  rw [hrestart]
  refine .single (.restart _ hknown hslots hnow hheard ?_ hlease hfleet ?_ ?_ hrestarts)
  · intro n
    simp [present, isOnline, hconns]
  · intro run hrun
    rw [show ({ s₁ with slots } : Control).runs = _ from hruns] at hrun
    obtain ⟨run', hrun', rfl⟩ := List.mem_map.mp hrun
    refine ⟨run', hrun', ?_⟩
    split_ifs <;> rfl
  · intro n hn
    refine ⟨{ n with online := false }, ?_, rfl, rfl⟩
    rw [show ({ s₁ with slots } : Control).nodes.rows = _ from hnodes]
    exact List.mem_map.mpr ⟨n, hn, rfl⟩

/-! ## Every event -/

theorem jobs_of_quiet (h : s.quiet = true) : ∀ d ∈ s.known, (s.slots d).jobs = [] := by
  simp only [quiet, Bool.and_eq_true, List.all_eq_true, List.isEmpty_iff] at h
  exact h.1

theorem Good.jobs_of_quiet (hs : s.Good) (h : s.quiet = true) (d : DeploymentId) :
    (s.slots d).jobs = [] := by
  by_cases hd : d ∈ s.known
  · exact Control.jobs_of_quiet h d hd
  · exact (hs.unknown d hd).2.2.2

theorem tick_micros (hs : s.Good) (ms : ℕ) : Micros k T s { s with now := s.now + ms } :=
  .single (.around _ {
    slots := rfl
    known := rfl
    now := Nat.le_add_right _ _
    heard := List.Subset.refl _
    offers := offers_refl _
    lost := fun _ hn hn' ↦ nomatch hn.symm.trans hn'
    lease := .inl rfl
    applies := .inl rfl
    runs := hs.runs
    fleet := fun t ht ↦ .inl ⟨t, ht, rfl, id⟩ })

theorem nativeExecutionFailed_micros (hs : s.Good) (why : String) :
    Micros k T s (s.on d (·.fail k s.now why)) := by
  refine Micros.on ?_ (Slot.fail_move _ why)
  rcases (s.slots d).fail_eq k s.now why with h | ⟨dep, hdep, -⟩
  · exact .inr (by rw [h]; rfl)
  · exact .inl (hs.mem_known hdep)

end Control

open Control in
/-- **Every event is a sequence of small steps**, on the terms it sets itself. -/
theorem step_micros (hs : s.Good) {e : Event} (h : step k s e = some s') :
    Micros k (e.terms s) s s' := by
  unfold step at h
  split_ifs at h with hquiet
  have hjobs : e.microtask = false → ∀ d, (s.slots d).jobs = [] := by
    intro hlong
    rw [hlong] at hquiet
    exact hs.jobs_of_quiet (hquiet.resolve_left (by simp))
  cases e with
  | tick ms =>
    cases h
    exact tick_micros hs ms
  | enroll node =>
    cases h
    exact enroll_micros hs node
  | connect n =>
    simp only [Event.effect] at h
    split_ifs at h
    cases h
    exact (connect_steps hs n).micros
  | hello n message =>
    simp only [Event.effect] at h
    split_ifs at h
    cases h
    exact hello_micros hs (fun d _ ↦ hjobs rfl d) message (·.1) (·.2) id rfl
  | heartbeat n =>
    simp only [Event.effect] at h
    split_ifs at h
    cases h
    exact Steps.micros (Calm.toSteps (modify_calm hs n (fun _ _ ↦ rfl) fun _ _ _ _ _ ho ↦ ho))
  | offer n =>
    simp only [Event.effect] at h
    split_ifs at h
    cases h
    refine Steps.micros
      (Calm.toSteps (modify_calm hs n (fun _ ho ↦ ho) fun hkept r hr hid o' ho' ↦ ?_))
    rw [hkept r hr hid o' ho']
  | models n =>
    simp only [Event.effect] at h
    split_ifs at h
    cases h
    exact Steps.micros (Calm.toSteps (modify_calm hs n (fun _ ho ↦ ho) fun _ _ _ _ _ ho ↦ ho))
  | report n id state detail =>
    simp only [Event.effect] at h
    split_ifs at h
    cases h
    exact (report_steps hs (fun d _ ↦ hjobs rfl d) n id state detail fun hhonest ↦ hhonest).micros
  | disconnect n =>
    simp only [Event.effect] at h
    split_ifs at h
    cases h
    exact nodeLost_micros hs n none
  | unresponsive n =>
    simp only [Event.effect] at h
    split_ifs at h
    cases h
    exact nodeLost_micros hs n (some true)
  | responsive n =>
    simp only [Event.effect] at h
    split_ifs at h
    cases h
    have hconnect : Steps k (Event.terms s (.responsive n)) s _ := connect_steps hs n
    have honline := modify_calm (k := k) (T := Event.terms s (.responsive n))
      (hconnect.micros.good hs) n (f := fun r ↦ { r with online := true }) (fun _ _ ↦ rfl)
      fun _ _ _ _ _ ho ↦ ho
    have hback := hconnect.trans honline.toSteps
    exact hback.micros.trans (onNodeOnline_micros (hback.micros.good hs)
      (fun d _ ↦ hjobs rfl d) n)
  | create d spec =>
    cases h
    exact create_micros spec
  | start d =>
    cases h
    exact (start_steps hs (by simp [hjobs rfl d]) (.inr rfl) (.inl rfl) (by simp)).micros
  | stop =>
    cases h
    exact (stop_steps hs (.inl rfl) (by simp)).micros
  | remove =>
    cases h
    exact remove_micros hs
  | saveDistribution d value =>
    cases h
    exact saveDistribution_micros value
  | applyDistribution d =>
    cases h
    exact applyDistribution_micros hs (hjobs rfl d) rfl
  | previewAllocation id request =>
    cases h
    exact previewAllocation_micros hs id request
  | applyAllocation id =>
    cases h
    exact applyAllocation_micros hs (fun d _ ↦ hjobs rfl d) id
      (fun run hrun e he ↦ ⟨run, hrun, e, he, rfl⟩) trivial
  | acquireUpdate n token =>
    cases h
    dsimp only [acquireUpdate]
    split_ifs
    · exact .refl
    · exact lease_micros hs trivial s.updateLease _
    · exact lease_micros hs trivial _ _
  | releaseUpdate n token =>
    cases h
    dsimp only [releaseUpdate]
    split_ifs
    · exact lease_micros hs trivial none s.updateRecovery
    · exact .refl
  | inflight d delta =>
    simp only [Event.effect] at h
    split_ifs at h with hknown
    cases h
    exact Micros.on (.inl hknown)
      (.traffic _ rfl)
  | nativeExecutionFailed d reason =>
    cases h
    exact nativeExecutionFailed_micros hs reason
  | reconcile =>
    cases h
    exact reconcile_micros hs fun d _ ↦ hjobs rfl d
  | restart =>
    cases h
    exact restart_micros hs trivial
  | proceed =>
    simp only [Event.effect] at h
    split_ifs at h with hfresh
    exact opStep_micros hs hfresh h
  | job =>
    refine runJob_micros hs (fun spec generation result sent excluded hj hgen ↦ ?_)
      (fun cont result sent excluded hj hcont ↦ ⟨cont, result, sent, excluded, hj, hcont⟩) h
    subst hgen
    exact ⟨rfl, spec, result, sent, excluded, hj⟩
  | fleetJob =>
    exact fleetStep_micros hs (fun t ht e he ↦ ⟨t, ht, e, he, rfl⟩) trivial h

theorem Control.init_good : Control.init.Good where
  slots d := by
    refine ⟨?_, ?_, ?_, ?_, ?_⟩
    · constructor <;> simp [Control.init, Control.view, Slot.view]
    · constructor <;> simp [Control.init, Control.view, Slot.view]
    · constructor <;> simp [Control.init, Control.view, Slot.view]
    · simp [Control.init, Control.view, Slot.view]
    · simp [Control.init, Control.view, Slot.view, View.Cleared]
  acked d := by simp [Control.init, Control.view, Slot.view, View.Acked]
  distinct d d' := by simp [Control.init, Control.view, Slot.view]
  unknown d := by simp [Control.init, Control.view, Slot.view]
  runs := by simp [Control.init]
  task := by simp [Control.init]
  conts := by simp [Control.init]
  stopping := by simp [Control.init]

/-! ## What every run keeps -/

theorem Micros.invariant {I : Control → Prop} (h : Micros k T s s') (hs : s.Good) (hI : I s)
    (hmicro : ∀ s₁ s₂, s₁.Good → I s₁ → Micro k T s₁ s₂ → I s₂) : I s' := by
  suffices s'.Good ∧ I s' from this.2
  induction h with
  | refl => exact ⟨hs, hI⟩
  | tail _ hm ih => exact ⟨hm.good ih.1, hmicro _ _ ih.1 ih.2 hm⟩

/-- **The induction rule for runs**: what the small steps of every event keep holds at the end of a
run. -/
theorem run_keeps {I : Control → Prop} {es : List Event} (h : run (step k) s es = some s')
    (hs : s.Good) (hI : I s)
    (hmicro : ∀ T s₁ s₂, s₁.Good → I s₁ → Micro k T s₁ s₂ → I s₂) : s'.Good ∧ I s' := by
  refine run_invariant (I := fun s ↦ s.Good ∧ I s) h ⟨hs, hI⟩ fun s e s' hI hstep ↦ ?_
  have hmicros := step_micros hI.1 hstep
  exact ⟨hmicros.good hI.1, hmicros.invariant hI.1 hI.2 (hmicro _)⟩

/-- What is said of every deployment on its own is kept if moves, dispatches, creations and restarts
keep it. -/
theorem Micro.slotwise {P : DeploymentId → View → Prop} (hm : Micro k T s s')
    (hP : ∀ d, P d (s.view d))
    (hmove : ∀ d w, Move k T s.ambient d (s.view d) w → P d w)
    (hdispatch : ∀ d w, Dispatch d (s.surroundings k d) (s.view d) w → P d w)
    (hcreated : ∀ d spec, d ∉ s.known → P d (.created spec))
    (hrestored : T.restarts → ∀ d w, (s.view d).Restored w → P d w) : ∀ d, P d (s'.view d) := by
  intro d
  cases hm with
  | slot e y hknown h =>
    exact Control.slots_on_cases (P := fun x ↦ P d x.view) (fun hd ↦ hmove d _ (hd ▸ h)) (hP d)
  | dispatch e y hknown h =>
    exact Control.slots_on_cases (P := fun x ↦ P d x.view) (fun hd ↦ hdispatch d _ (hd ▸ h)) (hP d)
  | around s' h =>
    rw [Control.view, h.slots]
    exact hP d
  | created e y spec hnew hview =>
    by_cases hd : d = e
    · subst hd
      simpa [Control.view, hview] using hcreated d spec hnew
    · simpa [Control.view, hd] using hP d
  | restart s' _ hslots _ _ _ _ _ _ _ hrestarts => exact hrestored hrestarts d _ (hslots d)

theorem Micro.heard (hm : Micro k T s s') : s.heard ⊆ s'.heard := by
  cases hm with
  | around s' h => exact h.heard
  | restart s' hknown hslots hnow hheard => rw [hheard]; exact List.Subset.refl _
  | _ => exact List.Subset.refl _

theorem Micro.keeps_at {P : List Heard → View → Prop} (hm : Micro k T s s') (hd : d ∈ s.known)
    (hP : P s.heard (s.view d)) (hmono : ∀ heard v, s.heard ⊆ heard → P s.heard v → P heard v)
    (hmove : ∀ w, Move k T s.ambient d (s.view d) w → P s.heard w)
    (hdispatch : ∀ w, Dispatch d (s.surroundings k d) (s.view d) w → P s.heard w)
    (hrestored : T.restarts → ∀ w, (s.view d).Restored w → P s.heard w) :
    P s'.heard (s'.view d) := by
  refine hmono _ _ hm.heard (hm.slotwise (P := fun e v ↦ e = d → P s.heard v) ?_ ?_ ?_ ?_ ?_ d rfl)
  · exact fun e he ↦ he ▸ hP
  · exact fun e w h he ↦ hmove w (he ▸ h)
  · exact fun e w h he ↦ hdispatch w (he ▸ h)
  · exact fun e spec hnew he ↦ absurd (he ▸ hd) hnew
  · exact fun hrestarts e w h he ↦ hrestored hrestarts w (he ▸ h)

end

end Swarmlet
