import Swarmlet.Control.Refinement

/-!
# What agents say

Reports and hello messages as small steps. They are the only source of acknowledgements, so this is
where the honesty of agents enters: a row is written live only while no acknowledgement of it
stands.
-/

namespace Swarmlet

open Js

/-- The rows of a deployment on a node that bear an id and are no watch are live. -/
def Slot.LiveOn (x : Slot) (nodeId : NodeId) (id : AssignmentId) : Prop :=
  ∀ r ∈ x.rows, r.id = id → r.nodeId = nodeId → r.healthWatch = false → r.live = true

section

variable {k : Deps} {T : Terms} {s s' : Control} {d : DeploymentId}

/-! ## Changes around the deployments -/

/-- A change of the nodes table or the channel after which every node is still here, or of the
history of what was said. -/
theorem Steps.around (hs : s.Good) (hslots : s'.slots = s.slots) (hknown : s'.known = s.known)
    (hnow : s'.now = s.now) (hheard : s.heard ⊆ s'.heard) (hruns : s'.runs = s.runs)
    (hfleet : s'.fleet = s.fleet) (hlease : s'.updateLease = s.updateLease)
    (hpresent : ∀ n, s.present n = true → s'.present n = true)
    (hoffers : T.offers → ∀ n ∈ s.nodes.rows, ∀ o, n.offer = some o →
      ∃ n' ∈ s'.nodes.rows, n'.id = n.id ∧ n'.offer = some o) : Steps k T s s' where
  micros := .single (.around s' {
    slots := hslots
    known := hknown
    now := hnow.ge
    heard := hheard
    offers := hoffers
    lost := fun n hn hn' ↦ by cases (hpresent n hn).symm.trans hn'
    lease := .inl hlease
    applies := .inl hfleet
    runs := by rw [hruns]; exact hs.runs
    fleet := by
      rw [hfleet]
      exact fun t ht ↦ .inl ⟨t, ht, rfl, id⟩ })
  known := hknown
  now := hnow
  fleet := hfleet
  heard := hheard
  still d := by rw [hslots]; exact .rfl'

variable (k T) in
structure Calm (s s' : Control) : Prop extends Steps k T s s' where
  rows : ∀ d, (s'.slots d).rows = (s.slots d).rows

namespace Calm

theorem refl (s : Control) : Calm k T s s := ⟨.refl s, fun _ ↦ rfl⟩

theorem trans {s'' : Control} (h : Calm k T s s') (h' : Calm k T s' s'') : Calm k T s s'' :=
  ⟨h.toSteps.trans h'.toSteps, fun d ↦ (h'.rows d).trans (h.rows d)⟩

theorem on {f : Slot → Slot} (hknown : d ∈ s.known)
    (h : Move k T s.ambient d (s.view d) (f (s.slots d)).view)
    (hrows : (f (s.slots d)).rows = (s.slots d).rows := by simp)
    (hjobs : (f (s.slots d)).jobs = (s.slots d).jobs := by simp) : Calm k T s (s.on d f) :=
  ⟨.on (.of_eq hjobs hrows) (.inl hknown) h, fun d' ↦ Control.slots_on_cases
    (P := fun x ↦ x.rows = (s.slots d').rows) (fun hd ↦ hd ▸ hrows) rfl⟩

theorem fail (hknown : d ∈ s.known) (why : String) :
    Calm k T s (s.on d (·.fail k s.now why)) :=
  .on hknown (Slot.fail_move _ why)

theorem foldl {α : Type*} {f : Control → α → Control} (l : List α) (hs : s.Good)
    (h : ∀ s', s'.Good → Steps k T s s' → ∀ a ∈ l, Calm k T s' (f s' a)) :
    Calm k T s (l.foldl f s) := by
  suffices ∀ s', s'.Good → Calm k T s s' → Calm k T s (l.foldl f s') from this s hs (.refl s)
  induction l with
  | nil => exact fun _ _ h' ↦ h'
  | cons a l ih =>
    intro s' hs' h'
    have hstep := h s' hs' h'.toSteps a List.mem_cons_self
    exact ih (fun s'' hs'' h'' b hb ↦ h s'' hs'' h'' b (List.mem_cons_of_mem a hb)) _
      (hstep.micros.good hs') (h'.trans hstep)

end Calm

theorem offers_refl (nodes : List NodeRow) : T.offers → ∀ n ∈ nodes, ∀ o, n.offer = some o →
    ∃ n' ∈ nodes, n'.id = n.id ∧ n'.offer = some o :=
  fun _ n hn _ ho ↦ ⟨n, hn, rfl, ho⟩

namespace Control

theorem hear_steps (hs : s.Good) (nodeId : NodeId) (id : AssignmentId) (state : AssignmentState) :
    Steps k T s (s.hear nodeId id state) :=
  .around hs rfl rfl rfl (List.subset_cons_self _ _) rfl rfl rfl (fun _ hn ↦ hn) (offers_refl _)

/-! ## Nodes that are here -/

theorem get_modify (t : NodeTable) (id : NodeId) (f : NodeRow → NodeRow) (n : NodeId) :
    (t.modify id f).get n =
      (t.get n).map fun r ↦ if r.id = id then { f r with id := r.id } else r := by
  unfold NodeTable.get NodeTable.modify
  rw [List.find?_map]
  congr 2
  funext r
  simp only [Function.comp_apply]
  split_ifs <;> rfl

theorem present_modify {n nodeId : NodeId} {f : NodeRow → NodeRow} (hconns : s'.conns = s.conns)
    (hnodes : s'.nodes = s.nodes.modify nodeId f)
    (hf : ∀ r, r.online = true → (f r).online = true) (h : s.present n = true) :
    s'.present n = true := by
  unfold present isOnline at h ⊢
  rw [hconns, hnodes, get_modify]
  simp only [Bool.and_eq_true, Option.any_eq_true] at h ⊢
  obtain ⟨hconn, r, hr, honline⟩ := h
  refine ⟨hconn, _, by rw [hr]; rfl, ?_⟩
  dsimp only
  split_ifs
  · exact hf r honline
  · exact honline

theorem modify_calm (hs : s.Good) (nodeId : NodeId) {f : NodeRow → NodeRow}
    (honline : ∀ r, r.online = true → (f r).online = true)
    (hoffer : T.offers → ∀ r ∈ s.nodes.rows, r.id = nodeId → ∀ o, r.offer = some o →
      (f r).offer = some o) : Calm k T s { s with nodes := s.nodes.modify nodeId f } := by
  refine ⟨.around hs rfl rfl rfl (List.Subset.refl _) rfl rfl rfl (fun n ↦ ?_)
    fun hO r hr o ho ↦ ?_, fun _ ↦ rfl⟩
  · exact present_modify rfl rfl honline
  · refine ⟨_, List.mem_map_of_mem hr, ?_, ?_⟩
    · split_ifs <;> rfl
    · split_ifs with hid
      · exact hoffer hO r hr hid o ho
      · exact ho

/-! ## Looking assignments up -/

variable {row : AssignmentRow}

theorem getAssignment_some (hs : s.Good) {id : AssignmentId} (h : s.getAssignment id = some row) :
    row.id = id ∧ row.deploymentId ∈ s.known ∧ row ∈ (s.slots row.deploymentId).rows := by
  have hid : row.id = id := by simpa using List.find?_some h
  obtain ⟨d, hd, hrow⟩ := List.mem_flatMap.mp (List.mem_of_find?_eq_some h)
  have hown : row.deploymentId = d :=
    (hs.slots d).rows.own row.view (List.mem_map_of_mem hrow)
  exact ⟨hid, hown ▸ hd, hown ▸ hrow⟩

theorem Good.row_unique (hs : s.Good) {r r' : AssignmentRow} (hr : r ∈ (s.slots d).rows)
    (hr' : r' ∈ (s.slots d).rows) (h : r.id = r'.id) : r = r' := by
  have hids := (hs.slots d).rows.ids
  rw [Control.view, Slot.view, List.map_map] at hids
  exact List.inj_on_of_nodup_map hids hr hr' h

theorem getAssignment_eq (hs : s.Good) (hknown : d ∈ s.known) (hrow : row ∈ (s.slots d).rows) :
    s.getAssignment row.id = some row := by
  have hmem : row ∈ s.allRows := List.mem_flatMap.mpr ⟨d, hknown, hrow⟩
  cases hget : s.getAssignment row.id with
  | none => simpa using List.find?_eq_none.mp hget row hmem
  | some r =>
    obtain ⟨hid, -, hr⟩ := getAssignment_some hs hget
    have hd := hs.distinct r.deploymentId d r.view (List.mem_map_of_mem hr) row.view
      (List.mem_map_of_mem hrow) hid
    rw [hs.row_unique (hd ▸ hr) hrow hid]

def LiveOn (s : Control) (nodeId : NodeId) (id : AssignmentId) : Prop :=
  ∀ d, (s.slots d).LiveOn nodeId id

/-! ## Reports -/

theorem setAssignmentState_steps (hs : s.Good) (hrow : row ∈ (s.slots d).rows)
    (hknown : d ∈ s.known) (hjobs : (s.slots d).jobs = []) (state : AssignmentState)
    (detail : Option String) (hacked : state = .stopped → ⟨row.nodeId, row.id, .stopped⟩ ∈ s.heard)
    (hhonest : T.honest → state ≠ .stopped → s.LiveOn row.nodeId row.id) :
    Steps k T s (s.on d (·.setAssignmentState s.now row.id state detail)) := by
  refine Steps.on
    ⟨rfl, by simp⟩ (.inl hknown) ?_
  rw [Slot.view_setAssignmentState]
  have hunique : ∀ v ∈ (s.view d).rows, v.id = row.id → v = row.view := by
    intro v hv hid
    obtain ⟨r, hr, rfl⟩ := List.mem_map.mp hv
    rw [hs.row_unique hr hrow hid]
  refine .rowState row.id _ hjobs ?_ ?_ (fun h ↦ nomatch h)
  · intro hstopped v hv hid
    rw [hunique v hv hid]
    exact hacked (RowState.reported.inj hstopped)
  · intro hA hlive v hv hid hwatch
    obtain rfl := hunique v hv hid
    simpa [RowView.live, AssignmentRow.view, AssignmentRow.live] using
      hhonest hA (fun h ↦ hlive (congrArg _ h)) d row hrow rfl rfl hwatch

theorem storeReport_steps (hs : s.Good) (hjobs : ∀ d ∈ s.known, (s.slots d).jobs = [])
    (nodeId : NodeId) (id : AssignmentId) (state : AssignmentState) (detail : Option String)
    (hhonest : T.honest → state ≠ .stopped → s.LiveOn nodeId id) :
    Steps k T s (s.storeReport nodeId id state detail) := by
  unfold storeReport
  split
  · exact .refl s
  · rename_i row hget
    obtain ⟨rfl, hknown, hrow⟩ := getAssignment_some hs hget
    split_ifs with hnode
    · exact .refl s
    · obtain rfl : row.nodeId = nodeId := not_ne_iff.mp hnode
      -- What is said may be noted first: nothing reads it.
      have hhear := hear_steps (k := k) (T := T) hs row.nodeId row.id state
      exact hhear.trans (setAssignmentState_steps (hhear.micros.good hs) hrow hknown
        (hjobs _ hknown) state detail (fun hstopped ↦ hstopped ▸ List.mem_cons_self) hhonest)

theorem heard_storeReport (hs : s.Good) (hknown : d ∈ s.known) (hrow : row ∈ (s.slots d).rows)
    (state : AssignmentState) (detail : Option String) :
    ⟨row.nodeId, row.id, state⟩ ∈ (s.storeReport row.nodeId row.id state detail).heard := by
  unfold storeReport
  rw [getAssignment_eq hs hknown hrow]
  simp [hear]

theorem finishDraining_eq_self {x : Slot} {now : ℕ} (h : x.state ≠ some .draining) :
    x.finishDraining now = x := by
  unfold Slot.finishDraining
  rw [if_neg fun h' ↦ h h'.1]

theorem engineReport_calm (hs : s.Good) (nodeId : NodeId) {r dep : Deployment}
    (hknown : row.deploymentId ∈ s.known) (hdep : (s.slots row.deploymentId).dep = some r)
    (hplan : dep.plan = r.plan) (hstate : r.state ∉ [.failed, .stopped, .draining])
    (detail : Option String) : Calm k T s (s.engineReport k nodeId row dep detail) := by
  unfold engineReport
  by_cases hoffline : s.isOnline nodeId = false ∨ leavingDetail (detail.getD "") = true
  · rw [if_pos hoffline]
    exact .foldl s.known hs fun s' hs' h d hd ↦
      .on (h.known ▸ hd) (Slot.offline_move (hs'.slots d).rows _ nodeId)
  rw [if_neg hoffline]
  generalize detail.getD "" = text
  cases hp : dep.plan with
  | none => exact .fail hknown _
  | some plan =>
    by_cases hcrash : crashDetail text = true
    · simp only [hcrash, if_true]
      refine .on hknown ?_ ((Slot.kept_fail ..).1.trans rfl) ((Slot.kept_fail ..).2.trans rfl)
      rw [Slot.fail_of_state (x := (s.slots _).blockPlacement k s.now plan text) hdep hstate,
        Slot.view_failed, Slot.view_blockPlacement]
      exact .crashed text (Slot.face_of_dep hdep) (hplan.symm.trans hp) hstate
    · simp only [hcrash]
      exact .fail hknown _

theorem onAssignmentState_calm (hs : s.Good) (nodeId : NodeId) (id : AssignmentId)
    (state : AssignmentState) (detail : Option String) (hheard : ⟨nodeId, id, state⟩ ∈ s.heard) :
    Calm k T s (s.onAssignmentState k nodeId id state detail) := by
  unfold onAssignmentState
  cases hget : s.getAssignment id with
  | none => exact .refl s
  | some row =>
    obtain ⟨rfl, hknown, hrow⟩ := getAssignment_some hs hget
    dsimp only
    by_cases hskip : row.nodeId ≠ nodeId ∨ (row.retired = true ∧ state ≠ .stopped)
    · rw [if_pos hskip]
      exact .refl s
    rw [if_neg hskip]
    obtain rfl : row.nodeId = nodeId := not_ne_iff.mp (not_or.mp hskip).1
    have hnotify : Calm k T s (s.on row.deploymentId (·.notify row.id state (detail.getD ""))) := by
      refine .on hknown ?_ rfl rfl
      rw [Slot.view_notify]
      refine .heard row.id state fun v hv hid ↦ ?_
      obtain ⟨r, hr, rfl⟩ := List.mem_map.mp hv
      rw [hs.row_unique hr hrow hid]
      exact hheard
    generalize s.on row.deploymentId (·.notify row.id state (detail.getD "")) = s₁ at hnotify ⊢
    cases hdep : s₁.getDeployment row.deploymentId with
    | none => exact hnotify
    | some dep =>
      obtain ⟨r, hr, rfl⟩ := getDeployment_some hdep
      dsimp only
      obtain ⟨s₂, heq, hdrain, hsame⟩ : ∃ s₂, (if state = .stopped then
          s₁.on row.deploymentId (·.finishDraining s₁.now) else s₁) = s₂ ∧ Calm k T s s₂ ∧
          (r.state ≠ .draining → (s₂.slots row.deploymentId).dep = some r) := by
        refine ⟨_, rfl, ?_⟩
        split_ifs
        · refine ⟨hnotify.trans (.on (hnotify.known ▸ hknown) (Slot.finishDraining_move _)), ?_⟩
          intro hstate
          rwa [slots_on_self, finishDraining_eq_self (by simpa [Slot.state, hr] using hstate)]
        · exact ⟨hnotify, fun _ ↦ hr⟩
      rw [heq]
      have hs₂ := hdrain.micros.good hs
      have hknown₂ : row.deploymentId ∈ s₂.known := hdrain.known ▸ hknown
      refine hdrain.trans ?_
      split_ifs with hretired hwatch hfailed
      · exact .refl s₂
      · have hdep₂ := hsame (by rcases hwatch.2.2 with h | h <;> simp [show r.state = _ from h])
        have hkind := ((hs₂.slots _).rows.watch _ (Slot.face_of_dep hdep₂) row.view
          (List.mem_map_of_mem (hdrain.rows _ ▸ hrow))).mp hwatch.1
        exact .on hknown₂ (Slot.watchReport_move hdep₂ hkind hwatch.2.1
          (by simpa using (not_or.mp hretired).2) _ _ _)
      · have hstate : r.state ∉ [.failed, .stopped, .draining] := by
          simpa [and_comm, and_left_comm, and_assoc] using hfailed.2
        exact engineReport_calm hs₂ row.nodeId hknown₂ (hsame (by simp_all)) rfl hstate detail
      · exact .refl s₂

theorem report_steps (hs : s.Good) (hjobs : ∀ d ∈ s.known, (s.slots d).jobs = []) (nodeId : NodeId)
    (id : AssignmentId) (state : AssignmentState) (detail : Option String)
    (hhonest : T.honest → state ≠ .stopped → s.LiveOn nodeId id) :
    Steps k T s (s.report k nodeId id state detail) := by
  unfold report
  split
  · exact .refl s
  · rename_i row hget
    split_ifs with hnode
    · exact .refl s
    · obtain ⟨rfl, hknown, hrow⟩ := getAssignment_some hs hget
      obtain rfl : row.nodeId = nodeId := not_ne_iff.mp hnode
      have hstore := storeReport_steps (k := k) hs hjobs row.nodeId row.id state detail
        hhonest
      exact hstore.trans (onAssignmentState_calm (hstore.micros.good hs) row.nodeId row.id state
        detail (heard_storeReport hs hknown hrow state detail)).toSteps

end Control

/-! ## Rows under a hello -/

namespace Slot

variable {x : Slot} {nodeId : NodeId} {id id' : AssignmentId}

theorem LiveOn.of_rows {y : Slot} (h : x.LiveOn nodeId id) (hrows : y.rows = x.rows) :
    y.LiveOn nodeId id := by
  unfold LiveOn
  rw [hrows]
  exact h

theorem LiveOn.setRow (h : x.LiveOn nodeId id') {f : AssignmentRow → AssignmentRow}
    (hf : ∀ r, (f r).id = r.id ∧ (f r).nodeId = r.nodeId ∧ (f r).healthWatch = r.healthWatch)
    (hlive : id' = id → ∀ r, r.live = true → (f r).live = true) :
    (x.setRow id f).LiveOn nodeId id' := by
  intro r hr hid hnode hwatch
  obtain ⟨r, hr', rfl⟩ := List.mem_map.mp hr
  split_ifs at hid hnode hwatch ⊢ with hmatch
  · obtain ⟨h₁, h₂, h₃⟩ := hf r
    rw [h₁] at hid
    rw [h₂] at hnode
    rw [h₃] at hwatch
    exact hlive (hid.symm.trans hmatch) r (h r hr' hid hnode hwatch)
  · exact h r hr' hid hnode hwatch

theorem LiveOn.setAssignmentState (h : x.LiveOn nodeId id') (now : ℕ) {state : AssignmentState}
    (detail : Option String) (hlive : id' = id → state ≠ .stopped) :
    (x.setAssignmentState now id state detail).LiveOn nodeId id' := by
  refine h.setRow (fun _ ↦ ⟨rfl, rfl, rfl⟩) fun hid _ _ ↦ ?_
  simpa [AssignmentRow.live] using hlive hid

theorem LiveOn.retireAssignment (h : x.LiveOn nodeId id') :
    (x.retireAssignment id).LiveOn nodeId id' :=
  h.setRow (fun _ ↦ ⟨rfl, rfl, rfl⟩) fun _ _ hlive ↦ hlive

theorem LiveOn.reissue (h : x.LiveOn nodeId id') (now : ℕ) :
    (x.reissue now id).LiveOn nodeId id' :=
  h.setRow (fun _ ↦ ⟨rfl, rfl, rfl⟩) fun _ _ _ ↦ rfl

end Slot

namespace Control

variable {nodeId : NodeId} {id : AssignmentId}

theorem LiveOn.on (h : s.LiveOn nodeId id) {f : Slot → Slot}
    (hf : (s.slots d).LiveOn nodeId id → (f (s.slots d)).LiveOn nodeId id) :
    (s.on d f).LiveOn nodeId id := by
  exact fun d' ↦ slots_on_cases (P := (·.LiveOn nodeId id)) (fun hd ↦ hd ▸ hf (h d)) (h d')

theorem LiveOn.of_rows (h : s.LiveOn nodeId id)
    (hrows : ∀ d, (s'.slots d).rows = (s.slots d).rows) : s'.LiveOn nodeId id :=
  fun d ↦ (h d).of_rows (hrows d)

/-! ## Hello messages -/

variable {reported : AssignmentId → Option AssignmentState} {row : AssignmentRow}

theorem confirmAbsent_steps (hs : s.Good) (hknown : row.deploymentId ∈ s.known)
    (hjobs : (s.slots row.deploymentId).jobs = [])
    (hnode : ∀ r ∈ (s.slots row.deploymentId).rows, r.id = row.id → r.nodeId = row.nodeId) :
    Steps k T s (s.confirmAbsent row) := by
  have hhear := hear_steps (k := k) (T := T) hs row.nodeId row.id .stopped
  refine hhear.trans (Steps.on (s := s.hear row.nodeId row.id .stopped) (d := row.deploymentId)
    (f := fun x ↦ ((x.retireAssignment row.id).setAssignmentState s.now row.id .stopped
      (some "agent confirmed assignment absent")).notify row.id .stopped "") ⟨rfl, ?_⟩
      (.inl hknown) ?_)
  · simp
  · rw [Slot.view_notify_same _ _ _ (by rintro (_ | _) <;> simp [Target.state]),
      Slot.view_setAssignmentState, Slot.view_retireAssignment]
    refine .rowState row.id _ hjobs (fun _ v hv hid ↦ ?_) (by simp) (fun h ↦ by cases h)
    obtain ⟨r, hr, rfl⟩ := List.mem_map.mp hv
    rw [show r.view.nodeId = row.nodeId from hnode r hr hid]
    exact List.mem_cons_self

theorem LiveOn.confirmAbsent (h : s.LiveOn nodeId id) (hne : id ≠ row.id) :
    (s.confirmAbsent row).LiveOn nodeId id := by
  unfold Control.confirmAbsent hear LiveOn
  dsimp only
  refine fun d ↦ h.on (fun hx ↦ ?_) d
  exact (hx.retireAssignment.setAssignmentState s.now _ fun hid ↦ absurd hid hne).of_rows rfl

/-- What a hello must know of the rows of its node: what it says of them was heard, and one it does
not call stopped is live. -/
structure HelloReady (T : Terms) (nodeId : NodeId)
    (reported : AssignmentId → Option AssignmentState) (s : Control) : Prop where
  jobs : ∀ d ∈ s.known, (s.slots d).jobs = []
  heard : ∀ d ∈ s.known, ∀ id watch state, (id, nodeId, watch) ∈ (s.slots d).keys →
    reported id = some state → ⟨nodeId, id, state⟩ ∈ s.heard
  live : T.honest → ∀ id state, reported id = some state → state ≠ .stopped → s.LiveOn nodeId id

theorem HelloReady.next (h : HelloReady T nodeId reported s) (hsteps : Steps k T s s')
    (hlive : ∀ id state, reported id = some state → state ≠ .stopped → s.LiveOn nodeId id →
      s'.LiveOn nodeId id) : HelloReady T nodeId reported s' where
  jobs := hsteps.allJobs h.jobs
  heard d hd id watch state hkey hreported := hsteps.heard
    (h.heard d (hsteps.known ▸ hd) id watch state ((hsteps.still d).keys ▸ hkey) hreported)
  live hA id state hstate hne := hlive id state hstate hne (h.live hA id state hstate hne)

theorem HelloReady.calm (h : HelloReady T nodeId reported s) (hcalm : Calm k T s s') :
    HelloReady T nodeId reported s' :=
  h.next hcalm.toSteps fun _ _ _ _ hlive ↦ hlive.of_rows hcalm.rows

theorem reissue_steps (hs : s.Good) {r : AssignmentRow} (hknown : d ∈ s.known)
    (hjobs : (s.slots d).jobs = []) (hr : r ∈ (s.slots d).rows) (hwatch : r.healthWatch = true)
    (hgreets : T.greets r.nodeId) : Steps k T s (s.on d (·.reissue s.now r.id)) := by
  refine Steps.on ⟨rfl, by simp⟩ (.inl hknown) ?_
  rw [Slot.view_reissue]
  refine .rowState r.id .sent hjobs (by simp) ?_ ?_
  · intro _ _ v hv hid hnot
    obtain ⟨r', hr', rfl⟩ := List.mem_map.mp hv
    obtain rfl := hs.row_unique hr' hr hid
    cases hnot.symm.trans hwatch
  · intro _ v hv hid
    obtain ⟨r', hr', rfl⟩ := List.mem_map.mp hv
    rwa [hs.row_unique hr' hr hid]

theorem mem_keys {x : Slot} {id : AssignmentId} {n : NodeId} {w : Bool} (h : (id, n, w) ∈ x.keys) :
    ∃ r ∈ x.rows, r.id = id ∧ r.nodeId = n ∧ r.healthWatch = w := by
  obtain ⟨r, hr, heq⟩ := List.mem_map.mp h
  simp only [Prod.mk.injEq] at heq
  exact ⟨r, hr, heq⟩

section

variable (hs : s.Good) (hready : HelloReady T nodeId reported s) (hgreets : T.greets nodeId)

include hs hready hgreets

theorem helloRow_steps (seen : List DeploymentId) (hnode : row.nodeId = nodeId)
    (hknown : row.deploymentId ∈ s.known)
    (hkey : (row.id, nodeId, row.healthWatch) ∈ (s.slots row.deploymentId).keys) :
    Steps k T s (helloRow k nodeId reported (s, seen) row).1 ∧
      HelloReady T nodeId reported (helloRow k nodeId reported (s, seen) row).1 := by
  obtain ⟨r, hr, hid, hrnode, hwatch⟩ := mem_keys hkey
  have hjobs := hready.jobs _ hknown
  have hcalm : ∀ {s'}, Calm k T s s' → Steps k T s s' ∧ HelloReady T nodeId reported s' :=
    fun h ↦ ⟨h.toSteps, hready.calm h⟩
  unfold helloRow
  dsimp only
  generalize (if row.healthWatch && s.wants row &&
    !(row.healthWatch && decide (row.deploymentId ∈ seen)) then row.deploymentId :: seen else seen)
      = seen'
  have habsent : ∀ reissued failed : Bool, (reissued = true → row.healthWatch = true) →
      ∀ why, (∀ state, reported row.id = some state → state = .stopped) →
      let s₁ := s.confirmAbsent row
      let acc := if reissued then (s₁.on row.deploymentId (·.reissue s₁.now row.id), seen')
        else if failed then (s₁.on row.deploymentId (·.fail k s₁.now why), seen') else (s₁, seen')
      Steps k T s acc.1 ∧ HelloReady T nodeId reported acc.1 := by
    intro reissued failed hreissued why hreported
    have hsteps : Steps k T s (s.confirmAbsent row) := by
      refine confirmAbsent_steps hs hknown hjobs fun r' hr' hid' ↦ ?_
      rw [hs.row_unique hr' hr (hid'.trans hid.symm), hrnode, hnode]
    have hready₁ : HelloReady T nodeId reported (s.confirmAbsent row) := by
      refine hready.next hsteps fun id state hstate hne hlive ↦ hlive.confirmAbsent ?_
      rintro rfl
      exact hne (hreported state hstate)
    dsimp only
    generalize s.confirmAbsent row = s₁ at hsteps hready₁ ⊢
    have hknown₁ : row.deploymentId ∈ s₁.known := hsteps.known ▸ hknown
    split_ifs with hre hfa
    · obtain ⟨r₁, hr₁, hid₁, hnode₁, hwatch₁⟩ :=
        mem_keys ((hsteps.still row.deploymentId).keys ▸ hkey)
      have hreissue := reissue_steps (k := k) (hsteps.micros.good hs) hknown₁
        (hready₁.jobs _ hknown₁) hr₁ (hwatch₁.trans (hreissued hre)) (hnode₁ ▸ hgreets)
      rw [hid₁] at hreissue
      refine ⟨hsteps.trans hreissue, hready₁.next hreissue fun _ _ _ _ hlive ↦ ?_⟩
      dsimp only
      exact hlive.on (·.reissue s₁.now)
    · have hfail := Calm.fail (k := k) (T := T) hknown₁ why
      exact ⟨hsteps.trans hfail.toSteps, hready₁.calm hfail⟩
    · exact ⟨hsteps, hready₁⟩
  split
  · rename_i hreported
    exact habsent _ _ (by simp only [Bool.and_eq_true]; exact fun h ↦ h.1.2) _ (by simp [hreported])
  · rename_i hreported
    exact habsent _ _ (by simp only [Bool.and_eq_true]; exact fun h ↦ h.1.2) _ (by simp [hreported])
  · rename_i state hne hreported
    split_ifs with hretire hwatched hfailed
    · have hset := setAssignmentState_steps (k := k) hs hr hknown hjobs state
        none (fun h ↦ absurd h hne) fun hA _ ↦ by
          rw [hid, hrnode]
          exact hready.live hA row.id state hreported hne
      rw [hid] at hset
      have hretired :=
        hset.trans (Steps.book (f := (·.retireAssignment row.id)) (d := row.deploymentId)
          ⟨rfl, by simp⟩ (Slot.view_retireAssignment _ _))
      rw [on_on] at hretired
      refine ⟨hretired, hready.next hretired fun _ _ _ _ hlive ↦ ?_⟩
      dsimp only
      refine hlive.on fun hx ↦ ?_
      exact (hx.setAssignmentState s.now none fun _ ↦ hne).retireAssignment
    · exact hcalm (onAssignmentState_calm hs nodeId row.id state none
        (hready.heard _ hknown row.id _ state hkey hreported))
    · exact hcalm (.fail hknown _)
    · exact hcalm (.refl s)

theorem foldl_helloRow_steps (rows : List AssignmentRow) (seen : List DeploymentId)
    (hrows : ∀ row ∈ rows, row.nodeId = nodeId ∧ row.deploymentId ∈ s.known ∧
      (row.id, nodeId, row.healthWatch) ∈ (s.slots row.deploymentId).keys) :
    Steps k T s (rows.foldl (helloRow k nodeId reported) (s, seen)).1 := by
  induction rows generalizing s seen with
  | nil => exact .refl s
  | cons row rows ih =>
    obtain ⟨hnode, hknown, hkey⟩ := hrows row List.mem_cons_self
    obtain ⟨hsteps, hready'⟩ :=
      helloRow_steps hs hready hgreets seen hnode hknown hkey
    rw [List.foldl_cons]
    generalize helloRow k nodeId reported (s, seen) row = r at hsteps hready' ⊢
    obtain ⟨s₁, seen₁⟩ := r
    refine hsteps.trans (ih (hsteps.micros.good hs) hready' seen₁ fun row' hrow' ↦ ?_)
    obtain ⟨hnode', hknown', hkey'⟩ := hrows row' (List.mem_cons_of_mem row hrow')
    exact ⟨hnode', hsteps.known ▸ hknown', (hsteps.still _).keys ▸ hkey'⟩

theorem onHello_steps :
    Steps k T s (s.onHello k nodeId reported) := by
  unfold onHello
  have hobserve : Calm k T s (s.known.foldl (fun s d ↦ s.on d fun x ↦
      if x.reconnecting.any (nodeId ∈ ·.nodes) then x.observeReconnect k s.now s.present else
        x) s) := by
    refine .foldl s.known hs fun s' _ h d hd ↦ .on (h.known ▸ hd) ?_ ?_ ?_
    · split_ifs
      · rw [Slot.observeReconnect_view]
        exact .book
      · exact .book
    · split_ifs <;> simp
    · split_ifs <;> simp
  have hs₁ := hobserve.micros.good hs
  refine hobserve.toSteps.trans
    (foldl_helloRow_steps hs₁ (hready.calm hobserve) hgreets _ [] fun row hrow ↦ ?_)
  obtain ⟨hmem, hnode⟩ := List.mem_filter.mp hrow
  have hmem := (sortBy_perm _ _).mem_iff.mp ((sortBy_perm _ _).mem_iff.mp hmem)
  obtain ⟨d, hd, hrow⟩ := List.mem_flatMap.mp hmem
  have hown : row.deploymentId = d := (hs₁.slots d).rows.own row.view (List.mem_map_of_mem hrow)
  subst hown
  have hnode : row.nodeId = nodeId := by simpa using hnode
  exact ⟨hnode, hd, List.mem_map.mpr ⟨row, hrow, by rw [hnode]⟩⟩

end

theorem LiveOn.storeReport (h : s.LiveOn nodeId id) (n : NodeId) (id' : AssignmentId)
    {state : AssignmentState} (detail : Option String) (hlive : id = id' → state ≠ .stopped) :
    (s.storeReport n id' state detail).LiveOn nodeId id := by
  unfold Control.storeReport
  split
  · exact h
  · rename_i row _
    split_ifs
    · exact h
    · have hon : (s.on row.deploymentId (·.setAssignmentState s.now id' state detail)).LiveOn
          nodeId id :=
        h.on fun hx ↦ hx.setAssignmentState s.now detail hlive
      exact fun d ↦ hon d

/-- A node does not say in one message that an assignment is stopped and then that it is not. -/
def Hello.Ordered (assignments : List Reported) : Prop :=
  assignments.Pairwise fun a b ↦ a.id = b.id → a.state = .stopped → b.state = .stopped

/-- The assignments of a hello are stored one after another. All it says is heard, and what it does
not call stopped stays live. -/
theorem storeReports_steps (hs : s.Good) (hjobs : ∀ d ∈ s.known, (s.slots d).jobs = [])
    (before rest : List Reported) (hordered : T.honest → Hello.Ordered (before ++ rest))
    (hlive : T.honest → ∀ id, (∃ a ∈ before ++ rest, a.id = id ∧ a.state ≠ .stopped) →
      (∀ b ∈ before, b.id = id → b.state ≠ .stopped) → s.LiveOn nodeId id) :
    let s' := rest.foldl (fun s a ↦ s.storeReport nodeId a.id a.state a.detail) s
    Steps k T s s' ∧ (∀ d ∈ s.known, ∀ watch, ∀ a ∈ rest, (a.id, nodeId, watch) ∈ (s.slots d).keys →
        ⟨nodeId, a.id, a.state⟩ ∈ s'.heard) ∧
      (T.honest → ∀ id, (∃ a ∈ before ++ rest, a.id = id ∧ a.state ≠ .stopped) →
        (∀ b ∈ before ++ rest, b.id = id → b.state ≠ .stopped) → s'.LiveOn nodeId id) := by
  induction rest generalizing s before with
  | nil =>
    refine ⟨.refl s, by simp, ?_⟩
    simpa using hlive
  | cons a rest ih =>
    have hstore : Steps k T s (s.storeReport nodeId a.id a.state a.detail) := by
      refine storeReport_steps hs hjobs nodeId a.id a.state a.detail fun hA hne ↦ ?_
      refine hlive hA a.id ⟨a, by simp, rfl, hne⟩ fun b hb hid hstopped ↦ hne ?_
      exact (List.pairwise_append.mp (hordered hA)).2.2 b hb a List.mem_cons_self hid hstopped
    have hlists : before ++ [a] ++ rest = before ++ a :: rest := by simp
    rw [List.foldl_cons, ← hlists]
    have := ih (hstore.micros.good hs)
      (hstore.allJobs hjobs) (before ++ [a])
      (by rwa [hlists]) ?_
    · refine ⟨hstore.trans this.1, fun d hd watch b hb hkey ↦ ?_, this.2.2⟩
      rcases List.mem_cons.mp hb with rfl | hb
      · obtain ⟨row, hrow, hid, rfl, -⟩ := mem_keys hkey
        exact this.1.heard (hid ▸ heard_storeReport hs hd hrow _ _)
      · exact this.2.1 d (hstore.known ▸ hd) watch b hb ((hstore.still d).keys ▸ hkey)
    · intro hA id hexists hbefore
      rw [hlists] at hexists
      refine (hlive hA id hexists fun b hb ↦ hbefore b (by simp [hb])).storeReport nodeId a.id
        a.detail ?_
      rintro rfl
      exact hbefore a (by simp) rfl

theorem Hello.all_live {assignments : List Reported} (hordered : Hello.Ordered assignments)
    {state : AssignmentState}
    (h : (assignments.reverse.find? (·.id = id)).map (·.state) = some state)
    (hne : state ≠ .stopped) : (∃ a ∈ assignments, a.id = id ∧ a.state ≠ .stopped) ∧
      ∀ b ∈ assignments, b.id = id → b.state ≠ .stopped := by
  obtain ⟨a, hfind, rfl⟩ := Option.map_eq_some_iff.mp h
  obtain ⟨hid, after, before, hsplit, hafter⟩ := List.find?_eq_some_iff_append.mp hfind
  have hid : a.id = id := by simpa using hid
  have hlist : assignments = before.reverse ++ a :: after.reverse := by
    have := congrArg List.reverse hsplit
    simpa using this
  refine ⟨⟨a, by simp [hlist], hid, hne⟩, fun b hb hbid hstopped ↦ ?_⟩
  rw [hlist] at hb hordered
  rcases List.mem_append.mp hb with hb | hb
  · exact hne ((List.pairwise_append.mp hordered).2.2 b hb a List.mem_cons_self
      (hbid.trans hid.symm) hstopped)
  · rcases List.mem_cons.mp hb with rfl | hb
    · exact hne hstopped
    · exact absurd hbid (by simpa using hafter b (List.mem_reverse.mp hb))

theorem hello_micros (hs : s.Good) (hjobs : ∀ d ∈ s.known, (s.slots d).jobs = []) (m : Hello)
    (hordered : T.honest → Hello.Ordered m.assignments)
    (hlive : T.honest → ∀ a ∈ m.assignments, a.state ≠ .stopped → s.LiveOn nodeId a.id)
    (hoffers : T.offers → ∀ n ∈ s.nodes.rows, n.id = nodeId → ∀ o, n.offer = some o → o = m.offer)
    (hgreets : T.greets nodeId) : Micros k T s (s.hello k nodeId m) := by
  unfold hello
  dsimp only
  have hnode := modify_calm (k := k) hs nodeId (f := fun n ↦ { n with
    online := true, caps := some m.caps, offer := some m.offer, models := m.models })
      (fun _ _ ↦ rfl)
    fun hO r hr hid o ho ↦ congrArg some (hoffers hO r hr hid o ho).symm
  generalize ({ s with nodes := s.nodes.modify nodeId fun n ↦ { n with
    online := true, caps := some m.caps, offer := some m.offer, models := m.models } } : Control) =
      s₁ at hnode ⊢
  have hjobs₁ := hnode.allJobs hjobs
  have hs₁ := hnode.micros.good hs
  have hfirst : T.honest → ∀ id, (∃ a ∈ [] ++ m.assignments, a.id = id ∧ a.state ≠ .stopped) →
      (∀ b ∈ ([] : List Reported), b.id = id → b.state ≠ .stopped) → s₁.LiveOn nodeId id :=
    fun hA id ⟨a, ha, hid, hne⟩ _ ↦ hid ▸ (hlive hA a ha hne).of_rows hnode.rows
  obtain ⟨hstore, hheard, hstored⟩ := storeReports_steps (k := k) (T := T)
    hs₁ hjobs₁ [] m.assignments hordered hfirst
  generalize m.assignments.foldl (fun s a ↦ s.storeReport nodeId a.id a.state a.detail) s₁ = s₂
    at hstore hheard hstored ⊢
  have hs₂ := hstore.micros.good hs₁
  have hready : HelloReady T nodeId m.stateOf s₂ := by
    refine ⟨hstore.allJobs hjobs₁, ?_, ?_⟩
    · intro d hd id watch state hkey hstate
      obtain ⟨a, hfind, rfl⟩ := Option.map_eq_some_iff.mp hstate
      obtain rfl : a.id = id := by simpa using List.find?_some hfind
      exact hheard d (hstore.known ▸ hd) watch a
        (List.mem_reverse.mp (List.mem_of_find?_eq_some hfind)) ((hstore.still d).keys ▸ hkey)
    intro hA id state hstate hne
    obtain ⟨hexists, hall⟩ := Hello.all_live (hordered hA) hstate hne
    exact hstored hA id hexists hall
  have honHello := onHello_steps (k := k) hs₂ hready hgreets
  exact hnode.micros.trans (hstore.micros.trans (honHello.micros.trans
    (onNodeOnline_micros (honHello.micros.good hs₂) (honHello.allJobs hready.jobs) nodeId)))

end Control

end

end Swarmlet
