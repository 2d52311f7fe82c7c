import Swarmlet.Control.FleetAgreement
import Swarmlet.Control.Runs

/-!
# The routing table

The router asks the manager which deployments serve a model. The table is computed from the rows of
the deployments, so what may be routed to follows from what is kept between two small steps:

* a deployment that is not external has an endpoint exactly while it is ready;
* while it serves, or waits for the engines of its start, every node of its stored plan is here;
* once it has left the ready state, only a start that sent assignments nobody knew before, and heard
  from them, brings it back.

External deployments are routed by the reports of their health watch alone: the third is not claimed
of them, and the second is not true of them.
-/

namespace Swarmlet

open Js EventMachine

/-! ## The table -/

/-- A deployment as the router sees it. -/
structure Route where
  id : DeploymentId
  name : String
  kind : DeploymentKind
  nodeId : NodeId
  port : ℕ
  nodes : List NodeId
  inflight : ℕ
  rttMs : Option ℚ
  upstreamModel : Option String
deriving DecidableEq

namespace Control

def routeNodes (dep : Deployment) (endpoint : RouteEndpoint) : List NodeId :=
  match dep.plan with
  | some plan => planNodes plan
  | none => [endpoint.nodeId]

def route (s : Control) (dep : Deployment) : Option (String × Route) :=
  if dep.state ≠ .ready then none
  else dep.endpoint.bind fun endpoint ↦
    let nodes := routeNodes dep endpoint
    if s.updatingNode.getD "" ∈ nodes then none
    else some (endpoint.modelName, {
      id := dep.id
      name := dep.spec.name
      kind := dep.spec.kind
      nodeId := endpoint.nodeId
      port := endpoint.port
      nodes
      inflight := (s.slots dep.id).inflight
      rttMs := (((s.nodes.get endpoint.nodeId).bind (·.caps)).bind (·.net)).map (·.rttMs)
      upstreamModel := (dep.spec.external.bind (·.upstreamModel)).filter (· ≠ "") })

/-- `routing`: the ready deployments, grouped by the model they serve. -/
def routing (s : Control) : List (String × List Route) :=
  let routes := s.listDeployments.filterMap s.route
  (distinct (routes.map (·.1))).map fun model ↦ (model, (routes.filter (·.1 = model)).map (·.2))

def Listed (s : Control) (r : Route) : Prop := ∃ group ∈ s.routing, r ∈ group.2

theorem Listed.row {s : Control} {r : Route} (h : s.Listed r) : ∃ dep endpoint,
    (s.slots r.id).dep = some dep ∧ dep.state = .ready ∧ dep.endpoint = some endpoint ∧
      r.nodes = routeNodes dep endpoint ∧ r.kind = dep.spec.kind := by
  obtain ⟨group, hgroup, hr⟩ := h
  obtain ⟨model, -, rfl⟩ := List.mem_map.mp hgroup
  obtain ⟨p, hp, rfl⟩ := List.mem_map.mp hr
  obtain ⟨dep, hdep, hroute⟩ := List.mem_filterMap.mp (List.mem_of_mem_filter hp)
  obtain ⟨d, -, hget⟩ := List.mem_filterMap.mp hdep
  obtain ⟨row, hrow, rfl⟩ := getDeployment_some hget
  unfold route at hroute
  split_ifs at hroute with hready
  obtain ⟨endpoint, hendpoint, hroute⟩ := Option.bind_eq_some_iff.mp hroute
  dsimp only at hroute
  split_ifs at hroute
  cases hroute
  exact ⟨row, endpoint, hrow, not_ne_iff.mp hready, hendpoint, rfl, rfl⟩

end Control

section

variable {k : Deps} {T : Terms} {c : Ambient} {d : DeploymentId} {e : Surroundings} {v w : View}
  {s s' : Control} {n : NodeId}

/-! ## Endpoints -/

/-- A deployment that is not external has an endpoint exactly while it is ready. -/
def View.Routed (v : View) : Prop :=
  ∀ f, v.face = some f → f.spec.kind ≠ .external → (f.endpoint.isSome = true ↔ f.state = .ready)

theorem View.Good.not_ready (h : v.Good d) {o : OpView} (ho : o ∈ v.ops) {dep : Deployment}
    (hwork : o.work = .start dep v.generation) (hstand : o.stand ≠ .cleaning) {f : Face}
    (hf : v.face = some f) (hkind : f.spec.kind ≠ .external) : f.state ≠ .ready := by
  obtain ⟨g, hg, hrising⟩ := (h.start o ho).rising dep hwork hstand
  obtain rfl := Option.mem_unique hf hg
  rcases hrising with hs | hs | ⟨-, hs⟩
  · simp [hs]
  · simp [hs]
  · exact absurd hs hkind

theorem View.Good.not_newer (h : v.Good d) :
    ∀ o ∈ v.ops, ∀ dep, o.work ≠ .start dep (v.generation + 1) := fun o ho dep hwork ↦ by
  have := (h.queue.snapshot o ho dep _ hwork).1
  omega

theorem View.Good.behind (h : v.Good d) {o : OpView} {rest : List OpView}
    (hops : v.ops = o :: rest) : ∀ p ∈ rest, ∀ dep generation, p.work ≠ .start dep generation :=
    fun p hp dep generation hwork ↦ by
  have := (h.queue.tail p (by rw [hops]; exact hp)).work
  rw [hwork] at this
  cases this

theorem View.Good.external (h : v.Good d) {o : OpView} {rest : List OpView}
    (hops : v.ops = o :: rest) {dep : Deployment} {generation : ℕ}
    (hwork : o.work = .start dep generation) {f : Face} (hf : v.face = some f)
    (hkind : dep.spec.kind = .external) : f.spec.kind = .external := by
  obtain ⟨-, -, g, hg, hspec⟩ := h.queue.snapshot o (hops ▸ List.mem_cons_self) dep _ hwork
  obtain rfl := Option.mem_unique hf hg
  rw [hspec, hkind]

theorem Move.routed (hg : v.Good d) (h : v.Routed) (hm : Move k T c d v w) : w.Routed := by
  -- A stop under way keeps the deployment from being ready, so what `halt` leaves is no endpoint.
  have hstop : ∀ {o rest}, v.ops = o :: rest → o.work = .stop → ∀ f, v.face = some f →
      f.state ≠ .ready := fun hops hwork f hf hready ↦ by
    have := hg.intent.stopping _ (hops ▸ List.mem_cons_self) hwork
    rw [(hg.intent.serving f hf hready).1] at this
    cases this
  unfold View.Routed at h ⊢
  cases hm with
  | _ => grind [View.settle, View.setRowState, View.hear, View.expire, View.block,
      DeploymentKind.planned]

theorem Dispatch.routed (hg : v.Good d) (h : v.Routed) (hm : Dispatch d e v w) : w.Routed := by
  intro g hg' hkind
  cases hm with
  | @planned f o rest dep plan state rows stand excluded hface hops hwork hstand hrunning
      hkind' hblocked hstate =>
    cases hg'
    have hnot := hg.not_ready (hops ▸ List.mem_cons_self) hwork (by simp [hstand]) hface hkind
    have := h f hface hkind
    rcases hstate with rfl | rfl <;> simp_all
  | @coordinator f o rest dep plan coord workers rows stand hface hops hwork hstand =>
    cases hg'
    have hnot := hg.not_ready (hops ▸ List.mem_cons_self) hwork (by simp [hstand]) hface hkind
    have := h f hface hkind
    simp_all
  | @watch f o rest dep rows stand excluded hface hops hwork hstand hrunning hext =>
    cases hg'
    exact absurd (hg.external hops hwork hface hext) hkind

theorem View.Restored.routed (h : v.Routed) (hr : v.Restored w) : w.Routed := by
  intro g hg hkind
  obtain ⟨f, hf, hspec, -, hready, hendpoint, -⟩ := hr.source hg
  have := h f hf (hspec ▸ hkind)
  rcases hendpoint with hnone | ⟨hsame, hf'⟩ <;> simp_all

theorem Micro.routed (hm : Micro k T s s') (hs : s.Good) (h : ∀ d, (s.view d).Routed) :
    ∀ d, (s'.view d).Routed :=
  hm.slotwise h (fun d _ hmove ↦ hmove.routed (hs.slots d) (h d))
    (fun d _ hdispatch ↦ hdispatch.routed (hs.slots d) (h d))
    (fun _ _ _ ↦ by simp [View.Routed, View.created]) fun _ d _ hr ↦ hr.routed (h d)

/-! ## Nodes under a deployment -/

def View.Up (v : View) (f : Face) : Prop :=
  f.state = .ready ∨ ∃ o ∈ v.ops, ∃ dep, o.work = .start dep v.generation ∧
    ∃ target pending, o.stand = .awaiting target pending

/-- A deployment that is up and not external has a plan, and its nodes are here. -/
def View.PlacedOn (here : NodeId → Bool) (v : View) : Prop :=
  ∀ f, v.face = some f → f.spec.kind ≠ .external → v.Up f →
    ∃ plan, f.plan = some plan ∧ ∀ n ∈ planNodes plan, here n = true

theorem Move.placedOn {here : NodeId → Bool} (hg : v.Good d) (h : v.PlacedOn here)
    (hm : Move k T c d v w) : w.PlacedOn here := by
  have hold := hg.not_newer
  intro g hg' hkind hup
  -- Only what was up before is up, on the same plan.
  suffices hwas : ∃ f, v.face = some f ∧ f.spec.kind ≠ .external ∧ v.Up f ∧ g.plan = f.plan by
    obtain ⟨f, hf, hkind', hf', hplan⟩ := hwas
    exact hplan ▸ h f hf hkind' hf'
  unfold View.Up at hup ⊢
  cases hm with
  | heard id state =>
    refine ⟨g, hg', hkind, hup.imp_right ?_, rfl⟩
    rintro ⟨o, ho, dep, hwork, target, pending, hstand⟩
    obtain ⟨p, hp, rfl⟩ := List.mem_map.mp ho
    refine ⟨p, hp, dep, (congrArg Prod.fst (p.task_hear id state)).symm.trans hwork, target, ?_⟩
    unfold OpView.hear at hstand
    split at hstand
    · split_ifs at hstand
      · cases hstand
        exact ⟨_, ‹_›⟩
      · exact ⟨pending, hstand⟩
    · exact ⟨pending, hstand⟩
  | _ =>
    grind [View.settle, View.setRowState, View.expire, View.block, View.setState, View.setReady,
      View.halt, DeploymentKind.planned, Work.isStart]

theorem Dispatch.placedOn (hg : v.Good d) (h : v.PlacedOn e.present) (hm : Dispatch d e v w) :
    w.PlacedOn e.present := by
  intro g hg' hkind _
  cases hm with
  | @planned f o rest dep plan state rows stand excluded hface hops hwork hstand hrunning
      hkind' hblocked hstate hgone hplaced =>
    cases hg'
    exact ⟨plan, rfl, hplaced⟩
  | @coordinator f o rest dep plan coord workers rows stand hface hops hwork hstand =>
    cases hg'
    exact h f hface hkind (.inr ⟨o, hops ▸ List.mem_cons_self, dep, hwork, _, _, hstand⟩)
  | @watch f o rest dep rows stand excluded hface hops hwork hstand hrunning hext =>
    cases hg'
    exact absurd (hg.external hops hwork hface hext) hkind

theorem View.Restored.placedOn (hr : v.Restored w) (here : NodeId → Bool) : w.PlacedOn here := by
  intro g hg _ hup
  obtain ⟨f, -, -, -, hready, -⟩ := hr.source hg
  rcases hup with hup | ⟨o, ho, -⟩
  · exact absurd hup hready
  · rw [hr.ops] at ho
    cases ho

/-- **A deployment that is up keeps its nodes.** A node goes only after everything that depended on
it was withdrawn. -/
theorem Micro.placedOn (hm : Micro k T s s') (hs : s.Good)
    (h : ∀ d, (s.view d).PlacedOn s.present) : ∀ d, (s'.view d).PlacedOn s'.present := by
  have hkept : ∀ d, (s'.view d).PlacedOn s.present :=
    hm.slotwise h
      (fun d _ hmove ↦ hmove.placedOn (hs.slots d) (h d))
      (fun d _ hdispatch ↦ hdispatch.placedOn (hs.slots d) (h d))
      (fun _ _ _ ↦ by simp [View.PlacedOn, View.created, View.Up]) fun _ _ _ hr ↦ hr.placedOn _
  cases hm with
  | slot | dispatch | created => exact hkept
  | restart s' hknown hslots => exact fun d ↦ (hslots d).placedOn _
  | around s' ha =>
    intro d f hf hkind hup
    obtain ⟨plan, hplan, hnodes⟩ := hkept d f hf hkind hup
    have hview : s'.view d = s.view d := by rw [Control.view, ha.slots]; rfl
    rw [hview] at hf hup
    refine ⟨plan, hplan, fun n hn ↦ ?_⟩
    by_contra hgone
    obtain ⟨hready, hwaits⟩ := ha.lost n (hnodes n hn) (by simpa using hgone) d f plan hf
      hkind hplan hn
    rcases hup with hup | ⟨o, ho, dep, hwork, target, pending, hstand⟩
    · exact hready hup
    · exact hwaits o ho dep hwork target pending hstand

/-! ## Assignments that were seen -/

def Control.Seen (s : Control) (id : AssignmentId) : Prop :=
  (∃ d, ∃ r ∈ (s.slots d).rows, r.id = id) ∨ ∃ m ∈ s.heard, m.id = id

def View.RowsStay (v w : View) : Prop := ∀ q ∈ v.rows, ∃ r ∈ w.rows, q = { r with state := q.state }

theorem View.rowsStay_refl (v : View) : v.RowsStay v := fun q hq ↦ ⟨q, hq, rfl⟩

theorem View.rowsStay_setRowState (v : View) (id : AssignmentId) (state : RowState) :
    v.RowsStay (v.setRowState id state) := by
  refine fun q hq ↦ ⟨_, List.mem_map_of_mem hq, ?_⟩
  split_ifs <;> rfl

theorem Move.rows_stay (hg : v.Good d) (hm : Move k T c d v w) :
    v.RowsStay w ∨ ∀ q ∈ v.rows, q.live = false := by
  cases hm with
  | rowState => exact .inl (v.rowsStay_setRowState _ _)
  | removed i sent excluded hj => exact .inr (hg.cleared sent excluded (List.mem_of_getElem? hj))
  | _ => exact .inl v.rowsStay_refl

theorem Dispatch.rows_stay (hm : Dispatch d e v w) : ∀ q ∈ v.rows, q ∈ w.rows := by
  cases hm <;> exact fun q hq ↦ List.mem_append_left _ hq

theorem Control.seen_iff {id : AssignmentId} : s.Seen id ↔
    (∃ d, ∃ r ∈ (s.view d).rows, r.id = id) ∨ ∃ m ∈ s.heard, m.id = id := by
  refine or_congr_left ⟨?_, ?_⟩
  · rintro ⟨d, r, hr, hid⟩
    exact ⟨d, r.view, List.mem_map_of_mem hr, hid⟩
  · rintro ⟨d, v, hv, hid⟩
    obtain ⟨r, hr, rfl⟩ := List.mem_map.mp hv
    exact ⟨d, r, hr, hid⟩

theorem Micro.rows_stay (hm : Micro k T s s') (hs : s.Good) : ∀ d, ∀ q ∈ (s.view d).rows,
    (∃ r ∈ (s'.view d).rows, r.id = q.id ∧ r.nodeId = q.nodeId) ∨
      ⟨q.nodeId, q.id, .stopped⟩ ∈ s.heard := by
  refine hm.slotwise (P := fun d w ↦ ∀ q ∈ (s.view d).rows,
    (∃ r ∈ w.rows, r.id = q.id ∧ r.nodeId = q.nodeId) ∨ ⟨q.nodeId, q.id, .stopped⟩ ∈ s.heard)
    (fun d q hq ↦ .inl ⟨q, hq, rfl, rfl⟩) (fun d w hmove q hq ↦ ?_)
    (fun d w hdispatch q hq ↦ .inl ⟨q, hdispatch.rows_stay q hq, rfl, rfl⟩)
    (fun d spec hnew q hq ↦ ?_) fun _ d w hr q hq ↦ .inl ⟨q, hr.rows ▸ hq, rfl, rfl⟩
  · rcases hmove.rows_stay (hs.slots d) with hstay | hgone
    · obtain ⟨r, hr, hqr⟩ := hstay q hq
      exact .inl ⟨r, hr, by rw [hqr], by rw [hqr]⟩
    · exact .inr (hs.acked d q hq (hgone q hq))
  · rw [(hs.unknown d hnew).2.1] at hq
    cases hq

theorem Micro.seen (hm : Micro k T s s') (hs : s.Good) {id : AssignmentId} (h : s.Seen id) :
    s'.Seen id := by
  rw [Control.seen_iff] at h ⊢
  rcases h with ⟨d, q, hq, rfl⟩ | ⟨m, hmem, hid⟩
  · rcases hm.rows_stay hs d q hq with ⟨r, hr, hid, -⟩ | hmem
    · exact .inl ⟨d, r, hr, hid⟩
    · exact .inr ⟨_, hm.heard hmem, rfl⟩
  · exact .inr ⟨m, hm.heard hmem, hid⟩

theorem Control.Good.not_seen (hs : s.Good) {id : AssignmentId}
    (h : (s.surroundings k d).fresh id) : ¬s.Seen id := by
  rintro (⟨d', r, hr, hid⟩ | ⟨m, hm, hid⟩)
  · have hknown : d' ∈ s.known := by
      by_contra hno
      have hrows := (hs.unknown d' hno).2.1
      rw [Control.view, Slot.view, List.map_eq_nil_iff] at hrows
      rw [hrows] at hr
      cases hr
    exact h.1 (hid ▸ List.mem_map_of_mem (List.mem_flatMap.mpr ⟨d', hknown, hr⟩))
  · exact h.2 (hid ▸ List.mem_map_of_mem hm)

/-! ## Placed again -/

section

variable (old : AssignmentId → Prop) (heard : List Heard)

/-- An assignment on a node of the plan that is not an old one: the start still waits for it to come
to `target`, or its node has said that it came to what the start waits for there. -/
def View.Told (v : View) (plan : Plan) (target : AssignmentState) (pending : List AssignmentId)
    (n : NodeId) : Prop :=
  ∃ r ∈ v.rows, ¬old r.id ∧ r.nodeId = n ∧ r.origin = some plan ∧
    (plan.awaited n = target ∧ r.id ∈ pending ∨ ⟨n, r.id, plan.awaited n⟩ ∈ heard)

def View.Sent (v : View) (pending : List AssignmentId) : Prop :=
  ∃ plan, v.face.bind (·.plan) = some plan ∧ planNodes plan ≠ [] ∧
    ∀ n ∈ planNodes plan, v.Told old heard plan .ready pending n

def View.Asks (v : View) (o : OpView) : Prop :=
  match o.stand with
  | .awaiting (.workers plan _ _) pending => ∀ n ∈ planNodes plan,
    n = plan.coordinatorNodeId ∨ v.Told old heard plan .listening pending n
  | .awaiting (.route _) pending => v.Sent old heard pending
  | _ => True

/-- Every current start of an engine has sent only assignments that are not old. -/
def View.StartsAnew (v : View) : Prop :=
  ∀ o ∈ v.ops, ∀ dep, o.work = .start dep v.generation → dep.spec.kind ≠ .external →
    v.Asks old heard o

/-- A deployment that serves does so because such a start ended well. -/
def View.ServesAnew (v : View) : Prop :=
  ∀ f, v.face = some f → f.spec.kind ≠ .external → f.state = .ready → v.Sent old heard []

end

structure View.Holds (v w : View) : Prop where
  rows : v.RowsStay w
  plan : w.face.bind (·.plan) = v.face.bind (·.plan)

section

variable {old : AssignmentId → Prop} {heard heard' : List Heard} {plan : Plan}
  {target state : AssignmentState} {pending pending' : List AssignmentId} {n : NodeId}

theorem View.Told.mono (h : v.Told old heard plan target pending n) (hheard : heard ⊆ heard')
    (hrows : v.RowsStay w)
    (hpending : ∀ q ∈ v.rows, q.id ∈ pending → q.id ∈ pending' ∨
      ⟨q.nodeId, q.id, target⟩ ∈ heard') :
    w.Told old heard' plan target pending' n := by
  obtain ⟨q, hq, hnew, rfl, horigin, htold⟩ := h
  obtain ⟨r, hr, hqr⟩ := hrows q hq
  have hnode : r.nodeId = q.nodeId := by rw [hqr]
  have hid : r.id = q.id := by rw [hqr]
  refine ⟨r, hr, hid ▸ hnew, hnode, by rw [← horigin, hqr], ?_⟩
  rw [hid]
  rcases htold with ⟨htarget, hmem⟩ | hmem
  · exact (hpending q hq hmem).imp (⟨htarget, ·⟩) fun hsaid ↦ htarget ▸ hsaid
  · exact .inr (hheard hmem)

theorem View.Sent.mono (h : v.Sent old heard pending) (hheard : heard ⊆ heard') (hw : v.Holds w)
    (hpending : ∀ q ∈ v.rows, q.id ∈ pending → q.id ∈ pending' ∨
      ⟨q.nodeId, q.id, .ready⟩ ∈ heard') : w.Sent old heard' pending' := by
  obtain ⟨plan, hplan, hne, htold⟩ := h
  exact ⟨plan, hw.plan.trans hplan, hne, fun n hn ↦ (htold n hn).mono hheard hw.rows hpending⟩

theorem View.Asks.mono {o : OpView} (h : v.Asks old heard o) (hheard : heard ⊆ heard')
    (hw : v.Holds w) : w.Asks old heard' o := by
  unfold View.Asks at h ⊢
  split at h
  · exact fun n hn ↦ (h n hn).imp_right fun h ↦ h.mono hheard hw.rows fun _ _ ↦ .inl
  · exact h.mono hheard hw fun _ _ ↦ .inl
  · trivial

theorem View.Asks.hear {o : OpView} (h : v.Asks old heard o) {a : AssignmentId}
    (hheard : ∀ r ∈ v.rows, r.id = a → ⟨r.nodeId, a, state⟩ ∈ heard) :
    v.Asks old heard (o.hear a state) := by
  have hpending : ∀ {pending : List AssignmentId}, ∀ q ∈ v.rows, q.id ∈ pending →
      q.id ∈ pending.erase a ∨ ⟨q.nodeId, q.id, state⟩ ∈ heard := by
    intro pending q hq hid
    by_cases ha : q.id = a
    · exact .inr (ha ▸ hheard q hq ha)
    · exact .inl ((List.mem_erase_of_ne ha).mpr hid)
  have hsame : v.Holds v := ⟨v.rowsStay_refl, rfl⟩
  unfold OpView.hear
  split
  · rename_i target pending hstand
    split_ifs with hstate
    · subst hstate
      unfold View.Asks at h ⊢
      rw [hstand] at h
      cases target with
      | workers =>
        exact fun n hn ↦ (h n hn).imp_right fun h ↦ h.mono (List.Subset.refl _) hsame.rows hpending
      | route => exact h.mono (List.Subset.refl _) hsame hpending
    · exact h
  · exact h

theorem View.StartsAnew.keep (h : v.StartsAnew old heard) (hheard : heard ⊆ heard')
    (hkeep : ∀ o ∈ w.ops, ∀ dep, o.work = .start dep w.generation →
      ∀ target pending, o.stand = .awaiting target pending →
        v.Holds w ∧ o ∈ v.ops ∧ w.generation = v.generation) : w.StartsAnew old heard' := by
  intro o ho dep hwork hkind
  cases hstand : o.stand with
  | awaiting target pending =>
    obtain ⟨hw, hmem, hgeneration⟩ := hkeep o ho dep hwork target pending hstand
    exact (h o hmem dep (hgeneration ▸ hwork) hkind).mono hheard hw
  | _ => simp [View.Asks, hstand]

theorem Move.startsAnew (hg : v.Good d) (hm : Move k T c d v w) (h : v.StartsAnew old c.heard) :
    w.StartsAnew old c.heard := by
  have hold := hg.not_newer
  have hsame := v.rowsStay_refl
  cases hm with
  | heard id state hheard =>
    intro o ho dep hwork hkind
    obtain ⟨p, hp, rfl⟩ := List.mem_map.mp ho
    have hwork' : p.work = .start dep v.generation :=
      (congrArg Prod.fst (p.task_hear id state)).symm.trans hwork
    have hasks := (h p hp dep hwork' hkind).hear hheard
    exact hasks.mono (List.Subset.refl _) ⟨hsame, rfl⟩
  | rowState =>
    exact h.keep (List.Subset.refl _) fun o ho _ _ _ _ _ ↦
      ⟨⟨v.rowsStay_setRowState _ _, rfl⟩, ho, rfl⟩
  | removed i sent excluded hj =>
    intro o ho dep hwork _
    have := (hg.queue.grave _ (List.mem_of_getElem? hj) trivial o ho).work
    rw [show o.work = .start dep v.generation from hwork] at this
    cases this
  | _ =>
    refine h.keep (List.Subset.refl _) fun o ho dep hwork target pending hstand ↦ ?_
    grind [View.settle, View.expire, View.block, View.setState, View.setReady, View.halt,
      Work.isStart, View.Holds, View.RowsStay]

theorem Dispatch.startsAnew (hg : v.Good d) (hm : Dispatch d e v w)
    (hfresh : ∀ id, e.fresh id → ¬old id) (h : v.StartsAnew old heard) :
    w.StartsAnew old heard := by
  -- Only the head of the queue is a start, and what it sends is new and pending.
  have hhead : ∀ {o p rest} (w : View), v.ops = o :: rest → w.ops = p :: rest →
      (∀ dep generation, p.work = .start dep generation → dep.spec.kind ≠ .external →
        w.Asks old heard p) → w.StartsAnew old heard := by
    intro o p rest w hops hw hp q hq dep hwork hkind
    rw [hw] at hq
    rcases List.mem_cons.mp hq with rfl | hq
    · exact hp dep _ hwork hkind
    · exact absurd hwork (hg.behind hops q hq dep _)
  have hnew : ∀ {rows : List RowView} {plan n target} (w : View), w.rows = v.rows ++ rows →
      (∀ r ∈ rows, e.fresh r.id) → (∀ r ∈ rows, r.Sent d plan) → plan.awaited n = target →
      n ∈ rows.map (·.nodeId) → w.Told old heard plan target (rows.map (·.id)) n := by
    intro rows plan n target w hw hids hrows htarget hn
    obtain ⟨r, hr, rfl⟩ := List.mem_map.mp hn
    exact ⟨r, hw ▸ List.mem_append_right _ hr, hfresh _ (hids r hr), rfl, (hrows r hr).origin,
      .inl ⟨htarget, List.mem_map_of_mem hr⟩⟩
  cases hm with
  | @planned f o rest dep plan state rows stand excluded hface hops hwork hstand hrunning
      hkind hblocked hstate hgone hplaced hexcluded hids hids' hrows hfits hfree hafter =>
    refine hhead _ hops rfl fun dep' generation hwork' hkind' ↦ ?_
    rcases hafter with rfl | ⟨target, rfl, hroute, hworkers⟩
    · trivial
    · cases target with
      | workers p coord workers =>
        obtain ⟨rfl, -, -, hnative, hcover⟩ := hworkers p coord workers rfl
        intro n hn
        by_cases hcoord : n = p.coordinatorNodeId
        · exact .inl hcoord
        · exact .inr (hnew _ rfl hids' hrows (if_pos ⟨hnative, hcoord⟩)
            ((hcover n hn).resolve_left hcoord))
      | route endpoint =>
        obtain ⟨hne, hcover⟩ := hroute endpoint rfl
        refine ⟨plan, rfl, fun hnil ↦ ?_, fun n hn ↦
          hnew _ rfl hids' hrows (hcover n hn).1 (hcover n hn).2⟩
        obtain ⟨r, hr⟩ := List.exists_mem_of_ne_nil rows hne
        exact List.not_mem_nil (hnil ▸ (hrows r hr).placed)
  | @coordinator f o rest dep plan coord workers rows stand hface hops hwork hstand hrunning
      hids hids' hrows hfree hafter =>
    refine hhead _ hops rfl fun dep' generation hwork' hkind' ↦ ?_
    have ho : o ∈ v.ops := hops ▸ List.mem_cons_self
    obtain ⟨-, -, hcoord, hnative, -, f', hf', hplan⟩ :=
      (hg.start o ho).waiting dep hwork plan coord workers [] hstand
    obtain rfl := Option.mem_unique hface hf'
    obtain ⟨rfl, -⟩ := Work.start.inj (hwork.symm.trans hwork')
    have hasks := h o ho dep hwork hkind'
    rw [View.Asks, hstand] at hasks
    rcases hafter with rfl | ⟨target, rfl, ⟨endpoint, rfl⟩, hcover⟩
    · trivial
    · refine ⟨plan, hplan, by simp [planNodes, hnative], fun n hn ↦ ?_⟩
      rcases hasks n hn with rfl | ⟨q, hq, hnew', hnode, horigin, htold⟩
      · exact hnew _ rfl hids' hrows (by simp [Plan.awaited]) (hcoord ▸ hcover)
      · -- nothing was pending any more, so the worker has listened
        exact ⟨q, List.mem_append_left _ hq, hnew', hnode, horigin,
          .inr (htold.resolve_left fun hpending ↦ List.not_mem_nil hpending.2)⟩
  | @watch f o rest dep rows stand excluded hface hops hwork hstand hrunning hkind =>
    refine hhead _ hops rfl fun dep' generation hwork' hkind' ↦ ?_
    obtain ⟨rfl, -⟩ := Work.start.inj (hwork.symm.trans hwork')
    exact absurd hkind hkind'

theorem View.ServesAnew.keep (h : v.ServesAnew old heard) (hheard : heard ⊆ heard')
    (hkeep : ∀ g, w.face = some g → g.spec.kind ≠ .external → g.state = .ready →
      v.Holds w ∧ ∃ f, v.face = some f ∧ f.spec.kind ≠ .external ∧ f.state = .ready) :
    w.ServesAnew old heard' := by
  intro g hg hkind hready
  obtain ⟨hw, f, hf, hkind', hready'⟩ := hkeep g hg hkind hready
  exact (h f hf hkind' hready').mono hheard hw fun _ _ hid ↦ absurd hid List.not_mem_nil

theorem Move.servesAnew (hg : v.Good d) (hm : Move k T c d v w) (hstarts : v.StartsAnew old c.heard)
    (h : v.ServesAnew old c.heard) : w.ServesAnew old c.heard := by
  have hsame := v.rowsStay_refl
  cases hm with
  | rowState =>
    exact h.keep (List.Subset.refl _) fun g hg' hkind hready ↦
      ⟨⟨v.rowsStay_setRowState _ _, rfl⟩, g, hg', hkind, hready⟩
  | @ready o rest dep endpoint hops hwork hstand =>
    intro g hg' hkind _
    have ho : o ∈ v.ops := hops ▸ List.mem_cons_self
    obtain ⟨f, hf, hspec, -, -, -⟩ := View.face_of_setReady hg'
    obtain ⟨-, -, f', hf', hdep⟩ := hg.queue.snapshot o ho dep _ hwork
    obtain rfl := Option.mem_unique hf hf'
    have hasks := hstarts o ho dep hwork (by rw [← hdep, ← hspec]; exact hkind)
    rw [View.Asks, hstand] at hasks
    refine hasks.mono (List.Subset.refl _) ⟨hsame, ?_⟩ fun _ _ ↦ .inl
    rw [View.settle, View.setReady, hf]
    rfl
  | _ =>
    refine h.keep (List.Subset.refl _) fun g hg' hkind hready ↦ ?_
    grind [View.settle, View.hear, View.expire, View.block, View.setState, View.halt,
      DeploymentKind.planned, View.Holds, View.RowsStay]

theorem Dispatch.servesAnew (hg : v.Good d) (hm : Dispatch d e v w) : w.ServesAnew old heard := by
  intro g hg' hkind hready
  cases hm with
  | @planned f o rest dep plan state rows stand excluded hface hops hwork hstand hrunning
      hkind' hblocked hstate =>
    cases hg'
    have hnot := hg.not_ready (hops ▸ List.mem_cons_self) hwork (by simp [hstand]) hface hkind
    rcases hstate with rfl | rfl
    · exact absurd hready hnot
    · cases hready
  | coordinator | watch =>
    cases hg'
    cases hready

end

/-- What holds of an engine's deployment from a state on in which it serves: the ids seen then stay
seen, it stays an engine's, and its starts send other ids. -/
structure Control.Since (s₀ : Control) (d : DeploymentId) (s : Control) : Prop where
  seen : ∀ id, s₀.Seen id → s.Seen id
  known : d ∈ s.known
  kind : ∀ f, (s.view d).face = some f → f.spec.kind ≠ .external
  starts : (s.view d).StartsAnew s₀.Seen s.heard

theorem Control.Good.since (hs : s.Good) {f : Face} (hf : (s.view d).face = some f)
    (hkind : f.spec.kind ≠ .external) (hready : f.state = .ready) : s.Since d s where
  seen _ := id
  known := by
    obtain ⟨dep, hdep, -⟩ := Option.map_eq_some_iff.mp hf
    exact hs.mem_known hdep
  kind g hg := by
    obtain rfl := Option.mem_unique hf hg
    exact hkind
  starts o ho dep hwork _ := by
    unfold View.Asks
    have hnot : o.stand ≠ .cleaning → False := fun hstand ↦
      (hs.slots d).not_ready ho hwork hstand hf hkind hready
    split
    iterate 2
      rename_i hstand
      exact (hnot (by simp [hstand])).elim
    trivial

theorem Move.engine (hm : Move k T c d v w) (h : ∀ f, v.face = some f → f.spec.kind ≠ .external) :
    ∀ g, w.face = some g → g.spec.kind ≠ .external := by
  cases hm <;> grind [View.settle, View.setRowState, View.hear, View.expire, View.block,
    DeploymentKind.planned]

theorem Dispatch.engine (hm : Dispatch d e v w)
    (h : ∀ f, v.face = some f → f.spec.kind ≠ .external) :
    ∀ g, w.face = some g → g.spec.kind ≠ .external := by
  cases hm <;> grind

theorem Micro.known (hm : Micro k T s s') : s.known ⊆ s'.known := by
  cases hm with
  | around s' h => rw [h.known]; exact List.Subset.refl _
  | created d => exact List.subset_cons_self d s.known
  | restart s' hknown => rw [hknown]; exact List.Subset.refl _
  | _ => exact List.Subset.refl _

variable {s₀ : Control} {es : List Event} {e : Event} {r : Route}

theorem Micro.since (hm : Micro k T s s') (hs : s.Good) (h : s₀.Since d s) :
    s₀.Since d s' := by
  refine ⟨fun id hid ↦ hm.seen hs (h.seen id hid), hm.known h.known, ?_, ?_⟩
  · refine hm.keeps_at (P := fun _ v ↦ ∀ f, v.face = some f → f.spec.kind ≠ .external) h.known
      h.kind (fun _ _ _ hv ↦ hv) (fun _ hmove ↦ hmove.engine h.kind)
      (fun _ hdispatch ↦ hdispatch.engine h.kind) fun _ w hr g hg ↦ ?_
    obtain ⟨f, hf, hspec, -⟩ := hr.source hg
    exact hspec ▸ h.kind f hf
  · refine hm.keeps_at h.known h.starts ?_
      (fun _ hmove ↦ hmove.startsAnew (hs.slots d) h.starts)
      (fun _ hdispatch ↦ hdispatch.startsAnew (hs.slots d)
        (fun id hfresh hold ↦ hs.not_seen hfresh (h.seen id hold)) h.starts) fun _ w hr o ho ↦ ?_
    · exact fun heard v hheard hv ↦ hv.keep hheard fun o ho _ _ _ _ _ ↦
        ⟨⟨v.rowsStay_refl, rfl⟩, ho, rfl⟩
    · rw [hr.ops] at ho
      cases ho

theorem Micro.servesAnew (hm : Micro k T s s') (hs : s.Good) (hsince : s₀.Since d s)
    (h : (s.view d).ServesAnew s₀.Seen s.heard) : (s'.view d).ServesAnew s₀.Seen s'.heard := by
  refine hm.keeps_at hsince.known h ?_
    (fun _ hmove ↦ hmove.servesAnew (hs.slots d) hsince.starts h)
    (fun _ hdispatch ↦ hdispatch.servesAnew (hs.slots d)) fun _ w hr g hg _ hready ↦ ?_
  · exact fun heard v hheard hv ↦ hv.keep hheard fun g hg hkind hready ↦
      ⟨⟨v.rowsStay_refl, rfl⟩, g, hg, hkind, hready⟩
  · obtain ⟨f, -, -, -, hne, -⟩ := hr.source hg
    exact absurd hready hne

/-- An assignment of the deployment for the plan on the node, which nobody knew in `s₀`, has come to
the state that the start waits for. -/
def Control.Answered (s₀ s : Control) (d : DeploymentId) (plan : Plan) (n : NodeId) : Prop :=
  ∃ r ∈ (s.slots d).rows, ¬s₀.Seen r.id ∧ r.nodeId = n ∧ r.origin = some plan ∧
    ⟨n, r.id, plan.awaited n⟩ ∈ s.heard

/-- The deployment was **placed again**: its stored plan was sent as assignments nobody knew in
`s₀`, one to every node that it names, and all of them have answered. Each reported ready, except
that the workers of a split without native execution report that they listen. -/
def Control.PlacedAgain (s₀ s : Control) (d : DeploymentId) : Prop :=
  ∃ dep plan, (s.slots d).dep = some dep ∧ dep.plan = some plan ∧ planNodes plan ≠ [] ∧
    ∀ n ∈ planNodes plan, s₀.Answered s d plan n

theorem View.Sent.placedAgain (h : (s.view d).Sent s₀.Seen s.heard []) :
    s₀.PlacedAgain s d := by
  obtain ⟨plan, hplan, hne, htold⟩ := h
  obtain ⟨f, hf, hfplan⟩ := Option.bind_eq_some_iff.mp hplan
  obtain ⟨dep, hdep, rfl⟩ := Option.map_eq_some_iff.mp hf
  refine ⟨dep, plan, hdep, hfplan, hne, fun n hn ↦ ?_⟩
  obtain ⟨v, hv, hnew, hnode, horigin, hsaid⟩ := htold n hn
  obtain ⟨r, hr, rfl⟩ := List.mem_map.mp hv
  exact ⟨r, hr, hnew, hnode, horigin,
    hsaid.resolve_left fun hpending ↦ List.not_mem_nil hpending.2⟩

def Control.Serves (s : Control) (d : DeploymentId) : Prop :=
  ∃ dep, (s.slots d).dep = some dep ∧ dep.spec.kind ≠ .external ∧ dep.state = .ready

theorem Control.Serves.since {s₁ : Control} (hserves : s₀.Serves d) (hs : s₀.Good)
    (hstep : step k s₀ e = some s₁) : s₀.Since d s₁ := by
  obtain ⟨dep, hdep, hkind, hready⟩ := hserves
  have hface : (s₀.view d).face = some dep.face := Slot.face_of_dep hdep
  exact (step_micros hs hstep).invariant hs (hs.since hface hkind hready)
    fun s₁ s₂ hs h hm ↦ hm.since hs h

theorem Control.Listed.serves (hr : s.Listed r) (h : s₀.Since r.id s) :
    s.Serves r.id := by
  obtain ⟨dep, endpoint, hdep, hready, -⟩ := hr.row
  exact ⟨dep, hdep, h.kind dep.face (Slot.face_of_dep hdep), hready⟩

/-- **Once a deployment of engines has left the ready state, only being placed again brings it
back.** -/
theorem placedAgain_of_listed {s₁ s₂ : Control} (hs : s₀.Good) (hserves : s₀.Serves d)
    (hstep : step k s₀ e = some s₁) (hleft : ¬s₁.Serves d) (hrun : run (step k) s₁ es = some s₂)
    (hr : s₂.Listed r) (hid : r.id = d) :
    s₀.PlacedAgain s₂ d := by
  have hserves₁ : (s₁.view d).ServesAnew s₀.Seen s₁.heard := by
    intro f hf hkind hready
    obtain ⟨dep, hdep, rfl⟩ := Option.map_eq_some_iff.mp hf
    exact absurd ⟨dep, hdep, hkind, hready⟩ hleft
  obtain ⟨-, hsince₂, hserves₂⟩ := run_keeps hrun ((step_micros hs hstep).good hs)
    (I := fun s ↦ s₀.Since d s ∧ (s.view d).ServesAnew s₀.Seen s.heard)
    ⟨hserves.since hs hstep, hserves₁⟩
    fun T s₁ s₂ hs h hm ↦ ⟨hm.since hs h.1, hm.servesAnew hs h.1 h.2⟩
  subst hid
  obtain ⟨dep, hdep, hkind, hready⟩ := hr.serves hsince₂
  have hface : (s₂.view r.id).face = some dep.face := Slot.face_of_dep hdep
  exact (hserves₂ _ hface hkind hready).placedAgain

theorem routing_invariant (h : run (step k) Control.init es = some s) :
    s.Good ∧ (∀ d, (s.view d).Routed) ∧ ∀ d, (s.view d).PlacedOn s.present := by
  refine run_keeps h Control.init_good
    (I := fun s ↦ (∀ d, (s.view d).Routed) ∧ ∀ d, (s.view d).PlacedOn s.present) ⟨?_, ?_⟩
    fun T s₁ s₂ hs hI hm ↦ ⟨hm.routed hs hI.1, hm.placedOn hs hI.2⟩
  · simp [View.Routed, Control.view, Slot.view, Control.init]
  · simp [View.PlacedOn, Control.view, Slot.view, Control.init]

theorem Control.Listed.online (h : run (step k) Control.init es = some s) (hr : s.Listed r)
    (hkind : r.kind ≠ .external) : ∀ n ∈ r.nodes, s.isOnline n = true := by
  obtain ⟨-, -, hplaced⟩ := routing_invariant h
  obtain ⟨dep, endpoint, hdep, hready, -, hnodes, hkind'⟩ := hr.row
  have hface : (s.view r.id).face = some dep.face := Slot.face_of_dep hdep
  obtain ⟨plan, hplan, hhere⟩ := hplaced r.id _ hface (hkind' ▸ hkind) (.inl hready)
  intro n hn
  rw [hnodes, Control.routeNodes, show dep.plan = some plan from hplan] at hn
  have := hhere n hn
  rw [Control.present, Bool.and_eq_true] at this
  exact this.1

/-! ## A small control plane -/

def smallDeps : Deps where
  rt := { plainRuntime with
    url := fun _ ↦ some ⟨"http:", "127.0.0.1", some 8080⟩, origin :=
      fun _ ↦ "http://127.0.0.1:8080" }
  profiles := [smallProfile]
  nativeQualifications := []
  chooseTopology := fun _ _ ↦ .error ""
  fleetRevision := fun _ ↦ ""

def smallHello : Control.Hello where
  caps := {
    allocationVersion := true, os := .linux, gpus := [⟨"cuda:0", "card", .cuda, "CUDA0", 2000⟩] }
  offer := ⟨true, ⟨true, true, true⟩, [⟨"cuda:0", 2000⟩], 10000, 8⟩
  models := [⟨"small", "/small", 0, none, .gguf⟩]
  assignments := []

def joins (n : NodeId) : List Event :=
  [.enroll { id := n, certFp := "", hostname := n, os := .linux, online := false }, .connect n,
    .hello n smallHello]

def replicaSpec : DeploymentSpec where
  name := "engine"
  profile := "small"
  kind := .replica

def watchSpec : DeploymentSpec where
  name := "server"
  profile := ""
  kind := .external
  external := some ⟨"n", "http://127.0.0.1:8080", "", "small", none, none⟩

/-- A deployment is created and started, and its one assignment reports ready. -/
def serves (spec : DeploymentSpec) : List Event :=
  [.create "d" spec, .start "d", .proceed "d" [] [], .proceed "d" ["a"] [],
    .report "n" "a" .ready none, .proceed "d" [] []]

/-! ## Route safety -/

/-- The event takes the connection of a node from the channel: it ends, it is judged unresponsive,
or a newer one of the same node replaces it. -/
def Event.Loses (s : Control) (n : NodeId) : Event → Prop
  | .disconnect m | .unresponsive m => m = n
  | .connect m => m = n ∧ (s.conns n).isSome = true
  | _ => False

def Event.Connects : Event → Prop
  | .connect _ => True
  | _ => False

def Control.Uses (s : Control) (d : DeploymentId) (n : NodeId) : Prop :=
  ∃ dep plan, (s.slots d).dep = some dep ∧ dep.plan = some plan ∧ n ∈ planNodes plan

theorem Control.Uses.offline (h : s.Uses d n) : (s.onOffline k n).Uses d n := by
  obtain ⟨dep, plan, hdep, hplan, hn⟩ := h
  have hbind : ((s.onOffline k n).slots d).dep.bind (·.plan) = some plan := by
    rw [Control.onOffline_eq]
    dsimp only
    split_ifs
    · simp only [Slot.offline, hdep]
      split_ifs <;> simp [Slot.update, Slot.enqueue, hdep, hplan]
    · rw [hdep]
      exact hplan
  obtain ⟨dep', hdep', hplan'⟩ := Option.bind_eq_some_iff.mp hbind
  exact ⟨dep', plan, hdep', hplan', hn⟩

theorem Control.Good.nodeLost_left (hs : s.Good) (conn : Option Bool) (h : s.Uses d n) :
    ¬(s.nodeLost k n conn).Serves d := by
  rintro ⟨dep, hdep, hkind, hready⟩
  rw [Control.nodeLost, Control.onOffline_with] at hdep
  obtain ⟨dep', plan, hdep', hplan, hn⟩ := h.offline
  obtain rfl := Option.mem_unique hdep' hdep
  have hface : ((s.onOffline k n).view d).face = some dep'.face := Slot.face_of_dep hdep'
  exact (Control.onOffline_withdrawn hs n _ plan hface hkind hplan hn).1 hready

theorem not_placedAgain {d : DeploymentId} (h : ∀ q ∈ (s'.slots d).rows, s.Seen q.id) :
    ¬s.PlacedAgain s' d := by
  rintro ⟨dep, plan, -, -, hne, hall⟩
  obtain ⟨n, hn⟩ := List.exists_mem_of_ne_nil _ hne
  obtain ⟨q, hq, hnew, -⟩ := hall n hn
  exact hnew (h q hq)

/-- **What a lost connection withdraws.** When the connection of a node ends or is judged
unresponsive, every ready deployment of engines that uses the node is withdrawn, and is listed only
after it was placed again. When it is replaced by a newer one, everything that is listed stays so,
with the assignments that it had. -/
theorem withdrawn_iff_not_replaced {es : List Event} {e : Event} {n : NodeId}
    (h : run (step k) Control.init es = some s) (hstep : step k s e = some s')
    (hloses : e.Loses s n) :
    (¬e.Connects → ∀ d, s.Serves d → s.Uses d n → (∀ r, s'.Listed r → r.id ≠ d) ∧
      ∀ es' s₂ r, run (step k) s' es' = some s₂ → s₂.Listed r → r.id = d → s.PlacedAgain s₂ d) ∧
    (e.Connects → ∀ r, s.Listed r → s'.Listed r ∧ ∀ q ∈ (s'.slots r.id).rows, s.Seen q.id) := by
  obtain ⟨hgood, -, -⟩ := routing_invariant h
  constructor
  · intro hends d hserves huses
    have hleft : ¬s'.Serves d := by
      unfold step at hstep
      cases e with
      | disconnect m | unresponsive m =>
        obtain rfl : m = n := hloses
        simp only [Event.effect] at hstep
        split_ifs at hstep
        cases hstep
        exact hgood.nodeLost_left _ huses
      | connect => exact absurd trivial hends
      | _ => exact hloses.elim
    refine ⟨fun r hr hid ↦ ?_, fun es' s₂ r hrun hr hid ↦
      placedAgain_of_listed hgood hserves hstep hleft hrun hr hid⟩
    subst hid
    exact hleft (hr.serves (hserves.since hgood hstep))
  · intro hconnects r hr
    unfold step at hstep
    cases e with
    | connect =>
      simp only [Event.effect] at hstep
      split_ifs at hstep
      cases hstep
      exact ⟨hr, fun q hq ↦ .inl ⟨r.id, q, hq, rfl⟩⟩
    | _ => exact hconnects.elim

/-- A replica whose node disconnects is listed only after it was placed again. -/
theorem withdrawn_after_disconnect : ∃ s s', run (step smallDeps) Control.init
      (joins "n" ++ serves replicaSpec) = some s ∧ step smallDeps s (.disconnect "n") = some s' ∧
    (∀ r, s'.Listed r → r.id ≠ "d") ∧ ∀ es s₂ r, run (step smallDeps) s' es = some s₂ →
      s₂.Listed r → r.id = "d" → s.PlacedAgain s₂ "d" := by
  obtain ⟨s, hs, ⟨dep, hdep, hkind, hready, plan, hplan, hn⟩, hstep⟩ := exists_run (step smallDeps)
    Control.init (joins "n" ++ serves replicaSpec)
    (fun s ↦ (∃ dep ∈ (s.slots "d").dep, dep.spec.kind ≠ .external ∧ dep.state = .ready ∧
      ∃ plan ∈ dep.plan, "n" ∈ planNodes plan) ∧ (step smallDeps s (.disconnect "n")).isSome = true)
    (by decide +kernel)
  obtain ⟨s', hs'⟩ := Option.isSome_iff_exists.mp hstep
  exact ⟨s, s', hs, hs', (withdrawn_iff_not_replaced hs hs' rfl).1 (fun hc ↦ hc) "d"
    ⟨dep, hdep, hkind, hready⟩ ⟨dep, plan, hdep, hplan, hn⟩⟩

/-- A newer connection of the node of a replica closes every stream of the old one, and the replica
stays listed. -/
theorem listed_after_replacement : ∃ s s', run (step smallDeps) Control.init
      (joins "n" ++ serves replicaSpec) = some s ∧ step smallDeps s (.connect "n") = some s' ∧
    (Event.connect "n").Loses s "n" ∧ s.Serves "d" ∧ s.Uses "d" "n" ∧
    (∃ r, s'.Listed r ∧ r.id = "d") ∧ ¬s.PlacedAgain s' "d" := by
  obtain ⟨s, hs, ⟨dep, hdep, hkind, hready, plan, hplan, hn⟩, hconn, ⟨hquiet, hnode⟩, group,
    hgroup, r, hr,
      hid⟩ := exists_run (step smallDeps) Control.init (joins "n" ++ serves replicaSpec)
    (fun s ↦ (∃ dep ∈ (s.slots "d").dep, dep.spec.kind ≠ .external ∧ dep.state = .ready ∧
        ∃ plan ∈ dep.plan, "n" ∈ planNodes plan) ∧ (s.conns "n").isSome = true ∧
      (s.quiet = true ∧ (s.nodes.get "n").isSome = true) ∧
      ∃ group ∈ s.routing, ∃ r ∈ group.2, r.id = "d") (by decide +kernel)
  refine ⟨s, { s with conns := Function.update s.conns "n" (some false) }, hs, ?_, ⟨rfl, hconn⟩,
    ⟨dep, hdep, hkind, hready⟩, ⟨dep, plan, hdep, hplan, hn⟩, ⟨r, ⟨group, hgroup, hr⟩, hid⟩,
    not_placedAgain fun q hq ↦ .inl ⟨"d", q, hq, rfl⟩⟩
  rw [step, if_pos (.inr hquiet), Event.effect, if_pos hnode]

end

end Swarmlet
