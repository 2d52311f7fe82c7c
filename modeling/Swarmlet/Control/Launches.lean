import Mathlib.Data.List.Flatten
import Swarmlet.Control.Reports

/-!
# What the starters send

Every starter plans on the nodes that answer now, beside what the other deployments hold, and takes
ports no live row has. Its rows are put and its plan is stored in one uninterrupted piece, so the
planner's guarantees are still true when they count.
-/

namespace Swarmlet

open Js Checked

section

variable {k : Deps} {T : Terms} {s : Control} {d : DeploymentId}

/-! ## Plans of the manager -/

namespace Control

def ledger (k : Deps) (s : Control) (replacing : List DeploymentId) : ResourceLedger :=
  reservedResources (s.fleetInput k).deployments (s.fleetInput k).assignments (s.fleetInput k).nodes
    replacing

variable {x : Slot} {op : Op} {rest : List Op} {plan : Plan} {fine : NodeId × Assignment → Prop}
  {waits : Target → Prop} {l : List (NodeId × Assignment)} {dep : Deployment}

theorem plan_sound {spec : DeploymentSpec} {exclude : List NodeId}
    (h : s.plan k spec (some d) exclude = .ok plan) :
    ∃ nodes ⊆ (s.fleetInput k).nodes, (∀ n ∈ nodes, n.id ∉ (s.slots d).freshExclusions s.now) ∧
      plan.Sound spec nodes s.usedPorts ∧ ∃ shares, plan.Shares nodes (s.ledger k [d]) shares := by
  unfold Control.plan at h
  split at h
  · cases h
  · have hnodup := (s.fleetInput k).distinctNodes
    have hplan := mapError_ok h
    refine ⟨_, List.filter_sublist.subset, fun n hn hmem ↦ ?_,
      planWithResources_fits ?_ (reservedResources_merged ..) hplan⟩
    · simp only [List.mem_filter, decide_eq_true_eq] at hn
      exact hn.2 (List.mem_append_right _ hmem)
    · exact (List.filter_sublist.map _).nodup hnodup

theorem get_of_mem {t : NodeTable} {n : NodeRow} (h : n ∈ t.rows) : t.get n.id = some n :=
  Keyed.find?_of_mem _ t.distinct h rfl

theorem plan_placed {spec : DeploymentSpec} {exclude : List NodeId}
    (h : s.plan k spec (some d) exclude = .ok plan) :
    ∀ id ∈ planNodes plan, s.present id = true ∧ id ∉ (s.slots d).freshExclusions s.now := by
  intro id hid
  obtain ⟨nodes, hnodes, hexcluded, hsound, -⟩ := plan_sound h
  obtain ⟨n, hn, rfl, honline, -⟩ := hsound.placed id hid
  refine ⟨?_, hexcluded n hn⟩
  obtain ⟨m, hm, rfl⟩ := List.mem_map.mp (hnodes hn)
  have hm := (sortBy_perm _ _).mem_iff.mp hm
  simp only [placementNode, Bool.and_eq_true] at honline
  simp [present, placementNode, get_of_mem hm, honline.1.1, honline.1.2]

/-! ## What plans look at -/

variable {f : Slot → Slot}

theorem getDeployment_on (h : (f (s.slots d)).dep = (s.slots d).dep) :
    (s.on d f).getDeployment = s.getDeployment := by
  funext d'
  unfold getDeployment
  rw [slots_on_cases (P := fun x ↦ x.dep = (s.slots d').dep) (fun hd ↦ hd ▸ h) rfl]

theorem allRows_on (h : (f (s.slots d)).rows = (s.slots d).rows) :
    (s.on d f).allRows = s.allRows := by
  refine congrArg (List.flatMap · s.known) (funext fun d' ↦ ?_)
  exact slots_on_cases (P := fun x ↦ x.rows = (s.slots d').rows) (fun hd ↦ hd ▸ h) rfl

theorem usedPorts_on (h : (f (s.slots d)).rows = (s.slots d).rows) (n : NodeId) :
    (s.on d f).usedPorts n = s.usedPorts n := by
  unfold usedPorts listAssignments
  rw [allRows_on h]

theorem plan_on (hdep : (f (s.slots d)).dep = (s.slots d).dep)
    (hrows : (f (s.slots d)).rows = (s.slots d).rows)
    (hfresh : (f (s.slots d)).freshExclusions s.now = (s.slots d).freshExclusions s.now)
    (spec : DeploymentSpec) (exclude : List NodeId) :
    (s.on d f).plan k spec (some d) exclude = s.plan k spec (some d) exclude := by
  have hdeps : (s.on d f).listDeployments = s.listDeployments := by
    unfold listDeployments
    rw [getDeployment_on hdep]
    rfl
  have hassignments : (s.on d f).listAssignments = s.listAssignments := by
    unfold listAssignments
    rw [allRows_on hrows]
  have hports : (s.on d f).usedPorts = s.usedPorts := funext (usedPorts_on hrows)
  unfold Control.plan
  simp only [fleetInput, hdeps, hassignments, hports, Option.map_some, Option.getD_some,
    slots_on_self]
  rw [show (s.on d f).now = s.now from rfl, hfresh]
  rfl

theorem freshExclusions_expireExclusions (x : Slot) (now : ℕ) :
    (x.expireExclusions now).freshExclusions now = x.freshExclusions now := by
  unfold Slot.freshExclusions Slot.expireExclusions
  cases x.moveExcluded with
  | none => rfl
  | some e =>
    by_cases h : now ≤ e.recordedAt + 600000
    · simp [Option.filter, h]
    · simp [Option.filter, h]

/-! ## Rows that are sent -/

theorem assignAll_eq (lost : List AssignmentId) (plan : Option Plan)
    (assignments : List (NodeId × Assignment)) :
    ∃ sent, sent.Sublist assignments ∧ (s.assignAll lost plan assignments).1 =
        sent.map (fun p ↦ sentRow s.now plan p.1 p.2) ∧
      ((s.assignAll lost plan assignments).2 = none → sent = assignments) := by
  induction assignments with
  | nil => exact ⟨[], .slnil, rfl, fun _ ↦ rfl⟩
  | cons p rest ih =>
    obtain ⟨sent, hsub, hrows, hall⟩ := ih
    unfold assignAll
    split_ifs
    · exact ⟨p :: sent, hsub.cons_cons p, by simp [hrows], fun h ↦ by rw [hall h]⟩
    · exact ⟨[p], (List.nil_sublist rest).cons_cons p, rfl, fun h ↦ nomatch h⟩

/-- What the assignments of a starter satisfy: one for a node, under new ids, and engines on free
ports. -/
structure Sendable (s : Control) (assignments : List (NodeId × Assignment)) : Prop where
  ids : (assignments.map (·.2.id)).Nodup
  fresh : ∀ p ∈ assignments, p.2.id ∉ s.allRows.map (·.id) ∧ p.2.id ∉ s.heard.map (·.id)
  nodes : (assignments.map (·.1)).Nodup
  ports : ∀ p ∈ assignments, p.2.isExternalWatch = false →
    p.2.ports.Nodup ∧ ∀ port ∈ p.2.ports, port ∉ s.usedPorts p.1

theorem Sendable.sublist {l' : List (NodeId × Assignment)} (h : s.Sendable l)
    (hsub : l'.Sublist l) : s.Sendable l' where
  ids := (hsub.map _).nodup h.ids
  fresh p hp := h.fresh p (hsub.subset hp)
  nodes := (hsub.map _).nodup h.nodes
  ports p hp := h.ports p (hsub.subset hp)

def sentViews (now : ℕ) (plan : Option Plan) (assignments : List (NodeId × Assignment)) :
    List RowView :=
  assignments.map fun p ↦ (sentRow now plan p.1 p.2).view

@[simp] theorem view_sentRow (now : ℕ) (plan : Option Plan) (n : NodeId) (a : Assignment) :
    (sentRow now plan n a).view =
      ⟨a.id, a.deploymentId, n, .sent, a.isExternalWatch, a.ports, plan⟩ := rfl

@[simp] theorem map_nodeId_sentViews (now : ℕ) (plan : Option Plan)
    (l : List (NodeId × Assignment)) : (sentViews now plan l).map (·.nodeId) = l.map (·.1) := by
  simp [sentViews, Function.comp_def]

theorem Sendable.nodup (hs : s.Good) (h : s.Sendable l) (hknown : d ∈ s.known)
    (plan : Option Plan) :
    (((s.view d).rows ++ sentViews s.now plan l).map (·.id)).Nodup := by
  rw [List.map_append]
  refine (hs.slots d).rows.ids.append ?_ ?_
  · simpa [sentViews, Function.comp_def] using h.ids
  · intro id hid hid'
    obtain ⟨v, hv, rfl⟩ := List.mem_map.mp hid
    obtain ⟨row, hrow, rfl⟩ := List.mem_map.mp hv
    obtain ⟨w, hw, hid'⟩ := List.mem_map.mp hid'
    obtain ⟨p, hp, rfl⟩ := List.mem_map.mp hw
    have hid' : p.2.id = row.id := hid'
    exact (h.fresh p hp).1 (hid' ▸ List.mem_map_of_mem (List.mem_flatMap.mpr ⟨d, hknown, hrow⟩))

theorem Sendable.freePorts (h : s.Sendable l) (hengine : ∀ p ∈ l, p.2.isExternalWatch = false)
    (plan : Option Plan) :
    s.FreePorts (sentViews s.now plan l) := by
  have hports : ∀ n, ((sentViews s.now plan l).filter (·.nodeId = n)).flatMap (·.ports) =
      (l.filter (·.1 = n)).flatMap (·.2.ports) := by
    intro n
    simp only [sentViews, view_sentRow, List.filter_map, List.flatMap_map, Function.comp_def]
  intro n
  rw [hports]
  refine ⟨?_, fun port hport ↦ ?_⟩
  · refine List.nodup_flatMap.mpr ⟨fun p hp ↦ ?_, ?_⟩
    · have hp := List.mem_of_mem_filter hp
      exact (h.ports p hp (hengine p hp)).1
    -- Two rows on one node would be one assignment.
    have hnodes : ((l.filter (·.1 = n)).map (·.1)).Nodup :=
      (List.filter_sublist.map _).nodup h.nodes
    rw [List.Nodup, List.pairwise_map] at hnodes
    refine (hnodes.imp_of_mem fun {p q} hp hq hne ↦ ?_)
    have hp := (List.mem_filter.mp hp).2
    have hq := (List.mem_filter.mp hq).2
    exact absurd ((of_decide_eq_true hp).trans (of_decide_eq_true hq).symm) hne
  · obtain ⟨p, hp, hport⟩ := List.mem_flatMap.mp hport
    obtain ⟨hmem, hn⟩ := List.mem_filter.mp hp
    rw [← show p.1 = n by simpa using hn]
    exact (h.ports p hmem (hengine p hmem)).2 port hport

/-! ## Adopting what a starter did -/

theorem overwrite_micros {y z : Slot} (h : Micros k T s (s.on d fun _ ↦ z))
    (hknown : d ∈ s.known) (hm : ∀ c, Move k T c d z.view y.view) :
    Micros k T s (s.on d fun _ ↦ y) := by
  have := h.tail (.slot d y (.inl hknown) (by rw [view_on_self]; exact hm _))
  rwa [on_on] at this

structure Starting (s : Control) (d : DeploymentId) (op : Op) (rest : List Op) (dep : Deployment) :
    Prop where
  known : d ∈ s.known
  ops : (s.slots d).ops = op :: rest
  work : op.work = .start dep (s.slots d).generation
  running : (s.slots d).intent.running = true
  clear : (s.view d).Clear

theorem view_ops_cons (h : x.ops = op :: rest) :
    x.view.ops = op.view :: rest.map Op.view := by
  simp [Slot.view, h]

@[simp] theorem ops_recordFailure (x : Slot) (k : Deps) (now : ℕ) (why : String) :
    (x.recordFailure k now why).ops = x.ops := by
  unfold Slot.recordFailure Slot.scheduleRecovery
  split_ifs <;> rfl

theorem view_catchStart (hops : x.ops = op :: rest) (k : Deps) (now : ℕ) (error : String) :
    (x.catchStart k now x.generation error).view =
      { x.view.setState .failed with
        reconnecting := false
        ops := { op.view with stand := .cleaning } :: rest.map Op.view } := by
  unfold Slot.catchStart
  rw [if_pos rfl, Slot.view_setHead (by rw [ops_recordFailure, hops]), Slot.view_recordFailure]
  rfl

abbrev Launched.views (launched : Launched) : List RowView := launched.rows.map AssignmentRow.view

/-- What a starter has done: it wrote the deployment's row, put rows, and waits for them or threw.
-/
structure Sends (s : Control) (x : Slot) (plan : Option Plan) (fine : NodeId × Assignment → Prop)
    (waits : Target → Prop) (launched : Launched) : Prop where
  slot : launched.slot = { x with rows := x.rows ++ launched.rows }
  rows : ∃ sent, s.Sendable sent ∧ (∀ p ∈ sent, fine p) ∧
    launched.rows = sent.map fun p ↦ sentRow s.now plan p.1 p.2
  result : ∀ phase, launched.result = .ok phase → ∃ target rejected deadline,
    phase = .awaiting target (launched.rows.map (·.id)) rejected deadline ∧ waits target

theorem dispatch_sends {lost : List AssignmentId} {plan : Option Plan}
    {assignments : List (NodeId × Assignment)} {target : Target} {timeoutMs : ℕ}
    (h : s.Sendable assignments) (hfine : ∀ p ∈ assignments, fine p)
    (hwaits : (s.dispatch x lost plan assignments target timeoutMs).views =
      sentViews s.now plan assignments → waits target) :
    s.Sends x plan fine waits (s.dispatch x lost plan assignments target timeoutMs) := by
  obtain ⟨sent, hsub, hrows, hall⟩ := s.assignAll_eq lost plan assignments
  refine ⟨rfl, ⟨sent, h.sublist hsub, fun p hp ↦ hfine p (hsub.subset hp), hrows⟩, ?_⟩
  intro phase hphase
  unfold dispatch at hphase ⊢
  dsimp only at hphase ⊢
  split at hphase
  · cases hphase
  · rename_i hnone
    cases hphase
    rw [hall hnone] at hrows
    refine ⟨target, none, s.now + timeoutMs, ?_, hwaits ?_⟩
    · rw [hrows, List.map_map]
      rfl
    · rw [Launched.views, dispatch, hrows, List.map_map]
      rfl

theorem error_sends {plan : Option Plan} (e : String) :
    s.Sends x plan fine waits { slot := x, result := .error e } where
  slot := by simp
  rows := ⟨[], ⟨by simp, by simp, by simp, by simp⟩, by simp, rfl⟩
  result _ h := nomatch h

structure Put (k : Deps) (s : Control) (d : DeploymentId) (plan : Option Plan)
    (fine : NodeId × Assignment → Prop) (rows : List RowView) : Prop where
  ids : (((s.view d).rows ++ rows).map (·.id)).Nodup
  fresh : ∀ r ∈ rows, (s.surroundings k d).fresh r.id
  free : (∀ p, fine p → p.2.isExternalWatch = false) → s.FreePorts rows
  origin : ∀ r ∈ rows, ∃ p, fine p ∧ r = (sentRow s.now plan p.1 p.2).view

theorem Sends.put (hs : s.Good) (hknown : d ∈ s.known) {plan : Option Plan} {launched : Launched}
    (h : s.Sends x plan fine waits launched) : s.Put k d plan fine launched.views := by
  obtain ⟨sent, hsend, hfine, hrows⟩ := h.rows
  have hviews : launched.views = sentViews s.now plan sent := by
    rw [Launched.views, hrows, List.map_map]
    rfl
  rw [hviews]
  refine ⟨hsend.nodup hs hknown plan, fun r hr ↦ ?_, fun hengine ↦ hsend.freePorts
    (fun p hp ↦ hengine p (hfine p hp)) plan, fun r hr ↦ ?_⟩
  · obtain ⟨p, hp, rfl⟩ := List.mem_map.mp hr
    exact hsend.fresh p hp
  · obtain ⟨p, hp, rfl⟩ := List.mem_map.mp hr
    exact ⟨p, hfine p hp, rfl⟩

theorem adopt_micros (hs : s.Good) (h : s.Starting d op rest dep) {r : Deployment}
    (hdep : (s.slots d).dep = some r) {patch : Deployment → Deployment} {g : Face}
    (hpatch : (patch r).face = g) {plan : Option Plan} {launched : Launched}
    (fine : NodeId × Assignment → Prop) (waits : List RowView → Target → Prop)
    (hsends : s.Sends ((s.slots d).update s.now patch) plan fine (waits launched.views) launched)
    (excluded : List NodeId)
    (hdispatch : s.Put k d plan fine launched.views → ∀ stand : Stand,
      stand.After launched.views (waits launched.views) →
      Dispatch d (s.surroundings k d) (s.view d) { s.view d with
        face := some g, rows := (s.view d).rows ++ launched.views
        ops := op.view.dispatched stand launched.views excluded :: rest.map Op.view }) :
    Micros k T s (s.adopt k d op.work excluded launched) := by
  replace hdispatch := hdispatch (hsends.put hs h.known)
  have hids : launched.views.map (·.id) = launched.rows.map (·.id) := by
    simp [AssignmentRow.view, Function.comp_def]
  have hops' : launched.slot.ops = op :: rest := by rw [hsends.slot]; exact h.ops
  have hview' : launched.slot.view = { s.view d with
      face := some g, rows := (s.view d).rows ++ launched.views } := by
    rw [hsends.slot]
    simp [Slot.update, Slot.view, Control.view, hdep, ← hpatch, Deployment.face]
  -- The slot after the dispatch, wherever its operation stands.
  have hslot : ∀ f : Op → Op, (launched.slot.setHead f).view = { s.view d with
      face := some g, rows := (s.view d).rows ++ launched.views
      ops := (f op).view :: rest.map Op.view } := by
    intro f
    rw [Slot.view_setHead hops', hview']
  have hgen' : launched.slot.generation = (s.slots d).generation := by
    rw [hsends.slot]
    rfl
  unfold adopt
  generalize hmark : (fun op : Op ↦ { op with
    sent := op.sent ++ launched.rows.map fun r : AssignmentRow ↦ r.id
    excluded := op.excluded ++ excluded }) = mark
  cases hresult : launched.result with
  | ok phase =>
    obtain ⟨target, rejected, deadline, rfl, hwaits⟩ := hsends.result phase hresult
    refine .single (.dispatch d _ h.known ?_)
    dsimp only
    have hset : ((launched.slot.setHead mark).setHead fun op ↦
        { op with phase := .awaiting target (launched.rows.map (·.id)) rejected deadline }) =
        launched.slot.setHead fun op ↦ { mark op with
          phase := .awaiting target (launched.rows.map (·.id)) rejected deadline } := by
      simp [Slot.setHead, hops']
    rw [hset, hslot]
    convert hdispatch (.awaiting target (launched.rows.map (·.id)))
      (.inr ⟨target, by rw [hids], hwaits⟩) using 3
    rw [← hmark]
    simp [OpView.dispatched, Op.view, Phase.stand, hids]
  | error e =>
    have hthrown := hslot fun op ↦ { mark op with phase := .cleaning e none [] }
    have hmid : Micros k T s (s.on d fun _ ↦ launched.slot.setHead fun op ↦
        { mark op with phase := .cleaning e none [] }) := by
      refine .single (.dispatch d _ h.known ?_)
      rw [hthrown]
      convert hdispatch .cleaning (.inl rfl) using 3
      rw [← hmark]
      simp [OpView.dispatched, Op.view, Phase.stand, hids]
    refine overwrite_micros hmid h.known fun c ↦ ?_
    have hfinal :
        ((launched.slot.setHead mark).catchStart k s.now launched.slot.generation e).view = _ :=
        view_catchStart (show (launched.slot.setHead mark).ops = mark op :: rest by
          simp [Slot.setHead, hops']) k s.now e
    dsimp only
    rw [h.work, Slot.throwOp, ← hgen', hfinal, hthrown, hslot mark]
    have hwork : (mark op).work = .start dep (s.slots d).generation := by
      rw [← hmark]
      exact h.work
    have hcaught := Move.caught (k := k) (T := T) (c := c) (d := d) (v := { s.view d with
        face := some g, rows := (s.view d).rows ++ launched.views
        ops := { (mark op).view with stand := .cleaning } :: rest.map Op.view }) [] rfl
          hwork h.clear
    rw [List.append_nil] at hcaught
    exact hcaught

def Fine (d : DeploymentId) (plan : Plan) (p : NodeId × Assignment) : Prop :=
  p.2.deploymentId = d ∧ p.2.isExternalWatch = false ∧ p.1 ∈ planNodes plan

theorem Fine.sent {p : NodeId × Assignment} (h : Fine d plan p) (now : ℕ) :
    (sentRow now (some plan) p.1 p.2).view.Sent d plan :=
  ⟨h.1, rfl, h.2.1, rfl, h.2.2⟩

theorem plannedTarget_route {rows : List RowView} (hne : rows ≠ [])
    (h : ∀ n ∈ planNodes plan, plan.awaited n = .ready ∧ n ∈ rows.map (·.nodeId))
    {endpoint : RouteEndpoint} : PlannedTarget dep plan rows (.route endpoint) :=
  ⟨fun _ _ ↦ ⟨hne, h⟩, fun _ _ _ htarget ↦ by cases htarget⟩

theorem unplanned_micros (h : s.Starting d op rest dep) (excluded : List NodeId) (e : String) :
    Micros k T s (s.adopt k d op.work excluded { slot := s.slots d, result := .error e }) := by
  unfold adopt
  dsimp only
  generalize hmark : (fun op : Op ↦ { op with
    sent := op.sent ++ ([] : List AssignmentRow).map fun r : AssignmentRow ↦ r.id
    excluded := op.excluded ++ excluded }) = mark
  have hmarked : (mark op).view = { op.view with excluded := op.excluded ++ excluded } := by
    rw [← hmark]
    simp [Op.view]
  have hfinal : (((s.slots d).setHead mark).catchStart k s.now (s.slots d).generation e).view = _ :=
    view_catchStart (show ((s.slots d).setHead mark).ops = mark op :: rest by
      simp [Slot.setHead, h.ops]) k s.now e
  refine .single (.slot d _ (.inl h.known) ?_)
  rw [h.work, Slot.throwOp, hfinal, Slot.view_setHead h.ops, hmarked]
  exact .caught excluded (view_ops_cons h.ops) h.work h.clear

/-! ## What planning leaves behind -/

/-- Only what a deployment remembers of excluded nodes and blocked shapes has changed, and no fresh
exclusion. -/
def Touched (now : ℕ) (x y : Slot) : Prop :=
  (∃ excluded blocked, y = { x with moveExcluded := excluded, blocked }) ∧
    y.freshExclusions now = x.freshExclusions now

theorem planTouch_touched (spec : DeploymentSpec) :
    Touched s.now (s.slots d) ((s.planTouch k d spec).slots d) := by
  unfold planTouch
  split_ifs
  · rw [slots_on_self]
    exact ⟨⟨_, _, rfl⟩, freshExclusions_expireExclusions _ _⟩
  · exact ⟨⟨_, _, rfl⟩, rfl⟩

theorem planForTouch_touched (spec : DeploymentSpec) :
    Touched s.now (s.slots d) (s.planForTouch k d spec) := by
  obtain ⟨⟨e, b, heq⟩, hfresh⟩ := planTouch_touched spec
  unfold planForTouch
  split
  · rename_i plan _
    refine ⟨⟨e, (((s.planTouch k d spec).slots d).expireBlock s.now plan).blocked, ?_⟩, hfresh⟩
    simp only [Slot.expireBlock, heq]
  · exact ⟨⟨e, b, heq⟩, hfresh⟩

theorem planTouch_micros (spec : DeploymentSpec) :
    Micros k T s (s.on d fun _ ↦ (s.planTouch k d spec).slots d) := by
  have h : Rest k T d s (s.planTouch k d spec) := .planTouch spec
  rw [← h.only.eq_on]
  exact h.micros

theorem planForTouch_micros (hs : s.Good) {r : Deployment} (hdep : (s.slots d).dep = some r)
    (hkind : r.spec.kind.planned = true) (spec : DeploymentSpec) :
    Micros k T s (s.on d fun _ ↦ s.planForTouch k d spec) := by
  have h : Rest k T d s (s.planTouch k d spec) := .planTouch spec
  obtain ⟨⟨e, b, heq⟩, -⟩ := planTouch_touched spec
  unfold planForTouch
  split
  · rename_i plan _
    have hdep' : ((s.planTouch k d spec).slots d).dep = some r := by rw [heq]; exact hdep
    have hexpire := Rest.expireBlock (k := k) (T := T) (h.micros.good hs) hdep' hkind plan
    have := h.micros.trans hexpire.micros
    rwa [(h.only.trans hexpire.only).eq_on, slots_on_self, h.now] at this
  · exact planTouch_micros spec

section

variable {y : Slot} {op : Op} {rest : List Op} {dep : Deployment}

theorem adopt_on (work : Work) (excluded : List NodeId) (launched : Launched) :
    (s.on d fun _ ↦ y).adopt k d work excluded launched = s.adopt k d work excluded launched := by
  unfold adopt
  rw [on_on]
  rfl

theorem Touched.starting (ht : Touched s.now (s.slots d) y) (h : s.Starting d op rest dep) :
    (s.on d fun _ ↦ y).Starting d op rest dep := by
  obtain ⟨⟨e, b, rfl⟩, -⟩ := ht
  obtain ⟨hknown, hops, hwork, hrunning, hclear⟩ := h
  refine ⟨hknown, ?_, ?_, ?_, ?_⟩
  · simpa using hops
  · simpa using hwork
  · simpa using hrunning
  · rw [view_on_self]
    exact hclear

theorem Touched.sends (ht : Touched s.now (s.slots d) y) {x : Slot} {plan : Option Plan}
    {fine : NodeId × Assignment → Prop} {waits : Target → Prop} {launched : Launched}
    (h : s.Sends x plan fine waits launched) :
    (s.on d fun _ ↦ y).Sends x plan fine waits launched := by
  obtain ⟨⟨e, b, rfl⟩, -⟩ := ht
  obtain ⟨hslot, ⟨sent, ⟨hids, hfresh, hnodes, hports⟩, hfine, hrows⟩, hresult⟩ := h
  refine ⟨hslot, ⟨sent, ⟨hids, ?_, hnodes, ?_⟩, hfine, hrows⟩, hresult⟩
  · rw [allRows_on rfl]
    exact hfresh
  · intro p hp
    rw [usedPorts_on rfl]
    exact hports p hp

theorem Touched.planned_micros (hs : s.Good) (ht : Touched s.now (s.slots d) y)
    (hmicros : Micros k T s (s.on d fun _ ↦ y)) (h : s.Starting d op rest dep)
    (hstand : op.phase.stand = .idle) {r : Deployment} (hdep : (s.slots d).dep = some r)
    (hkind : dep.spec.kind ≠ .external) {plan : Plan}
    (hplan : s.plan k dep.spec (some d) [] = .ok plan)
    (hblocked : dep.spec.kind.planned = true → y.blocked (planFingerprint plan) = none)
    (hgone : ∀ r ∈ (s.slots d).rows, r.live = true → s.isOnline r.nodeId = false)
    (patch : Deployment → Deployment) {state : DeploymentState}
    (hpatch : (patch r).face = { r.face with plan := some plan, state })
    (hstate : state = r.state ∨ state = .loading) {launched : Launched}
    (hsends : s.Sends (y.update s.now patch) (some plan) (Fine d plan)
      (PlannedTarget dep plan launched.views) launched) :
    Micros k T s (s.adopt k d op.work ((s.slots d).freshExclusions s.now) launched) := by
  have hstarting := ht.starting h
  have hsends' : (s.on d fun _ ↦ y).Sends (((s.on d fun _ ↦ y).slots d).update s.now patch)
      (some plan) (Fine d plan) (PlannedTarget dep plan launched.views) launched := by
    rw [slots_on_self]
    exact ht.sends hsends
  have hplan₁ : (s.on d fun _ ↦ y).plan k dep.spec (some d) [] = .ok plan := by
    obtain ⟨⟨e, b, rfl⟩, hfresh⟩ := ht
    rw [plan_on rfl rfl hfresh]
    exact hplan
  have hplaced := plan_placed hplan₁
  obtain ⟨⟨e, b, rfl⟩, hexclusions⟩ := ht
  refine hmicros.trans ?_
  rw [← hexclusions, ← adopt_on (y := { s.slots d with moveExcluded := e, blocked := b })]
  have hdep' : ((s.on d fun _ ↦ { s.slots d with moveExcluded := e, blocked := b }).slots d).dep =
      some r := by rw [slots_on_self]; exact hdep
  refine adopt_micros (hmicros.good hs) hstarting hdep' hpatch _ _ hsends' _ fun hput stand hafter ↦
    ?_
  refine .planned plan state _ stand _ (Slot.face_of_dep hdep') (view_ops_cons hstarting.ops)
    hstarting.work hstand hstarting.running hkind (by rw [view_on_self]; exact hblocked) hstate ?_
    (fun n hn ↦ (hplaced n hn).1) (fun n hn ↦ by simpa [Control.on] using (hplaced n hn).2) hput.ids
    hput.fresh ?_ hplan₁ (hput.free fun p hp ↦ hp.2.1) hafter
  · rw [view_on_self]
    intro v hv hlive
    obtain ⟨row, hrow, rfl⟩ := List.mem_map.mp hv
    exact hgone row hrow hlive
  · intro v hv
    obtain ⟨p, hp, rfl⟩ := hput.origin v hv
    exact hp.sent s.now

theorem Touched.unplanned_micros (ht : Touched s.now (s.slots d) y)
    (hmicros : Micros k T s (s.on d fun _ ↦ y)) (h : s.Starting d op rest dep)
    (excluded : List NodeId) (e : String) :
    Micros k T s (s.adopt k d op.work excluded { slot := y, result := .error e }) := by
  have hfinal := Control.unplanned_micros (k := k) (T := T) (ht.starting h) excluded e
  rw [adopt_on, slots_on_self] at hfinal
  exact hmicros.trans hfinal

end

/-! ## The starters -/

structure Launching (s : Control) (d : DeploymentId) (op : Op) (rest : List Op) (dep : Deployment)
    (ids : List AssignmentId) : Prop extends Starting s d op rest dep where
  stand : op.phase.stand = .idle
  gone : ∀ r ∈ (s.slots d).rows, r.live = true → s.isOnline r.nodeId = false
  fresh : s.fresh ids = true

variable {ids lost : List AssignmentId} {launched : Launched} {op : Op} {rest : List Op}
  {dep r : Deployment} {plan : Plan}

theorem fresh_spec (h : s.fresh ids = true) : ids.Nodup ∧
    ∀ id ∈ ids, id ∉ s.allRows.map (·.id) ∧ id ∉ s.heard.map (·.id) := by
  simp only [fresh, Bool.and_eq_true, decide_eq_true_eq, List.all_eq_true] at h
  exact h

theorem sendable_singleton {id : AssignmentId} (hfresh : s.fresh [id] = true) {n : NodeId}
    {a : Assignment} (hid : a.id = id) (hport : a.isExternalWatch = false →
      ∃ port, a.ports = [port] ∧ port ∉ s.usedPorts n) : s.Sendable [(n, a)] where
  ids := by simp
  fresh p hp := by
    rw [List.mem_singleton.mp hp, show (n, a).2.id = id from hid]
    exact (fresh_spec hfresh).2 id List.mem_cons_self
  nodes := by simp
  ports p hp hengine := by
    obtain rfl := List.mem_singleton.mp hp
    obtain ⟨port, hports, hfree⟩ := hport hengine
    simp [hports, hfree]

theorem node_ok {id : NodeId} {n : NodeRow} (h : s.node id = .ok n) :
    n.id = id ∧ s.present id = true := by
  unfold node at h
  cases hget : s.nodes.get id with
  | none => simp [hget] at h
  | some m =>
    simp only [hget] at h
    split_ifs at h with hon
    cases h
    simp only [Bool.and_eq_true] at hon
    refine ⟨by simpa using List.find?_some hget, ?_⟩
    simp [present, hget, hon.1, hon.2]

theorem planFor_ok {spec : DeploymentSpec} (h : s.planFor k d spec = .ok plan) :
    s.plan k spec (some d) [] = .ok plan ∧ (s.slots d).blockedUntil s.now plan = none := by
  obtain ⟨p, hp, h⟩ := bind_ok h
  split at h
  · cases h
  · rename_i hnone
    cases h
    exact ⟨hp, hnone⟩

theorem planForTouch_blocked {spec : DeploymentSpec} (h : s.planFor k d spec = .ok plan) :
    (s.planForTouch k d spec).blocked (planFingerprint plan) = none := by
  obtain ⟨hplan, hnone⟩ := planFor_ok h
  unfold planForTouch
  have hb : ((s.planTouch k d spec).slots d).blocked = (s.slots d).blocked := by
    unfold planTouch
    split_ifs
    · rw [slots_on_self]
      rfl
    · rfl
  simp only [hplan, Slot.expireBlock, Function.update_self]
  unfold Slot.blockedUntil at hnone ⊢
  rw [hb]
  exact hnone

theorem planFor_micros (hs : s.Good) (h : s.Launching d op rest dep ids)
    (hdep : (s.slots d).dep = some r) (hspec : r.spec = dep.spec)
    (hkind : dep.spec.kind = .replica ∨ dep.spec.kind = .split)
    (herror : ∀ e, s.planFor k d dep.spec = .error e →
      launched = { slot := s.planForTouch k d dep.spec, result := .error e })
    (hok : ∀ plan nodes, s.planFor k d dep.spec = .ok plan → plan.nativeExecution = none →
      plan.Sound dep.spec nodes s.usedPorts → ∃ patch state,
        (patch r).face = { r.face with plan := some plan, state } ∧
        (state = r.state ∨ state = .loading) ∧
        s.Sends ((s.planForTouch k d dep.spec).update s.now patch) (some plan) (Fine d plan)
          (PlannedTarget dep plan launched.views) launched) :
    Micros k T s (s.adopt k d op.work ((s.slots d).freshExclusions s.now) launched) := by
  have ht : Touched s.now (s.slots d) (s.planForTouch k d dep.spec) := planForTouch_touched dep.spec
  have hmicros : Micros k T s (s.on d fun _ ↦ s.planForTouch k d dep.spec) :=
    planForTouch_micros hs hdep (by rcases hkind with hk | hk <;> rw [hspec, hk] <;> rfl) dep.spec
  cases hplanFor : s.planFor k d dep.spec with
  | error e =>
    rw [herror e hplanFor]
    exact ht.unplanned_micros hmicros h.toStarting _ e
  | ok plan =>
    obtain ⟨hplan, -⟩ := planFor_ok hplanFor
    obtain ⟨nodes, -, -, hsound, -⟩ := plan_sound hplan
    have hnone : plan.nativeExecution = none := by
      have := hsound.native
      rcases hkind with hk | hk <;> simpa [hk, DeploymentKind.isNative] using this
    obtain ⟨patch, state, hpatch, hstate, hsends⟩ := hok plan nodes hplanFor hnone hsound
    exact ht.planned_micros hs hmicros h.toStarting h.stand hdep
      (by rcases hkind with hk | hk <;> simp [hk]) hplan (fun _ ↦ planForTouch_blocked hplanFor)
      h.gone patch hpatch hstate hsends

theorem startReplica_micros (hs : s.Good) (h : s.Launching d op rest dep ids)
    (hdep : (s.slots d).dep = some r) (hspec : r.spec = dep.spec) (hid : dep.id = d)
    (hkind : dep.spec.kind = .replica) (hl : s.startReplica k d dep ids lost = some launched) :
    Micros k T s (s.adopt k d op.work ((s.slots d).freshExclusions s.now) launched) := by
  unfold startReplica at hl
  refine planFor_micros hs h hdep hspec (.inl hkind) (fun e hplan ↦ ?_)
    fun plan nodes hplan hnone hsound ↦
    ⟨fun dep ↦ { dep with plan := some plan, state := .loading },
      .loading, rfl, .inr rfl, ?_⟩
  · rw [hplan] at hl
    cases hl
    rfl
  rw [hplan] at hl
  dsimp only at hl
  split at hl
  · cases hl
    exact error_sends _
  · rename_i node profile id hnode _
    obtain ⟨hn, -⟩ := node_ok hnode
    cases hl
    refine dispatch_sends
      (sendable_singleton h.fresh rfl fun _ ↦ ⟨_, rfl, freePort_notMem _ _⟩) ?_ ?_
    · intro p hp
      rw [List.mem_singleton.mp hp]
      exact ⟨hid, rfl, by simp [planNodes, hnone, hn]⟩
    · intro hrows
      rw [hrows]
      have hnodes : planNodes plan = [node.id] := by
        simp [planNodes, hnone, hsound.whole (by simp [hkind]), hn]
      refine plannedTarget_route (by simp [sentViews]) fun n hmem ↦ ?_
      rw [hnodes, List.mem_singleton] at hmem
      simp [Plan.awaited, hmem, hn]
  · cases hl

theorem zipWith_eq_map {α β γ : Type*} (f : α → β → γ) (l : List α) (l' : List β) :
    List.zipWith f l l' = (l.zip l').map fun q ↦ f q.1 q.2 :=
  (List.map_uncurry_zip_eq_zipWith ..).symm

theorem map_zipWith_node {α : Type*} {l : List α} (hlen : ids.length = l.length)
    {f : AssignmentId → α → NodeId × Assignment} (node : α → NodeId)
    (hnode : ∀ id a, (f id a).1 = node a) :
    (List.zipWith f ids l).map (·.1) = l.map node := by
  rw [zipWith_eq_map, List.map_map]
  conv_rhs => rw [← List.map_snd_zip hlen.ge, List.map_map]
  exact List.map_congr_left fun q _ ↦ hnode q.1 q.2

theorem sendable_zipWith {α : Type*} {l : List α} (hfresh : s.fresh ids = true)
    (hlen : ids.length = l.length) {f : AssignmentId → α → NodeId × Assignment} (node : α → NodeId)
    (hid : ∀ id a, (f id a).2.id = id) (hnode : ∀ id a, (f id a).1 = node a)
    (hnodes : (l.map node).Nodup)
    (hports : ∀ id, ∀ a ∈ l,
      (f id a).2.ports.Nodup ∧ ∀ port ∈ (f id a).2.ports, port ∉ s.usedPorts (node a)) :
    s.Sendable (List.zipWith f ids l) := by
  obtain ⟨hnodup, hfresh⟩ := fresh_spec hfresh
  have hmap := map_zipWith_node hlen node hnode
  rw [zipWith_eq_map] at hmap ⊢
  constructor
  · simpa [Function.comp_def, hid, List.map_fst_zip hlen.le] using hnodup
  · intro p hp
    obtain ⟨q, hq, rfl⟩ := List.mem_map.mp hp
    rw [hid]
    exact hfresh _ (List.of_mem_zip hq).1
  · rw [hmap]
    exact hnodes
  · intro p hp _
    obtain ⟨q, hq, rfl⟩ := List.mem_map.mp hp
    rw [hnode]
    exact hports q.1 q.2 (List.of_mem_zip hq).2

theorem startNative_micros (hs : s.Good) (h : s.Launching d op rest dep ids)
    (hdep : (s.slots d).dep = some r) (hkind : dep.spec.kind.isNative = true)
    (hl : s.startNative k d dep ids lost = some launched) :
    Micros k T s (s.adopt k d op.work ((s.slots d).freshExclusions s.now) launched) := by
  have ht : Touched s.now (s.slots d) ((s.planTouch k d dep.spec).slots d) :=
    planTouch_touched dep.spec
  have hmicros : Micros k T s (s.on d fun _ ↦ (s.planTouch k d dep.spec).slots d) :=
    planTouch_micros dep.spec
  unfold startNative at hl
  cases hplan : s.plan k dep.spec (some d) [] with
  | error e =>
    rw [hplan] at hl
    cases hl
    exact ht.unplanned_micros hmicros h.toStarting _ e
  | ok plan =>
    rw [hplan] at hl
    dsimp only at hl
    split at hl
    · rename_i native profile hnative _
      cases hends : native.endpoints with
      | nil => simp [hends] at hl
      | cons first others =>
        simp only [hends] at hl
        split_ifs at hl with hlen
        have hlen : ids.length = (first :: others).length := not_ne_iff.mp hlen
        cases hl
        obtain ⟨nodes, -, -, hsound, -⟩ := plan_sound hplan
        have hnodes : planNodes plan = (first :: others).map (·.nodeId) := by
          simp [planNodes, hnative, hends]
        refine ht.planned_micros hs hmicros h.toStarting h.stand hdep ?_ hplan ?_ h.gone
          (fun dep ↦ { dep with plan := some plan, state := .loading }) rfl (.inr rfl) ?_
        · rintro hext
          simp [hext, DeploymentKind.isNative] at hkind
        · intro hplanned
          cases hk : dep.spec.kind <;> simp [hk, DeploymentKind.isNative, DeploymentKind.planned]
            at hkind hplanned
        refine dispatch_sends (sendable_zipWith h.fresh hlen (·.nodeId)
          (fun _ _ ↦ rfl) (fun _ _ ↦ rfl) (hnodes ▸ hsound.nodup) fun id e he ↦ ⟨by
            simp [Assignment.ports], ?_⟩) ?_ ?_
        · simp only [Assignment.ports, stageAssignment, List.mem_singleton]
          rintro port rfl
          exact (hsound.endpoints native hnative e (hends ▸ he)).port.port_free
        · intro p hp
          rw [zipWith_eq_map] at hp
          obtain ⟨q, hq, rfl⟩ := List.mem_map.mp hp
          exact ⟨rfl, rfl, hnodes ▸ List.mem_map_of_mem (List.of_mem_zip hq).2⟩
        · intro hrows
          rw [hrows]
          refine plannedTarget_route ?_ fun n hn ↦ ⟨by simp [Plan.awaited, hnative], ?_⟩
          · cases ids with
            | nil => simp at hlen
            | cons id ids => simp [sentViews]
          · rw [map_nodeId_sentViews, map_zipWith_node hlen (·.nodeId) fun _ _ ↦ rfl, ← hnodes]
            exact hn
    · cases hl
      exact ht.unplanned_micros hmicros h.toStarting _ _

theorem ringNodes_ok {coord : NodeRow} {workers : List (PlanWorker × NodeRow)}
    (h : s.ringNodes plan = .ok (coord, workers)) : coord.id = plan.coordinatorNodeId ∧
      workers.map (·.1) = plan.workers ∧ ∀ p ∈ workers, p.2.id = p.1.nodeId := by
  obtain ⟨c, hc, h₁⟩ := bind_ok h
  obtain ⟨ws, hws, h₂⟩ := bind_ok h₁
  cases h₂
  refine ⟨(node_ok hc).1, ?_⟩
  have hall := mapM_ok hws
  clear h h₁ hws
  generalize plan.workers = l at hall
  induction hall with
  | nil => simp
  | @cons w p l ps hp _ ih =>
    obtain ⟨n, hn, rfl⟩ := map_ok hp
    obtain ⟨ih₁, ih₂⟩ := ih
    refine ⟨by simp [ih₁], fun q hq ↦ ?_⟩
    rcases List.mem_cons.mp hq with rfl | hq
    · exact (node_ok hn).1
    · exact ih₂ q hq

theorem startSplit_micros (hs : s.Good) (h : s.Launching d op rest dep ids)
    (hdep : (s.slots d).dep = some r) (hspec : r.spec = dep.spec) (hkind : dep.spec.kind = .split)
    (hl : s.startSplit k d dep ids lost = some launched) :
    Micros k T s (s.adopt k d op.work ((s.slots d).freshExclusions s.now) launched) := by
  unfold startSplit at hl
  refine planFor_micros hs h hdep hspec (.inr hkind) (fun e hplan ↦ ?_)
    fun plan nodes hplan hnone hsound ↦
      ⟨fun dep ↦ { dep with plan := some plan }, r.state, rfl, .inl rfl, ?_⟩
  · rw [hplan] at hl
    cases hl
    rfl
  rw [hplan] at hl
  dsimp only at hl
  split at hl
  · cases hl
    exact error_sends _
  · rename_i coord workers profile hring _
    obtain ⟨hcoord, hworkers, hids⟩ := ringNodes_ok hring
    split_ifs at hl with hlen
    have hlen : ids.length = workers.zipIdx.length := by
      rw [List.length_zipIdx]
      exact not_ne_iff.mp hlen
    cases hl
    have hfst : workers.zipIdx.map Prod.fst = workers := List.zipIdx_map_fst ..
    have hplaced : ∀ a ∈ workers.zipIdx, a.1.1 ∈ plan.workers ∧ a.1.2.id = a.1.1.nodeId := by
      intro a ha
      have hmem : a.1 ∈ workers := hfst ▸ List.mem_map_of_mem ha
      exact ⟨hworkers ▸ List.mem_map_of_mem hmem, hids a.1 hmem⟩
    have hmap : (workers.zipIdx.map fun a ↦ a.1.2.id) = plan.workers.map (·.nodeId) := by
      rw [← hworkers, List.map_map]
      conv_rhs => rw [← hfst, List.map_map]
      exact List.map_congr_left fun a ha ↦ (hplaced a ha).2
    have hnodup : (workers.zipIdx.map fun a ↦ a.1.2.id).Nodup := by
      rw [hmap]
      have := hsound.nodup
      simp only [planNodes, hnone, List.nodup_cons] at this
      exact this.2
    refine dispatch_sends (sendable_zipWith h.fresh hlen (fun a ↦ a.1.2.id)
      (fun _ _ ↦ rfl) (fun _ _ ↦ rfl) hnodup fun id a ha ↦ ?_) ?_ ?_
    · obtain ⟨hmem, hid⟩ := hplaced a ha
      have hw := hsound.workers a.1.1 hmem
      rw [hid]
      simp only [Assignment.ports, workerAssignment]
      cases hpeer : a.1.1.peerPort with
      | none => simpa using hw.port.port_free
      | some peer =>
        obtain rfl := hw.peer peer hpeer
        simpa using ⟨hw.port.port_free, hw.port.peer_free⟩
    · intro p hp
      rw [workerAssignments, zipWith_eq_map] at hp
      obtain ⟨q, hq, rfl⟩ := List.mem_map.mp hp
      obtain ⟨hmem, hid⟩ := hplaced q.2 (List.of_mem_zip hq).2
      exact ⟨rfl, rfl, by simpa [planNodes, hnone, hid] using Or.inr ⟨q.2.1.1, hmem, rfl⟩⟩
    · intro hrows
      rw [hrows]
      refine ⟨fun _ htarget ↦ (by cases htarget), ?_⟩
      rintro p c ws ⟨⟩
      refine ⟨rfl, hkind, hcoord, hnone, fun n hn ↦ ?_⟩
      rw [map_nodeId_sentViews, workerAssignments,
        map_zipWith_node hlen (fun a ↦ a.1.2.id) fun _ _ ↦ rfl, hmap]
      simpa [planNodes, hnone] using hn
  · cases hl

def EngineTarget (rows : List RowView) (target : Target) : Prop :=
  (∃ endpoint, target = .route endpoint) ∧ rows ≠ []

theorem startExternal_micros (hs : s.Good) (h : s.Launching d op rest dep ids)
    (hdep : (s.slots d).dep = some r) (hkind : dep.spec.kind = .external)
    (hl : s.startExternal k d dep ids lost = some launched) (excluded : List NodeId) :
    Micros k T s (s.adopt k d op.work excluded launched) := by
  unfold startExternal at hl
  split at hl
  · cases hl
    exact unplanned_micros h.toStarting _ _
  · split at hl
    · cases hl
      exact unplanned_micros h.toStarting _ _
    · cases hl
      exact unplanned_micros h.toStarting _ _
    · rename_i ext _ _ _ _ node url id hnode hurl
      obtain ⟨hn, hpresent⟩ := node_ok hnode
      cases hl
      refine adopt_micros hs h.toStarting hdep rfl (fun p ↦
        p.2.deploymentId = d ∧ p.2.isExternalWatch = true ∧ s.present p.1 = true) EngineTarget
        (dispatch_sends (sendable_singleton h.fresh rfl fun hext ↦ by
          simp [Assignment.isExternalWatch, externalAssignment] at hext) ?_ ?_) excluded ?_
      · intro p hp
        rw [List.mem_singleton.mp hp]
        exact ⟨rfl, rfl, hn ▸ hpresent⟩
      · intro hrows
        exact ⟨⟨_, rfl⟩, by rw [hrows]; simp [sentViews]⟩
      · intro hput stand hafter
        refine .watch _ stand excluded (Slot.face_of_dep hdep) (view_ops_cons h.ops) h.work h.stand
          h.running hkind hput.ids hput.fresh (fun v hv ↦ ?_) (fun v hv ↦ ?_) hafter
        · obtain ⟨p, hp, rfl⟩ := hput.origin v hv
          exact ⟨hp.1, rfl, hp.2.1⟩
        · obtain ⟨p, hp, rfl⟩ := hput.origin v hv
          exact hp.2.2
    · cases hl

theorem mapError_sends {x : Slot} {plan : Option Plan} {fine : NodeId × Assignment → Prop}
    {waits : Target → Prop} (h : s.Sends x plan fine waits launched) (e : String) :
    s.Sends x plan fine waits { launched with result := launched.result.mapError fun _ ↦ e } :=
  ⟨h.slot, h.rows, fun phase hphase ↦ h.result phase (mapError_ok hphase)⟩

theorem startCoordinator_micros (hs : s.Good) (h : s.Starting d op rest dep)
    (hfresh : s.fresh ids = true) (hdep : (s.slots d).dep = some r) (hid : dep.id = d)
    {coord : NodeRow} {workers : List (PlanWorker × NodeRow)}
    (hstand : op.phase.stand = .awaiting (.workers plan coord workers) [])
    (hcoord : coord.id ∈ planNodes plan)
    (hl : s.startCoordinator k d dep plan coord workers ids lost = some launched) :
    Micros k T s (s.adopt k d op.work [] launched) := by
  unfold startCoordinator at hl
  split at hl
  · cases hl
    refine adopt_micros hs h hdep rfl (Fine d plan) (fun rows target ↦
      (∃ endpoint, target = .route endpoint) ∧ coord.id ∈ rows.map (·.nodeId))
      (mapError_sends (dispatch_sends
      (sendable_singleton hfresh rfl fun _ ↦ ⟨_, rfl, freePort_notMem _ _⟩) ?_ ?_) _) [] ?_
    · intro p hp
      rw [List.mem_singleton.mp hp]
      exact ⟨hid, rfl, hcoord⟩
    · intro hrows
      exact ⟨⟨_, rfl⟩, by rw [hrows]; simp⟩
    · intro hput stand hafter
      refine .coordinator _ stand (Slot.face_of_dep hdep) (view_ops_cons h.ops) h.work hstand
        h.running hput.ids hput.fresh (fun v hv ↦ ?_) (hput.free fun p hp ↦ hp.2.1) hafter
      obtain ⟨p, hp, rfl⟩ := hput.origin v hv
      exact hp.sent s.now
  · cases hl

theorem launch_micros (hs : s.Good) (h : s.Launching d op rest dep ids)
    (hl : s.launch k d dep ids lost = some launched) :
    Micros k T s (s.adopt k d op.work ((s.slots d).freshExclusions s.now) launched) := by
  obtain ⟨-, hid, f, hf, hspec⟩ := (hs.slots d).queue.snapshot op.view
    (by rw [Control.view, view_ops_cons h.ops]; exact List.mem_cons_self) dep _ h.work
  obtain ⟨r, hdep, rfl⟩ := Option.map_eq_some_iff.mp hf
  unfold launch at hl
  split at hl <;> rename_i hkind
  · exact startExternal_micros hs h hdep hkind hl _
  · exact startReplica_micros hs h hdep hspec hid hkind hl
  · exact startNative_micros hs h hdep (by rw [hkind]; rfl) hl
  · exact startNative_micros hs h hdep (by rw [hkind]; rfl) hl
  · exact startSplit_micros hs h hdep hspec hkind hl

end Control

end

end Swarmlet
