import Swarmlet.Control.Abstraction

/-!
# Small steps of the control plane

A `Micro` is one change of the control plane: a move or a dispatch of one deployment, a change
around the deployments (the clock, the channel, the nodes table, the fleet apply), a deployment that
is created, or a restart. Every event is a sequence of them.

`Control.Good` is the invariant of every deployment together with what ties deployments to the fleet
apply: while one is under way only its own continuations are due, and nothing starts before all its
stops have settled.
-/

namespace Swarmlet

open Js

/-! ## Small steps -/

namespace Control

def view (s : Control) (d : DeploymentId) : View := (s.slots d).view

def ambient (s : Control) : Ambient := ⟨s.now, s.heard, s.fleet, s.view⟩

/-- A fleet run has one entry a deployment. The specs it brings fix their nodes and are for planned
kinds, and so are the deployments they are for. -/
structure EntriesGood (s : Control) (entries : List FleetEntry) : Prop where
  distinct : (entries.map (·.deploymentId)).Nodup
  pinned : ∀ e ∈ entries, ∀ spec, e.spec = some spec → pinsNodes spec = true
  planned : ∀ e ∈ entries, ∀ spec, e.spec = some spec →
    spec.kind.planned = true ∧ e.deploymentId ∈ s.known ∧
      ∀ f, (s.view e.deploymentId).face = some f → f.spec.kind.planned = true

end Control

/-- Nothing of a deployment depends on a node: if its plan names the node, it neither serves nor has
a current start that waits for engines. -/
def View.Withdrawn (v : View) (n : NodeId) : Prop :=
  ∀ f plan, v.face = some f → f.spec.kind ≠ .external → f.plan = some plan → n ∈ planNodes plan →
    f.state ≠ .ready ∧ ∀ o ∈ v.ops, ∀ dep, o.work = .start dep v.generation →
      ∀ target pending, o.stand ≠ .awaiting target pending

structure Control.Around (T : Terms) (s s' : Control) : Prop where
  slots : s'.slots = s.slots
  known : s'.known = s.known
  now : s.now ≤ s'.now
  heard : s.heard ⊆ s'.heard
  offers : T.offers → ∀ n ∈ s.nodes.rows, ∀ o, n.offer = some o →
    ∃ n' ∈ s'.nodes.rows, n'.id = n.id ∧ n'.offer = some o
  /-- A node goes only after everything that depended on it was withdrawn. -/
  lost : ∀ n, s.present n = true → s'.present n = false → ∀ d, (s.view d).Withdrawn n
  lease : s'.updateLease = s.updateLease ∨ T.leases
  applies : s'.fleet = s.fleet ∨ T.fleet
  runs : ∀ run ∈ s'.runs, s.EntriesGood run.entries
  fleet : ∀ t' ∈ s'.fleet,
    (∃ t ∈ s.fleet, t'.run.entries = t.run.entries ∧ (t'.isStopping = true → t.isStopping = true)) ∨
    s.EntriesGood t'.run.entries ∧ (∀ e ∈ t'.run.entries, T.names e.deploymentId) ∧
      ∀ d, (s.view d).ops = [] ∧ (s.view d).jobs = []

/-- What a restart leaves of a deployment. -/
structure View.Restored (v w : View) : Prop where
  rows : w.rows = v.rows
  ops : w.ops = []
  jobs : w.jobs = []
  reconnecting : w.reconnecting = false
  crashes : w.crashes = v.crashes
  inflight : w.inflight = 0
  running : w.running = true → v.running = true
  gone : v.face = none → w.face = none
  face : ∀ f, v.face = some f → ∃ g, w.face = some g ∧ g.spec = f.spec ∧ g.plan = f.plan ∧
    g.state ≠ .ready ∧ (g.endpoint = none ∨ g.endpoint = f.endpoint ∧ f.state ≠ .ready) ∧
    (g.state = .stopped → w.running = false ∧ (f.state = .stopped ∨ f.spec.kind = .external))

def View.created (spec : DeploymentSpec) : View where
  face := some ⟨spec, .planned, none, none⟩
  running := false
  rows := []
  ops := []
  jobs := []
  generation := 0
  reconnecting := false
  blocked := fun _ ↦ none
  crashes := fun _ ↦ 0
  inflight := 0

namespace Control

/-- The ports of the rows that are sent are distinct on every node, and nothing live has them. -/
def FreePorts (s : Control) (rows : List RowView) : Prop :=
  ∀ n, ((rows.filter (·.nodeId = n)).flatMap (·.ports)).Nodup ∧
    ∀ p ∈ (rows.filter (·.nodeId = n)).flatMap (·.ports), p ∉ s.usedPorts n

def surroundings (k : Deps) (s : Control) (d : DeploymentId) : Surroundings where
  online := s.isOnline
  present := s.present
  plans spec plan := s.plan k spec (some d) [] = .ok plan
  free := s.FreePorts
  fresh id := id ∉ s.allRows.map (·.id) ∧ id ∉ s.heard.map (·.id)

end Control

section

variable (k : Deps) (T : Terms)

inductive Micro (s : Control) : Control → Prop
  | slot (d : DeploymentId) (y : Slot) (hknown : d ∈ s.known ∨ y.view = s.view d)
      (h : Move k T s.ambient d (s.view d) y.view) : Micro s (s.on d fun _ ↦ y)
  | dispatch (d : DeploymentId) (y : Slot) (hknown : d ∈ s.known)
      (h : Dispatch d (s.surroundings k d) (s.view d) y.view) : Micro s (s.on d fun _ ↦ y)
  | around (s' : Control) (h : s.Around T s') : Micro s s'
  | created (d : DeploymentId) (y : Slot) (spec : DeploymentSpec) (hnew : d ∉ s.known)
      (hview : y.view = .created spec) :
      Micro s { s with
        known := d :: s.known
        distinctKnown := List.nodup_cons.mpr ⟨hnew, s.distinctKnown⟩
        slots := Function.update s.slots d y }
  | restart (s' : Control) (hknown : s'.known = s.known)
      (hslots : ∀ d, (s.view d).Restored (s'.view d)) (hnow : s'.now = s.now)
      (hheard : s'.heard = s.heard) (hpresent : ∀ n, s'.present n = false)
      (hlease : s'.updateLease = none) (hfleet : s'.fleet = none)
      (hruns : ∀ run ∈ s'.runs, ∃ run' ∈ s.runs, run.entries = run'.entries)
      (hoffers : ∀ n ∈ s.nodes.rows, ∃ n' ∈ s'.nodes.rows, n'.id = n.id ∧ n'.offer = n.offer)
      (hrestarts : T.restarts) : Micro s s'

abbrev Micros : Control → Control → Prop := Relation.ReflTransGen (Micro k T)

end

/-! ## The invariant -/

def Job.Fleet : Job → Prop
  | .settled cont _ _ _ => cont.Fleet
  | .lateFailure _ => False

structure Control.Good (s : Control) : Prop where
  slots : ∀ d, (s.view d).Good d
  acked : ∀ d, (s.view d).Acked s.heard
  distinct : ∀ d d', ∀ r ∈ (s.view d).rows, ∀ r' ∈ (s.view d').rows, r.id = r'.id → d = d'
  unknown : ∀ d, d ∉ s.known → (s.view d).face = none ∧ (s.view d).rows = [] ∧
    (s.view d).ops = [] ∧ (s.view d).jobs = []
  runs : ∀ run ∈ s.runs, s.EntriesGood run.entries
  task : ∀ t ∈ s.fleet, s.EntriesGood t.run.entries
  conts : s.fleet.isSome = true → ∀ d,
    (∀ o ∈ (s.view d).ops, o.cont.Fleet) ∧ ∀ j ∈ (s.view d).jobs, j.Fleet
  stopping : ∀ t ∈ s.fleet, t.isStopping = true → ∀ d, ∀ o ∈ (s.view d).ops, o.work.isStart = false

namespace Control

section

variable (s : Control) (d : DeploymentId)

@[simp] theorem slots_on_self (f : Slot → Slot) : (s.on d f).slots d = f (s.slots d) := by
  simp [on]

@[simp] theorem slots_on_of_ne {d d' : DeploymentId} (h : d' ≠ d) (f : Slot → Slot) :
    (s.on d f).slots d' = s.slots d' := by
  simp [on, h]

theorem slots_on_cases {P : Slot → Prop} {s : Control} {d d' : DeploymentId} {f : Slot → Slot}
    (hself : d' = d → P (f (s.slots d'))) (hother : P (s.slots d')) : P ((s.on d f).slots d') := by
  by_cases hd : d' = d
  · subst hd
    rw [slots_on_self]
    exact hself rfl
  · rwa [slots_on_of_ne s hd]

theorem on_on (f g : Slot → Slot) : (s.on d f).on d g = s.on d fun x ↦ g (f x) := by
  simp [on]

@[simp] theorem view_on_self (f : Slot → Slot) : (s.on d f).view d = (f (s.slots d)).view := by
  simp [view]

@[simp] theorem view_on_of_ne {d d' : DeploymentId} (h : d' ≠ d) (f : Slot → Slot) :
    (s.on d f).view d' = s.view d' := by
  simp [view, h]

end

end Control

/-! ## What a move does for the fleet -/

section

variable {k : Deps} {T : Terms} {c : Ambient} {d : DeploymentId} {e : Surroundings} {v w : View}

theorem Move.kind (h : Move k T c d v w) : ∀ g, w.face = some g →
    ∃ f, v.face = some f ∧ (f.spec.kind.planned = true → g.spec.kind.planned = true) := by
  cases h <;> grind [View.settle, View.setRowState, View.hear, View.expire, View.block]

theorem Dispatch.kind (h : Dispatch d e v w) : ∀ g, w.face = some g →
    ∃ f, v.face = some f ∧ (f.spec.kind.planned = true → g.spec.kind.planned = true) := by
  cases h <;> grind

theorem Dispatch.rows_sub (h : Dispatch d e v w) : ∀ r ∈ w.rows, r ∈ v.rows ∨ e.fresh r.id := by
  cases h with
  | planned plan state rows stand excluded hface hops hwork hstand hrunning hkind hblocked hstate
      hgone hplaced hexcluded hids hfresh
  | coordinator rows stand hface hops hwork hstand hrunning hids hfresh
  | watch rows stand excluded hface hops hwork hstand hrunning hkind hids hfresh =>
    exact fun r hr ↦ (List.mem_append.mp hr).imp_right (hfresh r)

theorem Move.conts (h : Move k T c d v w) (hfleet : c.fleet.isSome = true)
    (hops : ∀ o ∈ v.ops, o.cont.Fleet) : ∀ o ∈ w.ops, o.cont.Fleet := by
  cases h with
  | heard =>
    intro o ho
    obtain ⟨p, hp, -, hc⟩ := exists_of_task_eq v.task_hear ho
    exact hc ▸ hops p hp
  | _ => grind [View.settle, View.setRowState, View.expire, View.block, View.setState,
      View.setReady, View.halt, Cont.Fleet]

theorem Move.jobs (h : Move k T c d v w) (hfleet : c.fleet.isSome = true)
    (hops : ∀ o ∈ v.ops, o.cont.Fleet) (hjobs : ∀ j ∈ v.jobs, j.Fleet) : ∀ j ∈ w.jobs, j.Fleet := by
  cases h <;> grind [View.settle, View.setRowState, View.hear, View.expire, View.block,
    View.setState, View.setReady, View.halt, Job.Fleet, Cont.Fleet, List.mem_of_mem_eraseIdx]

theorem Move.notStart (h : Move k T c d v w) {t : FleetTask} (ht : c.fleet = some t)
    (hstopping : t.isStopping = true) (hops : ∀ o ∈ v.ops, o.work.isStart = false) :
    ∀ o ∈ w.ops, o.work.isStart = false := by
  cases h with
  | heard =>
    intro o ho
    obtain ⟨p, hp, hw, -⟩ := exists_of_task_eq v.task_hear ho
    exact hw ▸ hops p hp
  | _ => grind [View.settle, View.setRowState, View.expire, View.block, View.setState,
      View.setReady, View.halt, Work.isStart]

theorem Dispatch.same (h : Dispatch d e v w) :
    w.ops.map OpView.task = v.ops.map OpView.task ∧ w.jobs = v.jobs := by
  cases h with
  | planned plan state rows stand excluded hface hops | coordinator rows stand hface hops
  | watch rows stand excluded hface hops => exact ⟨by rw [hops]; rfl, rfl⟩

end

namespace Control

theorem EntriesGood.mono {s s' : Control} {entries : List FleetEntry} (h : s.EntriesGood entries)
    (hknown : s.known ⊆ s'.known)
    (hkind : ∀ d ∈ s.known, ∀ g, (s'.view d).face = some g → ∃ f, (s.view d).face = some f ∧
      (f.spec.kind.planned = true → g.spec.kind.planned = true)) : s'.EntriesGood entries := by
  refine ⟨h.distinct, h.pinned, fun e he spec hspec ↦ ?_⟩
  obtain ⟨hplanned, hmem, hface⟩ := h.planned e he spec hspec
  refine ⟨hplanned, hknown hmem, fun g hg ↦ ?_⟩
  obtain ⟨f, hf, hfg⟩ := hkind _ hmem g hg
  exact hfg (hface f hf)

end Control

theorem Control.Good.on {s : Control} (h : s.Good) (d : DeploymentId) (y : Slot)
    (hgood : y.view.Good d) (hacked : y.view.Acked s.heard)
    (hdistinct : ∀ r ∈ y.view.rows, ∀ d', d' ≠ d → ∀ r' ∈ (s.view d').rows, r.id ≠ r'.id)
    (hknown : d ∈ s.known ∨ y.view = s.view d)
    (hkind : ∀ g, y.view.face = some g → ∃ f, (s.view d).face = some f ∧
      (f.spec.kind.planned = true → g.spec.kind.planned = true))
    (hconts : s.fleet.isSome = true →
      (∀ o ∈ y.view.ops, o.cont.Fleet) ∧ ∀ j ∈ y.view.jobs, j.Fleet)
    (hstopping : ∀ t ∈ s.fleet, t.isStopping = true → ∀ o ∈ y.view.ops, o.work.isStart = false) :
    (s.on d fun _ ↦ y).Good := by
  have hview : ∀ d', (s.on d fun _ ↦ y).view d' = if d' = d then y.view else s.view d' := by
    intro d'
    split_ifs with hd
    · rw [hd, Control.view_on_self]
    · exact Control.view_on_of_ne s hd _
  have hentries : ∀ {entries}, s.EntriesGood entries → (s.on d fun _ ↦ y).EntriesGood entries := by
    refine fun he ↦ he.mono (List.Subset.refl _) fun d' _ g hg ↦ ?_
    rw [hview] at hg
    split_ifs at hg with hd
    · exact hd ▸ hkind g hg
    · exact ⟨g, hg, id⟩
  refine ⟨fun d' ↦ ?_, fun d' ↦ ?_, fun d₁ d₂ r₁ hr₁ r₂ hr₂ hid ↦ ?_, fun d' hd' ↦ ?_,
    fun run hrun ↦ hentries (h.runs run hrun), fun t ht ↦ hentries (h.task t ht),
    fun hfleet d' ↦ ?_, fun t ht hs d' ↦ ?_⟩
  · rw [hview]
    split_ifs with hd
    · exact hd ▸ hgood
    · exact h.slots d'
  · rw [hview]
    split_ifs
    · exact hacked
    · exact h.acked d'
  · rw [hview] at hr₁ hr₂
    split_ifs at hr₁ hr₂ with h₁ h₂ h₂
    · exact h₁.trans h₂.symm
    · exact absurd hid (hdistinct r₁ hr₁ d₂ h₂ r₂ hr₂)
    · exact absurd hid.symm (hdistinct r₂ hr₂ d₁ h₁ r₁ hr₁)
    · exact h.distinct d₁ d₂ r₁ hr₁ r₂ hr₂ hid
  · rw [hview]
    split_ifs with hd
    · rcases hknown with hknown | hsame
      · exact absurd (hd ▸ hknown) hd'
      · rw [hsame, ← hd]
        exact h.unknown d' hd'
    · exact h.unknown d' hd'
  · rw [hview]
    split_ifs
    · exact hconts hfleet
    · exact h.conts hfleet d'
  · rw [hview]
    split_ifs
    · exact hstopping t ht hs
    · exact h.stopping t ht hs d'

theorem View.created_good (d : DeploymentId) (spec : DeploymentSpec) :
    (View.created spec).Good d where
  rows := by constructor <;> simp [created]
  queue := by constructor <;> simp [created]
  intent := by constructor <;> simp [created]
  start := by simp [created]
  cleared := by simp [created, Cleared]

theorem View.Restored.source {v w : View} (h : v.Restored w) {g : Face} (hg : w.face = some g) :
    ∃ f, v.face = some f ∧ g.spec = f.spec ∧ g.plan = f.plan ∧ g.state ≠ .ready ∧
      (g.endpoint = none ∨ g.endpoint = f.endpoint ∧ f.state ≠ .ready) ∧
      (g.state = .stopped → w.running = false ∧
        (f.state = .stopped ∨ f.spec.kind = .external)) := by
  cases hf : v.face with
  | none => cases (h.gone hf).symm.trans hg
  | some f =>
    obtain ⟨g', hg', hrest⟩ := h.face f hf
    obtain rfl : g' = g := Option.mem_unique hg' hg
    exact ⟨f, rfl, hrest⟩

theorem View.Restored.good {d : DeploymentId} {v w : View} (h : v.Good d) (hr : v.Restored w) :
    w.Good d where
  rows := {
    ids := hr.rows ▸ h.rows.ids
    own := hr.rows ▸ h.rows.own
    placed := fun hrows ↦ by
      obtain ⟨f, hf⟩ := Option.isSome_iff_exists.mp (h.rows.placed (hr.rows ▸ hrows))
      obtain ⟨g, hg, -⟩ := hr.face f hf
      rw [hg]
      rfl
    watch := fun g hg r hrow ↦ by
      obtain ⟨f, hf, hspec, -⟩ := hr.source hg
      rw [hspec]
      exact h.rows.watch f hf r (hr.rows ▸ hrow) }
  queue := by constructor <;> simp [hr.ops, hr.jobs]
  intent := {
    lonely := by simp [hr.ops]
    refused := by simp [hr.jobs]
    removing := by simp [hr.jobs]
    stopping := by simp [hr.ops]
    stopped := fun g hg hstopped ↦ by
      obtain ⟨f, -, -, -, -, -, hs⟩ := hr.source hg
      exact (hs hstopped).1
    serving := fun g hg hready ↦ by
      obtain ⟨f, -, -, -, hne, -⟩ := hr.source hg
      exact absurd hready hne
    reconnect := by simp [hr.reconnecting]
    current := by simp [hr.ops] }
  start := by simp [hr.ops]
  cleared := by simp [hr.jobs, Cleared]

/-- **Every small step keeps the invariant.** -/
theorem Micro.good {k : Deps} {T : Terms} {s s' : Control} (h : s.Good) (hm : Micro k T s s') :
    s'.Good := by
  cases hm with
  | slot d y hknown hmove =>
    have hd := h.slots d
    refine h.on d y (hmove.good hd) (hmove.acked (h.acked d)) (fun r hr d' hd' r' hr' hid ↦ ?_)
      hknown hmove.kind
      (fun hf ↦ ⟨hmove.conts hf (h.conts hf d).1, hmove.jobs hf (h.conts hf d).1 (h.conts hf d).2⟩)
      (fun t ht hs ↦ hmove.notStart ht hs (h.stopping t ht hs d))
    obtain ⟨q, hq, hrq⟩ := hmove.rows_sub r hr
    exact hd' (h.distinct d' d r' hr' q hq (by rw [← hid, hrq]))
  | dispatch d y hknown hdispatch =>
    obtain ⟨hops, hjobs⟩ := hdispatch.same
    refine h.on d y (hdispatch.good (h.slots d)) (hdispatch.acked (h.acked d)) ?_ (.inl hknown)
      hdispatch.kind ?_ ?_
    · intro r hr d' hd' r' hr' hid
      rcases hdispatch.rows_sub r hr with hold | hnew
      · exact hd' (h.distinct d' d r' hr' r hold hid.symm)
      · obtain ⟨row, hrow, rfl⟩ := List.mem_map.mp hr'
        have hknown' : d' ∈ s.known := by
          by_contra hno
          simp [(h.unknown d' hno).2.1] at hr'
        exact hnew.1 (hid ▸ List.mem_map_of_mem (List.mem_flatMap.mpr ⟨d', hknown', hrow⟩))
    · rw [hjobs]
      refine fun hf ↦ ⟨fun o ho ↦ ?_, (h.conts hf d).2⟩
      obtain ⟨p, hp, -, hc⟩ := exists_of_task_eq hops ho
      exact hc ▸ (h.conts hf d).1 p hp
    · intro t ht hs o ho
      obtain ⟨p, hp, hw, -⟩ := exists_of_task_eq hops ho
      exact hw ▸ h.stopping t ht hs d p hp
  | around s' hs =>
    have hview : ∀ d, s'.view d = s.view d := fun d ↦ by rw [Control.view, hs.slots]; rfl
    have hentries : ∀ {entries}, s.EntriesGood entries → s'.EntriesGood entries := fun he ↦
      he.mono (by rw [hs.known]; exact List.Subset.refl _) fun d _ g hg ↦ ⟨g, hview d ▸ hg, id⟩
    refine ⟨fun d ↦ hview d ▸ h.slots d, fun d r hr hl ↦ hs.heard (h.acked d r (hview d ▸ hr) hl),
      fun d d' r hr r' hr' ↦ h.distinct d d' r (hview d ▸ hr) r' (hview d' ▸ hr'), fun d hd ↦
      hview d ▸ h.unknown d (hs.known ▸ hd), fun run hrun ↦ hentries (hs.runs run hrun),
      fun t' ht' ↦ ?_, fun hf d ↦ ?_, fun t' ht' hst d ↦ ?_⟩
    · rcases hs.fleet t' ht' with ⟨t, ht, hrun, -⟩ | ⟨he, -, -⟩
      · rw [hrun]
        exact hentries (h.task t ht)
      · exact hentries he
    · rw [hview]
      obtain ⟨t', ht'⟩ := Option.isSome_iff_exists.mp hf
      rcases hs.fleet t' ht' with ⟨t, ht, -⟩ | ⟨-, -, hidle⟩
      · exact h.conts (by rw [ht]; rfl) d
      · simp [hidle d]
    · rw [hview]
      rcases hs.fleet t' ht' with ⟨t, ht, -, hstop⟩ | ⟨-, -, hidle⟩
      · exact h.stopping t ht (hstop hst) d
      · simp [hidle d]
  | created d y spec hnew hview =>
    set s' : Control := { s with
      known := d :: s.known
      distinctKnown := List.nodup_cons.mpr ⟨hnew, s.distinctKnown⟩
      slots := Function.update s.slots d y } with hs'
    have hself : s'.view d = .created spec := by simp [s', Control.view, hview]
    have hne : ∀ d', d' ≠ d → s'.view d' = s.view d' := by
      intro d' hd
      simp [s', Control.view, hd]
    have hentries : ∀ {entries}, s.EntriesGood entries → s'.EntriesGood entries := by
      refine fun he ↦ he.mono (List.subset_cons_self d s.known) fun d' hd' g hg ↦ ?_
      rw [hne d' (by rintro rfl; exact hnew hd')] at hg
      exact ⟨g, hg, id⟩
    have hdistinct : ∀ d₁ d₂, ∀ r₁ ∈ (s'.view d₁).rows, ∀ r₂ ∈ (s'.view d₂).rows,
        r₁.id = r₂.id → d₁ = d₂ := by
      intro d₁ d₂ r₁ hr₁ r₂ hr₂
      have hold : ∀ {d' r}, r ∈ (s'.view d').rows → r ∈ (s.view d').rows := by
        intro d' r hr
        by_cases hd : d' = d
        · subst hd
          rw [hself] at hr
          cases hr
        · exact hne d' hd ▸ hr
      exact h.distinct d₁ d₂ r₁ (hold hr₁) r₂ (hold hr₂)
    refine ⟨fun d' ↦ ?_, fun d' ↦ ?_, hdistinct, fun d' hd' ↦ ?_,
      fun run hrun ↦ hentries (h.runs run hrun), fun t ht ↦ hentries (h.task t ht),
      fun hf d' ↦ ?_, fun t ht hst d' ↦ ?_⟩
    all_goals by_cases hd : d' = d
    all_goals first | subst hd; rw [hself] | rw [hne d' hd]
    · exact View.created_good _ spec
    · exact h.slots d'
    · simp [View.created, View.Acked]
    · exact h.acked d'
    · exact absurd List.mem_cons_self hd'
    · exact h.unknown d' fun hmem ↦ hd' (List.mem_cons_of_mem d hmem)
    · simp [View.created]
    · exact h.conts hf d'
    · simp [View.created]
    · exact h.stopping t ht hst d'
  | restart s' hknown hslots hnow hheard hpresent hlease hfleet hruns =>
    refine ⟨fun d ↦ (hslots d).good (h.slots d),
      fun d r hr ↦ hheard ▸ h.acked d r ((hslots d).rows ▸ hr),
      fun d d' r hr r' hr' ↦ h.distinct d d' r ((hslots d).rows ▸ hr) r' ((hslots d').rows ▸ hr'),
      fun d hd ↦ ?_, fun run hrun ↦ ?_, by simp [hfleet],
      by simp [hfleet], by simp [hfleet]⟩
    · obtain ⟨hface, hrows, -, -⟩ := h.unknown d (hknown ▸ hd)
      exact ⟨(hslots d).gone hface, (hslots d).rows.trans hrows, (hslots d).ops, (hslots d).jobs⟩
    · obtain ⟨run', hrun', he⟩ := hruns run hrun
      rw [he]
      refine (h.runs run' hrun').mono (by rw [hknown]; exact List.Subset.refl _) fun d _ g hg ↦ ?_
      obtain ⟨f, hf, hspec, -⟩ := (hslots d).source hg
      exact ⟨f, hf, by rw [hspec]; exact id⟩

end Swarmlet
