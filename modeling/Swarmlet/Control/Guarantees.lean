import Swarmlet.Control.Routing

/-!
# What the manager never does by itself

Guarantees over whole runs, from the invariant of the small steps: the table of assignments loses no
row whose node may still run it, a deployment that is not to run stays at rest until something asks
for it, and a restart loses nothing that is stored.
-/

namespace Swarmlet

open EventMachine

variable {k : Deps} {T : Terms} {c : Ambient} {d : DeploymentId} {v w : View} {s s' : Control}
  {es : List Event} {old : List AssignmentId}

def oneReplica : List Event := joins "n" ++ serves replicaSpec

/-! ## The table of assignments -/

theorem Slot.map_id_rows (x : Slot) : x.view.rows.map (·.id) = x.rows.map (·.id) := by
  simp [view, AssignmentRow.view]

/-- **The table is accounted for.** In every reachable state no two rows have one id, every row
belongs to a deployment that is there, and one that counts as stopped was said to be by its node. -/
theorem rows_accounted (h : run (step k) Control.init es = some s) :
    (s.allRows.map (·.id)).Nodup ∧ ∀ d, ∀ r ∈ (s.slots d).rows, r.deploymentId = d ∧
      (s.slots d).dep.isSome = true ∧ (r.live = false → ⟨r.nodeId, r.id, .stopped⟩ ∈ s.heard) := by
  have hs := (routing_invariant h).1
  have hmem : ∀ {d r}, r ∈ (s.slots d).rows → r.view ∈ (s.view d).rows := List.mem_map_of_mem
  constructor
  · rw [Control.allRows, List.map_flatMap, List.nodup_flatMap]
    refine ⟨fun d _ ↦ (s.slots d).map_id_rows ▸ (hs.slots d).rows.ids,
      s.distinctKnown.imp fun {d d'} hne id hid hid' ↦ hne ?_⟩
    obtain ⟨r, hr, rfl⟩ := List.mem_map.mp hid
    obtain ⟨r', hr', heq⟩ := List.mem_map.mp hid'
    exact hs.distinct d d' _ (hmem hr) _ (hmem hr') heq.symm
  · intro d r hr
    have hrows := (hs.slots d).rows
    refine ⟨hrows.own _ (hmem hr), ?_, hs.acked d _ (hmem hr)⟩
    simpa [Control.view, Slot.view] using hrows.placed (List.ne_nil_of_mem (hmem hr))

theorem rows_accounted_replica : ∃ s, run (step smallDeps) Control.init oneReplica = some s ∧
    s.allRows ≠ [] ∧ (s.allRows.map (·.id)).Nodup := by
  obtain ⟨s, hs, hrows⟩ := exists_run (step smallDeps) Control.init oneReplica (·.allRows ≠ [])
    (by decide +kernel)
  exact ⟨s, hs, hrows, (rows_accounted hs).1⟩

/-- **No assignment is forgotten.** However a run goes on, a row stays until its node has said that
the assignment is stopped. -/
theorem rows_kept_until_stopped (h : run (step k) Control.init es = some s) {es' : List Event}
    (h' : run (step k) s es' = some s') : ∀ q ∈ (s.slots d).rows,
      (∃ r ∈ (s'.slots d).rows, r.id = q.id ∧ r.nodeId = q.nodeId) ∨
        ⟨q.nodeId, q.id, .stopped⟩ ∈ s'.heard := by
  intro q hq
  have hkept := (run_keeps h' (routing_invariant h).1
    (I := fun t ↦ (∃ r ∈ (t.view d).rows, r.id = q.id ∧ r.nodeId = q.nodeId) ∨
      ⟨q.nodeId, q.id, .stopped⟩ ∈ t.heard) (.inl ⟨q.view, List.mem_map_of_mem hq, rfl, rfl⟩) ?_).2
  · refine hkept.imp_left fun ⟨r, hr, hsame⟩ ↦ ?_
    obtain ⟨row, hrow, rfl⟩ := List.mem_map.mp hr
    exact ⟨row, hrow, hsame⟩
  · rintro T s₁ s₂ hs₁ (⟨r, hr, hid, hnode⟩ | hmem) hm
    · rw [← hid, ← hnode]
      exact (hm.rows_stay hs₁ d r hr).imp_right fun hmem ↦ hm.heard hmem
    · exact .inr (hm.heard hmem)

/-- The node of a replica is lost. -/
theorem rows_kept_until_stopped_lost : ∃ s s' q,
    run (step smallDeps) Control.init oneReplica = some s ∧
    run (step smallDeps) s [.disconnect "n"] = some s' ∧ q ∈ (s.slots "d").rows ∧
    ((∃ r ∈ (s'.slots "d").rows, r.id = q.id ∧ r.nodeId = q.nodeId) ∨
      ⟨q.nodeId, q.id, .stopped⟩ ∈ s'.heard) := by
  obtain ⟨s, hs, ⟨q, hq, -⟩, s', hs', -⟩ := exists_run (step smallDeps) Control.init oneReplica
    (fun s ↦ (∃ q ∈ (s.slots "d").rows, True) ∧
      ∃ s' ∈ run (step smallDeps) s [.disconnect "n"], True) (by decide +kernel)
  exact ⟨s, s', q, hs, hs', hq, rows_kept_until_stopped hs hs' q hq⟩

/-! ## Deployments at rest -/

def View.AtRest (old : List AssignmentId) (v : View) : Prop :=
  v.running = false ∧ ∀ r ∈ v.rows, r.id ∈ old

theorem Move.atRest (hm : Move k T c d v w) (hnames : ¬T.names d) (h : v.AtRest old) :
    w.AtRest old := by
  refine ⟨?_, fun r hr ↦ ?_⟩
  · have := h.1
    cases hm <;> grind [View.settle, View.setRowState, View.hear, View.expire, View.block,
      View.setState, View.setReady, View.halt]
  · obtain ⟨q, hq, hrq⟩ := hm.rows_sub r hr
    rw [hrq]
    exact h.2 q hq

theorem Micro.atRest (hm : Micro k T s s') (hnames : ¬T.names d) (h : (s.view d).AtRest old) :
    (s'.view d).AtRest old := by
  refine hm.slotwise (P := fun d' v ↦ d' = d → v.AtRest old) (fun d' hd ↦ hd ▸ h) ?_ ?_ ?_ ?_ d rfl
  · rintro d' w hmove rfl
    exact hmove.atRest hnames h
  · rintro d' w hdispatch rfl
    -- A dispatch needs the intent to run.
    have := h.1
    cases hdispatch <;> simp_all
  · exact fun _ _ _ _ ↦ ⟨rfl, by simp [View.created]⟩
  · rintro - d' w hr rfl
    -- A restart keeps the rows and gives nothing that intent.
    refine ⟨?_, hr.rows ▸ h.2⟩
    by_contra hrunning
    exact absurd h.1 (by simp [hr.running (by simpa using hrunning)])

/-- **Nothing starts by itself.** In every run, an event that does not ask for a deployment leaves
one that is not to run at rest: it is still not to run, not ready, and gets no new assignment. -/
theorem idle_kept (h : run (step k) Control.init es = some s) {e : Event}
    (hstep : step k s e = some s') (hidle : (s.slots d).intent.running = false)
    (hauto : ¬e.Names s d) : (s'.slots d).intent.running = false ∧
      (s'.slots d).state ≠ some .ready ∧
      ∀ row ∈ (s'.slots d).rows, row.id ∈ (s.slots d).rows.map (·.id) := by
  have hs := (routing_invariant h).1
  have hmicros := step_micros hs hstep
  have hrest : (s'.view d).AtRest ((s.slots d).rows.map (·.id)) :=
    hmicros.invariant hs (I := fun t ↦ (t.view d).AtRest _)
      ⟨hidle, fun r hr ↦ (s.slots d).map_id_rows ▸ List.mem_map_of_mem hr⟩
      fun _ _ _ h₁ hm ↦ hm.atRest hauto h₁
  refine ⟨hrest.1, fun hready ↦ ?_, fun row hrow ↦ hrest.2 _ (List.mem_map_of_mem hrow)⟩
  obtain ⟨dep, hdep, hstate⟩ := Option.map_eq_some_iff.mp hready
  have := (((hmicros.good hs).slots d).intent.serving _ (Slot.face_of_dep hdep) hstate).1
  rw [hrest.1] at this
  cases this

/-- A ready report that comes after a stop. -/
theorem idle_kept_late : ∃ s s',
    run (step smallDeps) Control.init (oneReplica ++ [.stop "d"]) = some s ∧
    step smallDeps s (.report "n" "a" .ready none) = some s' ∧
    (s'.slots "d").state ≠ some .ready := by
  obtain ⟨s, hs, hidle, s', hs', -⟩ := exists_run (step smallDeps) Control.init
    (oneReplica ++ [.stop "d"]) (fun s ↦ (s.slots "d").intent.running = false ∧
      ∃ s' ∈ step smallDeps s (.report "n" "a" .ready none), True) (by decide +kernel)
  exact ⟨s, s', hs, hs', (idle_kept hs hs' hidle id).2.1⟩

/-! ## Restarts -/

/-- **A restart loses nothing that is stored, and serves nothing.** Every deployment keeps its spec,
its plan and its assignments; it is not ready, nothing of the old process goes on for it, and it is
not to run unless it was. -/
theorem restart_keeps (h : run (step k) Control.init es = some s)
    (hstep : step k s .restart = some s') :
    ((s'.slots d).dep.map fun r ↦ (r.spec, r.plan)) =
        ((s.slots d).dep.map fun r ↦ (r.spec, r.plan)) ∧
      (s'.slots d).state ≠ some .ready ∧ (s'.view d).rows = (s.view d).rows ∧
      (s'.slots d).ops = [] ∧ (s'.slots d).jobs = [] ∧
      ((s'.slots d).intent.running = true → (s.slots d).intent.running = true) := by
  obtain rfl : s.restart k = s' := by simpa [step, Event.microtask, Event.effect] using hstep
  obtain ⟨s₁, slots, hrestart, hslots, -⟩ := Control.restart_eq (k := k) (routing_invariant h).1
  have hd := hslots d
  rw [hrestart]
  refine and_assoc.mp ⟨?_, hd.rows, List.map_eq_nil_iff.mp hd.ops, hd.jobs, hd.running⟩
  cases hdep : (s.slots d).dep with
  | none =>
    have hgone : (slots d).dep = none := by
      simpa [Slot.view] using hd.gone (by simp [Control.view, Slot.view, hdep])
    simp [hgone, Slot.state]
  | some dep =>
    obtain ⟨g, hg, hspec, hplan, hne, -⟩ := hd.face _ (Slot.face_of_dep hdep)
    obtain ⟨dep', hdep', rfl⟩ := Option.map_eq_some_iff.mp hg
    exact ⟨by simpa [hdep'] using ⟨hspec, hplan⟩,
      by simpa [Slot.state, hdep', Deployment.face] using hne⟩

theorem restart_keeps_replica : ∃ s s',
    run (step smallDeps) Control.init oneReplica = some s ∧ step smallDeps s .restart = some s' ∧
    (s.slots "d").state = some .ready ∧ (s'.slots "d").state ≠ some .ready := by
  obtain ⟨s, hs, hready, s', hs', -⟩ := exists_run (step smallDeps) Control.init oneReplica
    (fun s ↦ (s.slots "d").state = some .ready ∧ ∃ s' ∈ step smallDeps s .restart, True)
    (by decide +kernel)
  exact ⟨s, s', hs, hs', hready, (restart_keeps hs hs').2.1⟩

end Swarmlet
