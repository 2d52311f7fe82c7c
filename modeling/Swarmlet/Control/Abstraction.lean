import Swarmlet.Control.Life

/-!
# The manager's records as views

`Slot.view` forgets what the abstract machine does not look at, and every function of the manager on
a slot is a move of its view, or leaves the view alone.
-/

namespace Swarmlet

open Js

/-- Deadlines, rows still to tear down and errors are forgotten; so is a teardown at rest. -/
def Phase.stand : Phase → Stand
  | .queued | .tearing _ _ => .idle
  | .awaiting target pending _ _ => .awaiting target pending
  | .cleaning _ _ _ => .cleaning

def Op.view (op : Op) : OpView := ⟨op.work, op.cont, op.phase.stand, op.sent, op.excluded⟩

def AssignmentRow.view (r : AssignmentRow) : RowView :=
  ⟨r.id, r.deploymentId, r.nodeId, r.state, r.healthWatch, r.body.ports, r.origin⟩

def Deployment.face (dep : Deployment) : Face := ⟨dep.spec, dep.state, dep.plan, dep.endpoint⟩

/-- **What the abstract machine sees of a slot.** -/
def Slot.view (x : Slot) : View where
  face := x.dep.map Deployment.face
  running := x.intent.running
  rows := x.rows.map AssignmentRow.view
  ops := x.ops.map Op.view
  jobs := x.jobs
  generation := x.generation
  reconnecting := x.reconnecting.isSome
  blocked := x.blocked
  crashes := x.crashes
  inflight := x.inflight

namespace Slot

/-! ## Rows and queues -/

variable {patch : Deployment → Deployment} {x : Slot}

/-- A patch of the stored row is seen as far as it changes the face. -/
theorem view_update {g : Face → Face} (h : ∀ dep, (patch dep).face = g dep.face) (x : Slot)
    (now : ℕ) :
    (x.update now patch).view = { x.view with face := x.view.face.map g } := by
  simp only [update, view, Option.map_map]
  congr 2
  exact funext h

theorem view_update_state {state : DeploymentState}
    (h : ∀ dep, (patch dep).face = { dep.face with state, endpoint := none }) (x : Slot) (now : ℕ) :
    (x.update now patch).view = x.view.setState state :=
  x.view_update h now

theorem view_update_same (h : ∀ dep, (patch dep).face = dep.face) (x : Slot) (now : ℕ) :
    (x.update now patch).view = x.view := by
  rw [x.view_update (g := id) h now, Option.map_id]
  rfl

section

variable (x : Slot) (now : ℕ) (id : AssignmentId) (state : AssignmentState)

theorem view_notifyOp (detail : String) (op : Op) :
    (op.notify id state detail).view = op.view.hear id state := by
  obtain ⟨work, cont, phase, sent, excluded⟩ := op
  cases phase with
  | queued => rfl
  | tearing wait | cleaning error wait =>
    cases wait with
    | none => rfl
    | some =>
      simp only [Op.notify]
      split_ifs <;> rfl
  | awaiting target pending =>
    by_cases hid : id ∈ pending
    · simp only [Op.notify, Op.view, OpView.hear, Phase.stand, hid, not_true_eq_false, if_false]
      split_ifs <;> rfl
    · simp only [Op.notify, Op.view, OpView.hear, Phase.stand, hid, not_false_eq_true, if_true,
        List.erase_of_not_mem hid, ite_self]

/-- What a node says of an assignment is heard by every operation that waits for it. -/
theorem view_notify (detail : String) : (x.notify id state detail).view = x.view.hear id state := by
  simp only [notify, view, View.hear, List.map_map]
  congr 2
  exact funext fun op ↦ view_notifyOp id state detail op

/-- Only the state that an operation waits for moves it. -/
theorem view_notify_same {state : AssignmentState} (detail : String)
    (hstate : ∀ target : Target, state ≠ target.state) :
    (x.notify id state detail).view = x.view := by
  rw [view_notify, View.hear]
  have hsame : ∀ o : OpView, o.hear id state = o := by
    intro o
    unfold OpView.hear
    split
    · rw [if_neg (hstate _)]
    · rfl
  rw [funext hsame, List.map_id']

/-- A row that changes in its state, whatever else is written to it. -/
theorem view_setRow {f : AssignmentRow → AssignmentRow}
    {state : RowState} (h : ∀ r, (f r).view = { r.view with state }) :
    (x.setRow id f).view = x.view.setRowState id state := by
  simp only [setRow, view, View.setRowState, List.map_map]
  congr 2
  funext r
  simp only [Function.comp_apply]
  split_ifs with hid hid' hid'
  · exact h r
  · exact absurd hid hid'
  · exact absurd hid' hid
  · rfl

theorem view_setAssignmentState (detail : Option String) :
    (x.setAssignmentState now id state detail).view =
      x.view.setRowState id (.reported state) :=
  x.view_setRow id fun _ ↦ rfl

theorem view_reissue : (x.reissue now id).view = x.view.setRowState id .sent :=
  x.view_setRow id fun _ ↦ rfl

@[simp] theorem view_retireAssignment : (x.retireAssignment id).view = x.view := by
  simp only [retireAssignment, setRow, view, List.map_map]
  congr 2
  funext r
  simp only [Function.comp_apply]
  split_ifs <;> rfl

theorem view_enqueue (work : Work) (cont : Cont) :
    (x.enqueue work cont).view = { x.view with ops := x.view.ops ++ [{ work, cont }] } := by
  simp [enqueue, view, Op.view, Phase.stand]

end

/-- The head of the queue goes, and its continuation becomes due. -/
theorem view_settle {op : Op} {rest : List Op} (hops : x.ops = op :: rest)
    (result : Except String Unit) : (x.settle result).view =
      x.view.settle op.view (rest.map Op.view) result := by
  rw [settle, hops]
  rfl

private theorem view_foldl_notify (l : List AssignmentRow) (x : Slot) :
    (l.foldl (fun x r ↦ x.notify r.id .failed "deployment operation cancelled") x).view =
    x.view := by
  induction l generalizing x with
  | nil => rfl
  | cons r l ih =>
    rw [List.foldl_cons, ih, view_notify_same _ _ _ (by rintro (_ | _) <;> simp [Target.state])]

/-- Cancelling only raises the generation: the waiters fail, which no operation awaits. -/
@[simp] theorem view_cancel (x : Slot) :
    x.cancel.view = { x.view with generation := x.view.generation + 1 } :=
  view_foldl_notify _ _

theorem view_setHead {op : Op} {rest : List Op} (hops : x.ops = op :: rest) (f : Op → Op) :
    (x.setHead f).view = { x.view with ops := (f op).view :: rest.map Op.view } := by
  simp [setHead, hops, view]

/-! ## Failures and crashes -/

@[simp] theorem view_scheduleRecovery (x : Slot) (k : Deps) (now : ℕ) :
    (x.scheduleRecovery k now).view = x.view := by
  unfold scheduleRecovery
  split_ifs <;> rfl

@[simp] theorem view_recordFailure (x : Slot) (k : Deps) (now : ℕ) (why : String) :
    (x.recordFailure k now why).view = { x.view.setState .failed with reconnecting := false } := by
  rw [recordFailure, view_scheduleRecovery, view_update_state fun _ ↦ rfl]
  rfl

theorem view_blockPlacement (x : Slot) (k : Deps) (now : ℕ) (plan : Plan) (why : String) :
    (x.blockPlacement k now plan why).view = x.view.block k now (planFingerprint plan) why := rfl

theorem face_of_dep {dep : Deployment} (h : x.dep = some dep) :
    x.view.face = some dep.face := by
  simp [view, h]

section

variable {k : Deps} {T : Terms} {c : Ambient} {d : DeploymentId}

theorem view_failed (x : Slot) (k : Deps) (now : ℕ) (why : String) :
    ((x.cancel.recordFailure k now why).enqueue .teardown .none).view =
      { x.view.setState .failed with
        reconnecting := false, generation := x.view.generation + 1
        ops := x.view.ops ++ [{ work := .teardown, cont := .none }] } := by
  rw [view_enqueue, view_recordFailure, view_cancel]
  rfl

variable {x : Slot} {dep : Deployment}

theorem fail_of_state (hdep : x.dep = some dep)
    (hstate : dep.state ∉ [.failed, .stopped, .draining]) (k : Deps) (now : ℕ) (why : String) :
    x.fail k now why = (x.cancel.recordFailure k now why).enqueue .teardown .none := by
  unfold fail state
  rw [hdep]
  revert hstate
  cases hs : dep.state <;> simp [hs]

/-- A deployment that has failed, is stopped or drains does not fail again. -/
theorem fail_eq (x : Slot) (k : Deps) (now : ℕ) (why : String) : x.fail k now why = x ∨
    ∃ dep, x.dep = some dep ∧ dep.state ∉ [.failed, .stopped, .draining] := by
  cases hdep : x.dep with
  | none =>
    simp [fail, state, hdep]
  | some dep =>
    by_cases hstate : dep.state ∈ [.failed, .stopped, .draining]
    · left
      simp only [List.mem_cons, List.not_mem_nil, or_false] at hstate
      rcases hstate with hs | hs | hs <;> simp [fail, state, hdep, hs]
    · exact .inr ⟨dep, rfl, hstate⟩

/-- **A failure** is a move, whatever has failed. -/
theorem fail_move (x : Slot) (why : String) : Move k T c d x.view (x.fail k c.now why).view := by
  rcases x.fail_eq k c.now why with h | ⟨dep, hdep, hstate⟩
  · rw [h]
    exact .book
  · rw [fail_of_state hdep hstate, view_failed]
    exact .failed (face_of_dep hdep) hstate

theorem finishDraining_move (x : Slot) :
    Move k T c d x.view (x.finishDraining c.now).view := by
  unfold finishDraining
  split_ifs with h
  · obtain ⟨-, hrunning, hrows⟩ := h
    rw [view_update_state fun _ ↦ rfl]
    refine .drained hrunning fun r hr ↦ ?_
    obtain ⟨row, hrow, rfl⟩ := List.mem_map.mp hr
    have := List.all_eq_true.mp hrows row hrow
    simpa [AssignmentRow.view, RowView.live] using this
  · exact .book

theorem observeReconnect_view (x : Slot) (k : Deps) (now : ℕ) (present : NodeId → Bool) :
    (x.observeReconnect k now present).view = x.view := by
  unfold observeReconnect
  split
  · rfl
  · rename_i r hr
    split_ifs
    · rfl
    · simp [view, hr]

private theorem view_reconnecting (x : Slot) (r : Reconnect) :
    ({ x with reconnecting := some r } : Slot).view = { x.view with reconnecting := true } := rfl

/-- **A lost node** withdraws a watched server, or begins the grace of a placement. -/
theorem offline_move (hrows : x.view.RowsGood d) (graceFrom : ℕ) (nodeId : NodeId) :
    Move k T c d x.view (x.offline k c.now graceFrom nodeId).view := by
  unfold offline
  cases hdep : x.dep with
  | none => exact .book
  | some =>
    simp only
    split_ifs with hskip hnone hwatch
    · exact .book
    · exact .book
    · -- Rows that watch belong to an external deployment.
      obtain ⟨hsome, hall⟩ := hwatch
      obtain ⟨r, hr⟩ := List.exists_mem_of_ne_nil _ hsome
      have hkind := (hrows.watch _ (face_of_dep hdep) r.view
        (List.mem_map_of_mem (List.mem_of_mem_filter hr))).mp (List.all_eq_true.mp hall r hr)
      rw [view_update_state fun _ ↦ rfl]
      exact .watchLost (face_of_dep hdep) hkind (by simpa [view] using (not_or.mp hskip).1)
    · rw [view_enqueue, view_update_state fun _ ↦ rfl, view_reconnecting, view_cancel]
      exact .offline (face_of_dep hdep) (by simpa [view] using (not_or.mp hskip).1)

/-- **A health watch** takes its server out of routing, or puts it back. -/
theorem watchReport_move {r : Deployment} (hdep : x.dep = some r) (hkind : r.spec.kind = .external)
    (hrunning : x.intent.running = true) (hreconnecting : x.reconnecting = none) (nodeId : NodeId)
    (state : AssignmentState) (detail : String) :
    Move k T c d x.view (x.watchReport k c.now nodeId dep state detail).view := by
  unfold watchReport
  split_ifs
  · rw [view_update_state fun _ ↦ rfl]
    exact .watchLost (face_of_dep hdep) hkind hrunning
  · split
    · exact .book
    · rename_i ext hext
      rw [view_update (g := fun f ↦ { f with state := .ready, endpoint := some _ }) fun _ ↦ rfl]
      exact .watchReady _ (face_of_dep hdep) hkind hrunning (by simp [view, hreconnecting])
  · exact .book

theorem view_acceptStop (x : Slot) (now : ℕ) (cont : Cont) :
    (x.acceptStop now cont).view = { x.view.setState .draining with
      running := false, reconnecting := false, generation := x.view.generation + 1
      blocked := fun _ ↦ none, crashes := fun _ ↦ 0
      ops := x.view.ops ++ [{ work := .stop, cont }] } := by
  rw [acceptStop, view_enqueue, view_update_state fun _ ↦ rfl, view_cancel]
  rfl

theorem view_acceptStart (x : Slot) (now : ℕ) (dep : Deployment) (recovering : Bool) (cont : Cont) :
    (x.acceptStart now dep recovering cont).view = { x.view.setState .placing with
      running := true, reconnecting := false
      ops := x.view.ops ++ [{ work := .start dep x.view.generation, cont }] } := by
  rw [acceptStart, view_enqueue, view_update_state fun _ ↦ rfl]
  cases recovering <;> rfl

end

end Slot

end Swarmlet
