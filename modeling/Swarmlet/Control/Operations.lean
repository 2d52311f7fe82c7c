import Swarmlet.Control.Manager

/-!
# Operations under way

The steps of the promise queue. `opStep` runs the head of a deployment's queue from the await it
stands at to the next one: through the rows of a teardown, into the starter of its kind, through the
two waits of a split, and into the cleanup of a start that failed. `runJob` runs the continuation of
an operation that has settled, and `fleetStep` what a fleet apply does next.
-/

namespace Swarmlet

open Js

namespace Slot

def setHead (x : Slot) (f : Op → Op) : Slot :=
  { x with ops := match x.ops with
      | [] => []
      | op :: rest => f op :: rest }

/-! ## Teardown -/

def teardownRows (x : Slot) : List AssignmentRow :=
  let rows := x.listAssignments.filter (·.live)
  rows.filter (·.body.isCoordinator) ++ rows.filter (!·.body.isCoordinator)

/-- How a teardown waits for one row: not at all on a node that is gone, when that is allowed. -/
def tearWait (x : Slot) (k : Deps) (now : ℕ) (abandon : Bool) (online : NodeId → Bool)
    (r : AssignmentRow) : Option Wait :=
  if abandon && !online r.nodeId then none
  else if (x.rows.find? (·.id = r.id)).any (!·.live) then none
  else some ⟨r.id, now + k.stopTimeoutMs⟩

def cleanupPending (x : Slot) (abandon : Bool) (online : NodeId → Bool) : List AssignmentRow :=
  x.listAssignments.filter fun r ↦ r.live && !(abandon && !online r.nodeId)

/-! ## Failing operations -/

def catchStart (x : Slot) (k : Deps) (now generation : ℕ) (error : String) : Slot :=
  if x.generation = generation then
    let x := x.recordFailure k now error
    x.setHead fun op ↦ { op with phase := .cleaning error none x.teardownRows }
  else x.settle (.error error)

def throwOp (x : Slot) (k : Deps) (now : ℕ) (work : Work) (error : String) : Slot :=
  match work with
  | .start _ generation => x.catchStart k now generation error
  | _ => x.settle (.error error)

end Slot

/-- Starting tolerates cleanup it cannot prove on a node that is gone; stopping does not. -/
def Work.abandons (work : Work) : Bool := work.isStart

def cancelledText : String := "deployment operation cancelled"

/-! ## Dispatch -/

def sentRow (now : ℕ) (plan : Option Plan) (nodeId : NodeId) (a : Assignment) : AssignmentRow where
  id := a.id
  deploymentId := a.deploymentId
  nodeId
  body := a
  state := .sent
  updatedAt := now
  origin := plan

namespace Control

def sends (s : Control) (lost : List AssignmentId) (nodeId : NodeId) (id : AssignmentId) : Bool :=
  (s.conns nodeId).isSome && id ∉ lost

/-- `assign`, one after another until a send fails. A row is stored before it is sent. -/
def assignAll (s : Control) (lost : List AssignmentId) (plan : Option Plan) :
    List (NodeId × Assignment) → List AssignmentRow × Option NodeId
  | [] => ([], none)
  | (nodeId, a) :: rest =>
    let row := sentRow s.now plan nodeId a
    if s.sends lost nodeId a.id then
      let others := s.assignAll lost plan rest
      (row :: others.1, others.2)
    else ([row], some nodeId)

def node (s : Control) (id : NodeId) : Except String NodeRow :=
  match s.nodes.get id with
  | none => .error s!"unknown node {id}"
  | some n =>
    if n.online && s.isOnline id then .ok n
    else .error s!"node {n.hostname} ({id}) is offline or awaiting hello"

/-- A starter at its first await: the slot with the plan stored and the rows put, and where the
operation stands, or what it threw. -/
structure Launched where
  slot : Slot
  rows : List AssignmentRow := []
  result : Except String Phase

def dispatch (s : Control) (x : Slot) (lost : List AssignmentId) (plan : Option Plan)
    (assignments : List (NodeId × Assignment)) (target : Target) (timeoutMs : ℕ) : Launched :=
  let sent := s.assignAll lost plan assignments
  { slot := { x with rows := x.rows ++ sent.1 }
    rows := sent.1
    result := match sent.2 with
      | some nodeId => .error s!"node {nodeId} is offline"
      | none => .ok (.awaiting target (assignments.map (·.2.id)) none (s.now + timeoutMs)) }

def blockedText (b : Block) (now : ℕ) : String :=
  let minutes := max 1 ((b.until - now + 30000) / 60000)
  s!"refusing a placement this deployment crashed on {minutes} min ago: {b.why}"

section

variable (k : Deps)

def planFor (s : Control) (d : DeploymentId) (spec : DeploymentSpec) : Except String Plan :=
  do
    let plan ← s.plan k spec (some d) []
    match (s.slots d).blockedUntil s.now plan with
    | some b => .error (blockedText b s.now)
    | none => .ok plan

def planForTouch (s : Control) (d : DeploymentId) (spec : DeploymentSpec) : Slot :=
  let x := (s.planTouch k d spec).slots d
  match s.plan k spec (some d) [] with
  | .ok plan => x.expireBlock s.now plan
  | .error _ => x

/-! ## Starters

Each takes the fresh ids of its assignments; `none` when their number does not match. -/

def startExternal (s : Control) (d : DeploymentId) (dep : Deployment)
    (ids lost : List AssignmentId) : Option Launched :=
  let x := s.slots d
  match dep.spec.external with
  | none => some { slot := x, result := .error "external missing" }
  | some ext =>
    match s.node ext.nodeId, k.rt.url ext.url, ids with
    | .error e, _, _ => some { slot := x, result := .error e }
    | .ok _, none, _ => some { slot := x, result := .error "cannot be parsed as a URL." }
    | .ok node, some url, [id] =>
      let x := x.update s.now fun dep ↦ { dep with state := .loading, plan := none }
      some (s.dispatch x lost none [(node.id, .replica (externalAssignment id d ext url))]
        (.route ⟨node.id, url.portNumber, ext.modelName⟩) WORKER_TIMEOUT_MS)
    | _, _, _ => none

def startReplica (s : Control) (d : DeploymentId) (dep : Deployment)
    (ids lost : List AssignmentId) : Option Launched :=
  let x := s.planForTouch k d dep.spec
  match s.planFor k d dep.spec with
  | .error e => some { slot := x, result := .error e }
  | .ok plan =>
    let x := x.update s.now fun dep ↦ { dep with plan := some plan, state := .loading }
    match s.node plan.coordinatorNodeId, k.profiles.find? (·.id = dep.spec.profile), ids with
    | .error e, _, _ => some { slot := x, result := .error e }
    | .ok node, some profile, [id] =>
      let port := freePort (s.usedPorts node.id) k.serverPortBase
      let external := stopExternalOn dep.spec s.listDeployments node.id
      some (s.dispatch x lost (some plan)
        [(node.id, .replica (replicaAssignment id dep profile plan node port external))]
        (.route ⟨node.id, port, profile.modelName⟩) COORDINATOR_TIMEOUT_MS)
    | _, _, _ => none

/-- Native contexts are planned without a look at the crash memory. -/
def startNative (s : Control) (d : DeploymentId) (dep : Deployment)
    (ids lost : List AssignmentId) : Option Launched :=
  let x := (s.planTouch k d dep.spec).slots d
  match s.plan k dep.spec (some d) [] with
  | .error e => some { slot := x, result := .error e }
  | .ok plan =>
    match plan.nativeExecution, k.profiles.find? (·.id = dep.spec.profile) with
    | some native, some profile =>
      match native.endpoints with
      | [] => none
      | first :: _ =>
        if ids.length ≠ native.endpoints.length then none
        else
          let x := x.update s.now fun dep ↦ { dep with plan := some plan, state := .loading }
          some (s.dispatch x lost (some plan)
            (List.zipWith (fun id e ↦ (e.nodeId, .stage (stageAssignment id d plan e))) ids
              native.endpoints)
            (.route ⟨first.nodeId, first.port, profile.modelName⟩) COORDINATOR_TIMEOUT_MS)
    | _, _ => some { slot := x, result := .error "native execution plan missing" }

def workerAssignments (d : DeploymentId) (profile : ModelProfile) (plan : Plan)
    (coord : NodeRow) (workers : List (PlanWorker × NodeRow)) (ids : List AssignmentId) :
    List (NodeId × Assignment) :=
  List.zipWith
    (fun id p ↦ (p.1.2.id, .worker (workerAssignment k.reverseDial id d profile plan coord workers
    p.2 p.1.1 p.1.2))) ids workers.zipIdx

def ringNodes (s : Control) (plan : Plan) : Except String (NodeRow × List (PlanWorker × NodeRow)) :=
  do
    let coord ← s.node plan.coordinatorNodeId
    let workers ← plan.workers.mapM fun (w : PlanWorker) ↦ (s.node w.nodeId).map fun n ↦ (w, n)
    .ok (coord, workers)

def startSplit (s : Control) (d : DeploymentId) (dep : Deployment)
    (ids lost : List AssignmentId) : Option Launched :=
  let x := s.planForTouch k d dep.spec
  match s.planFor k d dep.spec with
  | .error e => some { slot := x, result := .error e }
  | .ok plan =>
    let x := x.update s.now fun dep ↦ { dep with plan := some plan }
    match s.ringNodes plan, k.profiles.find? (·.id = dep.spec.profile) with
    | .error e, _ => some { slot := x, result := .error e }
    | .ok (coord, workers), some profile =>
      if ids.length ≠ workers.length then none
      else
        some (s.dispatch x lost (some plan)
          (workerAssignments k d profile plan coord workers ids)
          (.workers plan coord workers) WORKER_TIMEOUT_MS)
    | _, none => none

def launch (s : Control) (d : DeploymentId) (dep : Deployment)
    (ids lost : List AssignmentId) : Option Launched :=
  match dep.spec.kind with
  | .external => s.startExternal k d dep ids lost
  | .replica => s.startReplica k d dep ids lost
  | .stages | .prefillDecode => s.startNative k d dep ids lost
  | .split => s.startSplit k d dep ids lost

def startCoordinator (s : Control) (d : DeploymentId) (dep : Deployment) (plan : Plan)
    (coord : NodeRow) (workers : List (PlanWorker × NodeRow)) (ids lost : List AssignmentId) :
    Option Launched :=
  match k.profiles.find? (·.id = dep.spec.profile), ids with
  | some profile, [id] =>
    let x := (s.slots d).update s.now fun dep ↦ { dep with state := .loading }
    let port := freePort (s.usedPorts coord.id) k.serverPortBase
    let external := stopExternalOn dep.spec s.listDeployments coord.id
    let a := Assignment.coordinator
      (coordinatorAssignment k.reverseDial id dep profile plan coord workers port external)
    let launched := s.dispatch x lost (some plan) [(coord.id, a)]
      (.route ⟨coord.id, port, profile.modelName⟩) COORDINATOR_TIMEOUT_MS
    some { launched with
      result := launched.result.mapError fun _ ↦ s!"coordinator {coord.id} is offline" }
  | _, _ => none

/-! ## Steps of the queue -/

def adopt (s : Control) (d : DeploymentId) (work : Work) (excluded : List NodeId)
    (launched : Launched) : Control :=
  s.on d fun _ ↦
    let x := launched.slot.setHead fun op ↦
      { op with sent := op.sent ++ launched.rows.map (·.id), excluded := op.excluded ++ excluded }
    match launched.result with
    | .ok phase => x.setHead fun op ↦ { op with phase }
    | .error e => x.throwOp k s.now work e

def tornDown (s : Control) (d : DeploymentId) (work : Work)
    (ids lost : List AssignmentId) : Option Control :=
  match work with
  | .stop =>
    some (s.on d fun x ↦ (x.update s.now fun dep ↦ { dep with state := .stopped }).settle (.ok ()))
  | .teardown => some (s.on d (·.settle (.ok ())))
  | .start dep generation =>
    if (s.slots d).assertRunning generation then
      (s.launch k d dep ids lost).map (s.adopt k d work ((s.slots d).freshExclusions s.now))
    else some (s.on d (·.throwOp k s.now work cancelledText))

def reached (s : Control) (d : DeploymentId) (work : Work) (target : Target)
    (ids lost : List AssignmentId) : Option Control :=
  match work with
  | .start dep generation =>
    if (s.slots d).assertRunning generation = false then
      some (s.on d (·.throwOp k s.now work cancelledText))
    else match target with
    | .workers plan coord workers =>
      (s.startCoordinator k d dep plan coord workers ids lost).map (s.adopt k d work [])
    | .route endpoint =>
      some (s.on d fun x ↦ (x.update s.now fun dep ↦
        { dep with state := .ready, endpoint := some endpoint }).settle (.ok ()))
  | _ => none

def tearRow (s : Control) (x : Slot) (abandon : Bool) (r : AssignmentRow)
    (phase : Option Wait → Phase) : Slot :=
  (x.retireAssignment r.id).setHead fun op ↦
    { op with phase := phase (x.tearWait k s.now abandon s.isOnline r) }

/-- The head of a queue runs from one await to the next. -/
def opStep (s : Control) (d : DeploymentId) (ids lost : List AssignmentId) : Option Control :=
  let x := s.slots d
  if x.jobs.any Job.isSettled then none
  else match x.ops with
  | [] => none
  | op :: _ =>
    let goto (phase : Phase) : Control := s.on d (·.setHead fun op ↦ { op with phase })
    match op.phase with
    | .queued => some (goto (.tearing none x.teardownRows))
    | .tearing (some w) rest =>
      if w.deadline ≤ s.now then some (goto (.tearing none rest)) else none
    | .tearing none (r :: rest) =>
      some (s.on d fun x ↦ s.tearRow k x op.work.abandons r (.tearing · rest))
    | .tearing none [] =>
      match x.cleanupPending op.work.abandons s.isOnline with
      | [] => s.tornDown k d op.work ids lost
      | pending =>
        let names := ", ".intercalate (pending.map (·.id))
        some (s.on d (·.throwOp k s.now op.work s!"cleanup pending acknowledgement: {names}"))
    | .awaiting target pending rejected deadline =>
      match rejected, pending with
      | some e, _ => some (s.on d (·.throwOp k s.now op.work e))
      | none, [] => s.reached k d op.work target ids lost
      | none, id :: _ =>
        if deadline ≤ s.now then
          let wanted := match target with | .workers _ _ _ => "listening" | .route _ => "ready"
          some (s.on d (·.throwOp k s.now op.work s!"timeout waiting for {id} to be {wanted}"))
        else none
    | .cleaning error (some w) rest =>
      if w.deadline ≤ s.now then some (goto (.cleaning error none rest)) else none
    | .cleaning error none (r :: rest) =>
      some (s.on d fun x ↦ s.tearRow k x op.work.abandons r (.cleaning error · rest))
    | .cleaning error none [] => some (s.on d (·.settle (.error error)))

end

end Control

end Swarmlet
