import Swarmlet.Control.Operations
import Swarmlet.Lib.Machine

/-!
# The control plane as an event machine

`step` is one uninterrupted piece of JavaScript: a message of the channel, an API call, a tick of
the sweeper, a restart of the process, or a piece of an operation between two awaits. Messages,
calls and ticks are macrotasks, so they wait until every promise job has run; `Control.quiet` says
that none is due. Operations under way may proceed at any time, which allows every order in which
promises can settle.
-/

namespace Swarmlet

open Js

namespace Control

/-! ## Continuations -/

def applySpec (now : ℕ) (spec : DeploymentSpec) (x : Slot) : Slot :=
  x.update now fun dep ↦
    { dep with spec, state := .planned, plan := none, endpoint := none, error := none }

section

variable (k : Deps) (s : Control) (d : DeploymentId) (nodeId : NodeId)

def applyFailed (e : String) : Control :=
  s.on d fun x ↦ { x.update s.now fun dep ↦
    { dep with error := some s!"Apply distribution: Error: {e}" } with distributing := false }

/-- `applyDistribution`, after the stop it awaits. -/
def distributionStopped (spec : DeploymentSpec) (generation : ℕ) : Control :=
  if (s.slots d).generation ≠ generation then
    s.applyFailed d "Apply cancelled by another deployment operation; saved distribution retained."
  else
    let planned := s.plan k spec (some d) []
    let s := s.planTouch k d spec
    match planned with
    | .error e => s.applyFailed d e
    | .ok _ =>
      match (s.on d (applySpec s.now spec)).start k d false false false .applied with
      | (s, some e) => s.applyFailed d e
      | (s, none) => s

def deleted (x : Slot) : Slot := { x with dep := none, intent := {}, rows := [] }

def fleetHeard (result : Except String Unit) : Control :=
  { s with fleet := s.fleet.map fun task ↦
      match task.stage, result with
      | .stopping pending failures, .ok _ =>
        { task with stage := .stopping (pending.erase d) failures }
      | .stopping pending failures, .error e =>
        { task with stage := .stopping (pending.erase d) (failures ++ [(d, e)]) }
      | .starting next active due, .ok _ =>
        { task with stage := .starting next (active.erase d) (due + 1), ready := d :: task.ready }
      | .starting next active due, .error _ =>
        { task with stage := .starting next (active.erase d) (due + 1) } }

def continueOp (cont : Cont) (result : Except String Unit) : Control :=
  match cont, result with
  | .none, _ => s
  | .move _, .ok _ => s
  | .move origin, .error _ => s.moveFailed k d origin
  | .distribution spec generation, .ok _ => s.distributionStopped k d spec generation
  | .distribution _ _, .error e => s.applyFailed d e
  | .applied, .ok _ => s.on d fun x ↦ { x with distributing := false }
  | .applied, .error e => s.applyFailed d e
  | .remove, .ok _ => s.on d deleted
  | .remove, .error _ => s
  | .fleetStop, result => s.fleetHeard d result
  | .fleetStart, result => s.fleetHeard d result

def runJob (i : ℕ) : Option Control :=
  match (s.slots d).jobs[i]? with
  | none => none
  | some job =>
    let s := s.on d fun x ↦ { x with jobs := x.jobs.eraseIdx i }
    match job with
    | .settled cont result _ _ => some (s.continueOp k d cont result)
    | .lateFailure why => some (s.on d (·.recordFailure k s.now why))

/-! ## Fleet applies -/

def saveRun (run : FleetRun) : Control :=
  { s with runs := run :: s.runs.filter (·.id ≠ run.id) }

def fleetDone (run : FleetRun) (status : RunStatus) : Control :=
  { s.saveRun { run with status } with fleet := none }

/-- The specs of a fleet apply, once every selected deployment has stopped. -/
def applyFleetSpecs (entries : List FleetEntry) : Control :=
  entries.foldl (fun s e ↦ match e.spec with
    | some spec => s.on e.deploymentId (applySpec s.now spec)
    | none => s) s

/-- `performAllocation`, from one of its awaits to the next. -/
def fleetStep : Option Control :=
  match s.fleet with
  | none => none
  | some task =>
    let run := task.run
    match task.stage with
    | .stopping (_ :: _) _ => none
    | .stopping [] failures =>
      let first := run.entries.findSome? fun e ↦ failures.find? (·.1 = e.deploymentId)
      if first.isSome then some (s.fleetDone run .partially)
      else match validateFleetPlans k.rt k.nativeQualifications (s.fleetInput k) run.entries with
      | .error _ => some (s.fleetDone run .partially)
      | .ok _ =>
        let s := s.applyFleetSpecs run.entries
        some { s with fleet := some { task with
          stage := .starting 0 [] (min 4 run.entries.length) } }
    | .starting _ [] 0 =>
      let complete := run.entries.all fun e ↦ e.deploymentId ∈ task.ready
      some (s.fleetDone run (if complete then .succeeded else .partially))
    | .starting _ (_ :: _) 0 => none
    | .starting next active (due + 1) =>
      match run.entries[next]? with
      | none => some { s with fleet := some { task with stage := .starting next active due } }
      | some entry =>
        let d := entry.deploymentId
        match s.start k d false true false .fleetStart with
        | (s, some _) =>
          some { s with fleet := some { task with stage := .starting (next + 1) active (due + 1) } }
        | (s, none) =>
          some { s with
            fleet := some { task with stage := .starting (next + 1) (d :: active) due } }

def fleetStop (s : Control) (e : FleetEntry) : Control :=
  let d := e.deploymentId
  match s.stop d true .fleetStop with
  | (s, none) => { s with fleet := s.fleet.map fun task ↦ match task.stage with
      | .stopping pending failures => { task with stage := .stopping (pending ++ [d]) failures }
      | _ => task }
  | (s, some error) => { s with fleet := s.fleet.map fun task ↦ match task.stage with
      | .stopping pending failures =>
        { task with stage := .stopping pending (failures ++ [(d, error)]) }
      | _ => task }

/-- `applyAllocation`, up to the stops it awaits. -/
def applyAllocation (id : String) : Control :=
  match s.runs.find? (·.id = id) with
  | none => s
  | some run =>
    if run.status ≠ .preview ∨ s.fleet.isSome ∨ s.updatingNode.isSome ∨
        s.known.any (fun d ↦ s.operating d || (s.slots d).distributing ||
          (s.slots d).reconnecting.isSome) ∨
        run.canApply = false ∨ run.createdAt + 600000 < s.now ∨
        run.revision ≠ k.fleetRevision (s.fleetInput k) ∨
        run.entries.any (fun e ↦ 0 < (s.slots e.deploymentId).inflight) then s
    else match validateFleetPlans k.rt k.nativeQualifications (s.fleetInput k) run.entries with
    | .error _ => s
    | .ok _ =>
      let run := { run with status := .applying }
      let s := s.saveRun run
      -- Every selected route is withdrawn before anything is awaited.
      let s := run.entries.foldl (fun s e ↦ s.on e.deploymentId
        (·.update s.now fun dep ↦ { dep with state := .draining, endpoint := none })) s
      run.entries.foldl fleetStop { s with fleet := some { run, stage := .stopping [] [] } }

def previewAllocation (id : String) (request : FleetRequest) : Control :=
  if s.fleet.isSome ∨ id ∈ s.runs.map (·.id) then s
  else match parseFleetRequest request >>= fun _ ↦
      previewFleet k.rt k.nativeQualifications request (s.fleetInput k) with
  | .error _ => s
  | .ok preview => s.saveRun {
      id
      entries := preview.entries
      canApply := preview.canApply
      revision := k.fleetRevision (s.fleetInput k)
      status := .preview
      createdAt := s.now }

/-! ## Requests -/

/-- `/^[a-zA-Z0-9._-]{1,64}$/`. -/
def nameOk (name : String) : Bool :=
  name ≠ "" && name.toList.length ≤ 64 && name.toList.all fun c ↦
    c.isAlphanum || c = '.' || c = '_' || c = '-'

def storeTopology (spec : DeploymentSpec) : Except String DeploymentSpec := do
  if spec.autoTopology = some true then
    if k.profiles.any (·.id = spec.profile) then
      let choice ← k.chooseTopology spec (s.fleetInput k)
      .ok { choice with profile := spec.profile, autoTopology := none, autoModel := none }
    else .error s!"unknown profile {spec.profile}"
  else .ok spec

def createSpec (spec : DeploymentSpec) : Except String DeploymentSpec := do
  if nameOk spec.name = false then .error "name must be 1-64 chars of [a-zA-Z0-9._-]"
  let spec ← if spec.kind = .external then
      match (externalOptionsProblem spec).orElse fun _ ↦
          if spec.external.any (fun e ↦ e.nodeId ≠ "" && e.url ≠ "" && e.modelName ≠ "") then
            s.uniqueExternalProblem k spec none
          else some "external needs external.nodeId, url, modelName" with
      | some problem => .error problem
      | none => .ok spec
    else if spec.profile = "auto" ∨ spec.autoModel = some true then
      let base := { spec with profile := if spec.profile = "auto" then "" else spec.profile,
                              autoModel := some true }
      match s.chooseAuto k base none [] with
      | some choice => .ok choice
      | none =>
        let first := (s.autoFailures k base).headD "no profile is ranked and placeable"
        .error ("no model can be placed on the nodes online right now. The best candidate " ++
          s!"failed with: {first}")
    else if k.profiles.any (·.id = spec.profile) then .ok spec
    else
      let names := ", ".intercalate (k.profiles.map (·.id))
      .error s!"unknown profile {spec.profile} (have {names})"
  s.storeTopology k spec

def create (spec : DeploymentSpec) : Control :=
  if h : d ∈ s.known then s
  else match s.createSpec k spec with
  | .error _ => s
  | .ok spec =>
    { s with
      known := d :: s.known
      distinctKnown := List.nodup_cons.mpr ⟨h, s.distinctKnown⟩
      slots := Function.update s.slots d { dep := some {
        id := d, spec, state := .planned, createdAt := s.now, updatedAt := s.now } } }

def remove (s : Control) (d : DeploymentId) : Control :=
  match s.getDeployment d with
  | none => s
  | some dep =>
    if dep.state ∈ [.planned, .stopped, .failed] then (s.stop d false .remove).1 else s

def distributionSpec (value : Option LayerDistribution) : Except String DeploymentSpec :=
  match s.getDeployment d with
  | none => .error (mustText d)
  | some dep =>
    if dep.spec.allocations.isSome then
      .error "Use Fleet allocation to change a deployment with shared resource budgets."
    else if dep.spec.kind ≠ .split then .error "Layer distribution requires a split deployment."
    else match value with
    | none => .error "A layer distribution is required."
    | some v =>
      if v.coordinatorNodeId = "" then
        .error "Distribution needs coordinatorNodeId, workerNodeIds and workerLayers only."
      else .ok { dep.spec with
        coordinatorNodeId := some v.coordinatorNodeId
        workerNodeIds := some v.workerNodeIds
        workerLayers := some v.workerLayers }

def saveDistribution (value : LayerDistribution) : Control :=
  if s.fleet.isSome ∨ (s.slots d).distributing then s
  else match s.distributionSpec d (some value) with
  | .error _ => s
  | .ok spec =>
    let planned := s.plan k spec (some d) []
    let s := s.planTouch k d spec
    match planned with
    | .error _ => s
    | .ok _ => s.on d (·.update s.now fun dep ↦ { dep with savedDistribution := some value })

def applyDistribution : Control :=
  let x := s.slots d
  if s.fleet.isSome ∨ x.distributing ∨ s.operating d ∨ 0 < x.inflight then s
  else match s.distributionSpec d (x.dep.bind (·.savedDistribution)) with
  | .error _ => s
  | .ok spec =>
    let planned := s.plan k spec (some d) []
    let s := s.planTouch k d spec
    match planned with
    | .error _ => s
    | .ok _ =>
      ((s.on d fun x ↦ { x with distributing := true }).stop d false
        (.distribution spec ((s.slots d).generation + 1))).1

def servingNodes (dep : Deployment) : List NodeId :=
  match dep.plan with
  | some plan => planNodes plan
  | none => dep.endpoint.toList.map (·.nodeId)

def acquireUpdate (token : String) : Control :=
  if s.isOnline nodeId = false ∨ (s.nodes.get nodeId).isNone ∨ s.updatingNode.isSome ∨
      s.fleet.isSome ∨ s.known.any (fun d ↦ s.operating d || (s.slots d).distributing ||
        (s.slots d).reconnecting.isSome) then s
  else
    let recovering := s.updateRecovery.filter fun d ↦
      (s.slots d).state.any (· ≠ .ready) && (s.slots d).intent.running
    let s := { s with updateRecovery := recovering }
    let affected := s.listDeployments.filter fun dep ↦
      nodeId ∈ servingNodes dep
    if recovering ≠ [] ∨ affected.any (fun dep ↦ 0 < (s.slots dep.id).inflight) then s
    else { s with
      updateRecovery := (affected.filter fun dep ↦
        dep.state = .ready && (s.slots dep.id).intent.running).map (·.id)
      updateLease := some ⟨nodeId, token, s.now + 120000⟩ }

def releaseUpdate (token : String) : Control :=
  if s.updateLease.any fun lease ↦ lease.nodeId = nodeId && lease.token = token then
    { s with updateLease := none }
  else s

/-! ## Messages of the channel -/

structure Reported where
  id : AssignmentId
  state : AssignmentState
  detail : Option String := none

structure Hello where
  caps : Capabilities
  offer : Offer
  models : List ModelFile
  assignments : List Reported

def Hello.stateOf (h : Hello) (id : AssignmentId) : Option AssignmentState :=
  (h.assignments.reverse.find? (·.id = id)).map (·.state)

def hello (h : Hello) : Control :=
  let s := { s with nodes := s.nodes.modify nodeId fun n ↦
    { n with online := true, caps := some h.caps, offer := some h.offer, models := h.models } }
  let s := h.assignments.foldl (fun s a ↦ s.storeReport nodeId a.id a.state a.detail) s
  (s.onHello k nodeId h.stateOf).onNodeOnline k nodeId

def nodeLost (conn : Option Bool) : Control :=
  ({ s with
      conns := Function.update s.conns nodeId conn
      nodes := s.nodes.modify nodeId fun n ↦ { n with online := false } }).onOffline k nodeId

def quiet : Bool :=
  s.known.all (fun d ↦ (s.slots d).jobs.isEmpty) && s.fleet.all (!·.due)

/-- The ids are new: no row has one, and no node has ever said something of one. -/
def fresh (ids : List AssignmentId) : Bool :=
  decide ids.Nodup && ids.all fun id ↦ id ∉ s.allRows.map (·.id) && id ∉ s.heard.map (·.id)

end

end Control

/-! ## Events -/

inductive Event
  | tick (ms : ℕ)
  | enroll (node : NodeRow)
  | connect (nodeId : NodeId)
  | hello (nodeId : NodeId) (message : Control.Hello)
  | heartbeat (nodeId : NodeId) (metrics : NodeMetrics) (caps : Option Capabilities)
  | offer (nodeId : NodeId) (offer : Offer)
  | models (nodeId : NodeId) (models : List ModelFile)
  | report (nodeId : NodeId) (id : AssignmentId) (state : AssignmentState) (detail : Option String)
  | disconnect (nodeId : NodeId)
  | unresponsive (nodeId : NodeId)
  | responsive (nodeId : NodeId)
  | create (d : DeploymentId) (spec : DeploymentSpec)
  | start (d : DeploymentId)
  | stop (d : DeploymentId)
  | remove (d : DeploymentId)
  | saveDistribution (d : DeploymentId) (value : LayerDistribution)
  | applyDistribution (d : DeploymentId)
  | previewAllocation (id : String) (request : FleetRequest)
  | applyAllocation (id : String)
  | acquireUpdate (nodeId : NodeId) (token : String)
  | releaseUpdate (nodeId : NodeId) (token : String)
  | inflight (d : DeploymentId) (delta : ℤ)
  | nativeExecutionFailed (d : DeploymentId) (reason : String)
  | reconcile
  | restart
  /-- The head of a queue proceeds, with fresh ids for what it sends and the frames that are lost.
  -/
  | proceed (d : DeploymentId) (ids lost : List AssignmentId)
  | job (d : DeploymentId) (i : ℕ)
  | fleetJob

/-- Pieces of operations and promise jobs, the passing of time and the end of the process need not
wait for the promise jobs that are due. -/
def Event.microtask : Event → Bool
  | tick _ | restart | proceed _ _ _ | job _ _ | fleetJob => true
  | _ => false

/-- The effect of an event; `none` when it cannot happen. -/
def Event.effect (k : Deps) (s : Control) : Event → Option Control
  | tick ms => some { s with now := s.now + ms }
  | enroll node => some { s with nodes := s.nodes.upsert node }
  | connect n => if (s.nodes.get n).isSome then
      some { s with conns := Function.update s.conns n (some false) } else none
  | hello n message => if (s.conns n).isSome then some (s.hello k n message) else none
  | heartbeat n metrics caps => if (s.conns n).isSome then
      some { s with nodes := s.nodes.modify n fun r ↦
        { r with metrics := some metrics, online := true,
                 caps := r.caps.map fun c ↦ caps.getD c } } else none
  | offer n o => if (s.conns n).isSome then
      some { s with nodes := s.nodes.modify n fun r ↦ { r with offer := some o } } else none
  | models n ms => if (s.conns n).isSome then
      some { s with nodes := s.nodes.modify n fun r ↦ { r with models := ms } } else none
  | report n id state detail =>
    if (s.conns n).isSome then some (s.report k n id state detail) else none
  | disconnect n => if (s.conns n).isSome then some (s.nodeLost k n none) else none
  | unresponsive n => if s.isOnline n then some (s.nodeLost k n (some true)) else none
  | responsive n => if s.conns n = some true then
      some (({ s with
        conns := Function.update s.conns n (some false)
        nodes := s.nodes.modify n fun r ↦ { r with online := true } } : Control).onNodeOnline k n)
      else none
  | create d spec => some (s.create k d spec)
  | start d => some (s.start k d false false false .none).1
  | stop d => some (s.stop d false .none).1
  | remove d => some (s.remove d)
  | saveDistribution d value => some (s.saveDistribution k d value)
  | applyDistribution d => some (s.applyDistribution k d)
  | previewAllocation id request => some (s.previewAllocation k id request)
  | applyAllocation id => some (s.applyAllocation k id)
  | acquireUpdate n token => some (s.acquireUpdate n token)
  | releaseUpdate n token => some (s.releaseUpdate n token)
  | inflight d delta => if d ∈ s.known then
      some (s.on d fun x ↦ { x with inflight := (x.inflight + delta).toNat }) else none
  | nativeExecutionFailed d reason => some (s.on d (·.fail k s.now reason))
  | reconcile => some (s.reconcile k)
  | restart => some (s.restart k)
  | proceed d ids lost => if s.fresh ids then s.opStep k d ids lost else none
  | job d i => s.runJob k d i
  | fleetJob => s.fleetStep k

def step (k : Deps) (s : Control) (e : Event) : Option Control :=
  if e.microtask ∨ s.quiet then e.effect k s else none

def Control.init : Control where
  now := 0
  nodes := ⟨[], by simp⟩
  conns := fun _ ↦ none
  slots := fun _ ↦ {}
  known := []
  distinctKnown := by simp
  updateLease := none
  updateRecovery := []
  fleet := none
  runs := []
  heard := []

end Swarmlet
