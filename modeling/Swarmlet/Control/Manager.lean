import Swarmlet.Control.State

/-!
# The deployment manager

What the manager does between two awaits. The functions on a `Slot` change what is kept under one
deployment id; the functions on a `Control` read the rest of the control plane as well.

The event log and the log lines are left out: nothing reads them. `closed` is left out too, so a
control plane that shuts down is one that takes no further step.
-/

namespace Swarmlet

open Js

/-! ## Waiters -/

def Op.notify (id : AssignmentId) (state : AssignmentState) (detail : String) (op : Op) : Op :=
  match op.phase with
  | .tearing (some w) rest =>
    if w.id = id ∧ state = .stopped then { op with phase := .tearing none rest } else op
  | .cleaning error (some w) rest =>
    if w.id = id ∧ state = .stopped then { op with phase := .cleaning error none rest } else op
  | .awaiting target pending rejected deadline =>
    if id ∉ pending then op
    else if state = target.state then
      { op with phase := .awaiting target (pending.erase id) rejected deadline }
    else if state = .failed then
      { op with phase :=
          .awaiting target pending (some (rejected.getD s!"{id} failed: {detail}")) deadline }
    else op
  | _ => op

namespace Slot

/-! ## Rows -/

section

variable (x : Slot) (k : Deps) (now : ℕ) (id : AssignmentId)

def update (patch : Deployment → Deployment) : Slot :=
  { x with dep := x.dep.map fun dep ↦ { patch dep with updatedAt := now } }

def state (x : Slot) : Option DeploymentState := x.dep.map (·.state)

def notify (x : Slot) (id : AssignmentId) (state : AssignmentState) (detail : String) : Slot :=
  { x with ops := x.ops.map (Op.notify id state detail) }

def setRow (f : AssignmentRow → AssignmentRow) : Slot :=
  { x with rows := x.rows.map fun r ↦ if r.id = id then f r else r }

def setAssignmentState (state : AssignmentState) (detail : Option String) : Slot :=
  x.setRow id fun r ↦
    { r with state := .reported state, detail := detail.orElse fun _ ↦ r.detail, updatedAt := now }

def retireAssignment : Slot :=
  x.setRow id fun r ↦ { r with retired := true }

def reissue : Slot :=
  x.setRow id fun r ↦ { r with state := .sent, updatedAt := now, retired := false }

/-! ## The promise queue -/

def enqueue (work : Work) (cont : Cont) : Slot :=
  { x with ops := x.ops ++ [{ work, cont }] }

def settle (result : Except String Unit) : Slot :=
  match x.ops with
  | [] => x
  | op :: rest =>
    { x with
      ops := rest
      jobs := x.jobs ++
        if op.cont = .none then [] else [.settled op.cont result op.sent op.excluded] }

def cancel : Slot :=
  x.listAssignments.foldl (fun x r ↦ x.notify r.id .failed "deployment operation cancelled")
    { x with generation := x.generation + 1 }

def assertRunning (generation : ℕ) : Bool :=
  x.intent.running && x.generation = generation

/-! ## Failures -/

def scheduleRecovery : Slot :=
  if x.intent.running then
    { x with intent := { x.intent with
        retryAt := now + min 60000 (k.recoveryDelayMs * 2 ^ (x.intent.attempts - 1)) } }
  else x

def recordFailure (why : String) : Slot :=
  (({ x with reconnecting := none }).update now fun dep ↦
    { dep with state := .failed, error := some why, endpoint := none }).scheduleRecovery k now

def fail (why : String) : Slot :=
  match x.state with
  | none | some .failed | some .stopped | some .draining => x
  | _ => (x.cancel.recordFailure k now why).enqueue .teardown .none

def finishDraining : Slot :=
  if x.state = some .draining ∧ x.intent.running = false ∧
      x.rows.all (·.state = .reported .stopped) then
    x.update now fun dep ↦ { dep with state := .stopped, endpoint := none, error := none }
  else x

end

/-! ## Crash memory -/

end Slot

/-- A stable name for what was put where; ports and timings are left out. -/
def planFingerprint (plan : Plan) : String :=
  let workers := ",".intercalate (plan.workers.map fun w ↦
    s!"{w.nodeId}/{w.device}/{w.layers}/{w.threads}")
  let split := "-".intercalate ((plan.engineTensorSplit.getD plan.tensorSplit).map toString)
  "|".intercalate [plan.coordinatorNodeId, plan.coordinatorDevice, workers, split,
    toString plan.ctx, toString plan.parallel, toString plan.chain, plan.modelPath]

namespace Slot

section

variable (x : Slot) (now : ℕ) (plan : Plan)

def blockPlacement (k : Deps) (now : ℕ) (plan : Plan) (why : String) : Slot :=
  let fingerprint := planFingerprint plan
  let cooldownMs := match x.blocked fingerprint with
    | some previous => min (previous.cooldownMs * 4) CRASH_COOLDOWN_MAX_MS
    | none => k.crashCooldownMs
  { x with
    blocked := Function.update x.blocked fingerprint (some ⟨now + cooldownMs, cooldownMs, why⟩)
    crashes := Function.update x.crashes fingerprint (x.crashes fingerprint + 1) }

/-- `blockedUntil`: the evidence against a shape that is still within its rest. -/
def blockedUntil : Option Block :=
  (x.blocked (planFingerprint plan)).filter fun e ↦ now < e.until

def expireBlock : Slot :=
  { x with blocked := Function.update x.blocked (planFingerprint plan) (x.blockedUntil now plan) }

/-! ## Stops and starts -/

/-- `stop`, from its admission to its first await. -/
def acceptStop (cont : Cont) : Slot :=
  let x := { x with
    reconnecting := none, blocked := fun _ ↦ none, crashes := fun _ ↦ 0, intent := {} }
  (x.cancel.update now fun dep ↦ { dep with state := .draining, endpoint := none }).enqueue
    .stop cont

/-- `start`, from its admission to its first await. -/
def acceptStart (dep : Deployment) (recovering : Bool) (cont : Cont) : Slot :=
  let intent := if recovering then { x.intent with running := true } else { running := true }
  (({ x with reconnecting := none, intent }).update now fun dep ↦
    { dep with state := .placing, error := none, endpoint := none }).enqueue
      (.start dep x.generation) cont

def clearExclusions : Slot :=
  { x with moveExcluded := x.moveExcluded.filter (·.nodes = []) }

def exclude (nodes : List NodeId) : Slot :=
  let seen := (x.moveExcluded.map (·.nodes)).getD []
  { x with moveExcluded := some ⟨seen ++ (distinct nodes).filter (· ∉ seen), now⟩ }

end

end Slot

def Control.on (s : Control) (d : DeploymentId) (f : Slot → Slot) : Control :=
  { s with slots := Function.update s.slots d (f (s.slots d)) }

namespace Control

/-! ## Admission -/

def mustText (d : DeploymentId) : String := s!"unknown deployment {d}"

def fleetBusyText : String :=
  "Fleet allocation is applying; wait for its result before changing deployments."

section

variable (k : Deps) (s : Control) (d : DeploymentId) (base : DeploymentSpec)

def fleetAccess (token : Bool) : Bool := s.fleet.isNone || token

def externalOptionsProblem (spec : DeploymentSpec) : Option String :=
  if spec.workerLayers.isSome ∨ spec.speculation.isSome ∨ spec.chain.any (· ≠ 0) then
    some "external deployments cannot configure workerLayers, speculation or an MTP chain"
  else none

def externalOrigin (rt : Runtime) (url : String) : Option String :=
  (rt.url url).map fun u ↦
    rt.origin (if u.hostname ∈ ["localhost", "[::1]"] then
      { u with hostname := "127.0.0.1" } else u)

def uniqueExternalProblem (spec : DeploymentSpec) (except : Option DeploymentId) : Option String :=
  match spec.external.bind fun ext ↦ (externalOrigin k.rt ext.url).map fun key ↦ (ext, key) with
  | none => some "cannot be parsed as a URL."
  | some (ext, key) =>
    (s.listDeployments.find? fun d ↦ some d.id ≠ except && d.spec.kind = .external &&
      d.spec.external.any (fun e ↦ e.nodeId = ext.nodeId && externalOrigin k.rt e.url = some key) &&
      ((s.slots d.id).intent.running || (d.state ≠ .failed && d.state ≠ .stopped))).map fun d ↦
        s!"external endpoint already registered by {d.spec.name} ({d.id})"

/-- The states a start may begin in: at rest, or on the way back from a lost node, or, for a
re-placement, serving or loading. -/
def restartable (x : Slot) (state : DeploymentState) (recovering fromReady : Bool) : Bool :=
  state ∈ [.planned, .stopped, .failed] ||
  (recovering && x.reconnecting.isSome && state = .loading) ||
  (fromReady && state ∈ [.ready, .placing, .loading])

def admitStart (recovering token fromReady : Bool) : Except String Deployment :=
  if s.fleetAccess token = false then .error fleetBusyText
  else match s.getDeployment d with
  | none => .error (mustText d)
  | some dep =>
    if s.updatingNode.isSome then .error "node update in progress; retry after recovery"
    else if s.operating d then .error "deployment operation already in progress"
    else if restartable (s.slots d) dep.state recovering fromReady = false then
      .error s!"cannot start from state {dep.state.text}"
    else if dep.spec.kind = .external then
      match (externalOptionsProblem dep.spec).orElse fun _ ↦
          s.uniqueExternalProblem k dep.spec (some d) with
      | some problem => .error problem
      | none => .ok dep
    else .ok dep

/-- `start`: the state at its first await, or what it threw before. -/
def start (recovering token fromReady : Bool) (cont : Cont) : Control × Option String :=
  let s := if recovering then s else s.on d Slot.clearExclusions
  match s.admitStart k d recovering token fromReady with
  | .error e => (s, some e)
  | .ok dep => (s.on d (·.acceptStart s.now dep recovering cont), none)

/-- `stop`: the state at its first await, or what it threw before. -/
def stop (token : Bool) (cont : Cont) : Control × Option String :=
  if s.fleetAccess token = false then (s, some fleetBusyText)
  else match s.getDeployment d with
  | none => (s, some (mustText d))
  | some _ => (s.on d (·.acceptStop s.now cont), none)

/-! ## Choosing a model -/

def pinsNodes (spec : DeploymentSpec) : Bool :=
  match spec.kind with
  | .external | .stages | .prefillDecode => true
  | .replica => spec.replicaNodeId.any (· ≠ "")
  | .split => spec.coordinatorNodeId.any (· ≠ "") || (spec.workerNodeIds.getD []) ≠ []

def fitNeedMiB (plan : Plan) (profile : ModelProfile) (kind : DeploymentKind) : ℕ :=
  let layers := if kind = .replica then profile.layers
    else ((plan.engineTensorSplit.getD plan.tensorSplit).getLast?).getD profile.layers
  layers * profile.layerMiB + profile.coordinatorHostMiB

def fitsNow (plan : Plan) (profile : ModelProfile) (kind : DeploymentKind) : Bool :=
  match s.nodes.get plan.coordinatorNodeId with
  | none => true
  | some node =>
    if node.os ≠ .darwin then true
    else match node.metrics.bind (·.freeRamMiB) with
    | none => true
    | some free => (fitNeedMiB plan profile kind : ℚ) ≤ free

def autoCandidates : List (ModelProfile × DeploymentSpec) :=
  let ranked := sortBy (fun a b ↦ compare (b.rank.getD 0) (a.rank.getD 0))
    (k.profiles.filter (·.rank.isSome))
  ranked.flatMap fun profile ↦ [DeploymentKind.replica, .split].map fun kind ↦
    (profile, { base with profile := profile.id, kind, autoModel := some true,
                          replicaNodeId := none, workerNodeIds := none, workerLayers := none })

/-- `chooseAuto`: the first candidate that can be placed and fits now. -/
def chooseAuto (replacing : Option DeploymentId) (exclude : List NodeId) : Option DeploymentSpec :=
  ((autoCandidates k base).find? fun (profile, spec) ↦
    match s.plan k spec replacing exclude with
    | .ok plan => s.fitsNow plan profile spec.kind
    | .error _ => false).map (·.2)

def autoFailures : List String :=
  (autoCandidates k base).filterMap fun (profile, spec) ↦
    match s.plan k spec none [] with
    | .ok _ => none
    | .error e =>
      let text := e.toList
      let reason := if startsWith "no plan: ".toList text then text.drop 9 else text
      let short := String.ofList (reason.take 140)
      let kind := spec.kind.text
      some s!"{profile.id}/{kind}: {short}"

end

/-! ## Comparing placements -/

end Control

def samePlacement (a b : Plan) : Bool :=
  a.coordinatorNodeId = b.coordinatorNodeId && a.coordinatorDevice = b.coordinatorDevice &&
  a.modelPath = b.modelPath && a.mtpPath = b.mtpPath &&
  a.ctx = b.ctx && a.parallel = b.parallel && a.chain = b.chain &&
  a.speculation = b.speculation && a.nativeExecution = b.nativeExecution &&
  a.workers.map (fun w ↦ (w.nodeId, w.layers, w.device, w.threads)) =
    b.workers.map (fun w ↦ (w.nodeId, w.layers, w.device, w.threads)) &&
  a.engineTensorSplit.getD a.tensorSplit = b.engineTensorSplit.getD b.tensorSplit

def sameRequest (a b : Plan) : Bool :=
  a.modelPath = b.modelPath && a.mtpPath = b.mtpPath &&
  a.ctx = b.ctx && a.parallel = b.parallel && a.chain = b.chain &&
  a.speculation = b.speculation && a.nativeExecution = b.nativeExecution

def servingLayers (plan : Plan) : Option ℕ :=
  (plan.engineTensorSplit.getD plan.tensorSplit).getLast?

def MOVE_MARGIN_LAYERS : ℕ := 2

namespace Control

section

variable (k : Deps) (s : Control) (d : DeploymentId) (origin : Origin)

/-- Whether a candidate is worth an engine restart: fewer layers on the serving node, or a
coordinator with a quarter more memory. -/
def placementGain (current : Option Plan) (candidate : Plan) : Bool :=
  let fewerLayers := match current.bind servingLayers, servingLayers candidate with
    | some before, some after => after + MOVE_MARGIN_LAYERS ≤ before
    | _, _ => false
  let ram (id : NodeId) : ℕ := (((s.nodes.get id).bind (·.offer)).map (·.ramMiB)).getD 0
  let before := (current.map fun p ↦ ram p.coordinatorNodeId).getD 0
  let largerCoordinator := candidate.coordinatorNodeId ≠ "" &&
    current.map (·.coordinatorNodeId) ≠ some candidate.coordinatorNodeId &&
    0 < before && before * 5 ≤ ram candidate.coordinatorNodeId * 4
  fewerLayers || largerCoordinator

/-! ## Re-placement -/

/-- How the synchronous part of a re-placement ended. -/
inductive MoveOutcome
  | kept
  | refused (error : String)
  | started

def placementIntact (dep : Deployment) : Bool :=
  dep.state = .ready && dep.plan.any fun plan ↦
    (planNodes plan).all fun n ↦ (s.nodes.get n).any (·.online)

/-- Whether an automatic choice replaces the model of a deployment: a different model or shape, but
neither a lower rank while the placement is intact nor another shape while serving. -/
def switches (dep : Deployment) (choice : DeploymentSpec) : Bool :=
  let rankOf (id : String) : Option ℕ := (k.profiles.find? (·.id = id)).bind (·.rank)
  let kindChanged := choice.kind ≠ dep.spec.kind
  let profileChanged := choice.profile ≠ dep.spec.profile
  let downgrade := match rankOf dep.spec.profile, rankOf choice.profile with
    | some current, some chosen => chosen < current
    | _, _ => false
  if profileChanged && s.placementIntact dep && downgrade then false
  else if kindChanged && dep.state = .ready then false
  else profileChanged || kindChanged

def planTouch (spec : DeploymentSpec) : Control :=
  if k.profiles.any (·.id = spec.profile) then s.on d (·.expireExclusions s.now) else s

def rememberedNodes : List NodeId :=
  ((s.slots d).moveExcluded.map (·.nodes)).getD []

/-- The first part of `redistribute`: the automatic choice of the model. `none` when nothing can be
placed, else the state, the row to plan and whether its model changed. -/
def redecide (dep : Deployment) : Control × Option (Deployment × Bool) :=
  if dep.spec.autoModel ≠ some true then (s, some (dep, false))
  else
    let choice := s.chooseAuto k dep.spec (some d) (s.rememberedNodes d)
    let s := if (autoCandidates k dep.spec).isEmpty then s
      else s.on d (·.expireExclusions s.now)
    match choice with
    | none => (s, none)
    | some spec =>
      if s.switches k dep spec then
        (s.on d (·.update s.now fun r ↦ { r with spec }),
          some ({ dep with spec, updatedAt := s.now }, true))
      else (s, some (dep, false))

/-- The running plan keeps serving: the candidate asks for the same, every node is here, and
nothing is gained. -/
def noGain (dep : Deployment) (candidate : Plan) : Bool :=
  dep.plan.any fun plan ↦ sameRequest plan candidate && (planNodes plan).all s.present &&
    !s.placementGain (some plan) candidate

/-- The second part of `redistribute`: plan, compare, and start. -/
def replace (dep : Deployment) (modelChanged : Bool) (origin : Origin) : Control × MoveOutcome :=
  let planned := s.plan k dep.spec (some d) []
  let s := s.planTouch k d dep.spec
  match planned with
  | .error _ => (s, .kept)
  | .ok candidate =>
    let blocked := (s.slots d).blockedUntil s.now candidate
    let s := s.on d (·.expireBlock s.now candidate)
    let paced := s.on d fun x ↦ { x with lastMove := s.now }
    if blocked.isSome then (paced, .kept)
    else if dep.state = .ready && dep.plan.any (samePlacement · candidate) then (paced, .kept)
    else if !modelChanged && dep.state = .ready && s.noGain dep candidate then (paced, .kept)
    else
      let s := paced.on d fun x ↦ { x with intent := { x.intent with attempts := 0, retryAt := 0 } }
      match s.start k d true false true (.move origin) with
      | (s, some e) => (s, .refused e)
      | (s, none) => (s, .started)

/-- `redistribute`, up to its first await. -/
def redistribute : Control × MoveOutcome :=
  match s.getDeployment d with
  | none => (s, .kept)
  | some dep =>
    if s.operating d || pinsNodes dep.spec then (s, .kept)
    else match s.redecide k d dep with
    | (s, none) => (s, .kept)
    | (s, some (dep, modelChanged)) => s.replace k d dep modelChanged origin

def notMoved : Control :=
  match origin with
  | .other => s
  | .expired why => s.on d fun x ↦ { x with jobs := x.jobs ++ [.lateFailure why] }

/-- A call of `redistribute`: what it returns or throws reaches its caller as a job. -/
def move (k : Deps) (s : Control) (d : DeploymentId) (origin : Origin) : Control :=
  match s.redistribute k d origin with
  | (s, .kept) => s.notMoved d origin
  | (s, .refused e) =>
    s.on d fun x ↦ { x with jobs := x.jobs ++ [.settled (.move origin) (.error e) [] []] }
  | (s, .started) => s

/-- `/engine exited|exited \(code|SIGABRT|SIGTERM|failed to allocate|not healthy/i`. -/
def engineFailure (detail : String) : Bool :=
  ["engine exited", "exited (code", "SIGABRT", "SIGTERM", "failed to allocate",
    "not healthy"].any (containsIgnoringCase · detail)

def failedNodes (x : Slot) : List NodeId :=
  distinct ((x.listAssignments.filter fun r ↦ r.detail.any engineFailure).map (·.nodeId))

/-- `redistribute`, at a start that failed: once more without the nodes that failed. -/
def moveFailed : Control :=
  let failed := failedNodes (s.slots d)
  if failed = [] then s.notMoved d origin
  else (s.on d (·.exclude s.now failed)).move k d origin

end

end Control

/-! ## Lost nodes -/

/-- What `onOffline` does to one deployment; `graceFrom` is where the reconnect grace starts. -/
def Slot.offline (x : Slot) (k : Deps) (now graceFrom : ℕ) (nodeId : NodeId) : Slot :=
  match x.dep with
  | none => x
  | some dep =>
    if x.intent.running = false ∨ dep.state ∈ [.stopped, .failed, .planned, .draining] ∨
        x.reconnecting.isSome then x
    else
      let rows := x.rows.filter fun r ↦ r.nodeId = nodeId && r.live
      if rows = [] ∧ dep.plan.all (nodeId ∉ planNodes ·) then x
      else if rows ≠ [] ∧ rows.all (·.healthWatch) then
        x.update now fun dep ↦ { dep with
          state := .loading, endpoint := none, error := some s!"external agent {nodeId} offline" }
      else
        let reason := s!"node {nodeId} went offline"
        let nodes := match dep.plan with
          | some plan => planNodes plan
          | none => distinct ((x.listAssignments.filter (!·.retired)).map (·.nodeId))
        let x := { x.cancel with
          reconnecting := some { deadline := graceFrom + k.reconnectGraceMs, nodes, reason } }
        (x.update now fun dep ↦ { dep with
          state := .loading, endpoint := none
          error := some s!"{reason}; reconnecting with fresh placement required" }).enqueue
            .teardown .none

/-- `observeReconnect`: every node is back in time, so cleanup gets a budget of its own. -/
def Slot.observeReconnect (x : Slot) (k : Deps) (now : ℕ) (present : NodeId → Bool) : Slot :=
  match x.reconnecting with
  | none => x
  | some r =>
    if r.cleanupDeadline.isSome ∨ r.deadline ≤ now ∨ r.nodes.all present = false then x
    else
      let pending := (x.rows.filter (·.live)).length
      let r := { r with cleanupDeadline := some (now + max 1 pending * k.stopTimeoutMs) }
      { x with reconnecting := some r }

/-! ## Reports -/

/-- `/shutting down|going offline|agent stopping/i`. -/
def leavingDetail (detail : String) : Bool :=
  ["shutting down", "going offline", "agent stopping"].any (containsIgnoringCase · detail)

/-- `/code\s*(?!0[,\s)])[1-9]|SIG[A-Z]+/` at the start of a text. -/
def crashHere (text : List Char) : Bool :=
  (startsWith "code".toList text &&
    ((text.drop 4).dropWhile isSpace).head?.any fun c ↦ '1' ≤ c && c ≤ '9') ||
  (startsWith "SIG".toList text && (text.drop 3).head?.any fun c ↦ 'A' ≤ c && c ≤ 'Z')

def crashDetail (detail : String) : Bool := search crashHere detail.toList

def Slot.watchReport (x : Slot) (k : Deps) (now : ℕ) (nodeId : NodeId) (dep : Deployment)
    (state : AssignmentState) (detail : String) : Slot :=
  if (state = .failed ∨ state = .stopped) ∧ dep.state = .ready then
    x.update now fun dep ↦ { dep with
      state := .loading, endpoint := none, error := some s!"external server unhealthy: {detail}" }
  else if state = .ready ∧ dep.state = .loading then
    match dep.spec.external with
    | none => x
    | some ext =>
      let port := ((k.rt.url ext.url).map (·.portNumber)).getD 0
      x.update now fun dep ↦ { dep with
        state := .ready, error := none, endpoint := some ⟨nodeId, port, ext.modelName⟩ }
  else x

namespace Control

section

variable (k : Deps) (s : Control) (nodeId : NodeId) (d : DeploymentId) (x : Slot)

def onOffline : Control :=
  let lease := ((s.updateLease.filter (·.nodeId = nodeId)).map (·.expiresAt)).getD 0
  s.known.foldl (fun s d ↦ s.on d (·.offline k s.now (max s.now lease) nodeId)) s

def engineReport (row : AssignmentRow) (dep : Deployment) (detail : Option String) : Control :=
  let d := row.deploymentId
  let text := detail.getD ""
  if s.isOnline nodeId = false ∨ leavingDetail text then s.onOffline k nodeId
  else
    let reported := detail.getD "no detail"
    let why := s!"assignment {row.id} on {nodeId} failed: {reported}"
    s.on d fun x ↦
      let x := match dep.plan with
        | some plan => if crashDetail text then x.blockPlacement k s.now plan text else x
        | none => x
      x.fail k s.now why

/-- `onAssignmentState`: the channel has already stored the state of the row. -/
def onAssignmentState (id : AssignmentId)
    (state : AssignmentState) (detail : Option String) : Control :=
  match s.getAssignment id with
  | none => s
  | some row =>
    let d := row.deploymentId
    if row.nodeId ≠ nodeId ∨ (row.retired ∧ state ≠ .stopped) then s
    else
      let s := s.on d (·.notify id state (detail.getD ""))
      match s.getDeployment d with
      | none => s
      | some dep =>
        let s := if state = .stopped then s.on d (·.finishDraining s.now) else s
        let x := s.slots d
        if row.retired ∨ x.reconnecting.isSome then s
        else if row.healthWatch ∧ x.intent.running ∧
          (dep.state = .ready ∨ dep.state = .loading) then
          s.on d (·.watchReport k s.now nodeId dep state (detail.getD ""))
        else if (state = .failed ∨ state = .stopped) ∧
            dep.state ∉ [.stopped, .failed, .draining] then
          s.engineReport k nodeId row dep detail
        else s

def hear (id : AssignmentId) (state : AssignmentState) : Control :=
  { s with heard := ⟨nodeId, id, state⟩ :: s.heard }

def storeReport (id : AssignmentId) (state : AssignmentState) (detail : Option String) : Control :=
  match s.getAssignment id with
  | none => s
  | some row =>
    if row.nodeId ≠ nodeId then s
    else (s.on row.deploymentId (·.setAssignmentState s.now id state detail)).hear nodeId id state

def report (id : AssignmentId) (state : AssignmentState) (detail : Option String) : Control :=
  match s.getAssignment id with
  | none => s
  | some row =>
    if row.nodeId ≠ nodeId then s
    else (s.storeReport nodeId id state detail).onAssignmentState k nodeId id state detail

/-! ## Nodes that come back -/

def wants (row : AssignmentRow) : Bool :=
  let x := s.slots row.deploymentId
  !row.retired && x.intent.running && x.reconnecting.isNone &&
    x.state.any (· ∉ [.failed, .stopped, .planned, .draining])

def confirmAbsent (row : AssignmentRow) : Control :=
  (s.on row.deploymentId fun x ↦
    ((x.retireAssignment row.id).setAssignmentState s.now row.id .stopped
      (some "agent confirmed assignment absent")).notify row.id .stopped "").hear row.nodeId row.id
        .stopped

/-- One row of `onHello`; `seen` are the deployments whose health watch was met before. -/
def helloRow (reported : AssignmentId → Option AssignmentState)
    (acc : Control × List DeploymentId) (row : AssignmentRow) : Control × List DeploymentId :=
  let (s, seen) := acc
  let d := row.deploymentId
  let wanted := s.wants row
  let duplicate := row.healthWatch && d ∈ seen
  let seen := if row.healthWatch && wanted && !duplicate then d :: seen else seen
  match reported row.id with
  | none | some .stopped =>
    let s := s.confirmAbsent row
    let expected := wanted && row.live
    if expected && row.healthWatch && !duplicate then (s.on d (·.reissue s.now row.id), seen)
    else if expected && !row.healthWatch then
      (s.on d (·.fail k s.now s!"node {nodeId} restarted without assignment {row.id}"), seen)
    else (s, seen)
  | some state =>
    if !wanted || duplicate || !row.live then
      (s.on d fun x ↦ (x.setAssignmentState s.now row.id state none).retireAssignment row.id, seen)
    else if row.healthWatch then (s.onAssignmentState k nodeId row.id state none, seen)
    else if state = .failed then
      (s.on d (·.fail k s.now s!"node {nodeId} reported failed assignment {row.id}"), seen)
    else (s, seen)

def helloOrder (a b : AssignmentRow) : Ordering :=
  (compare a.retired.toNat b.retired.toNat).then (k.rt.localeCompare a.id b.id)

def onHello (reported : AssignmentId → Option AssignmentState) : Control :=
  let s := s.known.foldl (fun s d ↦ s.on d fun x ↦
    if x.reconnecting.any (nodeId ∈ ·.nodes) then x.observeReconnect k s.now s.present else x) s
  let rows := (sortBy (helloOrder k) s.listAssignments).filter (·.nodeId = nodeId)
  (rows.foldl (helloRow k nodeId reported) (s, [])).1

def paced : Bool :=
  (s.slots d).lastMove + k.moveIntervalMs ≤ s.now

def retryPlan : Control :=
  match s.getDeployment d with
  | none => s
  | some dep =>
    if dep.state = .failed && startsWith "no plan".toList (dep.error.getD "").toList &&
        (s.slots d).intent.running && !pinsNodes dep.spec && !s.operating d && s.paced k d then
      ((s.on d fun x ↦ { x with lastMove := s.now }).start k d true false false .none).1
    else s

def improve : Control :=
  match s.getDeployment d with
  | none => s
  | some dep =>
    if dep.state = .ready && (s.slots d).intent.running && !pinsNodes dep.spec &&
        (s.slots d).reconnecting.isNone && !s.operating d && s.paced k d &&
        dep.updatedAt + k.moveSettleMs ≤ s.now then
      if dep.spec.autoModel = some true then s.move k d .other
      else
        let planned := s.plan k dep.spec (some d) []
        let s := s.planTouch k d dep.spec
        match planned with
        | .error _ => s
        | .ok candidate => if s.placementGain dep.plan candidate then s.move k d .other else s
    else s

def forgetNode : Slot :=
  { x with moveExcluded :=
    x.moveExcluded.map fun e ↦ { e with nodes := e.nodes.filter (· ≠ nodeId) } }

def onNodeOnline : Control :=
  let s := s.known.foldl (fun s d ↦ s.on d (forgetNode nodeId)) s
  let s := s.known.foldl (fun s d ↦ s.retryPlan k d) s
  s.known.foldl (fun s d ↦ s.improve k d) s

/-! ## The sweeper -/

/-- A load that will not finish: its plan names a node that is gone, or it has taken too long. -/
def wedgedLoad (dep : Deployment) : Bool :=
  (dep.state = .placing || dep.state = .loading) && !pinsNodes dep.spec &&
  dep.updatedAt + k.moveSettleMs ≤ s.now && s.paced k d &&
  dep.plan.any fun plan ↦
    !(planNodes plan).all s.present || dep.updatedAt + k.wedgedLoadMs ≤ s.now

def requiredNodes (dep : Deployment) : List NodeId :=
  match dep.spec.external, dep.plan with
  | some ext, _ => [ext.nodeId]
  | none, some plan => planNodes plan
  | none, none =>
    ((dep.spec.coordinatorNodeId.orElse fun _ ↦ dep.spec.replicaNodeId).toList ++
      dep.spec.workerNodeIds.getD []).filter (· ≠ "")

def recover : Control :=
  ((s.on d fun x ↦ { x with intent := { x.intent with attempts := x.intent.attempts + 1 } }).start k
    d true false false .none).1

/-- The last part of `reconcile`: start a failed deployment again once its nodes are here. -/
def recoverFailed (dep : Deployment) : Control :=
  let x := s.slots d
  if x.intent.running = false ∨ (dep.state ≠ .failed ∧ x.reconnecting = none) ∨ s.operating d ∨
      MAX_RECOVERY_ATTEMPTS ≤ x.intent.attempts ∨ s.now < x.intent.retryAt then s
  else
    -- An automatic placement may have failed before it ever had a plan.
    let planned := if requiredNodes dep = [] then
        (s.plan k dep.spec (some d) []).toOption.map planNodes
      else some (requiredNodes dep)
    let s := if requiredNodes dep = [] then s.planTouch k d dep.spec else s
    match planned with
    | none => s
    | some required =>
      let offline := required.filter (!s.present ·)
      if offline = [] ∨ x.reconnecting.isSome then s.recover k d
      else if dep.spec.external.isSome ∨ pinsNodes dep.spec then s
      else
        -- A stored plan that names a node which is gone must not become a wait.
        let s := s.on d (·.exclude s.now offline)
        let replanned := s.plan k dep.spec (some d) []
        let s := s.planTouch k d dep.spec
        match replanned with
        | .error _ => s
        | .ok plan =>
          if (planNodes plan).all s.present then
            (s.on d fun x ↦ { x with intent := { x.intent with retryAt := s.now + 5000 } }).recover
              k d
          else s

def settled (dep : Deployment) (now : ℕ) (x : Slot) : Slot :=
  let x := if dep.state = .ready ∧ ((x.moveExcluded.map (·.recordedAt)).getD 0) + 60000 < now then
    { x with moveExcluded := none } else x
  if dep.state = .ready ∧ x.intent.attempts ≠ 0 ∧ dep.updatedAt + 60000 < now then
    { x with intent := { x.intent with attempts := 0 } } else x

def reconnectExpired (r : Reconnect) : Bool :=
  match r.cleanupDeadline with
  | none => r.deadline ≤ s.now
  | some cleanup => (x.rows.any (·.live) || !r.nodes.all s.present) && cleanup ≤ s.now

end

def expiredText (r : Reconnect) : String :=
  let which := if r.cleanupDeadline.any (· ≠ 0) then "reconnect cleanup deadline"
    else "reconnect grace"
  s!"{r.reason}; {which} expired or recovery budget exhausted"

/-- The body of `reconcile` for one deployment, up to its first await. -/
def reconcileOne (k : Deps) (s : Control) (d : DeploymentId) : Control :=
  match s.getDeployment d with
  | none => s
  | some dep =>
    let s := s.on d fun x ↦ (x.finishDraining s.now).observeReconnect k s.now s.present
    let x := s.slots d
    match x.reconnecting with
    | some r =>
      if s.reconnectExpired x r ∨ MAX_RECOVERY_ATTEMPTS ≤ x.intent.attempts then
        if s.operating d then s else s.move k d (.expired (expiredText r))
      else (s.on d (settled dep s.now)).recoverFailed k d dep
    | none =>
      if x.intent.running ∧ s.operating d = false ∧ s.wedgedLoad k d dep then
        (s.on d fun x ↦ { x with lastMove := s.now }).move k d .other
      else (s.on d (settled dep s.now)).recoverFailed k d dep

def reconcile (k : Deps) (s : Control) : Control :=
  if s.updatingNode.isSome ∨ s.fleet.isSome then s
  else s.known.foldl (fun s d ↦ s.reconcileOne k d) s

/-! ## Restarts -/

def persisted (x : Slot) : Slot :=
  { dep := x.dep, intent := x.intent, rows := x.rows, crashes := x.crashes }

def restoreStopped (now : ℕ) (x : Slot) (dep : Deployment) : Slot :=
  if dep.state.active then x.update now fun dep ↦ { dep with state := .draining, endpoint := none }
  else if dep.endpoint.isSome then x.update now fun dep ↦ { dep with endpoint := none }
  else x

/-- `restore` for one deployment; `seen` are the external endpoints met before. -/
def restoreOne (k : Deps) (acc : Control × List (NodeId × Option String)) (d : DeploymentId) :
    Control × List (NodeId × Option String) :=
  let (s, seen) := acc
  match s.getDeployment d with
  | none => (s, seen)
  | some dep =>
    if (s.slots d).intent.running = false then (s.on d (restoreStopped s.now · dep), seen)
    else if dep.spec.kind = .external then
      let key := ((dep.spec.external.map (·.nodeId)).getD "",
        dep.spec.external.bind fun ext ↦ externalOrigin k.rt ext.url)
      if key ∈ seen then
        (s.on d fun x ↦ ({ x with intent := { x.intent with running := false } }).update s.now
          fun dep ↦ { dep with
            state := .stopped, endpoint := none
            error := some "duplicate external endpoint; health watch retired" }, seen)
      else
        let hasWatch := (s.slots d).rows.any fun r ↦ !r.retired && r.healthWatch
        let state := if hasWatch then DeploymentState.loading else .failed
        (s.on d fun x ↦
          let x := x.update s.now fun dep ↦ { dep with state, endpoint := none }
          if hasWatch then x else x.scheduleRecovery k s.now, key :: seen)
    else if dep.state ≠ .failed then
      (s.on d fun x ↦ (x.update s.now fun dep ↦ { dep with
        state := .failed, endpoint := none
        error := some "control restarted; awaiting node reconciliation" }).scheduleRecovery k s.now,
        seen)
    else (s, seen)

def restoreOrder (k : Deps) (a b : Deployment) : Ordering :=
  (compare a.createdAt b.createdAt).then (k.rt.localeCompare a.id b.id)

/-- A new process over the same registry, after `restore`. -/
def restart (k : Deps) (s : Control) : Control :=
  let s := { s with
    nodes := { rows := s.nodes.rows.map fun n ↦ { n with online := false }
               distinct := nodup_map_modify (by exact fun _ ↦ rfl) s.nodes.distinct }
    conns := fun _ ↦ none
    slots := fun d ↦ persisted (s.slots d)
    updateLease := none
    updateRecovery := []
    fleet := none
    runs := s.runs.map fun run ↦
      if run.status = .applying then { run with status := .interrupted } else run }
  (((sortBy (restoreOrder k) s.listDeployments).map (·.id)).foldl (restoreOne k) (s, [])).1

end Control

end Swarmlet
