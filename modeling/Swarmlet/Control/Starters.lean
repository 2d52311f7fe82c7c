import Swarmlet.Control.Resources

/-!
# The assignments of a start

What the four starters send: a health watch for an external server, one replica, one native context
for each stage, or the workers of a split and then its coordinator. The starters choose a plan, read
the rows of its nodes and build these records from them; when they may do so is the business of the
deployment manager.
-/

namespace Swarmlet

open Js

/-! ## Identifiers -/

/-- `newId(kind)`: six random bytes in hexadecimal behind the kind. -/
def newId (kind : String) (bytes : Fin 6 → Fin 256) : String :=
  String.ofList (kind.toList ++ '-' :: (List.ofFn bytes).flatMap hexByte)

/-! ## Where a peer is reached -/

def HostPort.usable (e : HostPort) : Bool := e.host ≠ "" && 0 < e.port && e.port < 65536

/-- Every reachable address a peer published, the local ones first; the relay is the fallback. -/
def directAddresses (caps : Capabilities) : List HostPort :=
  let dataPort := (caps.dataPort.map (·.val)).getD AGENT_DATA_PORT
  caps.privateIps.map (⟨·, dataPort⟩) ++
    (caps.publicIp.filter (· ≠ "")).toList.map (⟨·, dataPort⟩) ++
    caps.publicEndpoints.filter (·.usable)

def endpointFor (node : NodeRow) (port : ℕ) : Endpoint where
  nodeId := node.id
  certFp := node.certFp
  port
  direct := (node.caps.map directAddresses).getD []
  relay := true

/-! ## Shares and draft heads -/

section

variable (plan : Plan) (id : AssignmentId) (used : List ℕ)

def Plan.allocationOn (nodeId : NodeId) : Option NodeAllocation :=
  plan.allocations.bind (·.find? (·.nodeId = nodeId))

/-- `{ ramMiB: allocation?.ramMiB ?? offer?.ramMiB, cpuCores: … }`. -/
def Plan.enforceOn (node : NodeRow) : Enforce where
  ramMiB := ((plan.allocationOn node.id).map (·.ramMiB)).orElse fun _ ↦ node.offer.map (·.ramMiB)
  cpuCores := ((plan.allocationOn node.id).map (·.cpuCores)).orElse fun _ ↦
    node.offer.map (·.cpuCores)

def Plan.mtp : Option Mtp :=
  if plan.chain > 0 then (plan.mtpPath.filter (· ≠ "")).map (⟨·, plan.chain⟩) else none

def stopExternalOn (spec : DeploymentSpec) (deployments : List Deployment) (nodeId : NodeId) :
    Option String :=
  if spec.stopExternal = some true then
    (deployments.find? fun d ↦ d.spec.kind = .external && d.spec.external.any
      (·.nodeId = nodeId)).map (·.spec.name)
  else none

/-! ## The records -/

def externalAssignment (deploymentId : DeploymentId) (ext : ExternalSpec)
    (url : Url) : ReplicaAssignment where
  id
  deploymentId
  port := url.portNumber
  external := some {
    url := ext.url
    healthPath := if ext.healthPath = "" then "/health" else ext.healthPath
    maintenance := ext.maintenance
    upstreamModel := ext.upstreamModel.filter (· ≠ "") }
  modelName := some ext.modelName
  allow := []

def replicaAssignment (dep : Deployment) (profile : ModelProfile) (plan : Plan)
    (node : NodeRow) (port : ℕ) (stopExternal : Option String) : ReplicaAssignment where
  id
  deploymentId := dep.id
  port
  modelPath := some plan.modelPath
  modelName := some profile.modelName
  ctx := some plan.ctx
  parallel := some plan.parallel
  device := some plan.coordinatorDevice
  mtp := plan.mtp
  speculation := plan.speculation
  extraArgs := some profile.extraArgs
  allow := []
  enforce := plan.allocationOn node.id
  fitMiB :=
    if node.os = .darwin then
      if dep.spec.allocations.isSome then (plan.allocationOn node.id).map (·.ramMiB)
      else some (profile.layers * profile.layerMiB + profile.coordinatorHostMiB)
    else none
  stopExternal

def stageAssignment (deploymentId : DeploymentId) (plan : Plan)
    (e : NativeStageWorkerPlan) : StageAssignment where
  id
  deploymentId
  modelPath := e.modelPath
  modelSha256 := e.identity.modelSha256
  port := e.port
  ctx := plan.ctx
  identity := e.identity
  binarySha256 := e.binarySha256
  fitMiB := e.fitMiB
  enforceRamMiB := e.enforceRamMiB

/-- The worker at position `i` of the ring. It pushes to the next one when both have a peer port,
and admits the coordinator and the one before it. -/
def workerAssignment (reverseDial : Bool) (id : AssignmentId) (deploymentId : DeploymentId)
    (profile : ModelProfile) (plan : Plan) (coord : NodeRow) (workers : List (PlanWorker × NodeRow))
    (i : ℕ) (w : PlanWorker) (node : NodeRow) : WorkerAssignment where
  id
  deploymentId
  port := w.port
  device := w.device
  threads := w.threads
  memCapMiB := some w.memCapMiB
  layers := some w.layers
  modelLayers := some profile.layers
  peerPort := w.peerPort
  peers := do
    let next ← workers[i + 1]?
    let _ ← w.peerPort
    let peerPort ← next.1.peerPort
    pure [⟨i + 1, endpointFor next.2 peerPort⟩]
  serve := if reverseDial then some (endpointFor coord w.port) else none
  allow := coord.certFp ::
    ((if i = 0 then none else workers[i - 1]?).map (·.2.certFp)).toList
  enforce := some (plan.enforceOn node)

def setEnv (env : List (String × String)) (key value : String) : List (String × String) :=
  env.filter (·.1 ≠ key) ++ [(key, value)]

def coordinatorAssignment (reverseDial : Bool) (id : AssignmentId) (dep : Deployment)
    (profile : ModelProfile) (plan : Plan) (coord : NodeRow) (workers : List (PlanWorker × NodeRow))
    (port : ℕ) (stopExternal : Option String) : CoordinatorAssignment where
  id
  deploymentId := dep.id
  modelPath := plan.modelPath
  rpc := workers.map fun (w, node) ↦ { endpointFor node w.port with inbound := some reverseDial }
  devices := workers.mapIdx (fun i _ ↦ s!"RPC{i}") ++ [plan.coordinatorDevice]
  tensorSplit := plan.engineTensorSplit.getD plan.tensorSplit
  ctx := plan.ctx
  parallel := plan.parallel
  mtp := plan.mtp
  speculation := plan.speculation
  env := if plan.engineTensorSplit.isSome then setEnv plan.env "LLAMA_ARG_LOG_VERBOSITY" "4"
    else plan.env
  extraArgs := profile.extraArgs
  port
  modelName := some profile.modelName
  fitMiB :=
    if coord.os = .darwin then
      if dep.spec.allocations.isSome then (plan.allocationOn coord.id).map (·.ramMiB)
      else some (plan.tensorSplit.getLastD 0 * profile.layerMiB + profile.coordinatorHostMiB)
    else none
  stopExternal
  allow := []
  enforce := some (plan.enforceOn coord)

/-! ## Server ports -/

/-- `while (used.has(p)) p++`, for at most as many steps as there are used ports. -/
def freePortFrom (used : List ℕ) : ℕ → ℕ → ℕ
  | 0, p => p
  | steps + 1, p => if p ∈ used then freePortFrom used steps (p + 1) else p

def freePort (start : ℕ) : ℕ := freePortFrom used used.length start

theorem le_freePortFrom (steps p : ℕ) : p ≤ freePortFrom used steps p := by
  induction steps generalizing p with
  | zero => exact le_rfl
  | succ steps ih =>
    rw [freePortFrom]
    split_ifs
    · exact (Nat.le_succ p).trans (ih (p + 1))
    · exact le_rfl

private theorem freePortFrom_mem {used : List ℕ} {steps p : ℕ}
    (h : freePortFrom used steps p ∈ used) : ∀ q, p ≤ q → q ≤ p + steps → q ∈ used := by
  induction steps generalizing p with
  | zero =>
    intro q hpq hqp
    rw [Nat.le_antisymm hqp hpq]
    exact h
  | succ steps ih =>
    rw [freePortFrom] at h
    split_ifs at h with hp
    · intro q hpq hqp
      rcases hpq.eq_or_lt with rfl | hlt
      · exact hp
      · exact ih h q hlt (by omega)
    · exact absurd h hp

/-- **The scan finds a free port**: more ports are tried than are used. -/
theorem freePort_notMem (start : ℕ) : freePort used start ∉ used := by
  intro h
  have hall := freePortFrom_mem h
  have hsub : List.range' start (used.length + 1) ⊆ used := by
    intro q hq
    rw [List.mem_range'_1] at hq
    exact hall q hq.1 (by omega)
  have hlen := (List.subperm_of_subset List.nodup_range' hsub).length_le
  rw [List.length_range'] at hlen
  omega

end

theorem freePort_le {used : List ℕ} {start p : ℕ} (hp : start ≤ p) (hfree : p ∉ used) :
    freePort used start ≤ p := by
  suffices ∀ steps q, q ≤ p → freePortFrom used steps q ≤ p from this _ _ hp
  intro steps
  induction steps with
  | zero => exact fun q hq ↦ hq
  | succ steps ih =>
    intro q hq
    rw [freePortFrom]
    split_ifs with hmem
    · refine ih (q + 1) ?_
      rcases hq.eq_or_lt with rfl | hlt
      · exact absurd hmem hfree
      · exact hlt
    · exact hq

end Swarmlet
