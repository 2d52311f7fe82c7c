import Swarmlet.Control.Registry
import Swarmlet.Control.PhasePlan
import Swarmlet.Lib.JsString
import Swarmlet.Lib.Checked

/-!
# The placement planner

From a deployment spec, the model's profile and the registry's node rows to a `Plan`, or to a
refusal that lists every problem the planner found. The same input gives the same plan.

A planner function that *pushes* onto the shared error list in the source returns its errors here,
and the caller appends them in the source's order; a step that can only fail with one message is
an `Except String`. The explanations the planner collects next to the errors (`reasons`) decide
nothing and are left out.
-/

namespace Swarmlet

open Js Checked

/-! ## Constants and small readers -/

def DEFAULT_CTX : ℤ := 1536
def DEFAULT_PARALLEL : ℤ := 1
def DEFAULT_CHAIN : ℤ := 0
def WORKER_PORT_BASE : ℕ := 50200
def WORKER_PORT_STEP : ℕ := 10
def MAX_WORKER_THREADS : ℕ := 10
def MAX_SAFE_INTEGER : ℕ := 2 ^ 53 - 1

/-- Why planning failed: a `PlanError` with its reasons, or any other error. -/
inductive PlanFailure
  | plan (headline : String) (reasons : List String)
  | error (message : String)
deriving DecidableEq

def PlanFailure.message : PlanFailure → String
  | plan headline reasons =>
    if reasons = [] then headline else headline ++ " " ++ " ".intercalate reasons
  | error message => message

inductive Role
  | coordinator | replica | worker
deriving DecidableEq, Repr

def Role.text : Role → String
  | coordinator => "coordinator"
  | replica => "replica"
  | worker => "worker"

def Roles.has (r : Roles) : Role → Bool
  | .coordinator => r.coordinator
  | .replica => r.replica
  | .worker => r.worker

/-- What the planner reads: one request against one snapshot of the fleet. -/
structure PlanContext where
  rt : Runtime
  spec : DeploymentSpec
  profile : ModelProfile
  ctx : ℕ
  parallel : ℕ
  chain : ℕ
  all : List NodeRow
  /-- Online nodes with an enabled offer, by hostname then id. -/
  eligible : List NodeRow
  usedPorts : NodeId → List ℕ
  headline : String

structure GpuSlot where
  id : String
  engineName : String
  memMiB : ℕ
deriving DecidableEq

structure WorkerSlot where
  node : NodeRow
  gpu : GpuSlot
deriving DecidableEq

def byHost (a b : NodeRow) : Ordering :=
  (compareText a.hostname b.hostname).then (compareText a.id b.id)

def rttOf (n : NodeRow) : Option ℚ := (n.caps.bind (·.net)).map (·.rttMs)

def byRtt (a b : NodeRow) : Ordering :=
  match rttOf a, rttOf b with
  | some ra, some rb => if ra = rb then byHost a b else if ra < rb then .lt else .gt
  | some _, none => .lt
  | none, some _ => .gt
  | none, none => byHost a b

def dialableDirectly (n : NodeRow) : Bool := (n.caps.map (·.publicEndpoints.length)).getD 0 > 0

def findModel (rt : Runtime) (n : NodeRow) (pattern : String) : Option ModelFile :=
  n.models.find? fun m ↦ rt.test pattern m.name

def usableGpus (n : NodeRow) : List GpuDevice :=
  n.gpus.filter fun g ↦ g.backend ≠ .cpu && g.totalMiB > 0

def offeredGpu (n : NodeRow) : Option GpuSlot :=
  ((n.offer.map (·.gpu)).getD []).findSome? fun o ↦
    (n.gpus.find? (·.id = o.id)).bind fun d ↦
      if o.memMiB > 0 then some ⟨d.id, d.engineName, o.memMiB⟩ else none

def envFor (spec : DeploymentSpec) (workers : ℕ) : List (String × String) :=
  [("GGML_RPC_FORWARD", if spec.forwarding ≠ some false ∧ workers > 1 then "1" else "0"),
   ("GGML_RPC_PIPELINE", "1"),
   ("GGML_SCHED_PIPELINED_COPY", "1"),
   ("GGML_RPC_GET_PIPELINE", if spec.batchedGets = some false then "0" else "1"),
   ("GGML_RPC_WIRE", (spec.wire.getD .off).text)]

/-! ## Ports -/

def pickPortFrom (used : List ℕ) : ℕ → ℕ → Option ℕ
  | 0, _ => none
  | steps + 1, p =>
    if p ∉ used ∧ p + 1 ∉ used then some p else pickPortFrom used steps (p + WORKER_PORT_STEP)

/-- The number of steps `p` with `p + 1 < 65536` from the base up. -/
def WORKER_PORT_STEPS : ℕ := (65534 - WORKER_PORT_BASE) / WORKER_PORT_STEP + 1

def pickPort (used : List ℕ) : Except PlanFailure ℕ :=
  match pickPortFrom used WORKER_PORT_STEPS WORKER_PORT_BASE with
  | some p => .ok p
  | none => .error (.plan "No free worker port."
      [s!"Every port from {WORKER_PORT_BASE} upward in steps of {WORKER_PORT_STEP} is taken on " ++
       "this node."])

/-! ## Nodes named in a request -/

section

variable (c : PlanContext) (slots : List WorkerSlot)

/-- What keeps an enrolled node from taking a role (and serving the model when asked). -/
def nodeProblems (n : NodeRow) (role : Role) (needModel : Bool) : List String :=
  (if n.online then [] else ["is offline"]) ++
  (match n.offer with
    | none => ["has not published an offer"]
    | some o =>
      (if o.enabled then [] else ["has its offer disabled"]) ++
      (if o.roles.has role then [] else [s!"does not offer the {role.text} role"])) ++
  (if needModel && (findModel c.rt n c.profile.ggufPattern).isNone then
    [s!"holds no model matching {c.profile.ggufPattern}"] else [])

/-- A node named in the spec: enrolled, online, offering the role, holding the model when asked. -/
def requireNode (id : NodeId) (role : Role) (needModel : Bool) : Except String NodeRow :=
  match c.all.find? (·.id = id) with
  | none => .error s!"Requested {role.text} node {id} is not enrolled."
  | some n =>
    let problems := ", ".intercalate (nodeProblems c n role needModel)
    if nodeProblems c n role needModel = [] then .ok n
    else .error s!"Requested {role.text} node {n.hostname} {problems}."

def draftHead (n : NodeRow) : Except String (Option String) :=
  if c.chain = 0 then .ok none
  else match c.profile.mtpPattern with
    | none =>
      .error (s!"chain {c.chain} requested but profile {c.profile.id} has no mtpPattern (no " ++
        "draft head for this model).")
    | some mtp =>
      match findModel c.rt n mtp with
      | none =>
        .error (s!"chain {c.chain} needs a draft head matching {mtp} on {n.hostname}; none of " ++
          s!"its {n.models.length} model files match.")
      | some f => .ok (some f.path)

/-- Device for the layers a node keeps itself, and what does not fit its offer: all of it against
RAM on unified memory, else layers against the GPU offer and the host part against RAM, else all
of it in RAM on the CPU backend, which a node with a usable GPU is refused. -/
def placeResident (n : NodeRow) (layers : ℕ) (role : String) : String × List String :=
  let p := c.profile
  let ramMiB := (n.offer.map (·.ramMiB)).getD 0
  let layersMiB := layers * p.layerMiB
  let host := p.coordinatorHostMiB
  let need := layersMiB + host
  if n.os = .darwin then
    let device := (n.gpus.head?.map (·.engineName)).getD "CPU"
    (device, if need ≤ ramMiB then [] else
      [s!"{role} {n.hostname} cannot hold {layers} of {p.layers} layers: {layers} × " ++
       s!"{p.layerMiB} + {host} MiB host = {need} MiB exceeds the {ramMiB} MiB RAM offered " ++
       "(darwin, unified memory)."])
  else match offeredGpu n with
    | some gpu =>
      (gpu.engineName,
        (if layersMiB ≤ gpu.memMiB then [] else
          [s!"{role} {n.hostname} cannot hold {layers} of {p.layers} layers: {layers} × " ++
           s!"{p.layerMiB} = {layersMiB} MiB exceeds the {gpu.memMiB} MiB GPU offered on " ++
           s!"{gpu.engineName}."]) ++
        (if host ≤ ramMiB then [] else
          [s!"{role} {n.hostname} host side: {host} MiB exceeds the {ramMiB} MiB RAM offered."]))
    | none =>
      if usableGpus n ≠ [] then
        let unused := ", ".intercalate
          ((usableGpus n).map fun g ↦ s!"{g.name} ({g.engineName}, {g.totalMiB} MiB)")
        let elsewhere := String.ofList (role.toList.map foldCase)
        ("CPU", [s!"{role} {n.hostname} offers no GPU memory but has {unused}; CPU-only " ++
                 "placement is allowed only on nodes without a usable GPU. Offer GPU memory on " ++
                 s!"that node or place the {elsewhere} elsewhere."])
      else
        ("CPU", if need ≤ ramMiB then [] else
          [s!"{role} {n.hostname} cannot hold {layers} of {p.layers} layers on CPU (no GPU " ++
           s!"offered): {layers} × {p.layerMiB} + {host} MiB host = {need} MiB exceeds the " ++
           s!"{ramMiB} MiB RAM offered."])

/-! ## Replicas -/

def replicaNode : Except String NodeRow :=
  match c.spec.replicaNodeId with
  | some id => requireNode c id .replica true
  | none =>
    match c.eligible.find? fun n ↦ n.offer.any (·.roles.replica) &&
        (findModel c.rt n c.profile.ggufPattern).isSome with
    | some n => .ok n
    | none =>
      .error ("No online node offers the replica role and holds a model matching " ++
        s!"{c.profile.ggufPattern}.")

def planReplica : Except PlanFailure Plan := do
  let node ← (replicaNode c).mapError fun e ↦ .plan c.headline [e]
  let mtpPath := draftHead c node
  let resident := placeResident c node c.profile.layers "Replica"
  require (.plan c.headline) (problem mtpPath ++ resident.2)
  .ok {
    coordinatorNodeId := node.id
    coordinatorDevice := resident.1
    workers := []
    tensorSplit := []
    ctx := c.ctx
    parallel := c.parallel
    chain := c.chain
    speculation := c.spec.speculation
    env := envFor c.spec 0
    modelPath := ((findModel c.rt node c.profile.ggufPattern).map (·.path)).getD ""
    mtpPath := (mtpPath.toOption).join }

/-! ## Splits -/

def maxFitLayers (slot : WorkerSlot) (profile : ModelProfile) : ℕ :=
  let ramMiB := (slot.node.offer.map (·.ramMiB)).getD 0
  min ((slot.gpu.memMiB - profile.workerMarginMiB) / profile.layerMiB)
    ((ramMiB - profile.workerMarginMiB) / profile.layerMiB)

def ramShortfall (node : NodeRow) (needMiB : ℕ) : Option String :=
  match node.offer with
  | none => none
  | some offer =>
    if node.os ≠ .darwin ∨ needMiB ≤ offer.ramMiB then none
    else some (s!"{node.hostname} needs {needMiB} MiB resident but the node offers only " ++
      s!"{offer.ramMiB} MiB RAM (darwin unified memory: the agent's watchdog stops a worker " ++
      "above its own RAM offer)")

def rowBlockers (row : EnvelopeRow) : List String :=
  let p := c.profile
  (if c.ctx > row.maxCtx then [s!"ctx {c.ctx} > maxCtx {row.maxCtx}"] else []) ++
  (if c.parallel > row.maxParallel then
    [s!"parallel {c.parallel} > maxParallel {row.maxParallel}"] else []) ++
  (if c.chain > row.maxChain then [s!"chain {c.chain} > maxChain {row.maxChain}"] else []) ++
  if row.maxFit then
    slots.flatMap fun s ↦
      let fit := maxFitLayers s p
      (if fit < 1 then
        [s!"{s.node.hostname} cannot hold one layer: {p.layerMiB} + {p.workerMarginMiB} MiB " ++
         s!"margin exceeds its {s.gpu.memMiB} MiB GPU offer on {s.gpu.engineName}"] else []) ++
      (ramShortfall s.node (fit * p.layerMiB + p.workerMarginMiB)).toList
  else
    (if row.workerLayers * slots.length > p.layers - 1 then
      [s!"{slots.length} workers × {row.workerLayers} layers leave the coordinator none of the " ++
       s!"{p.layers} layers"] else []) ++
    slots.flatMap fun s ↦
      let need := row.workerLayers * p.layerMiB + p.workerMarginMiB
      (if need > s.gpu.memMiB then
        [s!"{s.node.hostname} needs {need} MiB for {row.workerLayers} layers but offers " ++
         s!"{s.gpu.memMiB} MiB on {s.gpu.engineName}"] else []) ++
      (ramShortfall s.node need).toList

def rowLabel (row : EnvelopeRow) : String :=
  let fit := if row.maxFit then " (max-fit)" else ""
  s!"row workerLayers {row.workerLayers}{fit} (maxCtx {row.maxCtx}, maxParallel " ++
  s!"{row.maxParallel}, maxChain {row.maxChain})"

def chooseRow : Except (List String) EnvelopeRow :=
  let p := c.profile
  let rows := sortBy (fun a b ↦ compare b.workerLayers a.workerLayers) p.envelope
  match rows.find? fun row ↦ rowBlockers c slots row = [] with
  | some row => .ok row
  | none => .error <|
      [s!"No envelope row of profile {p.id} fits ctx {c.ctx}, parallel {c.parallel}, chain " ++
       s!"{c.chain} on {slots.length} worker(s)."] ++
      slots.map (fun s ↦
        let maxLayers := (s.gpu.memMiB - p.workerMarginMiB) / p.layerMiB
        s!"{s.node.hostname}: {s.gpu.memMiB} MiB offered on {s.gpu.engineName} allows at most " ++
        s!"{maxLayers} layer(s) of {p.layerMiB} MiB after the {p.workerMarginMiB} MiB margin.") ++
      rows.map fun row ↦
        let label := rowLabel row
        let blocked := ", ".intercalate (rowBlockers c slots row)
        s!"Envelope {label}: {blocked}."

/-- What a worker needs for its layers is more than it offers on its GPU. -/
def overGpu (profile : ModelProfile) (s : WorkerSlot) (count : ℕ) : Bool :=
  count * profile.layerMiB + profile.workerMarginMiB > s.gpu.memMiB

def requestedLayerProblems (s : WorkerSlot) (count : ℕ) : List String :=
  let need := count * c.profile.layerMiB + c.profile.workerMarginMiB
  (if (c.profile.envelope.find? fun r ↦ r.workerLayers = count ∧ c.ctx ≤ r.maxCtx ∧
      c.parallel ≤ r.maxParallel ∧ c.chain ≤ r.maxChain).isSome then []
    else [s!"Worker {s.node.hostname}: no envelope row for requested {count} layers fits ctx " ++
          s!"{c.ctx}, parallel {c.parallel}, chain {c.chain}."]) ++
  (if overGpu c.profile s count then
    [s!"Worker {s.node.hostname} needs {need} MiB for requested {count} layers but offers " ++
     s!"{s.gpu.memMiB} MiB on {s.gpu.engineName}."]
    else []) ++
  (ramShortfall s.node need).toList.map fun ram ↦ s!"Worker {ram}."

/-- Explicit counts: each inside one complete envelope row and its own node's offers. -/
def requestedLayers (layers : List ℕ) : Except (List String) (List ℕ) := do
  require id <|
    (slots.zip layers).flatMap (fun (s, count) ↦ requestedLayerProblems c s count) ++
    if layers.sum ≥ c.profile.layers then
      [s!"Requested worker layers total {layers.sum} must leave the coordinator at least one of " ++
       s!"the {c.profile.layers} layers."]
    else []
  .ok layers

def argmax (layers : List ℕ) : ℕ :=
  (List.range layers.length).foldl (fun i j ↦ if layers.getD j 0 > layers.getD i 0 then j else i) 0

def shaveLargest (layers : List ℕ) : List ℕ := layers.modify (argmax layers) (· - 1)

/-- The loop `while (sum > limit)` that shaves the largest worker: every turn takes one layer, so
it makes `sum - limit` turns. -/
def shave (limit : ℕ) (layers : List ℕ) : List ℕ := shaveLargest^[layers.sum - limit] layers

def workerLayers (c : PlanContext) (slots : List WorkerSlot) : Except (List String) (List ℕ) :=
  match c.spec.workerLayers with
  | some layers => requestedLayers c slots (layers.map Int.toNat)
  | none => do
    let row ← chooseRow c slots
    if row.maxFit then .ok (shave (c.profile.layers - 1) (slots.map (maxFitLayers · c.profile)))
    else .ok (slots.map fun _ ↦ row.workerLayers)

def coordinatorCandidates : List NodeRow :=
  sortBy (fun a b ↦ (compare ((b.offer.map (·.ramMiB)).getD 0)
      ((a.offer.map (·.ramMiB)).getD 0)).then (byHost a b))
    (c.eligible.filter fun n ↦ n.offer.any (·.roles.coordinator) &&
      (findModel c.rt n c.profile.ggufPattern).isSome)

/-- The coordinator: the requested node, or the largest RAM offer among those that can serve. -/
def splitCoordinator : Except String NodeRow :=
  match c.spec.coordinatorNodeId with
  | some id => requireNode c id .coordinator true
  | none =>
    match coordinatorCandidates c with
    | coord :: _ => .ok coord
    | [] =>
      .error ("No online node offers the coordinator role and holds a model matching " ++
        s!"{c.profile.ggufPattern}.")

def requestedSlots (c : PlanContext) (coord : Option NodeRow) (seen : List NodeId) :
    List NodeId → List String × List WorkerSlot
  | [] => ([], [])
  | id :: rest =>
    if id ∈ seen then
      let others := requestedSlots c coord seen rest
      (s!"Worker {id} is listed twice." :: others.1, others.2)
    else
      let others := requestedSlots c coord (id :: seen) rest
      match coord.filter (·.id = id) with
      | some n =>
        (s!"{n.hostname} is the coordinator and cannot also be a worker." :: others.1, others.2)
      | none =>
        match requireNode c id .worker false with
        | .error e => (e :: others.1, others.2)
        | .ok n =>
          match offeredGpu n with
          | none => (s!"Requested worker {n.hostname} offers no GPU memory." :: others.1, others.2)
          | some gpu => (others.1, ⟨n, gpu⟩ :: others.2)

def automaticSlots (coord : Option NodeRow) : List WorkerSlot :=
  let workers := c.eligible.filter fun n ↦
    coord.all (·.id ≠ n.id) && n.offer.any (·.roles.worker) && (offeredGpu n).isSome
  let direct := sortBy byRtt (workers.filter dialableDirectly)
  let relayed := sortBy byRtt (workers.filter (!dialableDirectly ·))
  (direct ++ relayed).filterMap fun n ↦ (offeredGpu n).map (⟨n, ·⟩)

def splitSlots (coord : Option NodeRow) : List String × List WorkerSlot :=
  match c.spec.workerNodeIds with
  | some ids => requestedSlots c coord [] ids
  | none => ([], automaticSlots c coord)

def planWorker (forwarding : Bool) (slot : WorkerSlot) (layers : ℕ) :
    Except PlanFailure PlanWorker := do
  let port ← pickPort (c.usedPorts slot.node.id)
  .ok {
    nodeId := slot.node.id
    device := slot.gpu.engineName
    layers
    port
    peerPort := if forwarding then some (port + 1) else none
    threads := max 1 (min ((slot.node.offer.map (·.cpuCores)).getD 0) MAX_WORKER_THREADS)
    memCapMiB := slot.gpu.memMiB }

def splitPlan (coord : NodeRow) (slots : List WorkerSlot) (layers : List ℕ)
    (workers : List PlanWorker) : Plan :=
  let remaining := c.profile.layers - layers.sum
  { coordinatorNodeId := coord.id
    coordinatorDevice := (placeResident c coord remaining "Coordinator").1
    workers
    tensorSplit := workers.map (·.layers) ++ [remaining]
    -- Exact transformer counts need one extra engine weight for the output slot.
    engineTensorSplit := c.spec.workerLayers.map fun _ ↦ layers ++ [remaining + 1]
    ctx := c.ctx
    parallel := c.parallel
    chain := c.chain
    speculation := c.spec.speculation
    env := envFor c.spec slots.length
    modelPath := ((findModel c.rt coord c.profile.ggufPattern).map (·.path)).getD ""
    mtpPath := ((draftHead c coord).toOption).join }

def planSplit : Except PlanFailure Plan := do
  let coordinator := splitCoordinator c
  let workers := splitSlots c coordinator.toOption
  let slots := workers.2
  require (.plan c.headline) (problem coordinator ++ workers.1 ++
    if slots = [] then
      ["A split needs at least one worker; use kind replica to run the whole model on one node."]
    else [])
  let coord ← coordinator.mapError fun e ↦ .plan c.headline [e]
  let mtpPath := draftHead c coord
  let layers ← (workerLayers c slots).mapError fun errors ↦
    .plan c.headline (problem mtpPath ++ errors)
  require (.plan c.headline) (problem mtpPath ++
    (placeResident c coord (c.profile.layers - layers.sum) "Coordinator").2)
  let forwarding := decide (c.spec.forwarding ≠ some false ∧ slots.length > 1)
  let workers ← (slots.zip layers).mapM fun (slot, count) ↦ planWorker c forwarding slot count
  .ok (splitPlan c coord slots layers workers)

end

/-! ## Native execution -/

structure NativeQualifiedArtifact where
  name : String
  sha256 : String
  start : ℤ
  «end» : ℤ
deriving DecidableEq

structure NativeQualifiedEndpoint where
  artifact : NativeQualifiedArtifact
  binarySha256 : String
deriving DecidableEq

/-- A controller-owned admission record: this ordered combination of artifacts and binaries passed
its numerical proof. Request JSON cannot supply one. -/
structure Qwen35NativeQualification where
  mode : NativeMode
  sourceSha256 : String
  sourceSizeBytes : ℕ
  engine : String
  ctx : ℕ
  workspaceMiB : ℕ
  hostMiB : ℕ
  endpoints : List NativeQualifiedEndpoint
  evidenceSha256 : String
deriving DecidableEq

def NativeMode.kind : NativeMode → DeploymentKind
  | stages => .stages
  | prefillDecode => .prefillDecode

private def presentKey {α : Type*} (name : String) (o : Option α) : List String :=
  if o.isSome then [name] else []

def DeploymentSpec.keys (spec : DeploymentSpec) : List String :=
  ["name", "profile", "kind"] ++ presentKey "autoTopology" spec.autoTopology ++
  presentKey "autoModel" spec.autoModel ++ presentKey "coordinatorNodeId" spec.coordinatorNodeId ++
  presentKey "workerNodeIds" spec.workerNodeIds ++ presentKey "workerLayers" spec.workerLayers ++
  presentKey "replicaNodeId" spec.replicaNodeId ++ presentKey "allocations" spec.allocations ++
  presentKey "stages" spec.stages ++ presentKey "prefillNodeId" spec.prefillNodeId ++
  presentKey "decodeNodeId" spec.decodeNodeId ++ presentKey "modelSha256" spec.modelSha256 ++
  presentKey "ctx" spec.ctx ++ presentKey "parallel" spec.parallel ++
  presentKey "chain" spec.chain ++ presentKey "speculation" spec.speculation ++
  presentKey "wire" spec.wire ++ presentKey "batchedGets" spec.batchedGets ++
  presentKey "forwarding" spec.forwarding ++ presentKey "stopExternal" spec.stopExternal ++
  presentKey "transport" spec.transport ++ presentKey "external" spec.external

private theorem eq_none_of_presentKey {α : Type*} {name : String} {o : Option α}
    {allowed : List String} (h : ∀ key ∈ presentKey name o, key ∈ allowed)
    (hname : name ∉ allowed) : o = none := by
  by_contra hsome
  have hmem : name ∈ presentKey name o := by
    rw [presentKey, if_pos (Option.isSome_iff_ne_none.mpr hsome)]
    exact List.mem_singleton_self name
  exact hname (h name hmem)

theorem DeploymentSpec.eq_none_of_keys {spec : DeploymentSpec} {allowed : List String}
    (h : ∀ key ∈ spec.keys, key ∈ allowed) :
    ("coordinatorNodeId" ∉ allowed → spec.coordinatorNodeId = none) ∧
    ("workerNodeIds" ∉ allowed → spec.workerNodeIds = none) ∧
    ("workerLayers" ∉ allowed → spec.workerLayers = none) ∧
    ("replicaNodeId" ∉ allowed → spec.replicaNodeId = none) ∧
    ("allocations" ∉ allowed → spec.allocations = none) ∧
    ("stages" ∉ allowed → spec.stages = none) ∧
    ("speculation" ∉ allowed → spec.speculation = none) ∧
    ("wire" ∉ allowed → spec.wire = none) ∧
    ("batchedGets" ∉ allowed → spec.batchedGets = none) ∧
    ("forwarding" ∉ allowed → spec.forwarding = none) ∧
    ("stopExternal" ∉ allowed → spec.stopExternal = none) ∧
    ("external" ∉ allowed → spec.external = none) := by
  unfold keys at h
  simp only [List.forall_mem_append, and_assoc] at h
  obtain ⟨-, -, -, hcoordinator, hworkers, hlayers, hreplica, hallocations, hstages, -, -,
    -, -, -, -, hspeculation, hwire, hgets, hforwarding, hstop, -, hexternal⟩ := h
  exact ⟨eq_none_of_presentKey hcoordinator, eq_none_of_presentKey hworkers,
    eq_none_of_presentKey hlayers, eq_none_of_presentKey hreplica,
    eq_none_of_presentKey hallocations, eq_none_of_presentKey hstages,
    eq_none_of_presentKey hspeculation, eq_none_of_presentKey hwire, eq_none_of_presentKey hgets,
    eq_none_of_presentKey hforwarding, eq_none_of_presentKey hstop, eq_none_of_presentKey hexternal⟩

/-- The loop over the requested shards: `i` is the index, `from` where the last range ended. -/
def stageErrors (i : ℕ) (start : ℤ) (nodes : List NodeId) : List StageSpec → List String
  | [] =>
    if start = 24 then [] else ["Stage ranges must cover all 24 transformer blocks."]
  | s :: rest =>
    (if s.nodeId = "" ∨ s.nodeId ∈ nodes then
      [s!"Stage {i} requires a distinct non-empty nodeId."] else []) ++
    (if s.modelPath = "" ∨ isSha256 s.modelSha256 = false then
      [s!"Stage {i} requires a modelPath and lowercase SHA256."] else []) ++
    (if s.start ≠ start ∨ s.end ≤ s.start ∨ s.end > 24 then
      [s!"Stage {i} must continue a nonempty contiguous range within [0,24)."] else []) ++
    stageErrors (i + 1) s.end
      (if s.nodeId = "" ∨ s.nodeId ∈ nodes then nodes else s.nodeId :: nodes) rest

def nativeAllowedKeys (kind : DeploymentKind) : List String :=
  ["name", "profile", "kind", "ctx", "parallel", "chain", "transport"] ++
    if kind = .stages then ["stages"] else ["prefillNodeId", "decodeNodeId", "modelSha256"]

def named (id : Option NodeId) : Bool := id.any (· ≠ "")

def nativeRequestErrors (spec : DeploymentSpec) (ctx parallel chain : ℤ) : List String :=
  (spec.keys.filter (· ∉ nativeAllowedKeys spec.kind)).map
    (fun key ↦ s!"Native execution does not support field {key}.") ++
  (if spec.profile = "qwen35-2b-q8" then [] else
    ["Native execution only supports the qualified qwen35-2b-q8 profile."]) ++
  (if ctx = 1024 ∧ parallel = 1 ∧ chain = 0 then [] else
    ["Native execution requires ctx 1024, parallel 1 and chain 0."]) ++
  (if spec.transport = none ∨ spec.transport = some .relay then [] else
    ["Native execution currently requires authenticated relay transport."]) ++
  if spec.kind = .stages then
    match spec.stages.filter fun stages ↦ stages.length = 2 ∨ stages.length = 3 with
    | none => ["stages requires an ordered array of two or three shards."]
    | some stages => stageErrors 0 0 [] stages
  else
    (if named spec.prefillNodeId ≠ named spec.decodeNodeId then
      ["prefill-decode takes both prefillNodeId and decodeNodeId, or neither for automatic " ++
       "per-phase placement."]
    else if named spec.prefillNodeId ∧ spec.prefillNodeId = spec.decodeNodeId then
      ["prefill-decode requires distinct explicit prefillNodeId and decodeNodeId."]
    else []) ++
    (if spec.modelSha256.all isSha256 then [] else
      ["modelSha256 must be a lowercase SHA256 when present."])

theorem keys_of_nativeRequest {spec : DeploymentSpec} {ctx parallel chain : ℤ}
    (h : nativeRequestErrors spec ctx parallel chain = []) :
    ∀ key ∈ spec.keys, key ∈ nativeAllowedKeys spec.kind := by
  simp only [nativeRequestErrors, List.append_eq_nil_iff, List.map_eq_nil_iff,
    List.filter_eq_nil_iff, decide_eq_true_eq, not_not] at h
  exact h.1.1.1.1

/-- The loop over the artifacts of a record: every range lies in `[0,24)`; shards continue each
other and end at `24`, full contexts hold the whole source. -/
def validArtifacts (mode : NativeMode) (sourceSha256 : String) (start : ℤ) :
    List NativeQualifiedEndpoint → Bool
  | [] => mode ≠ .stages || start = 24
  | e :: rest =>
    isSha256 e.binarySha256 && e.artifact.name ≠ "" && basename e.artifact.name = e.artifact.name &&
    isSha256 e.artifact.sha256 && 0 ≤ e.artifact.start && e.artifact.start < e.artifact.end &&
    e.artifact.end ≤ 24 &&
    (if mode = .stages then decide (e.artifact.start = start)
      else e.artifact.start = 0 && e.artifact.end = 24 && e.artifact.sha256 = sourceSha256) &&
    validArtifacts mode sourceSha256 e.artifact.end rest

def positiveSafe (n : ℕ) : Bool := 1 ≤ n && n ≤ MAX_SAFE_INTEGER

section

variable (c : PlanContext) (n : NodeRow) (q : Qwen35NativeQualification)
  (qualifications : List Qwen35NativeQualification) (entry : NativeQualifiedEndpoint)

/-- Reject malformed controller records rather than treating a partial proof as admission. -/
def validNativeQualification : Bool :=
  isSha256 q.sourceSha256 && isSha256 q.evidenceSha256 && isSha256 q.engine && q.ctx = 1024 &&
  positiveSafe q.sourceSizeBytes && positiveSafe q.workspaceMiB && positiveSafe q.hostMiB &&
  (if q.mode = .stages then q.endpoints.length = 2 || q.endpoints.length = 3
    else decide (q.endpoints.length = 2)) &&
  validArtifacts q.mode q.sourceSha256 0 q.endpoints

def gpuNeedMiB : ℕ :=
  (q.sourceSizeBytes + 1048575) / 1048576 + q.workspaceMiB

def runsEngine : Bool :=
  (n.caps.bind (·.engine)).any fun e ↦ e.stages = some q.engine &&
    (e.sha256.find? (·.1 = "mesh-stage-worker")).any (·.2 = entry.binarySha256)

def artifactOn (path : Option String) : Option ModelFile :=
  n.models.find? fun m ↦ m.kind = .gguf && m.name = entry.artifact.name &&
    m.sha256 = some entry.artifact.sha256 && path.all (m.path = ·)

def nativeEndpointFits : Bool :=
  n.online && n.offer.any (fun o ↦ o.enabled && o.roles.replica && o.cpuCores ≥ 2) &&
  runsEngine n q entry && (artifactOn n entry none).isSome && n.gpus.length = 1 &&
  (offeredGpu n).any fun offered ↦
    n.gpus.head?.any (·.id = offered.id) && gpuNeedMiB q ≤ offered.memMiB &&
    n.offer.any fun o ↦
      if n.os = .darwin then gpuNeedMiB q + q.hostMiB ≤ o.ramMiB else q.hostMiB ≤ o.ramMiB

def NATIVE_STATE_TRANSFER_BYTES_PER_SEC : ℚ := 9 / 10 * 2 ^ 20

def phaseChoice : Except String PhasePlan :=
  let prefill := c.eligible.filter fun n ↦ q.endpoints[0]?.any (nativeEndpointFits n q)
  let decode := c.eligible.filter fun n ↦ q.endpoints[1]?.any (nativeEndpointFits n q)
  let shortSha := String.ofList (q.evidenceSha256.toList.take 12)
  let noPrefill := if prefill = [] then "prefill " else ""
  let noDecode := if decode = [] then "decode " else ""
  if prefill = [] ∨ decode = [] then
    .error s!"qualification {shortSha} has no {noPrefill}{noDecode}candidate online"
  else
    (choosePhasePlan c.rt {
      candidates := (distinct (prefill ++ decode)).map fun n ↦
        ⟨n.id, n.metrics.bind (·.prefillTokPerSec), n.metrics.bind (·.tokPerSec)⟩
      promptTokens := 512
      outputTokens := 64
      stateBytesPerToken := c.profile.boundaryBytes
      transferBytesPerSec := fun _ _ ↦ NATIVE_STATE_TRANSFER_BYTES_PER_SEC
      prefillNodeIds := some (prefill.map (·.id))
      decodeNodeIds := some (decode.map (·.id)) }).mapError fun e ↦
      s!"qualification {shortSha}: {e}"

def fasterChoice (best : Option PhasePlan) (choice : Except String PhasePlan) : Option PhasePlan :=
  match choice, best with
  | .error _, _ => best
  | .ok plan, none => some plan
  | .ok plan, some b => if plan.estimatedMs < b.estimatedMs then some plan else some b

def phaseQualifications : List Qwen35NativeQualification :=
  qualifications.filter fun q ↦ validNativeQualification q &&
    q.mode = .prefillDecode && q.ctx = c.ctx && q.endpoints.length = 2

def bestPhasePlan : Option PhasePlan :=
  ((phaseQualifications c qualifications).map (phaseChoice c)).foldl fasterChoice none

def chooseNativePhaseNodes : Except String (NodeId × NodeId) :=
  let usable := phaseQualifications c qualifications
  if usable = [] then
    .error ("No controller-owned prefill-decode qualification exists for this profile; record a " ++
      "passing proof before automatic phase placement.")
  else match bestPhasePlan c qualifications with
    | none =>
      let rejections := "; ".intercalate ((usable.map (phaseChoice c)).flatMap problem)
      .error s!"No qualified phase placement: {rejections}."
    | some plan =>
      if plan.isLocal then
        let node := ((c.eligible.find? (·.id = plan.prefillNodeId)).map (·.hostname)).getD
          plan.prefillNodeId
        let speeds := " ".intercalate (plan.reasons.filter fun r ↦
          startsWith (plan.prefillNodeId ++ ":").toList r.toList)
        let stateMiB := c.rt.toFixed (512 * c.profile.boundaryBytes / 1048576) 1
        .error (s!"Measured phase speeds make a single-node deployment optimal: {node} " ++
          s!"({speeds}) is fastest for both phases, and a split would add {stateMiB} MiB of " ++
          "capsule transfer for the reference request. Create a replica deployment instead of " ++
          "prefill-decode.")
      else .ok (plan.prefillNodeId, plan.decodeNodeId)

def nativeNodeIds : Except String (List NodeId) :=
  if c.spec.kind = .stages then .ok ((c.spec.stages.getD []).map (·.nodeId))
  else if named c.spec.prefillNodeId ∨ named c.spec.decodeNodeId then
    .ok [c.spec.prefillNodeId.getD "", c.spec.decodeNodeId.getD ""]
  else (chooseNativePhaseNodes c qualifications).map fun (prefill, decode) ↦ [prefill, decode]

/-- A record covers one endpoint: the artifact the spec asks for is the qualified one, and the
node has the engine and the hashed file. -/
def qualifies (n : NodeRow) (requested : Option StageSpec) : Bool :=
  runsEngine n q entry &&
  (match requested with
    | some r => r.modelSha256 = entry.artifact.sha256 && r.start = entry.artifact.start &&
        r.end = entry.artifact.end && basename r.modelPath = entry.artifact.name
    | none => c.spec.modelSha256.all fun sha ↦ sha = "" || sha = q.sourceSha256) &&
  (artifactOn n entry (requested.map (·.modelPath))).isSome

def nativeEndpointErrors (n : NodeRow) : List String :=
  let offered := offeredGpu n
  let gpuNeed := gpuNeedMiB q
  let fit := gpuNeed + q.hostMiB
  let ramMiB := (n.offer.map (·.ramMiB)).getD 0
  let gpuMiB := (offered.map (·.memMiB)).getD 0
  (if offered.any fun o ↦ n.gpus.length = 1 && n.gpus.head?.any (·.id = o.id) then [] else
    [s!"Native node {n.hostname} requires exactly one advertised GPU which is offered; the " ++
     "native CLI cannot select among devices."]) ++
  (if n.offer.any (·.cpuCores ≥ 2) then [] else
    [s!"Native node {n.hostname} must offer two CPU cores for the fixed native worker threads."]) ++
  if n.os = .darwin then
    (if fit > ramMiB then
      [s!"Native node {n.hostname} needs {fit} MiB unified RAM (whole source model, qualified " ++
       s!"workspace and host), exceeding its {ramMiB} MiB offer."] else []) ++
    (if offered.isSome ∧ gpuNeed > gpuMiB then
      [s!"Native node {n.hostname} needs {gpuNeed} MiB GPU memory, exceeding its {gpuMiB} MiB " ++
       "offer."] else [])
  else
    (if offered.isSome ∧ gpuNeed > gpuMiB then
      [s!"Native node {n.hostname} needs {gpuNeed} MiB GPU memory (whole source model plus " ++
       s!"qualified workspace), exceeding its {gpuMiB} MiB offer."] else []) ++
    (if q.hostMiB > ramMiB then
      [s!"Native node {n.hostname} needs {q.hostMiB} MiB host RAM, exceeding its {ramMiB} MiB " ++
       "offer."] else [])

def nativeEndpoint (n : NodeRow) (requested : Option StageSpec) :
    Except PlanFailure NativeStageWorkerPlan := do
  let port ← pickPort (c.usedPorts n.id)
  let stage (text : String) := if c.spec.kind = .stages then text else ""
  .ok {
    nodeId := n.id
    port
    modelPath := ((artifactOn n entry (requested.map (·.modelPath))).map (·.path)).getD ""
    device := (n.gpus.head?.map (·.engineName)).getD ""
    binarySha256 := entry.binarySha256
    fitMiB := if n.os = .darwin then some (gpuNeedMiB q + q.hostMiB) else none
    enforceRamMiB := (n.offer.map (·.ramMiB)).getD 0
    identity := {
      engine := q.engine
      modelSha256 := entry.artifact.sha256
      sourceSha256 := q.sourceSha256
      stageStart := stage (toString entry.artifact.start)
      stageEnd := stage (toString entry.artifact.end)
      stageTotal := stage "24" } }

end

def nativeSlots (c : PlanContext) (q : Qwen35NativeQualification) (nodes : List NodeRow) :
    List (NativeQualifiedEndpoint × NodeRow × Option StageSpec) :=
  (q.endpoints.zip nodes).zipIdx.map fun ((entry, n), i) ↦
    (entry, n, c.spec.stages.bind (·[i]?))

def stateTransfer (q : Qwen35NativeQualification) : Option StateTransferQualification :=
  match q.mode, q.endpoints with
  | .prefillDecode, source :: target :: _ =>
    some ⟨source.binarySha256, target.binarySha256, q.evidenceSha256⟩
  | _, _ => none

def nativeQualification (c : PlanContext) (qualifications : List Qwen35NativeQualification)
    (nodes : List NodeRow) : Option Qwen35NativeQualification :=
  let candidates := qualifications.filter fun q ↦ validNativeQualification q &&
    q.mode.kind = c.spec.kind && q.ctx = c.ctx && q.endpoints.length = nodes.length
  candidates.find? fun q ↦ (nativeSlots c q nodes).all fun (entry, n, requested) ↦
    qualifies c q entry n requested

def planNative (c : PlanContext) (qualifications : List Qwen35NativeQualification) :
    Except PlanFailure Plan := do
  require (.plan c.headline) <|
    if c.profile.id = "qwen35-2b-q8" ∧ c.profile.layers = 24 then [] else
      ["Native execution requires the unchanged 24-block Qwen35-2B profile."]
  let ids ← (nativeNodeIds c qualifications).mapError fun e ↦ .plan c.headline [e]
  let role := if c.spec.kind = .stages then Role.worker else .replica
  let found := ids.map fun id ↦ requireNode c id role false
  require (.plan c.headline) (found.flatMap problem)
  let nodes := found.filterMap (·.toOption)
  match nativeQualification c qualifications nodes with
  | none =>
    .error (.plan c.headline
      ["No controller-owned native qualification matches the requested ordered artifacts, " ++
       "source ABI, installed binary hashes and hashed model inventories. Native execution " ++
       "remains unqualified; rescan models with hashes and record a passing proof before " ++
       "admission."])
  | some q =>
    let endpoints ← (nativeSlots c q nodes).mapM fun (entry, n, requested) ↦
      nativeEndpoint c q entry n requested
    require (.plan c.headline) (nodes.flatMap (nativeEndpointErrors q))
    .ok {
      coordinatorNodeId := (endpoints.head?.map (·.nodeId)).getD ""
      coordinatorDevice := (endpoints.head?.map (·.device)).getD ""
      workers := []
      tensorSplit := []
      ctx := 1024
      parallel := 1
      chain := 0
      env := []
      modelPath := (endpoints.head?.map (·.modelPath)).getD ""
      nativeExecution := some ⟨q.mode, endpoints, q.evidenceSha256, stateTransfer q⟩ }

/-! ## Planning a request -/

structure PlanInput where
  spec : DeploymentSpec
  profile : ModelProfile
  nodes : List NodeRow
  usedPorts : NodeId → List ℕ
  nativeQualifications : List Qwen35NativeQualification

def requestErrors (spec : DeploymentSpec) (ctx parallel chain : ℤ) : List String :=
  (if ctx < 1 then [s!"ctx must be a positive integer, got {ctx}."] else []) ++
  (if parallel < 1 then [s!"parallel must be a positive integer, got {parallel}."] else []) ++
  (if chain < 0 then [s!"chain must be an integer >= 0, got {chain}."] else []) ++
  (if spec.kind = .replica ∧ chain > 0 then
    ["Replica MTP is not qualified: draft-head residency is not included in the replica memory " ++
     "admission check; use chain 0."] else []) ++
  (if spec.speculation.isSome ∧ chain > 0 then
    ["speculation cannot be combined with an MTP chain > 0."] else []) ++
  (if spec.kind = .external then
    ["kind \"external\" is not placed by the planner; external deployments are registered, not " ++
     "planned."] else []) ++
  (if spec.kind.isNative then nativeRequestErrors spec ctx parallel chain
    else if spec.stages.isSome ∨ spec.prefillNodeId.isSome ∨ spec.decodeNodeId.isSome ∨
      spec.modelSha256.isSome then
      ["Native placement fields require kind stages or prefill-decode."] else []) ++
  (if spec.workerNodeIds.any (·.any (· = "")) then
    ["workerNodeIds must be an array of non-empty node IDs."] else []) ++
  match spec.workerLayers with
  | none => []
  | some layers =>
    (if chain > 0 then
      ["Exact workerLayers with MTP is not qualified; use chain 0 until target block-count and " ++
       "draft residency are qualified together."] else []) ++
    (if spec.kind ≠ .split then ["workerLayers is only valid for split deployments."] else []) ++
    (if layers = [] ∨ layers.any (fun n ↦ n < 1 ∨ n > MAX_SAFE_INTEGER) then
      ["workerLayers must be a non-empty array of positive safe integers."] else []) ++
    (if spec.workerNodeIds.all (·.length ≠ layers.length) then
      ["workerLayers requires explicit workerNodeIds with the same length and order."] else [])

def planContext (rt : Runtime) (input : PlanInput) (ctx parallel chain : ℤ) : PlanContext where
  rt
  spec := input.spec
  profile := input.profile
  ctx := ctx.toNat
  parallel := parallel.toNat
  chain := chain.toNat
  all := input.nodes
  eligible := (sortBy byHost input.nodes).filter fun n ↦ n.online && n.offers
  usedPorts := input.usedPorts
  headline := s!"Deployment \"{input.spec.name}\" ({input.profile.id}, {input.spec.kind.text}) " ++
    "cannot be planned."

/-- Deterministic placement. -/
def planDeployment (rt : Runtime) (input : PlanInput) : Except PlanFailure Plan := do
  let spec := input.spec
  let ctx := spec.ctx.getD (if spec.kind.isNative then 1024 else DEFAULT_CTX)
  let parallel := spec.parallel.getD DEFAULT_PARALLEL
  let chain := spec.chain.getD DEFAULT_CHAIN
  let c := planContext rt input ctx parallel chain
  require (.plan c.headline) (requestErrors spec ctx parallel chain)
  if spec.kind.isNative then planNative c input.nativeQualifications
  else if spec.kind = .replica then planReplica c
  else planSplit c

/-- Engine device list of the coordinator: `RPC0 .. RPC<n-1>`, then its own device. -/
def planDevices (plan : Plan) : List String :=
  plan.workers.zipIdx.map (fun (_, i) ↦ s!"RPC{i}") ++ [plan.coordinatorDevice]

end Swarmlet
