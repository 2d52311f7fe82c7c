import Swarmlet.Control.Resources
import Swarmlet.Lib.JsNumber

/-!
# Fleet allocation

Bounded, deterministic placement of several deployments at once. A preview tries a few levels of
CPU sharing; at each level it places the selected deployments one after another, the scarcest
first, against a ledger that grows with every placement, and it keeps the level that places most.

Scores and the host's measured memory are exact rationals here. The preview's revision is the hash
`revision` of its input, a host function.
-/

namespace Swarmlet

open Js

/-! ## Requests, inputs and results -/

inductive PlacementKind
  | replica | split
deriving DecidableEq, Repr

def PlacementKind.kind : PlacementKind → DeploymentKind
  | replica => .replica
  | split => .split

structure FleetPlacement where
  kind : PlacementKind
  replicaNodeId : Option NodeId := none
  coordinatorNodeId : Option NodeId := none
  workerNodeIds : Option (List NodeId) := none
  workerLayers : Option (List ℤ) := none
deriving DecidableEq

/-- How a selected deployment is placed; a manual item names its placement. -/
inductive FleetMode
  | balanced | keep | manual (placement : FleetPlacement)
deriving DecidableEq

structure FleetItem where
  deploymentId : DeploymentId
  mode : FleetMode
  cpuCores : Option ℕ := none
deriving DecidableEq

/-- A request of the right shape, for distinct deployments and on distinct pool nodes. The bounds on
its values are checked by `parseFleetRequest`. -/
structure FleetRequest where
  items : List FleetItem
  poolNodeIds : List NodeId
  distinctItems : (items.map (·.deploymentId)).Nodup
  distinctPool : poolNodeIds.Nodup

structure FleetEntry where
  deploymentId : DeploymentId
  name : String
  before : FleetPlacement
  spec : Option DeploymentSpec := none
  plan : Option Plan := none
  score : Option ℚ := none
  error : Option String := none
deriving DecidableEq

/-- A snapshot of the fleet. Ids are primary keys of the registry. -/
structure FleetInput where
  nodes : List NodeRow
  deployments : List Deployment
  assignments : List AssignmentRow
  profiles : List ModelProfile
  now : ℕ
  distinctNodes : (nodes.map (·.id)).Nodup
  distinctDeployments : (deployments.map (·.id)).Nodup

structure FleetPreview where
  entries : List FleetEntry
  canApply : Bool
  plannedCount : ℕ
  selectedCount : ℕ
  allocations : List NodeAllocation
  warnings : List String
  evaluatedCandidates : ℕ

section

variable (input : FleetInput) (selected : List DeploymentId)

def FleetInput.profile (id : String) : Option ModelProfile :=
  input.profiles.find? (·.id = id)

def FleetInput.node (id : NodeId) : Option NodeRow :=
  input.nodes.find? (·.id = id)

def FleetInput.deployment (id : DeploymentId) : Option Deployment :=
  input.deployments.find? (·.id = id)

/-! ## Reading a request -/

/-- `id`: a text of 1 to 128 characters. -/
def fleetId (v : String) : Bool := 1 ≤ Js.length v && Js.length v ≤ 128

/-- The checks of a manual placement: a replica names only its node, a split its coordinator and
distinct workers. -/
def parsePlacement (p : FleetPlacement) : Except String Unit :=
  if p.kind = .replica ∧ ¬(p.replicaNodeId.any fleetId = true ∧ p.coordinatorNodeId = none ∧
      p.workerNodeIds = none ∧ p.workerLayers = none) then
    .error "Replica placement needs only a replica node."
  else if p.kind = .split ∧ ¬(p.coordinatorNodeId.any fleetId = true ∧ p.replicaNodeId = none ∧
      p.workerNodeIds.any (fun ids ↦ ids ≠ [] && ids.length ≤ 1000 && ids.all fleetId &&
        decide ids.Nodup) = true) then
    .error "Split placement needs a coordinator and distinct workers."
  else if p.workerLayers.any (fun layers ↦ some layers.length ≠ p.workerNodeIds.map (·.length) ||
      layers.any fun n ↦ n < 1 || MAX_SAFE_INTEGER < n) then
    .error "Layer counts must match the worker list."
  else .ok ()

def parseFleetItem (item : FleetItem) : Except String Unit :=
  if fleetId item.deploymentId = false then .error "Invalid or duplicate deployment selection."
  else if item.cpuCores.any fun n ↦ n < 1 || 65536 < n then
    .error "CPU budget must be a positive integer."
  else match item.mode with
  | .manual placement => parsePlacement placement
  | _ => .ok ()

def parseFleetRequest (request : FleetRequest) : Except String Unit :=
  if request.items = [] ∨ 500 < request.items.length ∨ request.poolNodeIds = [] ∨
      2000 < request.poolNodeIds.length ∨ request.poolNodeIds.all fleetId = false then
    .error "Choose 1–500 deployments and 1–2000 distinct pool nodes."
  else request.items.forM parseFleetItem

/-! ## Placements -/

def currentPlacement (dep : Deployment) : FleetPlacement :=
  if dep.spec.kind = .replica then
    { kind := .replica
      replicaNodeId := (dep.plan.map (·.coordinatorNodeId)).orElse fun _ ↦ dep.spec.replicaNodeId }
  else
    { kind := .split
      coordinatorNodeId :=
        (dep.plan.map (·.coordinatorNodeId)).orElse fun _ ↦ dep.spec.coordinatorNodeId
      workerNodeIds :=
        (dep.plan.map (·.workers.map (·.nodeId))).orElse fun _ ↦ dep.spec.workerNodeIds
      workerLayers := dep.spec.workerLayers }

def placementSpec (base : DeploymentSpec) (placement : FleetPlacement) : DeploymentSpec :=
  { base with
    kind := placement.kind.kind
    replicaNodeId := placement.replicaNodeId
    coordinatorNodeId := placement.coordinatorNodeId
    workerNodeIds := placement.workerNodeIds
    workerLayers := placement.workerLayers
    allocations := none }

def FleetPlacement.ids (p : FleetPlacement) : List (Option NodeId) :=
  (p.replicaNodeId.orElse fun _ ↦ p.coordinatorNodeId) :: (p.workerNodeIds.getD []).map some

/-! ## Readers -/

def freshRtt (node : NodeRow) (now : ℕ) : Option ℚ :=
  ((node.metrics.bind (·.link)).orElse fun _ ↦ node.caps.bind (·.net)).bind fun m ↦
    if 0 ≤ m.rttMs ∧ now < m.measuredAt + 3600000 then some m.rttMs else none

def modelOn (rt : Runtime) (node : NodeRow) (profile : ModelProfile) : Bool :=
  node.models.any fun m ↦ m.kind = .gguf && rt.test profile.ggufPattern m.name

def gpuMemory (node : NodeRow) : ℕ :=
  ((node.offer.map (·.gpu.map (·.memMiB))).getD []).foldl max 0

def fleetUsedPorts (assignments : List AssignmentRow) (exclude : List DeploymentId)
    (nodeId : NodeId) : List ℕ :=
  (assignments.filter fun a ↦ a.live && a.deploymentId ∉ exclude && a.nodeId = nodeId).flatMap
    (·.body.ports)

def occupyPorts (ports : NodeId → List ℕ) (plan : Plan) (nodeId : NodeId) : List ℕ :=
  ports nodeId ++ (plan.workers.filter (·.nodeId = nodeId)).flatMap fun w ↦
    w.port :: w.peerPort.toList

/-! ## Measured host memory -/

def entryTotals (entries : List FleetEntry) : ResourceLedger :=
  addAllocations [] (entries.flatMap fun e ↦ (e.plan.bind (·.allocations)).getD [])

def gpuMemoryErrors (node : NodeRow) (metrics : NodeMetrics) (value : NodeAllocation) :
    List String :=
  value.gpu.flatMap fun gpu ↦
    match node.gpus.find? (·.id = gpu.id), metrics.gpu.find? (·.id = gpu.id) with
    | some device, some observed =>
      let available := max 0 ((device.totalMiB : ℚ) - observed.usedMiB)
      let floor := ⌊available⌋
      if (gpu.memMiB : ℚ) > available then
        [s!"{node.hostname}: {gpu.id} needs {gpu.memMiB} MiB; current measured GPU availability " ++
         s!"is only {floor} MiB."]
      else []
    | _, _ => []

def ramMemoryErrors (node : NodeRow)
    (metrics : NodeMetrics) (value : NodeAllocation) : List String :=
  match metrics.freeRamMiB with
  | none => []
  | some freeRamMiB =>
    if node.os ≠ .darwin then [] else
      let outside := reservedResources input.deployments input.assignments input.nodes selected
      let reservations := reservedResources (input.deployments.filter (·.id ∈ selected))
        (input.assignments.filter (·.deploymentId ∈ selected)) input.nodes []
      let hasSelected := input.assignments.any fun a ↦
        a.nodeId = node.id && a.deploymentId ∈ selected && a.live && !a.healthWatch
      let reclaim : ℚ := if hasSelected then
        min ((reservations.at node.id).ramMiB : ℚ) (max 0 (metrics.rssMiB.getD 0)) else 0
      let future := value.ramMiB + (outside.at node.id).ramMiB
      let offered : ℕ := (node.offer.map (·.ramMiB)).getD 0
      let available := min (offered : ℚ) (max 0 freeRamMiB + reclaim)
      let floor := ⌊available⌋
      if (future : ℚ) > available then
        [s!"{node.hostname}: plan needs {future} MiB RAM; current free RAM plus reclaimable " ++
         s!"agent RSS is only {floor} MiB."]
      else []

/-- What a node's fresh measurements say against the share planned on it. -/
def nodeMemoryErrors (value : NodeAllocation) : List String :=
  match input.node value.nodeId with
  | none => []
  | some node =>
    match node.metrics with
    | none => []
    | some metrics =>
      match metrics.ts with
      | none => []
      | some ts =>
        if input.now > ts + 15000 then []
        else gpuMemoryErrors node metrics value ++ ramMemoryErrors input selected node metrics value

/-- Fresh host memory is an additional admission bound, not a source of free capacity. -/
def hostMemoryErrors (entries : List FleetEntry) (selected : List DeploymentId) : List String :=
  (entryTotals entries).flatMap (nodeMemoryErrors input selected)

end

/-! ## Trying one placement -/

/-- What stays fixed while one deployment is placed at one level of sharing. -/
structure AttemptContext where
  rt : Runtime
  quals : List Qwen35NativeQualification
  input : FleetInput
  selected : List DeploymentId
  pool : List NodeId
  sharing : ℕ
  item : FleetItem
  dep : Deployment
  profile : ModelProfile
  ledger : ResourceLedger
  ports : NodeId → List ℕ
  placed : List FleetEntry
  free : List NodeRow

structure Winner where
  spec : DeploymentSpec
  plan : Plan
  score : ℚ
deriving DecidableEq

/-- The search so far: the best placement, the first three distinct failures, and a count. -/
structure Search where
  winner : Option Winner := none
  failures : List String := []
  evaluated : ℕ := 0

section

variable (c : AttemptContext) (dep : Deployment) (placement : FleetPlacement)

def budgetFor (base : Plan) (n : NodeRow) (a : NodeAllocation) : NodeAllocation :=
  let left := (offeredAllocation n)
  let offered := ((c.input.node n.id).map fun m ↦ (offeredAllocation m).cpuCores).getD 0
  let limit := if base.workers.any (·.nodeId = a.nodeId) then MAX_WORKER_THREADS else left.cpuCores
  { nodeId := a.nodeId
    ramMiB := min left.ramMiB (timesUp a.ramMiB double_1_2 64)
    cpuCores := c.item.cpuCores.getD (max 1 (min (min left.cpuCores limit) (offered / c.sharing)))
    gpu := a.gpu.map fun g ↦
      ⟨g.id, min (((left.gpu.find? (·.id = g.id)).map (·.memMiB)).getD 0)
        (timesUp g.memMiB double_1_1 64)⟩ }

def budgetedSpec : Except PlanFailure DeploymentSpec := do
  let spec := placementSpec c.dep.spec placement
  if placement.ids.any fun id ↦ !id.any (· ∈ c.pool) then
    .error (.error "Every assigned node must be in the selected hardware pool.")
  else
    let nodes := c.free.filter fun n ↦ some n.id ∈ placement.ids
    let base ← planDeployment c.rt ⟨spec, c.profile, nodes, c.ports, c.quals⟩
    let budgets := (minimumAllocations base c.profile nodes).map fun a ↦
      match nodes.find? (·.id = a.nodeId) with
      | some n => budgetFor c base n a
      | none => a
    .ok { spec with allocations := some budgets }

def budgetCost (a : NodeAllocation) : ℚ :=
  let offer := ((c.input.node a.nodeId).map offeredAllocation).getD (emptyAllocation a.nodeId)
  let used := c.ledger.at a.nodeId
  let memory (gpu : List GpuOffer) (id : String) : ℚ :=
    ((gpu.find? (·.id = id)).map (·.memMiB)).getD 0
  15 * ((a.ramMiB + used.ramMiB : ℚ) / offer.ramMiB) ^ 2 +
  (a.gpu.map fun g ↦ 15 * ((g.memMiB + memory used.gpu g.id) / memory offer.gpu g.id) ^ 2).sum +
  (if used.cpuCores > 0 then 10 else 0) + 12 * (1 - (a.cpuCores : ℚ) / offer.cpuCores)

def placementScore (plan : Plan) : ℚ :=
  let times := (planNodeIds plan).map fun id ↦ (c.input.node id).bind (freshRtt · c.input.now)
  ((plan.allocations.getD []).map (budgetCost c)).sum + plan.workers.length * 12 +
  (times.map fun t ↦ min (t.getD 100) 1000 / 10).sum +
  (if plan.coordinatorDevice = "CPU" then 60 else 0) +
  if placement = currentPlacement c.dep then 0 else 3

def planAttempt : Except PlanFailure Winner := do
  let spec ← budgetedSpec c placement
  let plan ← planWithResources c.rt ⟨spec, c.profile, c.input.nodes, c.ledger, c.ports, c.quals⟩
  .ok ⟨spec, plan, placementScore c placement plan⟩

def entryOf (w : Winner) : FleetEntry :=
  { deploymentId := dep.id, name := dep.spec.name, before := currentPlacement dep
    spec := some w.spec, plan := some w.plan, score := some w.score }

def considerWinner (current : Option Winner) (w : Winner) : Except PlanFailure (Option Winner) :=
  if current.all fun best ↦ w.score < best.score then
    let errors := hostMemoryErrors c.input (c.placed ++ [entryOf c.dep w]) c.selected
    if errors = [] then .ok (some w) else .error (.error (" ".intercalate errors))
  else .ok current

def attempt (s : Search) : Bool × Search :=
  let s := { s with evaluated := s.evaluated + 1 }
  match planAttempt c placement >>= considerWinner c s.winner with
  | .ok winner => (true, { s with winner })
  | .error e => (false, if s.failures.length < 3 ∧ e.message ∉ s.failures then
      { s with failures := s.failures ++ [e.message] } else s)

/-! ## Searching the placements of one deployment -/

def attemptUpTo (c : AttemptContext) : ℕ → List FleetPlacement → Search → Search
  | _, [], s => s
  | limit, p :: rest, s =>
    let r := attempt c p s
    if r.1 then
      if limit ≤ 1 then r.2 else attemptUpTo c (limit - 1) rest r.2
    else attemptUpTo c limit rest r.2

def attemptAll (c : AttemptContext) : List FleetPlacement → Bool × Search → Bool × Search
  | [], r => r
  | p :: rest, r =>
    let r' := attempt c p r.2
    attemptAll c rest (r'.1 || r.1, r'.2)

def fleetRank (rt : Runtime) (now : ℕ) (a b : NodeRow) : Ordering :=
  (compare ((freshRtt a now).getD 100) ((freshRtt b now).getD 100)).then <|
  (compare (gpuMemory b) (gpuMemory a)).then <|
  (compare (offeredAllocation b).ramMiB (offeredAllocation a).ramMiB).then <|
  rt.localeCompare a.id b.id

def envelopeCounts (profile : ModelProfile) : List ℕ :=
  sortBy (fun a b ↦ compare b a) <|
    ((profile.envelope.filter fun r ↦ dep.spec.ctx.getD 1536 ≤ r.maxCtx &&
      dep.spec.parallel.getD 1 ≤ r.maxParallel && dep.spec.chain.getD 0 ≤ r.maxChain).map
        (·.workerLayers)).filter (· > 0)

/-- The greedy layer counts of a group: the most each worker can hold while the rest still get the
least; `none` where one of them can hold nothing. -/
def groupLayers (profile : ModelProfile) (rows : List ℕ) (least : ℕ) :
    List NodeRow → ℕ → Option (List ℕ)
  | [], _ => some []
  | n :: rest, left =>
    (rows.find? fun k ↦ k * profile.layerMiB + profile.workerMarginMiB ≤ gpuMemory n &&
      k + rest.length * least ≤ left).bind fun k ↦
        (groupLayers profile rows least rest (left - k)).map (k :: ·)

def splitPlacements (rows : List ℕ) (coord : NodeRow) : List FleetPlacement :=
  let least := rows.getLastD 0
  let workers := sortBy (fleetRank c.rt c.input.now) <| c.free.filter fun n ↦ n.id ≠ coord.id &&
    n.offer.any (·.roles.worker) &&
    least * c.profile.layerMiB + c.profile.workerMarginMiB ≤ gpuMemory n
  let largest := min (min workers.length 64) ((c.profile.layers - 1) / least)
  let counts := (distinct [1, 2, 3, 4, 8, 12, 16, 32, largest]).filter fun n ↦ 0 < n && n ≤ largest
  counts.filterMap fun count ↦
    let group := workers.take count
    let placement : FleetPlacement :=
      { kind := .split, coordinatorNodeId := some coord.id,
        workerNodeIds := some (group.map (·.id)) }
    if c.dep.spec.chain.getD 0 = 0 then
      (groupLayers c.profile rows least group (c.profile.layers - 1)).map fun layers ↦
        { placement with workerLayers := some (layers.map Int.ofNat) }
    else some placement

def searchCoordinators (c : AttemptContext) (rows : List ℕ) : ℕ → List NodeRow → Search → Search
  | _, [], s => s
  | limit, coord :: rest, s =>
    let r := attemptAll c (splitPlacements c rows coord) (false, s)
    if r.1 then
      if limit ≤ 1 then r.2 else searchCoordinators c rows (limit - 1) rest r.2
    else searchCoordinators c rows limit rest r.2

def searchBalanced (s : Search) : Search :=
  let holders := sortBy (fleetRank c.rt c.input.now) (c.free.filter (modelOn c.rt · c.profile))
  let replicas := (holders.filter fun n ↦ n.offer.any (·.roles.replica)).map fun n ↦
    ({ kind := .replica, replicaNodeId := some n.id } : FleetPlacement)
  let s := if c.dep.spec.chain.getD 0 = 0 then attemptUpTo c 24 replicas s else s
  let rows := envelopeCounts c.dep c.profile
  if rows = [] then s
  else searchCoordinators c rows 12 (holders.filter fun n ↦ n.offer.any (·.roles.coordinator)) s

end

def searchPlacement (c : AttemptContext) : Search :=
  match c.item.mode with
  | .balanced => searchBalanced c {}
  | .keep => (attempt c (currentPlacement c.dep) {}).2
  | .manual placement => (attempt c placement {}).2

/-! ## One level of sharing -/

structure FleetState where
  ledger : ResourceLedger
  ports : NodeId → List ℕ
  entries : List FleetEntry := []
  evaluated : ℕ := 0

structure FleetContext where
  rt : Runtime
  quals : List Qwen35NativeQualification
  input : FleetInput
  selected : List DeploymentId
  pool : List NodeId

def FleetRequest.context (request : FleetRequest) (rt : Runtime)
    (quals : List Qwen35NativeQualification) (input : FleetInput) : FleetContext where
  rt
  quals
  input
  selected := request.items.map (·.deploymentId)
  pool := request.poolNodeIds

section

variable (c : FleetContext) (sharing : ℕ) (s : FleetState)

def FleetContext.poolNodes : List NodeRow :=
  c.input.nodes.filter fun n ↦ n.id ∈ c.pool && n.online && n.offers &&
    n.caps.any (·.allocationVersion)

def FleetContext.baseline : ResourceLedger :=
  reservedResources c.input.deployments c.input.assignments c.input.nodes c.selected

def FleetContext.attemptContext (item : FleetItem)
    (dep : Deployment) (profile : ModelProfile) (s : FleetState) : AttemptContext where
  rt := c.rt
  quals := c.quals
  input := c.input
  selected := c.selected
  pool := c.pool
  sharing
  item
  dep
  profile
  ledger := s.ledger
  ports := s.ports
  placed := s.entries.filter (·.plan.isSome)
  free := (availableNodes c.poolNodes s.ledger).filter (·.offers)

def placeItem (item : FleetItem) (dep : Deployment) : FleetState :=
  let entry : FleetEntry :=
    { deploymentId := dep.id, name := dep.spec.name, before := currentPlacement dep }
  let refuse (error : String) : FleetState :=
    { s with entries := s.entries ++ [{ entry with error := some error }] }
  match c.input.profile dep.spec.profile with
  | none =>
    refuse ("External and qualified native deployments keep their existing placement; select " ++
      "replicas or splits.")
  | some profile =>
    if dep.spec.kind ≠ .split ∧ dep.spec.kind ≠ .replica then
      refuse ("External and qualified native deployments keep their existing placement; select " ++
        "replicas or splits.")
    else if dep.spec.stopExternal = some true then
      refuse ("This deployment requires external-service maintenance. Complete that maintenance " ++
        "separately before fleet allocation.")
    else
      let search := searchPlacement (c.attemptContext sharing item dep profile s)
      let s := { s with evaluated := s.evaluated + search.evaluated }
      match search.winner with
      | none =>
        let why := " ".intercalate search.failures
        { s with entries := s.entries ++ [{ entry with error := some (if why = "" then
            "No eligible nodes hold this model and have unreserved capacity. Include its " ++
            "current deployments to rebalance their resources, or expand the hardware pool."
          else why) }] }
      | some w =>
        { s with
          ledger := addAllocations s.ledger (w.plan.allocations.getD [])
          ports := occupyPorts s.ports w.plan
          entries := s.entries ++ [entryOf dep w] }

def placeAll (order : List (FleetItem × Deployment)) : FleetState :=
  order.foldl (fun s p ↦ placeItem c sharing s p.1 p.2)
    { ledger := c.baseline, ports := fleetUsedPorts c.input.assignments c.selected }

def FleetState.count : ℕ := (s.entries.filter (·.plan.isSome)).length

def FleetState.score (s : FleetState) : ℚ := (s.entries.map (·.score.getD 0)).sum

/-! ## The preview -/

def scarcity (dep : Deployment) : ℕ :=
  match c.input.profile dep.spec.profile with
  | none => 0
  | some profile => (c.poolNodes.filter (modelOn c.rt · profile)).length

/-- Fixed placements first, then the scarcest model, then the largest layers. -/
def fleetOrder (a b : FleetItem × Deployment) : Ordering :=
  let fixed (p : FleetItem × Deployment) : ℕ := if p.1.mode = .balanced then 0 else 1
  let layerMiB (p : FleetItem × Deployment) : ℕ :=
    ((c.input.profile p.2.spec.profile).map (·.layerMiB)).getD 0
  (compare (fixed b) (fixed a)).then <| (compare (scarcity c a.2) (scarcity c b.2)).then <|
    (compare (layerMiB b) (layerMiB a)).then (c.rt.localeCompare a.1.deploymentId b.1.deploymentId)

end

def sharingLevels (items : ℕ) : List ℕ := distinct [1, 2, 4, max 1 items]

def better (best : Option FleetState) (s : FleetState) : Option FleetState :=
  if best.all fun b ↦ b.count < s.count || (s.count = b.count && s.score < b.score) then some s
  else best

def selectedDeployments (input : FleetInput) (items : List FleetItem) :
    Except String (List (FleetItem × Deployment)) :=
  items.mapM fun item ↦
    match input.deployment item.deploymentId with
    | some dep => .ok (item, dep)
    | none => .error s!"Unknown deployment {item.deploymentId}."

def previewFleet (rt : Runtime) (quals : List Qwen35NativeQualification) (request : FleetRequest)
    (input : FleetInput) : Except String FleetPreview := do
  let c := request.context rt quals input
  let items ← selectedDeployments input request.items
  request.poolNodeIds.forM fun id ↦
    if input.nodes.any (·.id = id) then .ok () else .error s!"Unknown pool node {id}."
  let order := sortBy (fleetOrder c) items
  let states := (sharingLevels items.length).map fun sharing ↦ placeAll c sharing order
  match states.foldl better none with
  | none => .error ""
  | some best =>
    let entries := request.items.filterMap fun i ↦
      best.entries.find? (·.deploymentId = i.deploymentId)
    let errors := hostMemoryErrors input entries c.selected
    .ok {
      entries
      canApply := best.count = request.items.length && errors = []
      plannedCount := best.count
      selectedCount := request.items.length
      allocations := best.ledger
      warnings := ("Balanced recommendations use capacity, model availability, network RTT and " ++
        "contention. Scores are estimates, not predicted tokens per second.") :: errors ++
        if c.poolNodes.length < c.pool.length then
          ["Offline nodes, disabled offers and agents without fleet-budget support are " ++
           "excluded."] else []
      evaluatedCandidates := (states.map (·.evaluated)).sum }

/-! ## Validation before an apply -/

/-- The loop of `validateFleetPlans`: every entry is planned again within its budgets, beside what
the entries before it took. -/
def validateEntries (rt : Runtime) (quals : List Qwen35NativeQualification) (input : FleetInput) :
    ResourceLedger → List FleetEntry → Except String Unit
  | _, [] => .ok ()
  | reserved, entry :: rest =>
    match entry.spec, entry.plan, entry.error with
    | some spec, some _, none =>
      match input.profile spec.profile with
      | none => .error "Model profile changed; preview again."
      | some profile =>
        match planWithResources rt ⟨spec, profile, input.nodes, reserved, fun _ ↦ [], quals⟩ with
        | .error e => .error e.message
        | .ok plan =>
          validateEntries rt quals input (addAllocations reserved (plan.allocations.getD [])) rest
    | _, _, _ => .error "Every selected deployment needs a valid plan."

def validateFleetPlans (rt : Runtime) (quals : List Qwen35NativeQualification) (input : FleetInput)
    (entries : List FleetEntry) : Except String Unit := do
  let selected := entries.map (·.deploymentId)
  validateEntries rt quals input
    (reservedResources input.deployments input.assignments input.nodes selected) entries
  let errors := hostMemoryErrors input entries selected
  if errors = [] then .ok () else .error (" ".intercalate errors)

end Swarmlet
