import Mathlib.Data.Rat.Defs
import Mathlib.Data.List.Basic
import Swarmlet.Lib.JsString

/-!
# The contract between the node agent and the control plane

The records the two sides exchange and the control plane stores. Sizes are MiB throughout, and
times are milliseconds since the epoch.

Fields that the source leaves optional are `Option`s. Numbers of a request that the code checks
for sign are `ℤ`, numbers it has checked are `ℕ`, measured rates and round trips are `ℚ`. A value
that is only ever stored after a shape check carries that check: a data port is a `Port`.
-/

namespace Swarmlet

abbrev NodeId := String
abbrev DeploymentId := String
abbrev AssignmentId := String

def AGENT_DATA_PORT : ℕ := 47801

structure Port where
  val : ℕ
  pos : 0 < val
  lt : val < 65536
deriving DecidableEq

/-! ## What a machine has -/

inductive Backend
  | cuda | metal | cpu | other
deriving DecidableEq, Repr

structure GpuDevice where
  id : String
  name : String
  backend : Backend
  engineName : String
  totalMiB : ℕ
deriving DecidableEq

structure NetMeasurement where
  rttMs : ℚ
  measuredAt : ℕ
deriving DecidableEq

inductive Os
  | darwin | linux | win32
deriving DecidableEq, Repr

structure HostPort where
  host : String
  port : ℕ
deriving DecidableEq

/-- The engine build a node runs: the hash of each binary, and the ABI of the stage worker. -/
structure EngineBuild where
  sha256 : List (String × String)
  stages : Option String
deriving DecidableEq

structure BenchResult where
  modelSha256 : String
  engineSha256 : String
  kind : String
  ctx : ℕ
  prefillTokPerSec : ℚ
  decodeTokPerSec : ℚ
  measuredAt : String
deriving DecidableEq

structure Capabilities where
  /-- Supports controller-assigned per-deployment budgets (`allocationVersion === 1`). -/
  allocationVersion : Bool := false
  os : Os
  gpus : List GpuDevice := []
  privateIps : List String := []
  publicIp : Option String := none
  /-- Not covered by the shape check of a report; readers filter it. -/
  publicEndpoints : List HostPort := []
  dataPort : Option Port := none
  engine : Option EngineBuild := none
  net : Option NetMeasurement := none
  bench : List BenchResult := []
deriving DecidableEq

/-! ## What the owner allows -/

structure Roles where
  worker : Bool
  coordinator : Bool
  replica : Bool
deriving DecidableEq

structure GpuOffer where
  id : String
  memMiB : ℕ
deriving DecidableEq

structure Offer where
  enabled : Bool
  roles : Roles
  gpu : List GpuOffer
  ramMiB : ℕ
  cpuCores : ℕ
deriving DecidableEq

inductive ModelFileKind
  | gguf | mtp | mmproj
deriving DecidableEq, Repr

structure ModelFile where
  name : String
  path : String
  sizeBytes : ℕ
  sha256 : Option String := none
  kind : ModelFileKind
deriving DecidableEq

structure ModelDownloadFile where
  name : String
  kind : ModelFileKind
  url : String
  sha256 : String
  bytes : ℕ
deriving DecidableEq

/-- `(?:\/[^\s]*)?$`. -/
def urlTail : List Char → Bool
  | [] => true
  | c :: rest => c = '/' && rest.all (!Js.isSpace ·)

/-- `(?::\d+)?(?:\/[^\s]*)?$`. -/
def loopbackTail (text : List Char) : Bool :=
  urlTail text || match text with
    | ':' :: rest => rest.head?.any (·.isDigit) && urlTail (rest.dropWhile (·.isDigit))
    | _ => false

/-- `DOWNLOAD_URL_RE`: https, or plain http on the loopback interface. -/
def downloadUrl (url : String) : Bool :=
  let text := url.toList
  (Js.startsWith "https://".toList text && text.drop 8 ≠ [] &&
      (text.drop 8).all (!Js.isSpace ·)) ||
    ["http://127.0.0.1", "http://localhost"].any fun base ↦
      Js.startsWith base.toList text && loopbackTail (text.drop base.toList.length)

def plainFileName (name : String) : Bool :=
  '/' ∉ name.toList && '\\' ∉ name.toList && name ≠ "." && name ≠ ".."

def validCatalogDownload (f : ModelDownloadFile) : Bool :=
  f.name ≠ "" && Js.length f.name ≤ 240 && plainFileName f.name && f.kind ≠ .mmproj &&
    downloadUrl f.url && Js.length f.url ≤ 2048 && Js.isSha256 f.sha256 && 0 < f.bytes &&
    f.bytes ≤ 9007199254740991

structure GpuUsage where
  id : String
  usedMiB : ℚ
deriving DecidableEq

structure NodeMetrics where
  /-- `Date.parse(ts)`; `none` when the text is no date. -/
  ts : Option ℕ := none
  link : Option NetMeasurement := none
  rssMiB : Option ℚ := none
  freeRamMiB : Option ℚ := none
  gpu : List GpuUsage := []
  tokPerSec : Option ℚ := none
  prefillTokPerSec : Option ℚ := none
deriving DecidableEq

/-! ## What control asks a node to run -/

structure Endpoint where
  nodeId : NodeId
  certFp : String
  port : ℕ
  direct : List HostPort
  relay : Bool
  inbound : Option Bool := none
deriving DecidableEq

structure Enforce where
  ramMiB : Option ℕ
  cpuCores : Option ℕ
deriving DecidableEq

structure Peer where
  index : ℕ
  endpoint : Endpoint
deriving DecidableEq

structure WorkerAssignment where
  id : AssignmentId
  deploymentId : DeploymentId
  port : ℕ
  device : String
  threads : ℕ
  memCapMiB : Option ℕ
  layers : Option ℕ
  modelLayers : Option ℕ
  peerPort : Option ℕ
  peers : Option (List Peer)
  serve : Option Endpoint
  allow : List String
  enforce : Option Enforce
deriving DecidableEq

/-- Draft proposals from repeated token sequences; the one kind there is. -/
inductive NgramSpeculation
  | ngramSimple
deriving DecidableEq, Repr

structure Mtp where
  path : String
  chain : ℕ
deriving DecidableEq

structure CoordinatorAssignment where
  id : AssignmentId
  deploymentId : DeploymentId
  modelPath : String
  rpc : List Endpoint
  devices : List String
  tensorSplit : List ℕ
  ctx : ℕ
  parallel : ℕ
  mtp : Option Mtp
  speculation : Option NgramSpeculation
  env : List (String × String)
  extraArgs : List String
  port : ℕ
  modelName : Option String
  fitMiB : Option ℕ
  stopExternal : Option String
  allow : List String
  enforce : Option Enforce
deriving DecidableEq

structure NodeAllocation where
  nodeId : NodeId
  ramMiB : ℕ
  cpuCores : ℕ
  gpu : List GpuOffer
deriving DecidableEq

structure ExternalWatch where
  url : String
  healthPath : String
  maintenance : Option String
  upstreamModel : Option String
deriving DecidableEq

structure ReplicaAssignment where
  id : AssignmentId
  deploymentId : DeploymentId
  port : ℕ
  modelPath : Option String := none
  external : Option ExternalWatch := none
  modelName : Option String := none
  ctx : Option ℕ := none
  parallel : Option ℕ := none
  device : Option String := none
  mtp : Option Mtp := none
  speculation : Option NgramSpeculation := none
  extraArgs : Option (List String) := none
  enforce : Option NodeAllocation := none
  fitMiB : Option ℕ := none
  stopExternal : Option String := none
  allow : List String := []
deriving DecidableEq

/-- Which engine build, model and block range a native context must report. The remaining fields
of the record are the constants `schema 1`, `ctx 1024`, `f32` caches, `ubatch 1` and no flash
attention. -/
structure NativeStageIdentity where
  engine : String
  modelSha256 : String
  sourceSha256 : String
  stageStart : String
  stageEnd : String
  stageTotal : String
deriving DecidableEq

/-- One native context a plan places on a node. Its CPU budget is the constant `2`. -/
structure NativeStageWorkerPlan where
  nodeId : NodeId
  port : ℕ
  identity : NativeStageIdentity
  binarySha256 : String
  modelPath : String
  device : String
  fitMiB : Option ℕ
  enforceRamMiB : ℕ
deriving DecidableEq

inductive NativeMode
  | stages | prefillDecode
deriving DecidableEq, Repr

/-- The pair of binaries a transfer of state was proved for, and the proof. -/
structure StateTransferQualification where
  sourceBinarySha256 : String
  targetBinarySha256 : String
  evidenceSha256 : String
deriving DecidableEq

/-- A native plan; its `profile` is the constant `qwen35-2b-q8`. -/
structure NativeExecutionPlacement where
  mode : NativeMode
  endpoints : List NativeStageWorkerPlan
  qualificationEvidenceSha256 : String
  stateTransferQualification : Option StateTransferQualification
deriving DecidableEq

/-- One resident native context; `ctx` is the plan's, `gpuLayers` the constant `999`, the CPU
budget the constant `2` and `allow` is empty. -/
structure StageAssignment where
  id : AssignmentId
  deploymentId : DeploymentId
  modelPath : String
  modelSha256 : String
  port : ℕ
  ctx : ℕ
  identity : NativeStageIdentity
  binarySha256 : String
  fitMiB : Option ℕ
  enforceRamMiB : ℕ
deriving DecidableEq

inductive Assignment
  | worker (a : WorkerAssignment)
  | coordinator (a : CoordinatorAssignment)
  | replica (a : ReplicaAssignment)
  | stage (a : StageAssignment)
  | stop (id : AssignmentId) (deploymentId : DeploymentId)
deriving DecidableEq

namespace Assignment

def id : Assignment → AssignmentId
  | worker a => a.id
  | coordinator a => a.id
  | replica a => a.id
  | stage a => a.id
  | stop id _ => id

def deploymentId : Assignment → DeploymentId
  | worker a => a.deploymentId
  | coordinator a => a.deploymentId
  | replica a => a.deploymentId
  | stage a => a.deploymentId
  | stop _ deploymentId => deploymentId

def isExternalWatch : Assignment → Bool
  | replica a => a.external.isSome
  | _ => false

def isCoordinator : Assignment → Bool
  | coordinator _ => true
  | _ => false

/-- The engine ports an assignment occupies on its node: the rpc and peer ports of a worker, the
server port of the others. -/
def ports : Assignment → List ℕ
  | worker a => a.port :: a.peerPort.toList
  | coordinator a => [a.port]
  | replica a => [a.port]
  | stage a => [a.port]
  | stop _ _ => []

end Assignment

inductive AssignmentState
  | starting | listening | loading | ready | stopped | failed
deriving DecidableEq, Repr

/-! ## Deployments -/

inductive DeploymentKind
  | split | replica | external | stages | prefillDecode
deriving DecidableEq, Repr

namespace DeploymentKind

def text : DeploymentKind → String
  | split => "split"
  | replica => "replica"
  | external => "external"
  | stages => "stages"
  | prefillDecode => "prefill-decode"

def isNative : DeploymentKind → Bool
  | stages | prefillDecode => true
  | _ => false

end DeploymentKind

inductive DeploymentState
  | planned | placing | loading | ready | draining | stopped | failed
deriving DecidableEq, Repr

def DeploymentState.text : DeploymentState → String
  | planned => "planned"
  | placing => "placing"
  | loading => "loading"
  | ready => "ready"
  | draining => "draining"
  | stopped => "stopped"
  | failed => "failed"

structure StageSpec where
  nodeId : NodeId
  modelPath : String
  modelSha256 : String
  start : ℤ
  «end» : ℤ
deriving DecidableEq

inductive WireMode
  | off | f16 | q8
deriving DecidableEq, Repr

def WireMode.text : WireMode → String
  | off => "off"
  | f16 => "f16"
  | q8 => "q8"

inductive Transport
  | auto | relay
deriving DecidableEq, Repr

structure ExternalSpec where
  nodeId : NodeId
  url : String
  healthPath : String
  modelName : String
  upstreamModel : Option String := none
  maintenance : Option String := none
deriving DecidableEq

structure DeploymentSpec where
  name : String
  profile : String
  autoTopology : Option Bool := none
  autoModel : Option Bool := none
  kind : DeploymentKind
  coordinatorNodeId : Option NodeId := none
  workerNodeIds : Option (List NodeId) := none
  workerLayers : Option (List ℤ) := none
  replicaNodeId : Option NodeId := none
  allocations : Option (List NodeAllocation) := none
  stages : Option (List StageSpec) := none
  prefillNodeId : Option NodeId := none
  decodeNodeId : Option NodeId := none
  modelSha256 : Option String := none
  ctx : Option ℤ := none
  parallel : Option ℤ := none
  chain : Option ℤ := none
  speculation : Option NgramSpeculation := none
  wire : Option WireMode := none
  batchedGets : Option Bool := none
  forwarding : Option Bool := none
  stopExternal : Option Bool := none
  transport : Option Transport := none
  external : Option ExternalSpec := none
deriving DecidableEq

structure PlanWorker where
  nodeId : NodeId
  device : String
  layers : ℕ
  port : ℕ
  peerPort : Option ℕ
  threads : ℕ
  memCapMiB : ℕ
deriving DecidableEq

structure Plan where
  coordinatorNodeId : NodeId
  coordinatorDevice : String
  workers : List PlanWorker
  tensorSplit : List ℕ
  engineTensorSplit : Option (List ℕ) := none
  ctx : ℕ
  parallel : ℕ
  chain : ℕ
  speculation : Option NgramSpeculation := none
  env : List (String × String)
  modelPath : String
  mtpPath : Option String := none
  nativeExecution : Option NativeExecutionPlacement := none
  allocations : Option (List NodeAllocation) := none
deriving DecidableEq

structure LayerDistribution where
  coordinatorNodeId : NodeId
  workerNodeIds : List NodeId
  workerLayers : List ℤ
deriving DecidableEq

structure RouteEndpoint where
  nodeId : NodeId
  port : ℕ
  modelName : String
deriving DecidableEq

structure Deployment where
  id : DeploymentId
  spec : DeploymentSpec
  savedDistribution : Option LayerDistribution := none
  state : DeploymentState
  plan : Option Plan := none
  endpoint : Option RouteEndpoint := none
  error : Option String := none
  createdAt : ℕ
  updatedAt : ℕ
deriving DecidableEq

structure EnvelopeRow where
  workerLayers : ℕ
  maxCtx : ℕ
  maxParallel : ℕ
  maxChain : ℕ
  maxFit : Bool := false
deriving DecidableEq

/-- A model profile, as `validateProfile` admits it: at least one layer of at least one MiB, and
envelope rows that leave the coordinator a layer. -/
structure ModelProfile where
  id : String
  rank : Option ℕ := none
  modelName : String
  ggufPattern : String
  mtpPattern : Option String := none
  layers : ℕ
  layerMiB : ℕ
  coordinatorHostMiB : ℕ
  boundaryBytes : ℕ
  envelope : List EnvelopeRow
  extraArgs : List String
  workerMarginMiB : ℕ
  layers_pos : 1 ≤ layers
  layerMiB_pos : 1 ≤ layerMiB
  envelope_lt : ∀ row ∈ envelope, 1 ≤ row.workerLayers ∧ row.workerLayers < layers
deriving DecidableEq

/-! ## Messages to the agent -/

inductive ControlToAgent
  | challenge (nonce : String)
  | welcome (nodeId : NodeId) (serverTime : String) (inferenceKey : Option String)
  | assign (assignment : Assignment)
  | fetch (profile : String)
  | error (message : String)
  | ping (ts : String) (link : Option (ℚ × String))
deriving DecidableEq

end Swarmlet
