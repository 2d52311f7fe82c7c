import Swarmlet.Lib.Json
import Swarmlet.Lib.JsString

/-!
# Validation of control messages

What the agent checks of a text frame before it looks at it: `parseControlMessage`, and
`validateAssignment` for the assignments inside. An accepted message is returned as it came.

A frame is the JSON value its text parses to, `none` where the text is no JSON. Every failed check
adds its message to the list of errors, in the order of the source.
-/

namespace Swarmlet

open Js Js.Json

/-! ## Checks shared by the assignment kinds -/

/-- `errors.push(text)` when a check fails. -/
def failing (bad : Bool) (text : String) : List String := if bad then [text] else []

@[simp] theorem failing_eq_nil {bad : Bool} {text : String} :
    failing bad text = [] ↔ bad = false := by
  cases bad <;> simp [failing]

def PORT_OK : Option Json → Bool := numThat fun p ↦ p.den = 1 ∧ 0 < p ∧ p < 65536

def FP_OK : Option Json → Bool := strThat isSha256

def atLeastOne : Option Json → Bool := numThat (1 ≤ ·)

def checkDirect (d : Option Json) : Bool :=
  objThat (fun d ↦ isStr (get d "host") && PORT_OK (get d "port")) d

def checkEndpoint (e : Option Json) (label : String) : List String :=
  match e with
  | some (.obj e) =>
    match get e "direct" with
    | some (.arr direct) =>
      if isStr (get e "nodeId") && FP_OK (get e "certFp") && PORT_OK (get e "port") &&
          isBool (get e "relay") then
        direct.flatMap fun d ↦
          failing (!checkDirect (some d)) s!"{label}: direct entries need host, port"
      else [s!"{label}: endpoint needs nodeId, certFp(sha256 hex), port, direct[], relay"]
    | _ => [s!"{label}: endpoint needs nodeId, certFp(sha256 hex), port, direct[], relay"]
  | _ => [s!"{label}: endpoint needs nodeId, certFp(sha256 hex), port, direct[], relay"]

def checkAllow (a : List (String × Json)) : List String :=
  failing (!arrayOf FP_OK (get a "allow")) "allow must be a list of sha256 hex fingerprints"

section

variable (v : Option Json)

def presentBut (check : Option Json → Bool) : Bool := v.isSome && !check v

/-! ## Stages -/

/-- `Number.isSafeInteger(value) && value > 0`. -/
def positiveInt : Option Json → Bool :=
  numThat fun q ↦ q.den = 1 ∧ 0 < q ∧ q ≤ 9007199254740991

/-- `/^[A-Za-z0-9_-]{1,128}$/`. -/
def stageIdOk (s : String) : Bool :=
  1 ≤ s.toList.length && s.toList.length ≤ 128 && s.toList.all fun c ↦
    ('A' ≤ c && c ≤ 'Z') || ('a' ≤ c && c ≤ 'z') || ('0' ≤ c && c ≤ '9') || c == '_' || c == '-'

/-- The number a block bound names: `/^(?:[0-9]|1[0-9]|2[0-4])$/`, then `Number(..)`. -/
def block : Option Json → Option ℕ
  | some (.str s) => (List.range 25).find? (toString · = s)
  | _ => none

def isText (text : String) : Option Json → Bool := strThat (· = text)

def isNumber (n : ℚ) : Option Json → Bool := numThat (· = n)

/-- `a === b`; two parsed objects are never the same object. -/
def strictEq : Option Json → Option Json → Bool
  | none, none => true
  | some .null, some .null => true
  | some (.bool a), some (.bool b) => a = b
  | some (.num a), some (.num b) => a = b
  | some (.str a), some (.str b) => a = b
  | _, _ => false

def stageModelOk (model : List (String × Json)) : Bool :=
  only model ["path", "sha256"] && strThat (fun p ↦ p ≠ "" && '\x00' ∉ p.toList)
    (get model "path") && FP_OK (get model "sha256")

def stageRangeErrors (identity : List (String × Json)) : List String :=
  let start := get identity "stage_start"
  let stop := get identity "stage_end"
  let total := get identity "stage_total"
  if isText "" start && isText "" stop && isText "" total then
    failing (!strictEq (get identity "source_sha256") (get identity "model_sha256"))
      "full native context source digest must match model digest"
  else
    failing (match block start, block stop with
      | some a, some b => b ≤ a || !isText "24" total
      | _, _ => true) "stage identity requires a nonempty canonical block range within [0,24)"

def stageIdentityErrors (a identity : List (String × Json)) : List String :=
  failing (!only identity ["schema", "engine", "model_sha256", "source_sha256", "ctx", "cache_k",
      "cache_v", "ubatch", "flash_attn", "stage_start", "stage_end", "stage_total"])
    "stage identity has unsupported fields" ++
  failing (!(isNumber 1 (get identity "schema") && FP_OK (get identity "engine") &&
      FP_OK (get identity "model_sha256") && FP_OK (get identity "source_sha256")))
    "stage identity needs schema 1 and lowercase SHA256 pins" ++
  failing (!objThat (fun model ↦ strictEq (get identity "model_sha256") (get model "sha256"))
      (get a "model"))
    "stage model digest differs from identity" ++
  failing (!(isNumber 1024 (get identity "ctx") && isText "f32" (get identity "cache_k") &&
      isText "f32" (get identity "cache_v") && isNumber 1 (get identity "ubatch") &&
      isText "disabled" (get identity "flash_attn")))
    "stage identity requires ctx 1024, F32 K/V, ubatch 1 and disabled flash attention" ++
  stageRangeErrors identity

def validateStage (a : List (String × Json)) : List String :=
  failing (!only a ["kind", "id", "deploymentId", "model", "port", "ctx", "gpuLayers", "identity",
      "binarySha256", "fitMiB", "allow", "enforce"])
    "stage has unsupported fields" ++
  failing (!(strThat stageIdOk (get a "id") &&
      strThat (fun d ↦ 1 ≤ Js.length d && Js.length d ≤ 128) (get a "deploymentId")))
    "stage needs valid assignment and deployment IDs" ++
  failing (!objThat stageModelOk (get a "model"))
    "stage needs model.path and lowercase model.sha256" ++
  failing (!(PORT_OK (get a "port") && numThat (1024 ≤ ·) (get a "port")))
    "stage needs integer port in [1024,65535]" ++
  failing (!(isNumber 1024 (get a "ctx") && isNumber 999 (get a "gpuLayers")))
    "stage requires ctx 1024 and gpuLayers 999" ++
  failing (!FP_OK (get a "binarySha256")) "stage needs lowercase binarySha256" ++
  failing (presentBut (get a "fitMiB") positiveInt) "stage fitMiB must be a positive integer" ++
  failing (match get a "allow" with | some (.arr []) => false | _ => true)
    "stage requires empty allow[]; transport is agent relay only" ++
  failing (!objThat (fun enforce ↦ only enforce ["ramMiB", "cpuCores"] &&
      positiveInt (get enforce "ramMiB") && isNumber 2 (get enforce "cpuCores")) (get a "enforce"))
    "stage enforce requires positive integer ramMiB and cpuCores 2" ++
  match get a "identity" with
  | some (.obj identity) => stageIdentityErrors a identity
  | _ => ["stage needs identity"]

/-! ## Workers, coordinators and replicas -/

def checkPeer (p : Option Json) (i : ℕ) : List String :=
  match p with
  | some (.obj peer) =>
    if isNum (get peer "index") then checkEndpoint (get peer "endpoint") s!"peers[{i}]"
    else [s!"peers[{i}] needs index"]
  | _ => [s!"peers[{i}] needs index"]

def checkPeers : Option Json → List String
  | none => []
  | some (.arr peers) => (peers.mapIdx fun i p ↦ checkPeer (some p) i).flatten
  | some _ => ["peers must be a list"]

def validateWorker (a : List (String × Json)) : List String :=
  failing (!PORT_OK (get a "port")) "worker needs port" ++
  failing (!isStr (get a "device")) "worker needs device" ++
  failing (!atLeastOne (get a "threads")) "worker needs threads >= 1" ++
  failing (presentBut (get a "memCapMiB") atLeastOne) "memCapMiB must be >= 1" ++
  failing (presentBut (get a "peerPort") PORT_OK) "peerPort invalid" ++
  checkPeers (get a "peers") ++
  checkAllow a

def checkRpc : Option Json → List String
  | some (.arr rpc) => (rpc.mapIdx fun i e ↦ checkEndpoint (some e) s!"rpc[{i}]").flatten
  | _ => ["coordinator needs rpc[]"]

def checkTensorSplit (devices split : Option Json) : List String :=
  match split with
  | some (.arr split) =>
    if split.all fun v ↦ isNum (some v) then
      match devices with
      | some (.arr devices) =>
        failing (devices.length ≠ split.length) "devices and tensorSplit lengths differ"
      | _ => []
    else ["coordinator needs tensorSplit[]"]
  | _ => ["coordinator needs tensorSplit[]"]

def mtpOk : Bool :=
  objThat (fun mtp ↦ isStr (get mtp "path") && atLeastOne (get mtp "chain")) v

def validateCoordinator (a : List (String × Json)) : List String :=
  failing (!objThat (fun model ↦ isStr (get model "path")) (get a "model"))
    "coordinator needs model.path" ++
  checkRpc (get a "rpc") ++
  failing (!arrayOf isStr (get a "devices")) "coordinator needs devices[]" ++
  checkTensorSplit (get a "devices") (get a "tensorSplit") ++
  failing (!atLeastOne (get a "ctx")) "coordinator needs ctx" ++
  failing (!atLeastOne (get a "parallel")) "coordinator needs parallel" ++
  failing (presentBut (get a "mtp") mtpOk) "mtp needs path, chain >= 1" ++
  failing (!isObj (get a "env")) "coordinator needs env" ++
  failing (!arrayOf isStr (get a "extraArgs")) "coordinator needs extraArgs[]" ++
  failing (!PORT_OK (get a "port")) "coordinator needs port" ++
  checkAllow a

def externalOk : Bool :=
  objThat (fun e ↦ isStr (get e "url") && isStr (get e "healthPath")) v

def validateReplica (a : List (String × Json)) : List String :=
  failing (!PORT_OK (get a "port")) "replica needs port" ++
  failing (!truthy (get a "model") && !truthy (get a "external"))
    "replica needs model or external" ++
  failing (presentBut (get a "external") externalOk) "external needs url, healthPath" ++
  checkAllow a

/-! ## The shape of capabilities -/

def nonnegative : Option Json → Bool := numThat (0 ≤ ·)

def optional (check : Option Json → Bool) : Bool := v.isNone || check v

def netShape : Bool :=
  objThat (fun v ↦ nonnegative (get v "rttMs") && isStr (get v "measuredAt") &&
    ["upMbit", "downMbit"].all fun k ↦ optional (get v k) nonnegative) v

def gpuShape : Bool :=
  objThat (fun g ↦ isStr (get g "id") && isStr (get g "name") &&
    strThat (· ∈ ["cuda", "metal", "cpu", "other"]) (get g "backend") && isStr
    (get g "engineName") && nonnegative (get g "totalMiB") && optional (get g "freeMiB")
    nonnegative) v

def engineShape : Bool :=
  objThat (fun v ↦ isStr (get v "proto") &&
    objThat (fun digests ↦ digests.all fun m ↦ isStr (some m.2)) (get v "sha256") &&
    optional (get v "stages") (objThat fun stages ↦ isStr (get stages "engine"))) v

def capabilitiesShape : Bool :=
  objThat (fun v ↦
    strThat (· ∈ ["darwin", "linux", "win32"]) (get v "os") &&
    strThat (· ∈ ["arm64", "x64"]) (get v "arch") && isStr (get v "hostname") &&
    (["ramMiB", "ramReserveMiB", "cpuCores", "diskFreeMiB"].all fun k ↦ nonnegative (get v k)) &&
    arrayOf isStr (get v "privateIps") && isStr (get v "measuredAt") &&
    arrayOf gpuShape (get v "gpus") && optional (get v "allocationVersion") (numThat (· = 1)) &&
    optional (get v "publicIp") isStr && optional (get v "dataPort") PORT_OK &&
    optional (get v "net") netShape &&
    optional (get v "cgroup") (objThat fun c ↦ isBool (get c "memory") && isBool (get c "cpu")) &&
    optional (get v "engine") engineShape) v

end

/-! ## Messages -/

def accept (errors : List String) (value : Json) : Except (List String) Json :=
  if errors = [] then .ok value else .error errors

def validateAssignment : Option Json → Except (List String) Json
  | some (.obj a) =>
    match get a "kind" with
    | some (.str kind) =>
      if isStr (get a "id") && isStr (get a "deploymentId") then
        if kind = "stage" then accept (validateStage a) (.obj a)
        else if kind = "worker" then accept (validateWorker a) (.obj a)
        else if kind = "coordinator" then accept (validateCoordinator a) (.obj a)
        else if kind = "replica" then accept (validateReplica a) (.obj a)
        else if kind = "stop" then .ok (.obj a)
        else .error [s!"unknown assignment kind {kind}"]
      else .error ["assignment needs kind, id, deploymentId"]
    | _ => .error ["assignment needs kind, id, deploymentId"]
  | _ => .error ["assignment needs kind, id, deploymentId"]

def parseControlMessage (raw : Option Json) : Except (List String) Json :=
  match raw with
  | none => .error ["not JSON"]
  | some (.obj m) =>
    match get m "t" with
    | some (.str t) =>
      if t = "challenge" then
        accept (failing (!isStr (get m "nonce")) "challenge needs nonce") (.obj m)
      else if t = "welcome" then
        accept (failing (!isStr (get m "nodeId") || presentBut (get m "inferenceKey") isStr)
          "welcome needs nodeId and optional inferenceKey string") (.obj m)
      else if t = "assign" then (validateAssignment (get m "assignment")).map fun _ ↦ .obj m
      else if t = "error" then
        accept (failing (!isStr (get m "message")) "error needs message") (.obj m)
      else if t = "ping" then accept (failing (!isStr (get m "ts")) "ping needs ts") (.obj m)
      else .error [s!"unknown control message {t}"]
    | _ => .error ["missing t"]
  | some _ => .error ["missing t"]

end Swarmlet
