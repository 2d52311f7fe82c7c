import Swarmlet.Protocol.Types
import Swarmlet.Protocol.Validate
import Swarmlet.Lib.Checked

/-!
# Control messages on the wire

`encode` is `JSON.stringify` of a message, and the theorems of this module say what
`parseControlMessage` makes of each kind of record: the conditions on the record's fields under
which the list of errors is empty. A field that the validator does not look at puts no condition.
-/

namespace Swarmlet

open Js Js.Json

/-! ## Encoding -/

def HostPort.encode (e : HostPort) : Json :=
  object [("host", some (.str e.host)), ("port", some (nat e.port))]

def Endpoint.encode (e : Endpoint) : Json :=
  object [("nodeId", some (.str e.nodeId)), ("certFp", some (.str e.certFp)),
    ("port", some (nat e.port)), ("direct", some (.arr (e.direct.map (·.encode)))),
    ("relay", some (.bool e.relay)), ("inbound", e.inbound.map .bool)]

def Enforce.encode (e : Enforce) : Json :=
  object [("ramMiB", e.ramMiB.map nat), ("cpuCores", e.cpuCores.map nat)]

def GpuOffer.encode (g : GpuOffer) : Json :=
  object [("id", some (.str g.id)), ("memMiB", some (nat g.memMiB))]

def NodeAllocation.encode (a : NodeAllocation) : Json :=
  object [("nodeId", some (.str a.nodeId)), ("ramMiB", some (nat a.ramMiB)),
    ("cpuCores", some (nat a.cpuCores)), ("gpu", some (.arr (a.gpu.map (·.encode))))]

def Peer.encode (p : Peer) : Json :=
  object [("index", some (nat p.index)), ("endpoint", some p.endpoint.encode)]

def Mtp.encode (m : Mtp) : Json :=
  object [("path", some (.str m.path)), ("chain", some (nat m.chain))]

def NgramSpeculation.encode : NgramSpeculation → Json
  | .ngramSimple => object [("type", some (.str "ngram-simple"))]

def encodeModel (path : String) (sha256 : Option String) : Json :=
  object [("path", some (.str path)), ("sha256", sha256.map .str)]

def WorkerAssignment.members (a : WorkerAssignment) : List (String × Option Json) :=
  [("kind", some (.str "worker")), ("id", some (.str a.id)),
    ("deploymentId", some (.str a.deploymentId)), ("port", some (nat a.port)),
    ("device", some (.str a.device)), ("threads", some (nat a.threads)),
    ("memCapMiB", a.memCapMiB.map nat), ("peerPort", a.peerPort.map nat),
    ("peers", a.peers.map fun peers ↦ .arr (peers.map (·.encode))),
    ("allow", some (strings a.allow)), ("serve", a.serve.map (·.encode)),
    ("enforce", a.enforce.map (·.encode)), ("layers", a.layers.map nat),
    ("modelLayers", a.modelLayers.map nat)]

def CoordinatorAssignment.members (a : CoordinatorAssignment) : List (String × Option Json) :=
  [("kind", some (.str "coordinator")), ("id", some (.str a.id)),
    ("deploymentId", some (.str a.deploymentId)), ("model", some (encodeModel a.modelPath none)),
    ("rpc", some (.arr (a.rpc.map (·.encode)))), ("devices", some (strings a.devices)),
    ("tensorSplit", some (.arr (a.tensorSplit.map nat))), ("ctx", some (nat a.ctx)),
    ("parallel", some (nat a.parallel)), ("mtp", a.mtp.map (·.encode)),
    ("speculation", a.speculation.map (·.encode)),
    ("env", some (object (a.env.map fun e ↦ (e.1, some (.str e.2))))),
    ("extraArgs", some (strings a.extraArgs)), ("port", some (nat a.port)),
    ("modelName", a.modelName.map .str), ("fitMiB", a.fitMiB.map nat),
    ("stopExternal", a.stopExternal.map .str), ("allow", some (strings a.allow)),
    ("enforce", a.enforce.map (·.encode))]

def ExternalWatch.encode (e : ExternalWatch) : Json :=
  object [("url", some (.str e.url)), ("healthPath", some (.str e.healthPath)),
    ("maintenance", e.maintenance.map .str), ("upstreamModel", e.upstreamModel.map .str)]

def ReplicaAssignment.members (a : ReplicaAssignment) : List (String × Option Json) :=
  [("kind", some (.str "replica")), ("id", some (.str a.id)),
    ("deploymentId", some (.str a.deploymentId)), ("port", some (nat a.port)),
    ("model", a.modelPath.map (encodeModel · none)), ("external", a.external.map (·.encode)),
    ("modelName", a.modelName.map .str), ("ctx", a.ctx.map nat), ("parallel", a.parallel.map nat),
    ("device", a.device.map .str), ("mtp", a.mtp.map (·.encode)),
    ("speculation", a.speculation.map (·.encode)), ("extraArgs", a.extraArgs.map strings),
    ("enforce", a.enforce.map (·.encode)), ("fitMiB", a.fitMiB.map nat),
    ("stopExternal", a.stopExternal.map .str), ("allow", some (strings a.allow))]

section

variable (i : NativeStageIdentity) (msg : ControlToAgent) (key : String) (n : ℕ)

def NativeStageIdentity.members : List (String × Option Json) :=
  [("schema", some (nat 1)), ("engine", some (.str i.engine)),
    ("model_sha256", some (.str i.modelSha256)), ("source_sha256", some (.str i.sourceSha256)),
    ("ctx", some (nat 1024)), ("cache_k", some (.str "f32")), ("cache_v", some (.str "f32")),
    ("ubatch", some (nat 1)), ("flash_attn", some (.str "disabled")),
    ("stage_start", some (.str i.stageStart)), ("stage_end", some (.str i.stageEnd)),
    ("stage_total", some (.str i.stageTotal))]

def StageAssignment.members (a : StageAssignment) : List (String × Option Json) :=
  [("kind", some (.str "stage")), ("id", some (.str a.id)),
    ("deploymentId", some (.str a.deploymentId)),
    ("model", some (encodeModel a.modelPath (some a.modelSha256))), ("port", some (nat a.port)),
    ("ctx", some (nat a.ctx)), ("gpuLayers", some (nat 999)),
    ("identity", some (object a.identity.members)), ("binarySha256", some (.str a.binarySha256)),
    ("fitMiB", a.fitMiB.map nat), ("allow", some (strings [])),
    ("enforce", some (object [("ramMiB", some (nat a.enforceRamMiB)), ("cpuCores", some (nat 2))]))]

def Assignment.members : Assignment → List (String × Option Json)
  | .worker a => a.members
  | .coordinator a => a.members
  | .replica a => a.members
  | .stage a => a.members
  | .stop id deploymentId => [("kind", some (.str "stop")), ("id", some (.str id)),
      ("deploymentId", some (.str deploymentId))]

def Assignment.encode (a : Assignment) : Json := object a.members

def ControlToAgent.members : ControlToAgent → List (String × Option Json)
  | .challenge nonce => [("t", some (.str "challenge")), ("nonce", some (.str nonce))]
  | .welcome nodeId serverTime inferenceKey => [("t", some (.str "welcome")),
      ("nodeId", some (.str nodeId)), ("serverTime", some (.str serverTime)),
      ("inferenceKey", inferenceKey.map .str)]
  | .assign assignment => [("t", some (.str "assign")), ("assignment", some assignment.encode)]
  | .fetch profile => [("t", some (.str "fetch")), ("profile", some (.str profile))]
  | .error message => [("t", some (.str "error")), ("message", some (.str message))]
  | .ping ts link => [("t", some (.str "ping")), ("ts", some (.str ts)),
      ("link", link.map fun (rttMs, measuredAt) ↦
        object [("rttMs", some (.num rttMs)), ("measuredAt", some (.str measuredAt))])]

/-- `JSON.stringify(msg)`. -/
def ControlToAgent.encode : Json := object msg.members

/-! ## Reading numbers and hashes -/

@[simp] theorem PORT_OK_nat : PORT_OK (some (nat n)) = true ↔ 0 < n ∧ n < 65536 := by
  rw [PORT_OK, nat, numThat_num, decide_eq_true_eq, Rat.den_natCast, Nat.cast_pos]
  have : ((n : ℚ) < 65536) ↔ n < 65536 := by exact_mod_cast Iff.rfl
  simp [this]

@[simp] theorem atLeastOne_nat : atLeastOne (some (nat n)) = true ↔ 1 ≤ n := by
  rw [atLeastOne, nat, numThat_num, decide_eq_true_eq, Nat.one_le_cast]

@[simp] theorem positiveInt_nat :
    positiveInt (some (nat n)) = true ↔ 0 < n ∧ n ≤ 9007199254740991 := by
  rw [positiveInt, nat, numThat_num, decide_eq_true_eq, Rat.den_natCast, Nat.cast_pos]
  have : ((n : ℚ) ≤ 9007199254740991) ↔ n ≤ 9007199254740991 := by exact_mod_cast Iff.rfl
  simp [this]

@[simp] theorem FP_OK_str (s : String) : FP_OK (some (.str s)) = isSha256 s := rfl

@[simp] theorem arrayOf_FP_OK_strings (l : List String) :
    arrayOf FP_OK (some (strings l)) = true ↔ ∀ s ∈ l, isSha256 s = true := by
  simp [strings]

@[simp] theorem arrayOf_isStr_strings (l : List String) :
    arrayOf isStr (some (strings l)) = true := by
  simp [strings]

theorem presentBut_map {α : Type*} (v : Option α) (f : α → Json) (check : Option Json → Bool) :
    presentBut (v.map f) check = false ↔ ∀ x ∈ v, check (some (f x)) = true := by
  cases v <;> simp [presentBut]

theorem flatten_mapIdx_eq_nil {α : Type*} {l : List α} {g : α → Json} {f : ℕ → Json → List String}
    {P : α → Prop} (h : ∀ i a, f i (g a) = [] ↔ P a) :
    ((l.map g).mapIdx f).flatten = [] ↔ ∀ a ∈ l, P a := by
  rw [List.flatten_eq_nil_iff]
  constructor
  · intro hnil a ha
    obtain ⟨i, hi, rfl⟩ := List.mem_iff_getElem.mp ha
    refine (h i _).mp (hnil _ (List.mem_mapIdx.mpr ⟨i, ?_, ?_⟩))
    · rwa [List.length_map]
    · rw [List.getElem_map]
  · intro hall r hr
    obtain ⟨i, hi, rfl⟩ := List.mem_mapIdx.mp hr
    rw [List.getElem_map]
    exact (h i _).mpr (hall _ (List.getElem_mem _))

/-! ## Endpoints -/

def inPortRange (port : ℕ) : Prop := 0 < port ∧ port < 65536

structure Endpoint.Valid (e : Endpoint) : Prop where
  certFp : isSha256 e.certFp = true
  port : inPortRange e.port
  direct : ∀ d ∈ e.direct, inPortRange d.port

theorem HostPort.checkDirect_encode (e : HostPort) :
    checkDirect (some e.encode) = true ↔ inPortRange e.port := by
  simp [checkDirect, HostPort.encode, object, get_defined, inPortRange]

theorem Endpoint.checkEndpoint_encode (e : Endpoint) (label : String) :
    checkEndpoint (some e.encode) label = [] ↔ e.Valid := by
  simp only [checkEndpoint, Endpoint.encode, object]
  simp only [get_defined, List.map_cons, List.map_nil, List.nodup_cons, List.mem_cons,
    List.not_mem_nil, String.reduceEq, or_self, not_false_eq_true, List.nodup_nil, and_self,
    decide_true, decide_false, List.find?_cons, Option.bind_some, isStr_str, FP_OK_str,
    isBool_bool, Bool.true_and, Bool.and_true]
  split_ifs with h
  · rw [Bool.and_eq_true, PORT_OK_nat] at h
    simp only [List.flatMap_eq_nil_iff, List.forall_mem_map, failing_eq_nil, Bool.not_eq_false',
      HostPort.checkDirect_encode]
    exact ⟨fun hd ↦ ⟨h.1, h.2, hd⟩, fun hv ↦ hv.direct⟩
  · rw [Bool.and_eq_true, PORT_OK_nat] at h
    exact ⟨False.elim, fun hv ↦ h ⟨hv.certFp, hv.port⟩⟩

/-! ## Assignments -/

structure WorkerAssignment.Valid (a : WorkerAssignment) : Prop where
  port : inPortRange a.port
  threads : 1 ≤ a.threads
  memCapMiB : ∀ cap ∈ a.memCapMiB, 1 ≤ cap
  peerPort : ∀ port ∈ a.peerPort, inPortRange port
  peers : ∀ peers ∈ a.peers, ∀ p ∈ peers, p.endpoint.Valid
  allow : ∀ fp ∈ a.allow, isSha256 fp = true

theorem WorkerAssignment.get_members (a : WorkerAssignment) (key : String) :
    get (defined a.members) key = (a.members.find? (·.1 = key)).bind (·.2) :=
  get_defined (by simp [WorkerAssignment.members]) key

theorem Peer.checkPeer_encode (i : ℕ) (p : Peer) :
    checkPeer (some p.encode) i = [] ↔ p.endpoint.Valid := by
  simp [checkPeer, Peer.encode, object, get_defined, nat, Endpoint.checkEndpoint_encode]

theorem checkPeers_map (peers : Option (List Peer)) :
    checkPeers (peers.map fun peers ↦ .arr (peers.map (·.encode))) = [] ↔
      ∀ l ∈ peers, ∀ p ∈ l, p.endpoint.Valid := by
  cases peers with
  | none => simp [checkPeers]
  | some =>
    simp only [checkPeers, Option.map_some, Option.mem_some_iff, forall_eq']
    exact flatten_mapIdx_eq_nil Peer.checkPeer_encode

theorem WorkerAssignment.validate_members (a : WorkerAssignment) :
    validateWorker (defined a.members) = [] ↔ a.Valid := by
  simp only [validateWorker, checkAllow, a.get_members]
  simp only [WorkerAssignment.members, List.find?_cons, String.reduceEq, decide_true, decide_false,
    Option.bind_some, List.append_eq_nil_iff, failing_eq_nil, Bool.not_eq_false', PORT_OK_nat,
    isStr_str, atLeastOne_nat, presentBut_map, checkPeers_map, arrayOf_FP_OK_strings]
  constructor
  · rintro ⟨⟨⟨⟨⟨⟨h1, -⟩, h2⟩, h3⟩, h4⟩, h5⟩, h6⟩
    exact ⟨h1, h2, h3, h4, h5, h6⟩
  · intro h
    exact ⟨⟨⟨⟨⟨⟨h.port, trivial⟩, h.threads⟩, h.memCapMiB⟩, h.peerPort⟩, h.peers⟩, h.allow⟩

structure CoordinatorAssignment.Valid (a : CoordinatorAssignment) : Prop where
  rpc : ∀ e ∈ a.rpc, e.Valid
  weights : a.devices.length = a.tensorSplit.length
  ctx : 1 ≤ a.ctx
  parallel : 1 ≤ a.parallel
  mtp : ∀ m ∈ a.mtp, 1 ≤ m.chain
  port : inPortRange a.port
  allow : ∀ fp ∈ a.allow, isSha256 fp = true

theorem CoordinatorAssignment.get_members (a : CoordinatorAssignment) (key : String) :
    get (defined a.members) key = (a.members.find? (·.1 = key)).bind (·.2) :=
  get_defined (by simp [CoordinatorAssignment.members]) key

theorem Mtp.mtpOk_encode (m : Mtp) : mtpOk (some m.encode) = true ↔ 1 ≤ m.chain := by
  simp [mtpOk, Mtp.encode, object, get_defined]

theorem checkRpc_map (rpc : List Endpoint) :
    checkRpc (some (.arr (rpc.map (·.encode)))) = [] ↔ ∀ e ∈ rpc, e.Valid := by
  exact flatten_mapIdx_eq_nil fun _ e ↦ Endpoint.checkEndpoint_encode e _

theorem checkTensorSplit_nats (devices : List String) (split : List ℕ) :
    checkTensorSplit (some (strings devices)) (some (.arr (split.map nat))) = [] ↔
      devices.length = split.length := by
  have hnum : (split.map nat).all (fun v ↦ isNum (some v)) = true := by simp [nat]
  simp [checkTensorSplit, hnum, strings]

theorem CoordinatorAssignment.validate_members (a : CoordinatorAssignment) :
    validateCoordinator (defined a.members) = [] ↔ a.Valid := by
  simp only [validateCoordinator, checkAllow, a.get_members]
  simp only [CoordinatorAssignment.members, List.find?_cons, String.reduceEq, decide_true,
    decide_false, Option.bind_some, List.append_eq_nil_iff, failing_eq_nil, Bool.not_eq_false',
    PORT_OK_nat, atLeastOne_nat, presentBut_map, Mtp.mtpOk_encode, checkRpc_map,
    checkTensorSplit_nats, arrayOf_FP_OK_strings, arrayOf_isStr_strings]
  simp only [encodeModel, object, objThat_obj, isObj]
  simp only [get_defined, List.map_cons, List.map_nil, List.nodup_cons, List.mem_cons,
    List.not_mem_nil, String.reduceEq, or_self, not_false_eq_true, List.nodup_nil, and_self,
    decide_true, List.find?_cons, Option.bind_some, isStr_str]
  constructor
  · rintro ⟨⟨⟨⟨⟨⟨⟨⟨⟨⟨-, h1⟩, -⟩, h2⟩, h3⟩, h4⟩, h5⟩, -⟩, -⟩, h6⟩, h7⟩
    exact ⟨h1, h2, h3, h4, h5, h6, h7⟩
  · intro h
    exact ⟨⟨⟨⟨⟨⟨⟨⟨⟨⟨trivial, h.rpc⟩, trivial⟩, h.weights⟩, h.ctx⟩, h.parallel⟩, h.mtp⟩, trivial⟩,
      trivial⟩, h.port⟩, h.allow⟩

structure ReplicaAssignment.Valid (a : ReplicaAssignment) : Prop where
  port : inPortRange a.port
  served : a.modelPath.isSome = true ∨ a.external.isSome = true
  allow : ∀ fp ∈ a.allow, isSha256 fp = true

theorem ReplicaAssignment.get_members (a : ReplicaAssignment) (key : String) :
    get (defined a.members) key = (a.members.find? (·.1 = key)).bind (·.2) :=
  get_defined (by simp [ReplicaAssignment.members]) key

theorem ExternalWatch.externalOk_encode (e : ExternalWatch) :
    externalOk (some e.encode) = true := by
  simp [externalOk, ExternalWatch.encode, object, get_defined]

theorem truthy_map {α : Type*} (v : Option α) (f : α → List (String × Option Json)) :
    truthy (v.map fun x ↦ object (f x)) = v.isSome := by
  cases v <;> rfl

theorem ReplicaAssignment.validate_members (a : ReplicaAssignment) :
    validateReplica (defined a.members) = [] ↔ a.Valid := by
  have hmodel : truthy (a.modelPath.map (encodeModel · none)) = a.modelPath.isSome := truthy_map _ _
  have hexternal : truthy (a.external.map (·.encode)) = a.external.isSome := truthy_map _ _
  simp only [validateReplica, checkAllow, a.get_members]
  simp only [ReplicaAssignment.members, List.find?_cons, String.reduceEq, decide_true, decide_false,
    Option.bind_some, List.append_eq_nil_iff, failing_eq_nil, Bool.not_eq_false', PORT_OK_nat,
    presentBut_map, ExternalWatch.externalOk_encode, arrayOf_FP_OK_strings, hmodel, hexternal,
    ← Bool.not_or, Bool.or_eq_true]
  exact ⟨fun h ↦ ⟨h.1.1.1, h.1.1.2, h.2⟩,
    fun h ↦ ⟨⟨⟨h.port, h.served⟩, fun _ _ ↦ trivial⟩, h.allow⟩⟩

/-! ## Native stages -/

private theorem toString_inj_of_lt : ∀ a < 25, ∀ b < 25, toString a = toString b → a = b := by
  decide

theorem block_str {s : String} {n : ℕ} :
    block (some (.str s)) = some n ↔ n < 25 ∧ toString n = s := by
  rw [block]
  constructor
  · intro h
    have hmem := List.mem_of_find?_eq_some h
    exact ⟨List.mem_range.mp hmem, by simpa using List.find?_some h⟩
  · rintro ⟨hn, rfl⟩
    cases h : (List.range 25).find? (fun k ↦ decide (toString k = toString n)) with
    | none => simpa using List.find?_eq_none.mp h n (List.mem_range.mpr hn)
    | some k =>
      have hk := List.mem_range.mp (List.mem_of_find?_eq_some h)
      have hkn : toString k = toString n := by simpa using List.find?_some h
      rw [toString_inj_of_lt k hk n hn hkn]

/-- A full context, or a nonempty canonical block range within `[0,24)`. -/
def NativeStageIdentity.RangeOk : Prop :=
  (i.stageStart = "" ∧ i.stageEnd = "" ∧ i.stageTotal = "" ∧ i.sourceSha256 = i.modelSha256) ∨
    ∃ a b : ℕ, a < b ∧ b ≤ 24 ∧ i.stageStart = toString a ∧ i.stageEnd = toString b ∧
      i.stageTotal = "24"

structure StageAssignment.Valid (a : StageAssignment) : Prop where
  id : stageIdOk a.id = true
  deploymentId : 1 ≤ Js.length a.deploymentId ∧ Js.length a.deploymentId ≤ 128
  path : a.modelPath ≠ "" ∧ '\x00' ∉ a.modelPath.toList
  port : 1024 ≤ a.port ∧ a.port < 65536
  ctx : a.ctx = 1024
  binary : isSha256 a.binarySha256 = true
  fit : ∀ fit ∈ a.fitMiB, 0 < fit ∧ fit ≤ 9007199254740991
  ram : 0 < a.enforceRamMiB ∧ a.enforceRamMiB ≤ 9007199254740991
  engine : isSha256 a.identity.engine = true
  model : isSha256 a.identity.modelSha256 = true
  source : isSha256 a.identity.sourceSha256 = true
  sameModel : a.identity.modelSha256 = a.modelSha256
  range : a.identity.RangeOk

theorem StageAssignment.get_members (a : StageAssignment) (key : String) :
    get (defined a.members) key = (a.members.find? (·.1 = key)).bind (·.2) :=
  get_defined (by simp [StageAssignment.members]) key

theorem NativeStageIdentity.get_members :
    get (defined i.members) key = (i.members.find? (·.1 = key)).bind (·.2) :=
  get_defined (by simp [NativeStageIdentity.members]) key

theorem NativeStageIdentity.stageRangeErrors_members :
    stageRangeErrors (defined i.members) = [] ↔ i.RangeOk := by
  simp only [stageRangeErrors, i.get_members]
  simp only [NativeStageIdentity.members, List.find?_cons, String.reduceEq, decide_true,
    decide_false, Option.bind_some, isText, strThat_str, Bool.and_eq_true, decide_eq_true_eq]
  split_ifs with hfull
  · obtain ⟨⟨hstart, hstop⟩, htotal⟩ := hfull
    simp only [failing_eq_nil, Bool.not_eq_false', strictEq, decide_eq_true_eq, RangeOk, hstart,
      hstop, htotal, true_and]
    refine ⟨.inl, fun h ↦ h.resolve_right ?_⟩
    rintro ⟨_, _, _, _, _, _, h⟩
    exact absurd h (by decide)
  · rw [failing_eq_nil]
    constructor
    · intro h
      split at h
      · rename_i m n hm hn
        rw [block_str] at hm hn
        simp only [Bool.or_eq_false_iff, decide_eq_false_iff_not, not_le, Bool.not_eq_false',
          decide_eq_true_eq] at h
        exact .inr ⟨m, n, h.1, by omega, hm.2.symm, hn.2.symm, h.2⟩
      · cases h
    · rintro (⟨h1, h2, h3, -⟩ | ⟨m, n, hmn, hn, hstart, hstop, htotal⟩)
      · exact absurd ⟨⟨h1, h2⟩, h3⟩ hfull
      · rw [block_str.mpr ⟨by omega, hstart.symm⟩, block_str.mpr ⟨by omega, hstop.symm⟩]
        simp only [htotal, decide_true, Bool.not_true, Bool.or_false, decide_eq_false_iff_not]
        omega

theorem isNumber_nat {q : ℚ} {n : ℕ} : isNumber q (some (nat n)) = true ↔ (n : ℚ) = q := by
  simp [isNumber, nat]

theorem stageModelOk_encode (path sha256 : String) :
    objThat stageModelOk (some (encodeModel path (some sha256))) = true ↔
      (path ≠ "" ∧ '\x00' ∉ path.toList) ∧ isSha256 sha256 = true := by
  have honly : only (defined [("path", some (.str path)), ("sha256", some (.str sha256))])
      ["path", "sha256"] = true := only_defined (by simp)
  simp [encodeModel, object, stageModelOk, honly, get_defined, and_assoc]

theorem stageEnforce_encode (ram : ℕ) :
    objThat (fun enforce ↦ only enforce ["ramMiB", "cpuCores"] &&
      positiveInt (Json.get enforce "ramMiB") && isNumber 2 (Json.get enforce "cpuCores"))
      (some (object [("ramMiB", some (nat ram)), ("cpuCores", some (nat 2))])) = true ↔
      0 < ram ∧ ram ≤ 9007199254740991 := by
  have honly : only (defined [("ramMiB", some (nat ram)), ("cpuCores", some (nat 2))])
      ["ramMiB", "cpuCores"] = true := only_defined (by simp)
  simp [object, honly, get_defined, isNumber_nat]

theorem StageAssignment.stageIdentityErrors_members (a : StageAssignment) :
    stageIdentityErrors (defined a.members) (defined a.identity.members) = [] ↔
      (isSha256 a.identity.engine = true ∧ isSha256 a.identity.modelSha256 = true ∧
        isSha256 a.identity.sourceSha256 = true) ∧ a.identity.modelSha256 = a.modelSha256 ∧
        a.identity.RangeOk := by
  have honly : only (defined a.identity.members) ["schema", "engine", "model_sha256",
      "source_sha256", "ctx", "cache_k", "cache_v", "ubatch", "flash_attn", "stage_start",
      "stage_end", "stage_total"] = true := only_defined (by simp [NativeStageIdentity.members])
  have hsame : objThat (fun model ↦ strictEq (some (.str a.identity.modelSha256))
      (Json.get model "sha256")) (some (encodeModel a.modelPath (some a.modelSha256))) = true ↔
      a.identity.modelSha256 = a.modelSha256 := by
    simp [encodeModel, object, get_defined, strictEq]
  simp only [stageIdentityErrors, a.get_members, a.identity.get_members, honly,
    NativeStageIdentity.stageRangeErrors_members, List.append_eq_nil_iff, failing_eq_nil,
    Bool.not_eq_false', Bool.and_eq_true]
  simp only [StageAssignment.members, NativeStageIdentity.members, List.find?_cons,
    String.reduceEq, decide_true, decide_false, Option.bind_some, FP_OK_str, isNumber_nat, isText,
    strThat_str, hsame, Nat.cast_one, Nat.cast_ofNat, and_true, true_and]
  constructor
  · rintro ⟨⟨⟨⟨h1, h2⟩, h3⟩, h4⟩, h5⟩
    exact ⟨⟨h1, h2, h3⟩, h4, h5⟩
  · rintro ⟨⟨h1, h2, h3⟩, h4, h5⟩
    exact ⟨⟨⟨⟨h1, h2⟩, h3⟩, h4⟩, h5⟩

theorem StageAssignment.validate_members (a : StageAssignment) :
    validateStage (defined a.members) = [] ↔ a.Valid := by
  have honly : only (defined a.members) ["kind", "id", "deploymentId", "model", "port", "ctx",
      "gpuLayers", "identity", "binarySha256", "fitMiB", "allow", "enforce"] = true :=
    only_defined (by simp [StageAssignment.members])
  have hidentity : Json.get (defined a.members) "identity" = some (object a.identity.members) := by
    rfl
  have hallow : Json.get (defined a.members) "allow" = some (.arr []) := by
    rw [a.get_members]
    rfl
  have hport : numThat (1024 ≤ ·) (some (nat a.port)) = true ↔ 1024 ≤ a.port := by
    simp [nat]
  simp only [validateStage, hidentity, hallow, object, a.stageIdentityErrors_members, honly,
    a.get_members, List.append_eq_nil_iff, failing_eq_nil]
  simp only [StageAssignment.members, List.find?_cons, String.reduceEq, decide_true, decide_false,
    Option.bind_some, Bool.not_true, Bool.not_eq_false', stageModelOk_encode, stageEnforce_encode,
    presentBut_map, positiveInt_nat, FP_OK_str, strThat_str, Bool.and_eq_true, PORT_OK_nat,
    isNumber_nat, hport, decide_eq_true_eq, Nat.cast_ofNat, true_and, and_true]
  constructor
  · rintro ⟨⟨⟨⟨⟨⟨⟨hids, hmodel⟩, hport⟩, hctx⟩, hbinary⟩, hfit⟩, hram⟩, ⟨h1, h2, h3⟩, h4, h5⟩
    exact ⟨hids.1, hids.2, hmodel.1, ⟨hport.2, hport.1.2⟩, by exact_mod_cast hctx, hbinary, hfit,
      hram, h1, h2, h3, h4, h5⟩
  · intro h
    refine ⟨⟨⟨⟨⟨⟨⟨⟨h.id, h.deploymentId⟩, h.path, ?_⟩, ?_⟩, ?_⟩, h.binary⟩, h.fit⟩, h.ram⟩,
      ⟨h.engine, h.model, h.source⟩, h.sameModel, h.range⟩
    · exact h.sameModel ▸ h.model
    · exact ⟨⟨Nat.lt_of_lt_of_le (by decide) h.port.1, h.port.2⟩, h.port.1⟩
    · exact_mod_cast h.ctx

/-! ## Messages -/

def Assignment.Valid : Assignment → Prop
  | .worker a => a.Valid
  | .coordinator a => a.Valid
  | .replica a => a.Valid
  | .stage a => a.Valid
  | .stop _ _ => True

theorem accept_eq_ok {errors : List String} {v : Json} :
    accept errors v = .ok v ↔ errors = [] := by
  rw [accept]
  split_ifs with h <;> simp [h]

theorem Assignment.validateAssignment_encode (a : Assignment) :
    validateAssignment (some a.encode) = .ok a.encode ↔ a.Valid := by
  rw [Assignment.encode, object]
  cases a with
  | worker a | coordinator a | replica a | stage a =>
    have hget : ∀ key {k}, (a.members.find? (·.1 = key)).bind (·.2) = some (.str k) →
        Json.get (defined a.members) key = some (.str k) := fun key _ ↦ (a.get_members key).trans
    simp only [members, validateAssignment, hget "kind" rfl, hget "id" rfl, hget "deploymentId" rfl,
      isStr, Bool.and_self, String.reduceEq, if_false, if_true]
    exact accept_eq_ok.trans a.validate_members
  | stop => exact iff_of_true rfl trivial

def ControlToAgent.Accepted : ControlToAgent → Prop
  | .assign a => a.Valid
  | .fetch _ => False
  | _ => True

theorem ControlToAgent.get_members :
    Json.get (defined msg.members) key = (msg.members.find? (·.1 = key)).bind (·.2) := by
  refine get_defined ?_ key
  cases msg <;> simp [ControlToAgent.members]

theorem eq_of_accept {errors : List String} {v w : Json} (h : accept errors v = .ok w) :
    w = v := by
  unfold accept at h
  split_ifs at h
  exact (Except.ok.inj h).symm

theorem validateAssignment_ok {v w : Json} (h : validateAssignment (some v) = .ok w) : w = v := by
  unfold validateAssignment at h
  split at h
  · rename_i a heq
    cases heq
    split at h
    · split_ifs at h <;> first | exact eq_of_accept h | exact (Except.ok.inj h).symm
    · cases h
  · cases h

theorem parseControlMessage_ok {v w : Json} (h : parseControlMessage (some v) = .ok w) : w = v := by
  unfold parseControlMessage at h
  split at h
  · rename_i heq
    cases heq
  · rename_i m heq
    cases heq
    split at h
    · split_ifs at h <;> try exact eq_of_accept h
      obtain ⟨_, -, rfl⟩ := Checked.map_ok h
      rfl
    · cases h
  · cases h

/-- **What the agent accepts of what control encodes**, and that it hands it on unchanged. -/
theorem parseControlMessage_encode :
    parseControlMessage (some msg.encode) = .ok msg.encode ↔ msg.Accepted := by
  simp only [parseControlMessage, ControlToAgent.encode, object, msg.get_members]
  cases msg with
  | challenge | error | ping => exact iff_of_true rfl trivial
  | welcome nodeId serverTime inferenceKey =>
    cases inferenceKey <;> exact iff_of_true rfl trivial
  | assign a =>
    refine Iff.trans ?_ a.validateAssignment_encode
    change (validateAssignment (some a.encode)).map _ = _ ↔ _
    cases h : validateAssignment (some a.encode) with
    | error => simp [Except.map]
    | ok => simp [Except.map, validateAssignment_ok h]
  | fetch => simp [ControlToAgent.members, ControlToAgent.Accepted]

end

end Swarmlet
