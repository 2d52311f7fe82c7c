import Swarmlet.Control.Starters
import Swarmlet.NodeAgent.Agent

/-!
# Control and agent on the wire

Every code path of the control plane that sends a message to an agent is a `Producer`, with the
data it has in hand at that point; `Producer.message` is the message it sends. The starters' data is
a `Launch`: a placement that `planWithResources` accepted, and the rows of the nodes it names.

The agent accepts what a producer sends exactly when the producer is `Deliverable`. The planner's
guarantees discharge almost every check of the validator; what is left depends on data nobody has
checked before: the port of an external URL, a free server port, the path and memory of a native
model. The model fetch request is never delivered: the parser does not know its kind.
-/

namespace Swarmlet

open Js

/-! ## Producers -/

structure Launch where
  rt : Runtime
  input : ResourceInput
  plan : Plan
  planned : planWithResources rt input = .ok plan
  distinctNodes : (input.nodes.map (·.id)).Nodup
  merged : input.reserved.Merged
  /-- Enrolled certificate fingerprints are lowercase SHA-256. -/
  fingerprints : ∀ n ∈ input.nodes, isSha256 n.certFp = true
  dep : Deployment
  spec : dep.spec = input.spec
  depId : ∃ bytes, dep.id = newId "dep" bytes

/-- The workers of a placement with the rows of their nodes, and the coordinator's row. -/
structure Launch.Ring (l : Launch) where
  coord : NodeRow
  coord_mem : coord ∈ l.input.nodes
  workers : List (PlanWorker × NodeRow)
  workers_eq : workers.map (·.1) = l.plan.workers
  workers_mem : ∀ p ∈ workers, p.2 ∈ l.input.nodes

inductive Producer
  | opened (nonce : String)
  | authenticate (nodeId : NodeId) (serverTime inferenceKey : String)
  | badMessage (errors : List String)
  | sweep (ts : String) (link : Option (ℚ × String))
  /-- `POST /api/nodes/:id/models/fetch`. -/
  | fetchModel (profiles : List ModelProfile) (wanted : String)
  | stop (id : AssignmentId) (deploymentId : DeploymentId)
  /-- `startExternal`, and the reissue of a lost watch. -/
  | startExternal (bytes : Fin 6 → Fin 256) (deploymentId : DeploymentId) (ext : ExternalSpec)
      (url : Url)
  | startReplica (l : Launch) (node : NodeRow) (bytes : Fin 6 → Fin 256) (base : ℕ)
      (stopExternal : Option String)
  | startNative (l : Launch) (native : NativeExecutionPlacement)
      (hnative : l.plan.nativeExecution = some native) (e : NativeStageWorkerPlan)
      (he : e ∈ native.endpoints) (bytes : Fin 6 → Fin 256)
  | startWorker (l : Launch) (ring : l.Ring) (reverseDial : Bool) (i : Fin ring.workers.length)
      (bytes : Fin 6 → Fin 256)
  /-- The coordinator of `startSplit`; `used` are the ports in use when the workers listen. -/
  | startCoordinator (l : Launch) (split : l.input.spec.kind = .split) (ring : l.Ring)
      (reverseDial : Bool) (bytes : Fin 6 → Fin 256) (used : List ℕ) (base : ℕ)
      (stopExternal : Option String)

def fetchName (profiles : List ModelProfile) (wanted : String) : String :=
  ((profiles.find? (·.id = wanted)).map (·.modelName)).getD wanted

def Producer.message : Producer → ControlToAgent
  | .opened nonce => .challenge nonce
  | .authenticate nodeId serverTime inferenceKey => .welcome nodeId serverTime (some inferenceKey)
  | .badMessage errors => .error ("; ".intercalate errors)
  | .sweep ts link => .ping ts link
  | .fetchModel profiles wanted => .fetch (fetchName profiles wanted)
  | .stop id deploymentId => .assign (.stop id deploymentId)
  | .startExternal bytes deploymentId ext url =>
    .assign (.replica (externalAssignment (newId "as" bytes) deploymentId ext url))
  | .startReplica l node bytes base stopExternal =>
    .assign (.replica (replicaAssignment (newId "as" bytes) l.dep l.input.profile l.plan node
      (freePort (l.input.usedPorts node.id) base) stopExternal))
  | .startNative l _ _ e _ bytes =>
    .assign (.stage (stageAssignment (newId "as" bytes) l.dep.id l.plan e))
  | .startWorker l ring reverseDial i bytes =>
    .assign (.worker (workerAssignment reverseDial (newId "as" bytes) l.dep.id
      l.input.profile l.plan ring.coord ring.workers i (ring.workers.get i).1
      (ring.workers.get i).2))
  | .startCoordinator l _ ring reverseDial bytes used base stopExternal =>
    .assign (.coordinator (coordinatorAssignment reverseDial (newId "as" bytes) l.dep
      l.input.profile l.plan ring.coord ring.workers (freePort used base) stopExternal))

/-! ## Which of them arrive -/

def PortLeft (used : List ℕ) (base : ℕ) : Prop :=
  (0 < base ∨ 0 ∈ used) ∧ ∃ port, base ≤ port ∧ port < 65536 ∧ port ∉ used

/-- The condition under which the agent accepts what a code path sends. -/
def Producer.Deliverable : Producer → Prop
  | .fetchModel _ _ => False
  | .startExternal _ _ _ url => 0 < url.portNumber ∧ url.portNumber < 65536
  | .startReplica l node _ base _ => PortLeft (l.input.usedPorts node.id) base
  | .startNative _ _ _ e _ _ => e.modelPath ≠ "" ∧ '\x00' ∉ e.modelPath.toList ∧
      e.enforceRamMiB ≤ MAX_SAFE_INTEGER
  | .startCoordinator _ _ _ _ _ used base _ => PortLeft used base
  | _ => True

theorem inPortRange_freePort {used : List ℕ} {base : ℕ} :
    inPortRange (freePort used base) ↔ PortLeft used base := by
  have hfree := freePort_notMem used base
  have hle : base ≤ freePort used base := le_freePortFrom _ _ _
  constructor
  · rintro ⟨hpos, hlt⟩
    refine ⟨?_, freePort used base, hle, hlt, hfree⟩
    by_contra h
    rw [not_or, not_lt, Nat.le_zero] at h
    have hzero : freePort used base ≤ 0 := freePort_le h.1.le h.2
    omega
  · rintro ⟨hbase, port, hport, hlt, hmem⟩
    refine ⟨?_, (freePort_le hport hmem).trans_lt hlt⟩
    rcases hbase with hbase | hzero
    · exact hbase.trans_le hle
    · refine Nat.pos_of_ne_zero fun h ↦ ?_
      rw [h] at hfree
      exact hfree hzero

/-! ## What the planner has already checked -/

theorem Launch.sound (l : Launch) :
    l.plan.Sound l.input.spec l.input.nodes l.input.usedPorts :=
  (planWithResources_fits l.distinctNodes l.merged l.planned).1

theorem FreePair.inPortRange {used : List ℕ} {port : ℕ} (h : FreePair used port) :
    inPortRange port ∧ inPortRange (port + 1) := by
  have hbase := h.base_le
  have hlt := h.lt
  simp only [WORKER_PORT_BASE] at hbase
  exact ⟨⟨by omega, by omega⟩, ⟨by omega, hlt⟩⟩

theorem directAddresses_inPortRange {caps : Capabilities} {d : HostPort}
    (h : d ∈ directAddresses caps) : inPortRange d.port := by
  have hdata : inPortRange ((caps.dataPort.map (·.val)).getD AGENT_DATA_PORT) := by
    cases caps.dataPort with
    | none => exact ⟨by decide, by decide⟩
    | some port => exact ⟨port.pos, port.lt⟩
  rw [directAddresses, List.mem_append, List.mem_append] at h
  rcases h with (h | h) | h
  · obtain ⟨host, -, rfl⟩ := List.mem_map.mp h
    exact hdata
  · obtain ⟨host, -, rfl⟩ := List.mem_map.mp h
    exact hdata
  · have husable := (List.mem_filter.mp h).2
    simp only [HostPort.usable, Bool.and_eq_true, decide_eq_true_eq] at husable
    exact ⟨husable.1.2, husable.2⟩

theorem endpointFor_valid {node : NodeRow} {port : ℕ} (hfp : isSha256 node.certFp = true)
    (hport : inPortRange port) : (endpointFor node port).Valid := by
  refine ⟨hfp, hport, ?_⟩
  intro d hd
  cases hcaps : node.caps with
  | none => simp [endpointFor, hcaps] at hd
  | some => exact directAddresses_inPortRange (by simpa [endpointFor, hcaps] using hd)

theorem Launch.Ring.worker_sound {l : Launch} (ring : l.Ring) {p : PlanWorker × NodeRow}
    (h : p ∈ ring.workers) : p.1.Sound l.input.usedPorts := by
  refine l.sound.workers p.1 ?_
  rw [← ring.workers_eq]
  exact List.mem_map.mpr ⟨p, h, rfl⟩

theorem PlanWorker.Sound.peer_inPortRange {used : NodeId → List ℕ} {w : PlanWorker}
    (h : w.Sound used) {p : ℕ} (hp : p ∈ w.peerPort) : inPortRange p := by
  rw [h.peer p hp]
  exact h.port.inPortRange.2

theorem workerAssignment_valid {l : Launch} (ring : l.Ring) (reverseDial : Bool)
    (id : AssignmentId) (i : Fin ring.workers.length) :
    (workerAssignment reverseDial id l.dep.id l.input.profile l.plan ring.coord ring.workers i
      (ring.workers.get i).1 (ring.workers.get i).2).Valid := by
  have hsound := ring.worker_sound (List.get_mem ring.workers i)
  have hmem : ∀ {j : ℕ} {p : PlanWorker × NodeRow}, ring.workers[j]? = some p → p ∈ ring.workers :=
    fun h ↦ List.mem_of_getElem? h
  refine ⟨hsound.port.inPortRange.1, hsound.threads, ?_, ?_, ?_, ?_⟩
  · intro cap hcap
    exact Option.some.inj hcap ▸ hsound.memCap
  · exact fun port hport ↦ hsound.peer_inPortRange hport
  · intro peers hpeers p hp
    -- A peer exists only where the next worker has a peer port of its own.
    obtain ⟨next, hnext, hpeers⟩ := Option.bind_eq_some_iff.mp hpeers
    obtain ⟨_, -, hpeers⟩ := Option.bind_eq_some_iff.mp hpeers
    obtain ⟨port, hport, hpeers⟩ := Option.bind_eq_some_iff.mp hpeers
    cases hpeers
    rw [List.mem_singleton] at hp
    subst hp
    have hnextMem := hmem hnext
    exact endpointFor_valid (l.fingerprints _ (ring.workers_mem _ hnextMem))
      ((ring.worker_sound hnextMem).peer_inPortRange hport)
  · intro fp hfp
    simp only [workerAssignment, List.mem_cons, Option.mem_toList, Option.map_eq_some_iff] at hfp
    rcases hfp with rfl | ⟨prev, hprev, rfl⟩
    · exact l.fingerprints _ ring.coord_mem
    · split_ifs at hprev
      exact l.fingerprints _ (ring.workers_mem _ (hmem hprev))

theorem Plan.mtp_chain {plan : Plan} {m : Mtp} (h : m ∈ plan.mtp) : 1 ≤ m.chain := by
  rw [Plan.mtp, Option.mem_def] at h
  split_ifs at h with hchain
  obtain ⟨_, -, rfl⟩ := Option.map_eq_some_iff.mp h
  exact hchain

theorem coordinatorAssignment_valid {l : Launch} (hsplit : l.input.spec.kind = .split)
    (ring : l.Ring) (reverseDial : Bool) (id : AssignmentId) (port : ℕ)
    (stopExternal : Option String) :
    (coordinatorAssignment reverseDial id l.dep l.input.profile l.plan ring.coord ring.workers port
      stopExternal).Valid ↔ inPortRange port := by
  refine ⟨fun h ↦ h.port, fun hport ↦ ⟨?_, ?_, l.sound.ctx_pos, l.sound.parallel_pos, ?_,
    hport, ?_⟩⟩
  · intro e he
    obtain ⟨p, hp, rfl⟩ := List.mem_map.mp he
    have hvalid := endpointFor_valid (l.fingerprints _ (ring.workers_mem p hp))
      (ring.worker_sound hp).port.inPortRange.1
    exact ⟨hvalid.certFp, hvalid.port, hvalid.direct⟩
  · have hlen : ring.workers.length = l.plan.workers.length := by
      rw [← ring.workers_eq, List.length_map]
    simp only [coordinatorAssignment, List.length_append, List.length_mapIdx, List.length_singleton]
    rw [l.sound.weights hsplit, hlen]
  · exact fun m hm ↦ Plan.mtp_chain hm
  · simp [coordinatorAssignment]

/-! ## Identifiers -/

def isHex (c : Char) : Bool := ('0' ≤ c && c ≤ '9') || ('a' ≤ c && c ≤ 'f')

theorem hexByte_isHex (b : Fin 256) : ∀ c ∈ hexByte b, isHex c = true := by
  have hdigits : ∀ n ∈ List.range 16, isHex (Nat.digitChar n) = true := by decide +kernel
  simp only [hexByte, List.forall_mem_cons, List.not_mem_nil, false_imp_iff, implies_true, and_true]
  exact ⟨hdigits _ (List.mem_range.mpr (by omega)), hdigits _ (List.mem_range.mpr (by omega))⟩

theorem newId_toList (kind : String) (bytes : Fin 6 → Fin 256) :
    (newId kind bytes).toList = kind.toList ++ '-' :: (List.ofFn bytes).flatMap hexByte := by
  simp [newId]

variable (bytes : Fin 6 → Fin 256)

theorem length_hex : ((List.ofFn bytes).flatMap hexByte).length = 12 := by
  simp [hexByte, List.ofFn_succ]

theorem mem_hex {bytes : Fin 6 → Fin 256} {c : Char}
    (h : c ∈ (List.ofFn bytes).flatMap hexByte) : isHex c = true := by
  obtain ⟨b, -, hc⟩ := List.mem_flatMap.mp h
  exact hexByte_isHex b c hc

theorem stageIdOk_newId : stageIdOk (newId "as" bytes) = true := by
  have hhex : ∀ c ∈ (List.ofFn bytes).flatMap hexByte, (('A' ≤ c && c ≤ 'Z') ||
      ('a' ≤ c && c ≤ 'z') || ('0' ≤ c && c ≤ '9') || c == '_' || c == '-') = true := by
    intro c hc
    have := mem_hex hc
    simp only [isHex, Bool.or_eq_true, Bool.and_eq_true, decide_eq_true_eq] at this ⊢
    rcases this with h | h
    · exact .inl (.inl (.inr h))
    · exact .inl (.inl (.inl (.inr ⟨h.1, Char.le_trans h.2 (by decide)⟩)))
  rw [stageIdOk, newId_toList, List.length_append, List.length_cons, length_hex, List.all_append,
    List.all_cons, List.all_eq_true.mpr hhex]
  decide

theorem utf16_of_isHex {c : Char} (h : isHex c = true) : (utf16 c).length = 1 := by
  have hlt : c.toNat < 0x10000 := by
    simp only [isHex, Bool.or_eq_true, Bool.and_eq_true, decide_eq_true_eq] at h
    rcases h with ⟨-, h⟩ | ⟨-, h⟩
    · exact Nat.lt_of_le_of_lt (show c.toNat ≤ 57 from h) (by decide)
    · exact Nat.lt_of_le_of_lt (show c.toNat ≤ 102 from h) (by decide)
  rw [utf16, if_pos hlt, List.length_singleton]

theorem length_newId_dep : Js.length (newId "dep" bytes) = 16 := by
  have hhex : (((List.ofFn bytes).flatMap hexByte).flatMap utf16).length = 12 := by
    rw [List.length_flatMap, ← length_hex bytes]
    rw [List.map_congr_left fun c hc ↦ utf16_of_isHex (mem_hex hc), List.map_const']
    simp
  rw [Js.length, units, newId_toList, List.flatMap_append, List.flatMap_cons, List.length_append,
    List.length_append, hhex]
  decide

/-! ## Native contexts -/

theorem NativeStageWorkerPlan.Sound.assignment_valid {used : NodeId → List ℕ}
    {e : NativeStageWorkerPlan} (hsound : e.Sound used) {plan : Plan} (hctx : plan.ctx = 1024)
    (depBytes bytes : Fin 6 → Fin 256) :
    (stageAssignment (newId "as" bytes) (newId "dep" depBytes) plan e).Valid ↔
      e.modelPath ≠ "" ∧ '\x00' ∉ e.modelPath.toList ∧ e.enforceRamMiB ≤ MAX_SAFE_INTEGER := by
  have hbase := hsound.port.base_le
  have hlt := hsound.port.lt
  constructor
  · exact fun h ↦ ⟨h.path.1, h.path.2, h.ram.2⟩
  · rintro ⟨hpath, hnul, hram⟩
    refine ⟨stageIdOk_newId bytes, ?_, ⟨hpath, hnul⟩, ?_, hctx, hsound.binary, ?_,
      ⟨hsound.ram_pos, hram⟩, hsound.engine, hsound.model, hsound.source, rfl, hsound.range⟩
    · simp only [stageAssignment]
      rw [length_newId_dep]
      decide
    · simp only [WORKER_PORT_BASE] at hbase
      exact ⟨by simp only [stageAssignment]; omega, by simp only [stageAssignment]; omega⟩
    · intro fit hfit
      exact ⟨(hsound.fit fit hfit).1, (hsound.fit fit hfit).2.trans hram⟩

/-! ## Agreement on the wire -/

theorem Producer.accepted_iff (p : Producer) : p.message.Accepted ↔ p.Deliverable := by
  cases p with
  | opened | authenticate | badMessage | sweep | fetchModel | stop => exact Iff.rfl
  | startExternal =>
    refine ⟨fun h ↦ h.port, fun h ↦ ⟨h, .inr rfl, ?_⟩⟩
    simp [externalAssignment]
  | startReplica =>
    refine Iff.trans ?_ inPortRange_freePort
    refine ⟨fun h ↦ h.port, fun h ↦ ⟨h, .inl rfl, ?_⟩⟩
    simp [replicaAssignment]
  | startNative l native hnative e he bytes =>
    obtain ⟨depBytes, hdep⟩ := l.depId
    show (stageAssignment _ l.dep.id l.plan e).Valid ↔ _
    rw [hdep]
    exact (l.sound.endpoints native hnative e he).assignment_valid
      (l.sound.nativeCtx (by rw [hnative]; rfl)) depBytes bytes
  | startWorker l ring reverseDial i =>
    exact iff_of_true (workerAssignment_valid ring reverseDial _ i) trivial
  | startCoordinator l split ring reverseDial =>
    exact (coordinatorAssignment_valid split ring reverseDial _ _ _).trans inPortRange_freePort

/-- **Agreement on the wire.** The agent accepts the encoded message of a code path unchanged, and
its handler for that kind runs with the message's contents, exactly when the path is deliverable. -/
theorem message_delivered_iff (dateOk : String → Bool) (p : Producer) :
    (parseControlMessage (some p.message.encode) = .ok p.message.encode ∧
      onMessage dateOk (some p.message.encode) = some (p.message.action dateOk)) ↔
      p.Deliverable := by
  rw [parseControlMessage_encode, onMessage_encode, and_self, p.accepted_iff]

/-- A model fetch request is refused: the parser has no case for it. -/
theorem fetch_refused : parseControlMessage (some (Producer.fetchModel [] "qwen").message.encode) =
    .error ["unknown control message fetch"] := by
  rfl

end Swarmlet
