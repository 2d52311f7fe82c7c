import Swarmlet.Control.SplitPlans
import Swarmlet.Lib.Keyed

/-!
# Placement and the order of the rows

The registry lists its nodes in no particular order, and the planner must not care: the same rows in
another order give the same plan with the same explanation, or the same refusal.

The planner sees the rows in two ways only. It looks a requested node up by its id, which has one
answer as long as the ids are distinct, and it walks through the eligible nodes, which it sorted by
host and id before. Everything else works on the result of these two: `requireNode_onRows` and
`eligible_onRows` are the two places where the order could show, and the rest of the planner is
carried along.

The lines a plan is explained with are collected here as well, in the order in which the planner
pushes them. They decide nothing, and a refusal carries the errors alone.
-/

namespace Swarmlet

open Js

/-! ## The explanation of a plan -/

def capital (s : String) : String :=
  match s.toList with
  | [] => ""
  | c :: cs => String.ofList (c.toUpper :: cs)

def envLine (env : List (String × String)) : String :=
  let entries := " ".intercalate (env.map fun (k, v) ↦ s!"{k}={v}")
  s!"env {entries}."

section

variable (c : PlanContext) (slots : List WorkerSlot) (plan : Plan) (rt : Runtime)

def rttLabel (n : NodeRow) : String :=
  match rttOf n with
  | some rtt => s!"{rt.number rtt} ms"
  | none => "rtt unmeasured"

def ringLabel (label : WorkerSlot → String) (slots : List WorkerSlot) : String :=
  ", ".intercalate (slots.mapIdx fun i s ↦ s!"RPC{i} {label s}")

def numbers (l : List ℕ) (separator : String) : String := separator.intercalate (l.map toString)

def requestedReason (role : Role) (needModel : Bool) (n : NodeRow) : String :=
  let model := if needModel then ", model present" else ""
  s!"{capital role.text} {n.hostname}: requested by the spec; online, {role.text} role " ++
  s!"offered{model}."

def draftHeadReasons (n : NodeRow) : List String :=
  if c.chain = 0 then
    [if c.spec.speculation.isSome then
      "ngram-simple speculative decoding: draft proposals from repeated token sequences; no MTP " ++
      "draft head required."
      else "chain 0: no speculative decoding."]
  else ((c.profile.mtpPattern.bind (findModel c.rt n)).map fun f ↦
    s!"chain {c.chain}: draft head {f.name} on {n.hostname}.").toList

def placeResidentReasons (n : NodeRow) (layers : ℕ) (role : String) : List String :=
  let p := c.profile
  let ramMiB := (n.offer.map (·.ramMiB)).getD 0
  let layersMiB := layers * p.layerMiB
  let host := p.coordinatorHostMiB
  let need := layersMiB + host
  let of := s!"{layers} of {p.layers} layers"
  if n.os = .darwin then
    let device := (n.gpus.head?.map (·.engineName)).getD "CPU"
    [s!"{role} {n.hostname} keeps {of} on {device}: {layers} × {p.layerMiB} + {host} MiB host = " ++
     s!"{need} MiB of {ramMiB} MiB RAM offered (darwin, unified memory)."]
  else match offeredGpu n with
    | some gpu =>
      [s!"{role} {n.hostname} keeps {of} on {gpu.engineName}: {layers} × {p.layerMiB} = " ++
       s!"{layersMiB} MiB of {gpu.memMiB} MiB GPU offered.",
        s!"{role} {n.hostname} host side: {host} MiB of {ramMiB} MiB RAM offered."]
    | none =>
      [s!"{role} {n.hostname} keeps {of} on CPU (no GPU offered): {layers} × {p.layerMiB} + " ++
       s!"{host} MiB host = {need} MiB of {ramMiB} MiB RAM offered."]

def replicaReasons : List String :=
  match replicaNode c with
  | .error _ => []
  | .ok node =>
    [if c.spec.replicaNodeId.isSome then requestedReason .replica true node
      else s!"Replica {node.hostname}: first node by hostname with the replica role and a model " ++
        s!"matching {c.profile.ggufPattern}."] ++
    draftHeadReasons c node ++ placeResidentReasons c node c.profile.layers "Replica" ++
    [s!"Whole model on one node: no workers, no tensor split, device {plan.coordinatorDevice}.",
      envLine plan.env]

/-- Why the automatic layer counts are what they are: the row that was taken, and for each row
before it which limit refused it. -/
def chooseRowReasons (row : EnvelopeRow) : String :=
  let p := c.profile
  let rows := sortBy (fun a b ↦ compare b.workerLayers a.workerLayers) p.envelope
  let skipped := (rows.takeWhile fun row ↦ rowBlockers c slots row ≠ []).map fun row ↦
    rowLabel row ++ ": " ++ ", ".intercalate (rowBlockers c slots row)
  let how := if row.maxFit
    then s!"each worker takes the most its GPU offer holds (weights + {p.workerMarginMiB} MiB " ++
      "margin)"
    else s!"{row.workerLayers} × {p.layerMiB} + {p.workerMarginMiB} MiB margin = " ++
      s!"{row.workerLayers * p.layerMiB + p.workerMarginMiB} MiB per worker"
  let rest := if skipped = [] then "" else "; skipped " ++ "; ".intercalate skipped
  s!"Envelope {rowLabel row} fits ctx {c.ctx}, parallel {c.parallel}, chain {c.chain} and " ++
  s!"every worker's GPU offer ({how}){rest}."

def requestedLayerReasons (s : WorkerSlot) (count : ℕ) : List String :=
  let need := count * c.profile.layerMiB + c.profile.workerMarginMiB
  let ramMiB := (s.node.offer.map (·.ramMiB)).getD 0
  let ram := if s.node.os = .darwin then s!" and its {ramMiB} MiB RAM offer" else ""
  ((c.profile.envelope.find? fun r ↦ r.workerLayers = count ∧ c.ctx ≤ r.maxCtx ∧
      c.parallel ≤ r.maxParallel ∧ c.chain ≤ r.maxChain).map fun row ↦
    s!"Worker {s.node.hostname}: requested {count} layers fit envelope (maxCtx {row.maxCtx}, " ++
    s!"maxParallel {row.maxParallel}, maxChain {row.maxChain}) and {need} MiB fits its " ++
    s!"{s.gpu.memMiB} MiB GPU offer{ram}.").toList

def workerLayersReasons : List String :=
  let p := c.profile
  match c.spec.workerLayers with
  | some layers =>
    (slots.zip (layers.map Int.toNat)).flatMap fun (s, count) ↦ requestedLayerReasons c s count
  | none =>
    match chooseRow c slots with
    | .error _ => []
    | .ok row =>
      chooseRowReasons c slots row ::
        if row.maxFit then
          (slots.zip plan.workers).mapIdx fun i (s, w) ↦
            s!"RPC{i} {s.node.hostname}: max fit {w.layers} layer(s) = {w.layers * p.layerMiB} " ++
            s!"+ {p.workerMarginMiB} MiB margin ≤ {s.gpu.memMiB} MiB offered on {s.gpu.engineName}."
        else []

def splitCoordinatorReasons (coord : NodeRow) : String :=
  let ramMiB (n : NodeRow) : ℕ := (n.offer.map (·.ramMiB)).getD 0
  let others := ", ".intercalate ((coordinatorCandidates c).tail.map fun n ↦
    s!"{n.hostname} {ramMiB n} MiB")
  let rest := if others = "" then "" else s!" (others: {others})"
  if c.spec.coordinatorNodeId.isSome then requestedReason .coordinator true coord
  else s!"Coordinator {coord.hostname}: largest RAM offer ({ramMiB coord} MiB) among " ++
    s!"{(coordinatorCandidates c).length} online node(s) with the coordinator role and a model " ++
    s!"matching {c.profile.ggufPattern}{rest}."

def splitSlotsReasons : List String :=
  let relayed := slots.filter (!dialableDirectly ·.node)
  let relayedHosts := ", ".intercalate (relayed.map (·.node.hostname))
  let listed := ringLabel (·.node.hostname) slots
  let ordered := ringLabel (fun s ↦ s.node.hostname ++ " (" ++ rttLabel c.rt s.node ++ ")") slots
  if c.spec.workerNodeIds.isSome then
    slots.flatMap (fun s ↦ requestedReason .worker false s.node ::
      if dialableDirectly s.node then [] else
        [s!"Requested worker {s.node.hostname} advertises no direct endpoint: its RPC travels " ++
         "over the control relay, which is slower than a LAN path."]) ++
    [s!"Workers in the order the spec lists them: {listed}."]
  else
    (if relayed = [] then [] else
      ["Relayed over the control because no direct endpoint is advertised, so no LAN path " ++
       s!"exists to them: {relayedHosts}."]) ++
    ["Workers: every other online node with the worker role and a GPU offer, direct paths first " ++
     s!"(ordered by RTT to control then hostname) and relayed nodes after them: {ordered}."]

def planWorkerReason (i : ℕ) (s : WorkerSlot) (w : PlanWorker) : String :=
  let cpuCores := (s.node.offer.map (·.cpuCores)).getD 0
  let peer := match w.peerPort with
    | some port => s!", peer port {port}"
    | none => ""
  s!"RPC{i} {s.node.hostname}: {w.layers} layer(s) on {s.gpu.engineName}, rpc port " ++
  s!"{w.port}{peer}, {w.threads} threads (min of {cpuCores} offered and {MAX_WORKER_THREADS}), " ++
  s!"mem cap {s.gpu.memMiB} MiB."

def splitReasons : List String :=
  let p := c.profile
  let slots := (splitSlots c (splitCoordinator c).toOption).2
  let remaining := plan.tensorSplit.getLastD 0
  let devices := ",".intercalate (planDevices plan)
  let split := numbers plan.tensorSplit ","
  let placement := numbers plan.tensorSplit "/"
  match splitCoordinator c with
  | .error _ => []
  | .ok coord =>
    [splitCoordinatorReasons c coord] ++ splitSlotsReasons c slots ++ draftHeadReasons c coord ++
    workerLayersReasons c slots plan ++ placeResidentReasons c coord remaining "Coordinator" ++
    (slots.zip plan.workers).mapIdx (fun i (s, w) ↦ planWorkerReason i s w) ++
    [s!"Devices {devices}, tensor split {split}.",
      match plan.engineTensorSplit with
      | some weights =>
        let engine := numbers weights ","
        s!"Exact transformer placement {placement}; engine tensor weights {engine} include the " ++
        s!"coordinator's output slot ({p.layers + 1} total slots)."
      | none => "Automatic tensor split retains historical engine weights; weights are not " ++
        "exact transformer layer counts because the engine also distributes an output slot.",
      if c.spec.forwarding ≠ some false ∧ slots.length > 1 then
        "Push forwarding on: each worker pushes the boundary tensors to the next worker (peer " ++
        "port = rpc port + 1)."
      else if c.spec.forwarding = some false then "Push forwarding off by request."
      else "Push forwarding off: a single worker has no next hop."] ++
    (if c.spec.batchedGets = some false then
      ["Batched boundary GETs off by request (each boundary tensor is fetched with its own " ++
       "round trip)."] else []) ++
    (match c.spec.wire with
      | some .off | none => []
      | some wire =>
          [s!"Wire compression {wire.text} by request: boundary tensors are quantized on the " ++
           "wire, outputs are not guaranteed bit-exact."]) ++
    [s!"Each boundary crossing moves about {p.boundaryBytes} bytes per token (profile " ++
     s!"boundaryBytes); {slots.length + 1} crossings per ring trip.",
      envLine plan.env]

def nativeReasons (qualifications : List Qwen35NativeQualification) : List String :=
  let auto := c.spec.kind = .prefillDecode ∧ named c.spec.prefillNodeId = false ∧
    named c.spec.decodeNodeId = false
  let role := if c.spec.kind = .stages then Role.worker else .replica
  let nodes := ((nativeNodeIds c qualifications).toOption.getD []).filterMap fun id ↦
    (requireNode c id role false).toOption
  (if auto then ((bestPhasePlan c qualifications).map (·.reasons)).getD [] else []) ++
  nodes.map (requestedReason role false) ++
  match nativeQualification c qualifications nodes with
  | none => []
  | some q =>
    (nativeSlots c q nodes).mapIdx (fun i (entry, n, _) ↦
      let a := entry.artifact
      let blocks := s!"[{a.start},{a.end})"
      s!"Native {i} {n.hostname}: qualified {a.name} SHA256 {a.sha256}, blocks {blocks}; " ++
      s!"conservative reserve {gpuNeedMiB q} MiB GPU plus {q.hostMiB} MiB host, including " ++
      "full-model weights for every shard.") ++
    [s!"Native qualification evidence {q.evidenceSha256}; one serialized session, batch at most " ++
     "64, F32 K/V, ctx 1024. Actual native health identity and binary hashes must match before " ++
     "routing."]

/-- `plan.reasons`. The display name is the one part of a profile file that only the explanation
reads. -/
def planReasons (profileName : String) (input : PlanInput) (plan : Plan) : List String :=
  let spec := input.spec
  let default (v : Option ℤ) : String := if v.isNone then " (default)" else ""
  let ctx := spec.ctx.getD (if spec.kind.isNative then 1024 else DEFAULT_CTX)
  let parallel := spec.parallel.getD DEFAULT_PARALLEL
  let chain := spec.chain.getD DEFAULT_CHAIN
  let c := planContext rt input ctx parallel chain
  let hosts := if c.eligible = [] then "" else
    ": " ++ ", ".intercalate (c.eligible.map (·.hostname))
  [s!"Request: profile {input.profile.id} ({profileName}), kind {spec.kind.text}, ctx " ++
   s!"{ctx}{default spec.ctx}, parallel {parallel}{default spec.parallel}, chain " ++
   s!"{chain}{default spec.chain}.",
    s!"{c.eligible.length} of {input.nodes.length} enrolled node(s) online with an enabled " ++
    s!"offer{hosts}."] ++
  if spec.kind.isNative then nativeReasons c input.nativeQualifications
  else if spec.kind = .replica then replicaReasons c plan
  else splitReasons c plan

def explainedPlan (profileName : String) (input : PlanInput) :
    Except PlanFailure (Plan × List String) :=
  (planDeployment rt input).map fun plan ↦ (plan, planReasons rt profileName input plan)

/-! ## The same rows in another order -/

instance : Std.TransCmp byHost :=
  haveI := transCmp_on compareText NodeRow.hostname
  haveI := transCmp_on compareText NodeRow.id
  inferInstanceAs (Std.TransCmp (compareLex (fun a b : NodeRow ↦ compareText a.hostname b.hostname)
    fun a b ↦ compareText a.id b.id))

def PlanContext.onRows (rows : List NodeRow) : PlanContext := { c with all := rows }

end

section onRows

variable {c : PlanContext} {rows : List NodeRow} (hperm : rows.Perm c.all)
  (hids : (c.all.map (·.id)).Nodup)

include hperm hids

theorem requireNode_onRows : requireNode (c.onRows rows) = requireNode c := by
  funext id role need
  have hfind : rows.find? (·.id = id) = c.all.find? (·.id = id) :=
    Keyed.find?_perm NodeRow.id hperm hids id
  simp only [requireNode, PlanContext.onRows, hfind]
  rfl

theorem replicaNode_onRows : replicaNode (c.onRows rows) = replicaNode c := by
  unfold replicaNode
  rw [requireNode_onRows hperm hids]
  rfl

theorem planReplica_onRows : planReplica (c.onRows rows) = planReplica c := by
  unfold planReplica
  rw [replicaNode_onRows hperm hids]
  rfl

theorem splitCoordinator_onRows : splitCoordinator (c.onRows rows) = splitCoordinator c := by
  unfold splitCoordinator
  rw [requireNode_onRows hperm hids]
  rfl

theorem requestedSlots_onRows (coord : Option NodeRow) (seen ids : List NodeId) :
    requestedSlots (c.onRows rows) coord seen ids = requestedSlots c coord seen ids := by
  induction ids generalizing seen with
  | nil => rfl
  | cons id rest ih => simp only [requestedSlots, ih, requireNode_onRows hperm hids]

theorem splitSlots_onRows : splitSlots (c.onRows rows) = splitSlots c := by
  funext coord
  simp only [splitSlots, requestedSlots_onRows hperm hids]
  rfl

theorem planSplit_onRows : planSplit (c.onRows rows) = planSplit c := by
  unfold planSplit
  rw [splitCoordinator_onRows hperm hids, splitSlots_onRows hperm hids]
  rfl

theorem planNative_onRows (quals : List Qwen35NativeQualification) :
    planNative (c.onRows rows) quals = planNative c quals := by
  unfold planNative
  rw [requireNode_onRows hperm hids]
  rfl

theorem replicaReasons_onRows (plan : Plan) :
    replicaReasons (c.onRows rows) plan = replicaReasons c plan := by
  unfold replicaReasons
  rw [replicaNode_onRows hperm hids]
  rfl

theorem splitReasons_onRows (plan : Plan) :
    splitReasons (c.onRows rows) plan = splitReasons c plan := by
  unfold splitReasons
  rw [splitCoordinator_onRows hperm hids, splitSlots_onRows hperm hids]
  rfl

theorem nativeReasons_onRows (quals : List Qwen35NativeQualification) :
    nativeReasons (c.onRows rows) quals = nativeReasons c quals := by
  unfold nativeReasons
  rw [requireNode_onRows hperm hids]
  rfl

end onRows

theorem sortBy_byHost_perm {l l' : List NodeRow} (hperm : l.Perm l')
    (hids : (l'.map (·.id)).Nodup) : sortBy byHost l = sortBy byHost l' := by
  refine (sortBy_eq_of_perm hperm.symm fun a ha b hb heq ↦ ?_).symm
  have hid : a.id = b.id := Std.LawfulEqCmp.eq_of_compare (Ordering.then_eq_eq.mp heq).2
  exact List.inj_on_of_nodup_map hids ha hb hid

theorem planContext_onRows (rt : Runtime) (input : PlanInput) {rows : List NodeRow}
    (hperm : rows.Perm input.nodes) (hids : (input.nodes.map (·.id)).Nodup)
    (ctx parallel chain : ℤ) :
    planContext rt { input with nodes := rows } ctx parallel chain =
      (planContext rt input ctx parallel chain).onRows rows := by
  simp only [planContext, PlanContext.onRows, sortBy_byHost_perm hperm hids]

theorem planDeployment_onRows (rt : Runtime) (input : PlanInput) {rows : List NodeRow}
    (hperm : rows.Perm input.nodes) (hids : (input.nodes.map (·.id)).Nodup) :
    planDeployment rt { input with nodes := rows } = planDeployment rt input := by
  unfold planDeployment
  simp only [planContext_onRows rt input hperm hids]
  rw [planNative_onRows hperm hids,
    planReplica_onRows hperm hids,
    planSplit_onRows hperm hids]
  rfl

/-- **Placement does not depend on row order**: the same rows in another order give the same plan
with the same explanation, or the same refusal. -/
theorem explainedPlan_perm (rt : Runtime) (profileName : String) (input : PlanInput)
    {rows : List NodeRow} (hperm : rows.Perm input.nodes) (hids : (input.nodes.map (·.id)).Nodup) :
    explainedPlan rt profileName { input with nodes := rows } =
      explainedPlan rt profileName input := by
  have hreasons : planReasons rt profileName { input with nodes := rows } =
      planReasons rt profileName input := by
    funext plan
    simp only [planReasons, planContext_onRows rt input hperm hids, hperm.length_eq]
    rw [nativeReasons_onRows hperm hids,
      replicaReasons_onRows hperm hids,
      splitReasons_onRows hperm hids]
    rfl
  rw [explainedPlan, explainedPlan, planDeployment_onRows rt input hperm hids, hreasons]

theorem explainedPlan_perm_threeLayers :
    ∃ file, validateProfile (fun pattern ↦ .ok (· = pattern)) threeLayers "m.json" = .ok file ∧
      ∃ explained, explainedPlan plainRuntime "m" (splitOn file.toModelProfile) = .ok explained ∧
        explainedPlan plainRuntime "m"
          { splitOn file.toModelProfile with nodes := [gpuNode "b", gpuNode "a"] } =
            .ok explained := by
  have hfile : ∃ file, validateProfile (fun pattern ↦ .ok (· = pattern)) threeLayers "m.json" =
      .ok file ∧ (explainedPlan plainRuntime "m" (splitOn file.toModelProfile)).isOk = true := by
    decide +kernel
  obtain ⟨file, hfile, hok⟩ := hfile
  have hsame := explainedPlan_perm plainRuntime "m" (splitOn file.toModelProfile)
    (List.Perm.swap (gpuNode "a") (gpuNode "b") []) (show ["a", "b"].Nodup by decide)
  cases hplan : explainedPlan plainRuntime "m" (splitOn file.toModelProfile) with
  | error e => simp [hplan, Except.isOk, Except.toBool] at hok
  | ok explained => exact ⟨file, hfile, explained, hplan, hsame.trans hplan⟩

end Swarmlet
