import Swarmlet.Control.Topology
import Swarmlet.Control.Step

/-!
# Storing a chosen topology

A request that leaves its topology open is priced with trial specs that are built key by key. What
is stored is a merge: the whole request, without the two automatic flags, overwritten by the fields
of the choice. So an optional field that the choice does not write survives, and the planner reads
it. `Bare` lists what it reads for each kind; the stored spec gives the plan that was priced exactly
when the request carries none of it.
-/

namespace Swarmlet

open Js Checked

namespace Topology

/-! ## The merge -/

/-- `{ ...clean, ...choice.spec }`, where `clean` is the request without its automatic flags. -/
def merge (request patch : DeploymentSpec) : DeploymentSpec where
  name := patch.name
  profile := patch.profile
  kind := patch.kind
  coordinatorNodeId := patch.coordinatorNodeId.or request.coordinatorNodeId
  workerNodeIds := patch.workerNodeIds.or request.workerNodeIds
  workerLayers := patch.workerLayers.or request.workerLayers
  replicaNodeId := patch.replicaNodeId.or request.replicaNodeId
  allocations := patch.allocations.or request.allocations
  stages := patch.stages.or request.stages
  prefillNodeId := patch.prefillNodeId.or request.prefillNodeId
  decodeNodeId := patch.decodeNodeId.or request.decodeNodeId
  modelSha256 := patch.modelSha256.or request.modelSha256
  ctx := patch.ctx.or request.ctx
  parallel := patch.parallel.or request.parallel
  chain := patch.chain.or request.chain
  speculation := patch.speculation.or request.speculation
  wire := patch.wire.or request.wire
  batchedGets := patch.batchedGets.or request.batchedGets
  forwarding := patch.forwarding.or request.forwarding
  stopExternal := patch.stopExternal.or request.stopExternal
  -- The choice has the request's own transport.
  transport := patch.transport.or request.transport
  external := patch.external.or request.external

def fleetTopology (spec : DeploymentSpec) (profile : ModelProfile) (input : FleetInput)
    (qualifications : List Qwen35NativeQualification) : TopologyInput where
  spec
  profile
  nodes := input.nodes
  usedPorts := fun nodeId ↦
    (input.assignments.filter fun r ↦ r.live && r.nodeId = nodeId).flatMap (·.body.ports)
  qualifications

end Topology

def Deps.discovering (k : Deps) (hash : Topology.Decision → String)
    (qualifications : List Qwen35NativeQualification) : Deps :=
  { k with
    chooseTopology := fun spec input ↦
      match input.profile spec.profile with
      | none => .error s!"unknown profile {spec.profile}"
      | some profile =>
        (Topology.chooseTopology k.rt hash
          (Topology.fleetTopology spec profile input qualifications)).map
            fun choice ↦ Topology.merge spec choice.spec }

/-! ## What the planner reads of a request -/

def DeploymentSpec.Plain (spec : DeploymentSpec) : Prop :=
  spec.workerLayers = none ∧ spec.speculation = none ∧ spec.wire.getD .off = .off ∧
    spec.batchedGets ≠ some false

def DeploymentSpec.NotNative (spec : DeploymentSpec) : Prop :=
  spec.stages = none ∧ spec.prefillNodeId = none ∧ spec.decodeNodeId = none ∧
    spec.modelSha256 = none

namespace Topology

/-- Beside what the choice writes, the request says nothing that the planner reads for this kind. -/
def Bare (spec : DeploymentSpec) : DeploymentKind → Prop
  | .replica => spec.NotNative ∧ spec.Plain ∧ ∀ ids ∈ spec.workerNodeIds, "" ∉ ids
  | .split => spec.NotNative ∧ spec.Plain ∧ spec.forwarding ≠ some false
  | _ => spec.coordinatorNodeId = none ∧ spec.workerNodeIds = none ∧ spec.workerLayers = none ∧
      spec.replicaNodeId = none ∧ spec.allocations = none ∧ spec.stages = none ∧
      spec.speculation = none ∧ spec.wire = none ∧ spec.batchedGets = none ∧
      spec.forwarding = none ∧ spec.stopExternal = none ∧ spec.external = none

end Topology

/-! ## The planner under another spec -/

section congr

variable {c : PlanContext} {spec : DeploymentSpec}

theorem planReplica_withSpec (hnode : spec.replicaNodeId = c.spec.replicaNodeId)
    (hspec : spec.speculation = c.spec.speculation) (henv : envFor spec 0 = envFor c.spec 0) :
    planReplica { c with spec } = planReplica c ∧
      ∀ plan, replicaReasons { c with spec } plan = replicaReasons c plan := by
  have hfound : replicaNode { c with spec } = replicaNode c := by
    unfold replicaNode
    simp only [hnode]
    rfl
  refine ⟨?_, fun plan ↦ ?_⟩
  · unfold planReplica
    simp only [hfound, hspec, henv]
    rfl
  · simp only [replicaReasons, draftHeadReasons, hfound, hspec, hnode]
    rfl

structure SplitAlike (a b : DeploymentSpec) : Prop where
  coordinator : a.coordinatorNodeId = b.coordinatorNodeId
  workers : a.workerNodeIds = b.workerNodeIds
  layers : a.workerLayers = b.workerLayers
  speculation : a.speculation = b.speculation
  forwarding : a.forwarding = some false ↔ b.forwarding = some false
  gets : a.batchedGets = some false ↔ b.batchedGets = some false
  wire : a.wire.getD .off = b.wire.getD .off

theorem splitCoordinator_withSpec (h : spec.coordinatorNodeId = c.spec.coordinatorNodeId) :
    splitCoordinator { c with spec } = splitCoordinator c := by
  unfold splitCoordinator
  simp only [h]
  rfl

theorem requestedSlots_withSpec (coord : Option NodeRow) (seen ids : List NodeId) :
    requestedSlots { c with spec } coord seen ids = requestedSlots c coord seen ids := by
  induction ids generalizing seen with
  | nil => rfl
  | cons id rest ih =>
    simp only [requestedSlots, ih]
    rfl

theorem splitSlots_withSpec (h : spec.workerNodeIds = c.spec.workerNodeIds) :
    splitSlots { c with spec } = splitSlots c := by
  funext coord
  simp only [splitSlots, requestedSlots_withSpec, h]
  rfl

theorem planSplit_withSpec (h : SplitAlike spec c.spec) :
    planSplit { c with spec } = planSplit c := by
  unfold planSplit
  simp only [splitCoordinator_withSpec h.coordinator, splitSlots_withSpec h.workers,
    workerLayers, splitPlan, envFor, h.layers, h.speculation, ne_eq, h.forwarding, h.gets, h.wire]
  rfl

theorem splitReasons_withSpec (h : SplitAlike spec c.spec) (plan : Plan) :
    splitReasons { c with spec } plan = splitReasons c plan := by
  have hwire := h.wire
  unfold splitReasons
  simp only [splitCoordinator_withSpec h.coordinator, splitSlots_withSpec h.workers,
    splitCoordinatorReasons, splitSlotsReasons, draftHeadReasons, workerLayersReasons,
    h.coordinator, h.workers, h.speculation, h.layers, h.forwarding, h.gets, ne_eq]
  generalize spec.wire = a at hwire ⊢
  generalize c.spec.wire = b at hwire ⊢
  -- The line about the wire is there for the modes that are not the default.
  rcases a with _ | _ | _ | _ <;> rcases b with _ | _ | _ | _ <;> first | rfl | cases hwire

end congr


/-! ## Requests that say the same to the planner -/

structure CommonAlike (a b : DeploymentSpec) : Prop where
  name : a.name = b.name
  kind : a.kind = b.kind
  ctx : a.ctx = b.ctx
  parallel : a.parallel = b.parallel
  chain : a.chain = b.chain

/-- Two requests of one kind that say the same to the planner of this kind. -/
def PlannedAlike (a b : DeploymentSpec) : Prop :=
  (b.kind = .replica ∧ a.replicaNodeId = b.replicaNodeId ∧ a.speculation = b.speculation ∧
    envFor a 0 = envFor b 0) ∨ (b.kind = .split ∧ SplitAlike a b)

section

variable {a b spec : DeploymentSpec} {c : PlanContext}

theorem planContext_withSpec (rt : Runtime) (input : PlanInput) (h : CommonAlike spec input.spec)
    (ctx parallel chain : ℤ) : planContext rt { input with spec } ctx parallel chain =
      { planContext rt input ctx parallel chain with spec } := by
  simp only [planContext, h.name, h.kind]

theorem explainedPlan_withSpec (rt : Runtime) (name : String) (input : PlanInput)
    (hcommon : CommonAlike spec input.spec)
    (herrors : requestErrors spec = requestErrors input.spec)
    (h : PlannedAlike spec input.spec) :
    explainedPlan rt name { input with spec } = explainedPlan rt name input := by
  unfold explainedPlan planDeployment planReasons
  simp only [planContext_withSpec rt input hcommon, hcommon.kind, hcommon.ctx, hcommon.parallel,
    hcommon.chain, herrors]
  rcases h with ⟨hkind, hnode, hspeculation, henv⟩ | ⟨hkind, halike⟩
  · have hsame (ctx parallel chain : ℤ) := planReplica_withSpec
      (c := planContext rt input ctx parallel chain) hnode hspeculation henv
    simp only [hkind, hsame, DeploymentKind.isNative, if_true, Bool.false_eq_true,
      if_false]
  · have hplan (ctx parallel chain : ℤ) := planSplit_withSpec
      (c := planContext rt input ctx parallel chain) halike
    have hreasons (ctx parallel chain : ℤ) (plan : Plan) := splitReasons_withSpec
      (c := planContext rt input ctx parallel chain) halike plan
    simp only [hkind, hplan, hreasons, DeploymentKind.isNative, Bool.false_eq_true,
      if_false, reduceCtorEq]

theorem fields_of_requestErrors {ctx parallel chain : ℤ}
    (h : requestErrors spec ctx parallel chain = []) (hkind : spec.kind.isNative = false) :
    spec.NotNative ∧ (∀ ids ∈ spec.workerNodeIds, "" ∉ ids) ∧
      (spec.kind ≠ .split → spec.workerLayers = none) := by
  simp only [requestErrors, List.append_eq_nil_iff] at h
  obtain ⟨⟨⟨-, hnative⟩, hworkers⟩, hlayers⟩ := h
  rw [hkind, if_neg Bool.false_ne_true] at hnative
  refine ⟨?_, ?_, ?_⟩
  · simpa [DeploymentSpec.NotNative, not_or] using hnative
  · intro ids hids hempty
    rw [Option.mem_def] at hids
    rw [if_pos (by simpa [hids] using hempty)] at hworkers
    cases hworkers
  · intro hsplit
    cases hl : spec.workerLayers with
    | none => rfl
    | some layers => simp [hl, hsplit, -String.reduceAppend] at hlayers

theorem requestErrors_alike (hkind : a.kind = b.kind)
    (hnative : b.kind.isNative = false) (ha : a.NotNative) (hb : b.NotNative)
    (hspeculation : a.speculation = b.speculation)
    (hlayers : a.workerLayers = none ∧ b.workerLayers = none)
    (hworkers : a.workerNodeIds.any (·.any (· = "")) = b.workerNodeIds.any (·.any (· = ""))) :
    requestErrors a = requestErrors b := by
  obtain ⟨ha₁, ha₂, ha₃, ha₄⟩ := ha
  obtain ⟨hb₁, hb₂, hb₃, hb₄⟩ := hb
  funext ctx parallel chain
  simp only [requestErrors, hkind, hnative, hspeculation, hlayers.1, hlayers.2, hworkers, ha₁, ha₂,
    ha₃, ha₄, hb₁, hb₂, hb₃, hb₄, Bool.false_eq_true, if_false]

theorem plan_of_planReplica {plan : Plan} (h : planReplica c = .ok plan) :
    plan.speculation = c.spec.speculation ∧ plan.env = envFor c.spec 0 := by
  obtain ⟨node, -, h⟩ := bind_ok h
  obtain ⟨_, -, h⟩ := bind_ok h
  cases h
  exact ⟨rfl, rfl⟩

theorem envFor_inj {m n : ℕ} (h : envFor a m = envFor b n) :
    (a.batchedGets = some false ↔ b.batchedGets = some false) ∧
      a.wire.getD .off = b.wire.getD .off := by
  simp only [envFor, List.cons.injEq, Prod.mk.injEq, true_and, and_true] at h
  obtain ⟨-, hgets, hwire⟩ := h
  constructor
  · by_cases ha : a.batchedGets = some false <;> by_cases hb : b.batchedGets = some false <;>
      simp [ha, hb] at hgets ⊢
  · generalize a.wire.getD .off = x at hwire ⊢
    generalize b.wire.getD .off = y at hwire ⊢
    cases x <;> cases y <;> first | rfl | exact absurd hwire (by decide)

/-- Where reads are batched and the wire is not compressed, the third line of a split plan from the
end tells whether the request turned forwarding off. -/
theorem splitReasons_forwarding {coord : NodeRow}
    (hcoord : splitCoordinator c = .ok coord) (hgets : c.spec.batchedGets ≠ some false)
    (hwire : c.spec.wire.getD .off = .off) (plan : Plan) (head : List String) :
    ∃ line, (head ++ splitReasons c plan).reverse[2]? = some line ∧
      (line = "Push forwarding off by request." ↔ c.spec.forwarding = some false) := by
  refine ⟨if c.spec.forwarding ≠ some false ∧
      (splitSlots c (splitCoordinator c).toOption).2.length > 1 then
        "Push forwarding on: each worker pushes the boundary tensors to the next worker (peer " ++
        "port = rpc port + 1)."
      else if c.spec.forwarding = some false then "Push forwarding off by request."
      else "Push forwarding off: a single worker has no next hop.", ?_, ?_⟩
  · unfold splitReasons
    simp only [hcoord, hgets, if_false]
    generalize c.spec.wire = wire at hwire
    rcases wire with _ | _ | _ | _
    · simp [-String.reduceAppend]
    · simp [-String.reduceAppend]
    · cases hwire
    · cases hwire
  · split_ifs with hon hoff
    · exact iff_of_false (by decide) hon.1
    · exact iff_of_true rfl hoff
    · exact iff_of_false (by decide) hoff

end

theorem explainedPlan_ok {rt : Runtime} {name : String} {input : PlanInput}
    {explained : Plan × List String} (h : explainedPlan rt name input = .ok explained) :
    ∃ ctx parallel chain, requestErrors input.spec ctx parallel chain = [] ∧
      (input.spec.kind = .replica →
        planReplica (planContext rt input ctx parallel chain) = .ok explained.1) ∧
      (input.spec.kind = .split →
        planSplit (planContext rt input ctx parallel chain) = .ok explained.1 ∧
          ∃ head, explained.2 =
            head ++ splitReasons (planContext rt input ctx parallel chain) explained.1) := by
  obtain ⟨plan, hplan, rfl⟩ := map_ok h
  obtain ⟨_, hrequest, h⟩ := bind_ok hplan
  refine ⟨_, _, _, require_ok.mp hrequest, ?_, ?_⟩
  · intro hkind
    simpa only [hkind, DeploymentKind.isNative, Bool.false_eq_true, if_false, if_true] using h
  · intro hkind
    simp only [planReasons, hkind, DeploymentKind.isNative, Bool.false_eq_true, if_false,
      reduceCtorEq] at h ⊢
    exact ⟨h, _, rfl⟩

namespace Topology

variable {rt : Runtime} {name : String} {input : TopologyInput} {sha : String}
  {explained : Plan × List String}

def trial (input : TopologyInput) (sha : String) (p : Placement) : DeploymentSpec :=
  specPatch input.spec input.profile sha p.kind (p.nodes.map (·.id))

theorem merged_replica_iff (n : NodeRow)
    (h : explainedPlan rt name (input.planInput (trial input sha (.replica n))) = .ok explained) :
    explainedPlan rt name (input.planInput (merge input.spec (trial input sha (.replica n)))) =
      .ok explained ↔ Bare input.spec .replica := by
  constructor
  · intro hstored
    obtain ⟨_, _, _, hrequest, hplan, -⟩ := explainedPlan_ok hstored
    obtain ⟨_, _, _, -, htrial, -⟩ := explainedPlan_ok h
    obtain ⟨hspeculation, henv⟩ := plan_of_planReplica (hplan rfl)
    obtain ⟨hspeculation', henv'⟩ := plan_of_planReplica (htrial rfl)
    obtain ⟨hgets, hwire⟩ := envFor_inj (henv.symm.trans henv')
    obtain ⟨hnative, hworkers, hlayers⟩ := fields_of_requestErrors hrequest rfl
    have hsplit : DeploymentKind.replica ≠ .split := by decide
    refine ⟨hnative, ⟨hlayers hsplit, hspeculation.symm.trans hspeculation', hwire, ?_⟩,
      hworkers⟩
    exact fun hfalse ↦ nomatch hgets.mp hfalse
  · rintro ⟨⟨hstages, hprefill, hdecode, hsha⟩, ⟨hlayers, hspeculation, hwire, hgets⟩, hworkers⟩
    have henv : envFor (merge input.spec (trial input sha (.replica n))) 0 =
        envFor (trial input sha (.replica n)) 0 := by
      have hwire' : (merge input.spec (trial input sha (.replica n))).wire.getD .off = .off := hwire
      have hgets' : (merge input.spec (trial input sha (.replica n))).batchedGets ≠ some false :=
        hgets
      simp only [envFor, hwire', hgets', gt_iff_lt, not_lt_zero, and_false, if_false]
      rfl
    have hempty : input.spec.workerNodeIds.any (·.any (· = "")) = false := by
      cases hids : input.spec.workerNodeIds with
      | none => rfl
      | some ids =>
        simp only [Option.any_some, List.any_eq_false, decide_eq_true_eq]
        exact fun id hid heq ↦ hworkers ids hids (heq ▸ hid)
    rw [← h]
    refine explainedPlan_withSpec rt name (input.planInput (trial input sha (.replica n)))
      ⟨rfl, rfl, rfl, rfl, rfl⟩ ?_ (.inl ⟨rfl, rfl, hspeculation, henv⟩)
    exact requestErrors_alike rfl rfl ⟨hstages, hprefill, hdecode, hsha⟩ ⟨rfl, rfl, rfl, rfl⟩
      hspeculation ⟨hlayers, rfl⟩ hempty

theorem merged_split_iff (coordinator : NodeRow) (workers : List NodeRow)
    (h : explainedPlan rt name (input.planInput (trial input sha (.split coordinator workers))) =
      .ok explained) :
    explainedPlan rt name
        (input.planInput (merge input.spec (trial input sha (.split coordinator workers)))) =
      .ok explained ↔ Bare input.spec .split := by
  constructor
  · intro hstored
    obtain ⟨_, _, _, hrequest, -, hplan⟩ := explainedPlan_ok hstored
    obtain ⟨_, _, _, -, -, htrial⟩ := explainedPlan_ok h
    obtain ⟨hplan, head, hreasons⟩ := hplan rfl
    obtain ⟨htrial, head', hreasons'⟩ := htrial rfl
    obtain ⟨coord, _, _, hfound, hsplit⟩ := planSplit_found hplan
    obtain ⟨coord', _, _, hfound', hsplit'⟩ := planSplit_found htrial
    have hsame := hsplit.symm.trans hsplit'
    have hspeculation : input.spec.speculation = none := congrArg Plan.speculation hsame
    have hlayers : input.spec.workerLayers = none :=
      Option.map_eq_none_iff.mp (congrArg Plan.engineTensorSplit hsame)
    obtain ⟨hgets, hwire⟩ := envFor_inj (congrArg Plan.env hsame)
    obtain ⟨hnative, -, -⟩ := fields_of_requestErrors hrequest rfl
    have hgets : input.spec.batchedGets ≠ some false := fun hfalse ↦ nomatch hgets.mp hfalse
    refine ⟨hnative, ⟨hlayers, hspeculation, hwire, hgets⟩, fun hforwarding ↦ ?_⟩
    -- The third line from the end is about forwarding.
    obtain ⟨line, hline, hoff⟩ :=
      splitReasons_forwarding hfound.coordinator hgets hwire explained.1 head
    obtain ⟨line', hline', hoff'⟩ :=
      splitReasons_forwarding hfound'.coordinator nofun rfl explained.1 head'
    rw [← hreasons] at hline
    rw [← hreasons', hline, Option.some.injEq] at hline'
    exact nomatch hoff'.mp (hline' ▸ hoff.mpr hforwarding)
  · rintro ⟨⟨hstages, hprefill, hdecode, hsha⟩, ⟨hlayers, hspeculation, hwire, hgets⟩, hforwarding⟩
    rw [← h]
    refine explainedPlan_withSpec rt name
      (input.planInput (trial input sha (.split coordinator workers))) ⟨rfl, rfl, rfl, rfl, rfl⟩ ?_
      (.inr ⟨rfl, ⟨rfl, rfl, hlayers, hspeculation, ?_, ?_, hwire⟩⟩)
    · exact requestErrors_alike rfl rfl ⟨hstages, hprefill, hdecode, hsha⟩ ⟨rfl, rfl, rfl, rfl⟩
        hspeculation ⟨hlayers, rfl⟩ rfl
    · exact ⟨fun h ↦ absurd h hforwarding, nofun⟩
    · exact ⟨fun h ↦ absurd h hgets, nofun⟩

theorem merged_phases_iff (prefill decode : NodeRow)
    (h : explainedPlan rt name (input.planInput (trial input sha (.prefillDecode prefill decode))) =
      .ok explained) :
    explainedPlan rt name
        (input.planInput (merge input.spec (trial input sha (.prefillDecode prefill decode)))) =
      .ok explained ↔ Bare input.spec .prefillDecode := by
  constructor
  · intro hstored
    obtain ⟨_, _, _, hrequest, -, -⟩ := explainedPlan_ok hstored
    obtain ⟨-, -, -, hnative, -⟩ := requestErrors_eq_nil hrequest
    have hkeys : ∀ key ∈ (merge input.spec (trial input sha (.prefillDecode prefill decode))).keys,
        key ∈ nativeAllowedKeys .prefillDecode := keys_of_nativeRequest (hnative rfl)
    obtain ⟨h₁, h₂, h₃, h₄, h₅, h₆, h₇, h₈, h₉, h₁₀, h₁₁, h₁₂⟩ :=
      DeploymentSpec.eq_none_of_keys hkeys
    exact ⟨h₁ (by decide), h₂ (by decide), h₃ (by decide), h₄ (by decide), h₅ (by decide),
      h₆ (by decide), h₇ (by decide), h₈ (by decide), h₉ (by decide), h₁₀ (by decide),
      h₁₁ (by decide), h₁₂ (by decide)⟩
  · rintro ⟨h₁, h₂, h₃, h₄, h₅, h₆, h₇, h₈, h₉, h₁₀, h₁₁, h₁₂⟩
    have hsame : merge input.spec (trial input sha (.prefillDecode prefill decode)) =
        trial input sha (.prefillDecode prefill decode) := by
      simp only [merge, trial, specPatch, Placement.kind, Placement.nodes, List.map_cons,
        List.map_nil, h₁, h₂, h₃, h₄, h₅, h₆, h₇, h₈, h₉, h₁₀, h₁₁, h₁₂]
      cases input.spec.transport <;> rfl
    rw [hsame, h]

theorem exists_placement {c : TopologyCandidate} (h : c ∈ admitted rt input sha) :
    ∃ p : Placement, c.kind = p.kind ∧ c.nodes = p.nodes.map (·.id) ∧
      ∃ plan, planDeployment rt (input.planInput (trial input sha p)) = .ok plan := by
  obtain ⟨fate, hfate, hc⟩ := List.mem_filterMap.mp h
  obtain ⟨p, -, rfl⟩ := List.mem_map.mp hfate
  refine ⟨p, ?_⟩
  unfold consider at hc
  split at hc
  · cases hc
  · dsimp only at hc
    split at hc
    · cases hc
    · rename_i plan hplan
      cases hc
      exact ⟨rfl, rfl, plan, hplan⟩

/-- The plan of a choice is that of its placement's trial, and the merge keeps it exactly when the
request is bare. -/
theorem merged_choice_iff {hash : Decision → String} {choice : TopologyChoice}
    (h : chooseTopology rt hash input = .ok choice) (name : String) :
    choice.spec.profile = input.profile.id ∧
      ∃ explained, explainedPlan rt name (input.planInput choice.spec) = .ok explained ∧
        (explainedPlan rt name (input.planInput (merge input.spec choice.spec)) = .ok explained ↔
          Bare input.spec choice.kind) := by
  obtain ⟨sha, others, -, hsort, hpatch, -⟩ := chooseTopology_ok h
  have hchosen : choice.toTopologyCandidate ∈ admitted rt input sha :=
    mem_sortBy.mp (hsort ▸ List.mem_cons_self)
  obtain ⟨p, hkind, hnodes, plan, hplan⟩ := exists_placement hchosen
  have htrial : choice.spec = trial input sha p := by
    rw [hpatch, hkind, hnodes]
    rfl
  have hexplained : explainedPlan rt name (input.planInput (trial input sha p)) =
      .ok (plan, planReasons rt name (input.planInput (trial input sha p)) plan) := by
    rw [explainedPlan, hplan]
    rfl
  rw [htrial, hkind]
  refine ⟨by cases p <;> rfl, _, hexplained, ?_⟩
  cases p with
  | replica n => exact merged_replica_iff n hexplained
  | prefillDecode a b => exact merged_phases_iff a b hexplained
  | split coordinator workers => exact merged_split_iff coordinator workers hexplained

end Topology

/-! ## What create stores -/

/-- The request once its model is chosen: the automatic choice drops the nodes and the layer counts
it will place itself. -/
def DeploymentSpec.freed (spec : DeploymentSpec) : DeploymentSpec :=
  if spec.kind ≠ .external ∧ (spec.profile = "auto" ∨ spec.autoModel = some true) then
    { spec with replicaNodeId := none, workerNodeIds := none, workerLayers := none }
  else spec

namespace Control

variable {k : Deps} {s : Control}

theorem createSpec_ok {spec stored : DeploymentSpec} (h : s.createSpec k spec = .ok stored) :
    ∃ asked, (∃ profile kind auto, asked =
      { spec.freed with profile, kind, autoModel := auto }) ∧ s.storeTopology k asked =
      .ok stored := by
  unfold createSpec at h
  by_cases hname : nameOk spec.name = false
  · rw [if_pos hname] at h
    cases h
  simp only [if_neg hname] at h
  by_cases hext : spec.kind = .external
  · have hfreed : spec.freed = spec := if_neg fun hfree ↦ hfree.1 hext
    simp only [if_pos hext] at h
    split at h
    · cases h
    · exact ⟨spec, ⟨_, _, _, by rw [hfreed]⟩, h⟩
  simp only [if_neg hext] at h
  by_cases hauto : spec.profile = "auto" ∨ spec.autoModel = some true
  · have hfreed : spec.freed = { spec with
        replicaNodeId := none, workerNodeIds := none, workerLayers := none } :=
      if_pos ⟨hext, hauto⟩
    simp only [if_pos hauto] at h
    split at h
    · rename_i choice hchoice
      obtain ⟨⟨profile, choice⟩, hfind, rfl⟩ := Option.map_eq_some_iff.mp hchoice
      have hmem := List.mem_of_find?_eq_some hfind
      simp only [autoCandidates, List.mem_flatMap, List.mem_map] at hmem
      obtain ⟨_, -, kind, -, hpair⟩ := hmem
      cases hpair
      exact ⟨_, ⟨_, kind, some true, by rw [hfreed]⟩, h⟩
    · cases h
  · have hfreed : spec.freed = spec := if_neg fun hfree ↦ hauto hfree.2
    simp only [if_neg hauto] at h
    split_ifs at h
    · exact ⟨spec, ⟨_, _, _, by rw [hfreed]⟩, h⟩
    · cases h

/-- What the search is asked for a request: the fleet as it is, and the request with the model that
was chosen for it. -/
structure AskedFor (k : Deps) (s : Control) (qualifications : List Qwen35NativeQualification)
    (spec : DeploymentSpec) (input : Topology.TopologyInput) : Prop where
  nodes : input.nodes = (s.fleetInput k).nodes
  usedPorts : input.usedPorts = s.usedPorts
  qualified : input.qualifications = qualifications
  profile : input.profile ∈ k.profiles
  spec : ∃ profile kind auto, input.spec = { spec.freed with profile, kind, autoModel := auto }

/-- **What topology discovery priced is what gets stored** exactly when the request carries no other
field that the planner reads for the kind that is chosen. -/
theorem stored_plan_iff {hash : Topology.Decision → String}
    {qualifications : List Qwen35NativeQualification} {spec stored : DeploymentSpec}
    (hauto : spec.autoTopology = some true)
    (h : s.createSpec (k.discovering hash qualifications) spec = .ok stored) (name : String) :
    ∃ input, AskedFor k s qualifications spec input ∧
      ∃ choice, Topology.chooseTopology k.rt hash input = .ok choice ∧
        ∃ explained, explainedPlan k.rt name (input.planInput choice.spec) = .ok explained ∧
          (explainedPlan k.rt name (input.planInput stored) = .ok explained ↔
            Topology.Bare spec.freed choice.kind) := by
  obtain ⟨asked, ⟨model, kind, auto, hasked⟩, hstore⟩ := createSpec_ok h
  have hopen : asked.autoTopology = some true := by
    rw [hasked, ← hauto]
    unfold DeploymentSpec.freed
    split_ifs <;> rfl
  have hbare (chosen : DeploymentKind) :
      Topology.Bare asked chosen ↔ Topology.Bare spec.freed chosen := by
    rw [hasked]
    cases chosen <;> exact Iff.rfl
  unfold storeTopology at hstore
  split_ifs at hstore with hprofile
  obtain ⟨merged, hmerged, hstored⟩ := bind_ok hstore
  simp only [Deps.discovering] at hmerged
  split at hmerged
  · cases hmerged
  rename_i profile hfind
  obtain ⟨choice, hchoice, rfl⟩ := map_ok hmerged
  have hid : profile.id = asked.profile := by simpa using List.find?_some hfind
  obtain ⟨hprofile, explained, htrial, hiff⟩ := Topology.merged_choice_iff hchoice name
  have hmerge : stored = Topology.merge asked choice.spec := by
    have hprofile : (Topology.merge asked choice.spec).profile = asked.profile :=
      hprofile.trans hid
    rw [← Except.ok.inj hstored, ← hprofile]
    rfl
  refine ⟨Topology.fleetTopology asked profile (s.fleetInput k) qualifications,
    ⟨rfl, rfl, rfl, List.mem_of_find?_eq_some hfind, model, kind, auto, hasked⟩, choice, hchoice,
    explained, htrial, ?_⟩
  rw [hmerge, ← hbare]
  exact hiff

def benchDeps : Deps where
  rt := plainRuntime
  profiles := [Topology.benchProfile]
  nativeQualifications := []
  chooseTopology := fun _ _ ↦ .error ""
  fleetRevision := fun _ ↦ ""

def benchControl : Control :=
  { Control.init with
    nodes := ⟨[Topology.benchNode "a" "1" "s" 512], by simp⟩
    conns := fun _ ↦ some false }

def openSpec (modelSha256 : Option String) : DeploymentSpec :=
  { name := "d", profile := "m", kind := .replica, autoTopology := some true, modelSha256 }

/-- A request that names the digest of its model is stored as a replica with a digest, which the
planner refuses. -/
theorem stored_spec_refused :
    ∃ stored, benchControl.createSpec (benchDeps.discovering (·.modelSha256) [])
        (openSpec (some "s")) = .ok stored ∧
      (planDeployment plainRuntime
        { spec := stored, profile := Topology.benchProfile,
          nodes := (benchControl.fleetInput benchDeps).nodes, usedPorts := benchControl.usedPorts,
          nativeQualifications := [] }).isOk = false := by
  decide +kernel

theorem stored_plan_iff_open :
    ∃ stored, benchControl.createSpec (benchDeps.discovering (·.modelSha256) []) (openSpec none) =
        .ok stored ∧
      ∃ input, AskedFor benchDeps benchControl [] (openSpec none) input ∧
        ∃ choice, Topology.chooseTopology plainRuntime (·.modelSha256) input = .ok choice ∧
          ∃ explained,
            explainedPlan plainRuntime "m" (input.planInput choice.spec) = .ok explained ∧
              (explainedPlan plainRuntime "m" (input.planInput stored) = .ok explained ↔
                Topology.Bare (openSpec none).freed choice.kind) := by
  have hstored : ∃ stored, benchControl.createSpec (benchDeps.discovering (·.modelSha256) [])
      (openSpec none) = .ok stored ∧ stored.replicaNodeId = some "a" := by
    decide +kernel
  obtain ⟨stored, hstored, -⟩ := hstored
  exact ⟨stored, hstored, stored_plan_iff rfl hstored "m"⟩

end Control

end Swarmlet
