import Swarmlet.Control.Starters
import Swarmlet.Control.StageExecution
import Swarmlet.NodeAgent.Admission

/-!
# What control admits and what the owner admits

Roles and limits are checked twice. The planner checks them by the kind of the deployment, against
what is left of the published offers; the agent checks them by the kind of the assignment, against
the offer its owner made. `Sent` are the assignments the starters build from a plan, each with the
row of the node it goes to.

The two agree on limits: a node that is placed lends at least one MiB and one core, its share is
within what it lends, and a share that no spec fixed is all that is left (`PlacedOn.share`). They
agree on roles with one exception. A native context is an assignment of kind `stage`, for which the
agent asks for the worker role; the planner asks for it in a deployment of kind `stages`, but in a
`prefill-decode` one it asks for the replica role. `owner_admits_iff` says what is left to ask for.
-/

namespace Swarmlet

open Js Checked

/-! ## The parts of a plan -/

def Plan.endpoints (plan : Plan) : List NativeStageWorkerPlan :=
  (plan.nativeExecution.map (·.endpoints)).getD []

def DeploymentKind.nativeRole (kind : DeploymentKind) : Role :=
  if kind = .stages then .worker else .replica

def Plan.parts (plan : Plan) : DeploymentKind → List (NodeId × Role)
  | .split => (plan.coordinatorNodeId, .coordinator) :: plan.workers.map fun w ↦ (w.nodeId, .worker)
  | .replica => [(plan.coordinatorNodeId, .replica)]
  | kind => plan.endpoints.map fun e ↦ (e.nodeId, kind.nativeRole)

theorem Plan.parts_native (plan : Plan) {kind : DeploymentKind} (h : kind.isNative = true) :
    plan.parts kind = plan.endpoints.map fun e ↦ (e.nodeId, kind.nativeRole) := by
  cases kind with
  | stages | prefillDecode => rfl
  | split | replica | external => cases h

structure Offers (nodes : List NodeRow) (id : NodeId) (role : Role) (n : NodeRow) : Prop where
  mem : n ∈ nodes
  id : n.id = id
  online : n.online = true
  offers : n.offers = true
  role : n.offer.any (·.roles.has role) = true

variable {n : NodeRow} {plan : Plan} {o : Offer} {c : PlanContext} {rt : Runtime}
  {nodes : List NodeRow} {input : ResourceInput}

theorem planReplica_parts (hc : c.Built) (h : planReplica c = .ok plan) :
    ∃ n, Offers c.all plan.coordinatorNodeId .replica n := by
  obtain ⟨n, hn, h⟩ := bind_ok h
  obtain ⟨_, -, h⟩ := bind_ok h
  cases h
  obtain ⟨hserves, hrole⟩ := replicaNode_ok hc (mapError_ok hn)
  exact ⟨n, hserves.mem, rfl, hserves.online, hserves.offers, hrole⟩

theorem planSplit_parts (hc : c.Built) (hnodup : (c.all.map (·.id)).Nodup)
    (h : planSplit c = .ok plan) :
    (∃ n, Offers c.all plan.coordinatorNodeId .coordinator n) ∧
      ∀ w ∈ plan.workers, ∃ n, Offers c.all w.nodeId .worker n := by
  obtain ⟨coord, layers, workers, hfound, rfl⟩ := planSplit_found h
  obtain ⟨hslots, -⟩ := splitSlots_ok hc hnodup hfound.slots
  obtain ⟨hserves, hrole⟩ := splitCoordinator_ok hc hfound.coordinator
  refine ⟨⟨coord, hserves.mem, rfl, hserves.online, hserves.offers, hrole⟩, ?_⟩
  obtain ⟨forwarding, hworkers⟩ := hfound.placed
  intro w hw
  obtain ⟨p, hp, hplaced⟩ := exists_input hworkers hw
  have hslot := (List.of_mem_zip hp).1
  have hserves := hslots.serves p.1 hslot
  have hid := (planWorker_sound (hslots.gpu p.1 hslot) hplaced).1
  exact ⟨p.1.node, hserves.mem, hid.symm, hserves.online, hserves.offers, hslots.role p.1 hslot⟩

theorem planNative_parts {quals : List Qwen35NativeQualification}
    (h : planNative c quals = .ok plan) :
    ∀ e ∈ plan.endpoints, ∃ n, Offers c.all e.nodeId c.spec.kind.nativeRole n ∧
      ∀ o ∈ n.offer, e.enforceRamMiB = o.ramMiB ∧ 2 ≤ o.cpuCores := by
  obtain ⟨q, nodes, endpoints, hfound, -, -, -, hnative⟩ := planNative_found h
  intro e he
  rw [Plan.endpoints, hnative] at he
  obtain ⟨slot, hslot, hplaced⟩ := exists_input hfound.placed he
  have hn := ((nativeSlots_spec c q nodes hfound.length).2 slot hslot).2
  obtain ⟨_, -, hplaced⟩ := bind_ok hplaced
  cases hplaced
  have hserves := hfound.serves _ hn
  refine ⟨slot.2.1, ⟨hserves.mem, rfl, hserves.online, hserves.offers, hfound.roles _ hn⟩, ?_⟩
  intro o ho
  rw [Option.mem_def] at ho
  refine ⟨by simp [ho], ?_⟩
  have hcpu := hfound.fits _ hn
  simp only [nativeEndpointErrors, List.append_eq_nil_iff] at hcpu
  by_contra hlt
  simp [ho, hlt] at hcpu

theorem allocations_of_nativeRequest {spec : DeploymentSpec} {ctx parallel chain : ℤ}
    (h : nativeRequestErrors spec ctx parallel chain = []) : spec.allocations = none := by
  have hnot : "allocations" ∉ nativeAllowedKeys spec.kind := by
    rw [nativeAllowedKeys]
    split_ifs <;> decide
  exact (DeploymentSpec.eq_none_of_keys (keys_of_nativeRequest h)).2.2.2.2.1 hnot

/-- What a plan asks of the node under an id: the role it has there and, for a native context, the
RAM its engine is held to. -/
structure Asked (spec : DeploymentSpec) (nodes : List NodeRow) (plan : Plan) : Prop where
  offers : ∀ p ∈ plan.parts spec.kind, ∃ n, Offers nodes p.1 p.2 n
  native : spec.kind.isNative = true → spec.allocations = none ∧
    ∀ e ∈ plan.endpoints, ∃ n ∈ nodes, n.id = e.nodeId ∧
      ∀ o ∈ n.offer, e.enforceRamMiB = o.ramMiB ∧ 2 ≤ o.cpuCores

/-- **Every part of an accepted plan stands on a node that offers its role.** -/
theorem planDeployment_asked {input : PlanInput} (hnodup : (input.nodes.map (·.id)).Nodup)
    (h : planDeployment rt input = .ok plan) :
    Asked input.spec input.nodes plan := by
  obtain ⟨_, hrequest, h⟩ := bind_ok h
  obtain ⟨-, -, hexternal, hnative, -⟩ := requestErrors_eq_nil (require_ok.mp hrequest)
  split_ifs at h with hisNative hreplica
  · have hparts := planNative_parts h
    refine ⟨?_, fun _ ↦ ⟨allocations_of_nativeRequest (hnative hisNative), ?_⟩⟩
    · rw [plan.parts_native hisNative, List.forall_mem_map]
      exact fun e he ↦ (hparts e he).imp fun _ hn ↦ hn.1
    · intro e he
      obtain ⟨n, hn, hfits⟩ := hparts e he
      exact ⟨n, hn.mem, hn.id, hfits⟩
  · refine ⟨?_, fun hn ↦ absurd hn hisNative⟩
    rw [hreplica, Plan.parts, List.forall_mem_singleton]
    exact planReplica_parts (planContext_built ..) h
  · have hsplit : input.spec.kind = .split := by
      cases hk : input.spec.kind <;> simp_all [DeploymentKind.isNative]
    obtain ⟨hcoord, hworkers⟩ := planSplit_parts (planContext_built ..) hnodup h
    refine ⟨?_, fun hn ↦ absurd hn hisNative⟩
    rw [hsplit, Plan.parts, List.forall_mem_cons, List.forall_mem_map]
    exact ⟨hcoord, hworkers⟩

/-! ## The share of a placed node -/

abbrev ResourceInput.left (input : ResourceInput) (n : NodeRow) (o : Offer) : Offer :=
  availableOffer o (input.reserved.at n.id)

/-- The share a plan takes of a node whose owner offers `o`: the spec's budget, or all that is
left. -/
structure ShareOf (input : ResourceInput) (n : NodeRow) (o : Offer) (a : NodeAllocation) :
    Prop where
  ram_pos : 1 ≤ a.ramMiB
  ram_le : a.ramMiB ≤ (input.left n o).ramMiB
  cpu_pos : 1 ≤ a.cpuCores
  cpu_le : a.cpuCores ≤ (input.left n o).cpuCores
  budget : input.spec.allocations ≠ none →
    a.ramMiB ≤ MAX_SAFE_INTEGER ∧ a.cpuCores ≤ MAX_SAFE_INTEGER
  rest : input.spec.allocations = none →
    a.ramMiB = (input.left n o).ramMiB ∧ a.cpuCores = (input.left n o).cpuCores

theorem offer_availableNode (reserved : ResourceLedger) (ho : n.offer = some o) :
    (availableNode reserved n).offer = some (availableOffer o (reserved.at n.id)) := by
  simp only [availableNode, ho]

theorem eq_of_mem_boundedNodes {reserved : ResourceLedger} {explicit : Option (List NodeAllocation)}
    (hnodup : (nodes.map (·.id)).Nodup) {m : NodeRow} (hn : n ∈ nodes)
    (hm : m ∈ boundedNodes (availableNodes nodes reserved) explicit) (hid : m.id = n.id) :
    m = (explicit.map fun budgets ↦ boundedNode budgets (availableNode reserved n)).getD
      (availableNode reserved n) := by
  have hids : ((boundedNodes (availableNodes nodes reserved) explicit).map (·.id)).Nodup := by
    rwa [map_id_boundedNodes, map_id_availableNodes]
  have hmem : availableNode reserved n ∈ availableNodes nodes reserved :=
    mem_availableNodes.mpr ⟨n, hn, rfl⟩
  cases explicit with
  | none => exact List.inj_on_of_nodup_map hids hm hmem (by simpa using hid)
  | some => exact List.inj_on_of_nodup_map hids hm (List.mem_map_of_mem hmem) (by simpa using hid)

theorem enabled_of_left (input : ResourceInput) (h : (input.left n o).enabled = true) :
    o.enabled = true ∧ 1 ≤ (input.left n o).ramMiB ∧ 1 ≤ (input.left n o).cpuCores := by
  simp only [ResourceInput.left, availableOffer, Bool.and_eq_true, decide_eq_true_eq] at h
  exact ⟨h.1.1, h.1.2, h.2⟩

theorem find?_offersOf (hnodup : (nodes.map (·.id)).Nodup) {ids : List NodeId}
    (hplaced : ∀ id ∈ ids, ∃ n ∈ nodes, n.id = id) (hn : n ∈ nodes) (hid : n.id ∈ ids) :
    (offersOf nodes ids).find? (·.nodeId = n.id) = some (offeredAllocation n) := by
  have hids : n.id ∈ (offersOf nodes ids).map (·.nodeId) := by
    rw [map_nodeId_offersOf hplaced]
    exact mem_distinct.mpr hid
  obtain ⟨a, ha, haid⟩ := List.mem_map.mp hids
  obtain ⟨m, hm, rfl⟩ := mem_offersOf ha
  obtain rfl : m = n := List.inj_on_of_nodup_map hnodup hm hn haid
  refine Keyed.find?_of_mem NodeAllocation.nodeId ?_ ha rfl
  rw [map_nodeId_offersOf hplaced]
  exact nodup_distinct ids

theorem Plan.Sound.mem_planNodes {spec : DeploymentSpec} {used : NodeId → List ℕ}
    (h : plan.Sound spec nodes used) {p : NodeId × Role} (hp : p ∈ plan.parts spec.kind) :
    p.1 ∈ planNodes plan := by
  have hnative := h.native
  cases hkind : spec.kind.isNative with
  | true =>
    rw [plan.parts_native hkind, Plan.endpoints] at hp
    obtain ⟨e, he, rfl⟩ := List.mem_map.mp hp
    cases hexec : plan.nativeExecution with
    | none => simp [hexec] at he
    | some =>
      simp only [planNodes, hexec]
      exact List.mem_map_of_mem (by simpa [hexec] using he)
  | false =>
    have hnone : plan.nativeExecution = none := by simpa [hkind] using hnative
    simp only [planNodes, hnone]
    cases hk : spec.kind with
    | split =>
      rw [hk, Plan.parts, List.mem_cons, List.mem_map] at hp
      rcases hp with rfl | ⟨w, hw, rfl⟩
      · exact List.mem_cons_self
      · exact List.mem_cons_of_mem _ (List.mem_map_of_mem hw)
    | replica =>
      rw [hk, Plan.parts, List.mem_singleton] at hp
      rw [hp]
      exact List.mem_cons_self
    | external => simp [hk, Plan.parts, Plan.endpoints, hnone] at hp
    | stages | prefillDecode => simp [hk, DeploymentKind.isNative] at hkind

theorem shareOf_left (input : ResourceInput) (hspec : input.spec.allocations = none)
    (ho : n.offer = some o) (hoffers : (availableNode input.reserved n).offers = true) :
    o.enabled = true ∧ ShareOf input n o (offeredAllocation (availableNode input.reserved n)) := by
  have hleft := offer_availableNode input.reserved ho
  rw [NodeRow.offers, hleft] at hoffers
  obtain ⟨henabled, hram, hcpu⟩ := enabled_of_left input hoffers
  have hramEq : (offeredAllocation (availableNode input.reserved n)).ramMiB =
      (input.left n o).ramMiB := by
    simp only [offeredAllocation, hleft, Option.map_some, Option.getD_some]
  have hcpuEq : (offeredAllocation (availableNode input.reserved n)).cpuCores =
      (input.left n o).cpuCores := by
    simp only [offeredAllocation, hleft, Option.map_some, Option.getD_some]
  refine ⟨henabled, ?_, ?_, ?_, ?_, fun h ↦ absurd hspec h, fun _ ↦ ⟨hramEq, hcpuEq⟩⟩
  · rwa [hramEq]
  · rw [hramEq]
  · rwa [hcpuEq]
  · rw [hcpuEq]

theorem shareOf_budget (input : ResourceInput) {budgets : List NodeAllocation}
    (hspec : input.spec.allocations = some budgets)
    (hparse : parseAllocations budgets = .ok budgets)
    (hfits : checkBudgets (availableNodes input.nodes input.reserved) budgets = .ok ())
    (hnodup : (input.nodes.map (·.id)).Nodup) (hn : n ∈ input.nodes) (ho : n.offer = some o)
    (honline : (boundedNode budgets (availableNode input.reserved n)).online = true)
    (hoffers : (boundedNode budgets (availableNode input.reserved n)).offers = true) :
    o.enabled = true ∧ ∃ a, budgets.find? (·.nodeId = n.id) = some a ∧ ShareOf input n o a ∧
      (boundedNode budgets (availableNode input.reserved n)).offer.map (·.roles) =
      some o.roles := by
  have hleft := offer_availableNode input.reserved ho
  have havailable := (boundedNode_placed honline hoffers).2
  rw [NodeRow.offers, hleft] at havailable
  obtain ⟨henabled, -⟩ := enabled_of_left input havailable
  refine ⟨henabled, ?_⟩
  cases hfind : budgets.find? (·.nodeId = n.id) with
  | none => simp [boundedNode, hfind] at honline
  | some a =>
    have ha := List.mem_of_find?_eq_some hfind
    have haid : a.nodeId = n.id := by simpa using List.find?_some hfind
    have hvalid := (parseAllocations_ok hparse).2.2 a ha
    obtain ⟨n', hn', hid', -, hfit⟩ := checkBudgets_ok hfits a ha
    obtain rfl : n' = n := List.inj_on_of_nodup_map hnodup hn' hn (hid'.trans haid)
    have hle : ∀ r, a.amount r ≤ (availableNode input.reserved n').offered r :=
      assertFits_le hvalid.gpus hfit
    simp only [NodeRow.offered, hleft, Option.map_some, Option.getD_some] at hle
    refine ⟨a, rfl, ⟨hvalid.ram_pos, hle .ram, hvalid.cpu_pos, hle .cpu,
      fun _ ↦ ⟨hvalid.ram_safe, hvalid.cpu_safe⟩, fun h ↦ by simp [hspec] at h⟩, ?_⟩
    simp [boundedNode, hfind, hleft, availableOffer]

/-- **What a placed node is asked for**: its offer is enabled, has the role, and the share is within
what is left of it. -/
theorem share_of_part (hnodup : (input.nodes.map (·.id)).Nodup)
    (h : planWithResources rt input = .ok plan) (hn : n ∈ input.nodes) (ho : n.offer = some o)
    {role : Role} (hpart : (n.id, role) ∈ plan.parts input.spec.kind) :
    o.enabled = true ∧ o.roles.has role = true ∧
      ∃ a, plan.allocationOn n.id = some a ∧ ShareOf input n o a := by
  obtain ⟨explicit, hexplicit, h⟩ := bind_ok h
  obtain ⟨_, hbudgets, h⟩ := bind_ok h
  obtain ⟨placed, hplan, h⟩ := bind_ok h
  obtain ⟨_, -, h⟩ := bind_ok h
  cases h
  have hids : ((boundedNodes (availableNodes input.nodes input.reserved) explicit).map
      (·.id)).Nodup := by
    rwa [map_id_boundedNodes, map_id_availableNodes]
  have hsound := planDeployment_sound hids hplan
  have hmem := mem_planNodeIds.mpr (hsound.mem_planNodes hpart)
  obtain ⟨m, hm⟩ := (planDeployment_asked hids hplan).offers _ hpart
  have hopt := mapError_ok hexplicit
  have hseen := eq_of_mem_boundedNodes hnodup hn hm.mem hm.id
  cases hspec : input.spec.allocations with
  | none =>
    rw [hspec] at hopt
    cases hopt
    obtain rfl : m = availableNode input.reserved n := hseen
    obtain ⟨henabled, hshare⟩ := shareOf_left input hspec ho hm.offers
    have hrole := hm.role
    rw [offer_availableNode input.reserved ho] at hrole
    refine ⟨henabled, hrole, _, ?_, hshare⟩
    have hplaced : ∀ id ∈ planNodeIds placed,
        ∃ k ∈ availableNodes input.nodes input.reserved, k.id = id := by
      intro id hid
      obtain ⟨k, hk, hkid, -⟩ := hsound.placed id (mem_planNodeIds.mp hid)
      exact ⟨k, hk, hkid⟩
    have hfind := find?_offersOf hids hplaced hm.mem (by rwa [availableNode_id])
    rwa [availableNode_id] at hfind
  | some =>
    rw [hspec] at hopt
    obtain ⟨parsed, hparse, rfl⟩ := map_ok hopt
    obtain rfl := (parseAllocations_ok hparse).1
    obtain rfl : m = boundedNode parsed (availableNode input.reserved n) := hseen
    obtain ⟨henabled, a, hfind, hshare, hroles⟩ := shareOf_budget input hspec hparse
      (forM_ok hbudgets parsed (by simp)) hnodup hn ho hm.online hm.offers
    obtain ⟨seen, hseen, hsame⟩ := Option.map_eq_some_iff.mp hroles
    have hrole := hm.role
    rw [hseen, Option.any_some, hsame] at hrole
    exact ⟨henabled, hrole, a, hfind, hshare⟩

theorem native_share (hnodup : (input.nodes.map (·.id)).Nodup)
    (h : planWithResources rt input = .ok plan) (hkind : input.spec.kind.isNative = true)
    {e : NativeStageWorkerPlan} (he : e ∈ plan.endpoints) (hn : n ∈ input.nodes)
    (hid : n.id = e.nodeId) (ho : n.offer = some o) :
    input.spec.allocations = none ∧ e.enforceRamMiB = (input.left n o).ramMiB ∧
      2 ≤ (input.left n o).cpuCores := by
  obtain ⟨explicit, hexplicit, h⟩ := bind_ok h
  obtain ⟨_, -, h⟩ := bind_ok h
  obtain ⟨placed, hplan, h⟩ := bind_ok h
  obtain ⟨_, -, h⟩ := bind_ok h
  cases h
  have hids : ((boundedNodes (availableNodes input.nodes input.reserved) explicit).map
      (·.id)).Nodup := by
    rwa [map_id_boundedNodes, map_id_availableNodes]
  obtain ⟨hspec, hnative⟩ := (planDeployment_asked hids hplan).native hkind
  have hopt := mapError_ok hexplicit
  rw [show input.spec.allocations = none from hspec] at hopt
  cases hopt
  obtain ⟨m, hm, hmid, hfits⟩ := hnative e he
  have hm : m ∈ boundedNodes (availableNodes input.nodes input.reserved) none := hm
  have hseen := eq_of_mem_boundedNodes hnodup hn hm (hmid.trans hid.symm)
  obtain rfl : m = availableNode input.reserved n := hseen
  exact ⟨hspec, hfits _ (offer_availableNode input.reserved ho)⟩

/-! ## The assignments of a start -/

/-- The assignments the starters build from a plan, each with the row of the node it is sent to. -/
inductive Sent (input : ResourceInput) (plan : Plan) : NodeRow → Assignment → Prop
  | replica {n : NodeRow} (hkind : input.spec.kind = .replica) (hn : n ∈ input.nodes)
      (hid : n.id = plan.coordinatorNodeId) (id : AssignmentId) (dep : Deployment) (port : ℕ)
      (stopExternal : Option String) :
      Sent input plan n
        (.replica (replicaAssignment id dep input.profile plan n port stopExternal))
  | stage {n : NodeRow} {e : NativeStageWorkerPlan} (hkind : input.spec.kind.isNative = true)
      (he : e ∈ plan.endpoints) (hn : n ∈ input.nodes) (hid : n.id = e.nodeId) (id : AssignmentId)
      (deploymentId : DeploymentId) :
      Sent input plan n (.stage (stageAssignment id deploymentId plan e))
  | worker {n : NodeRow} {w : PlanWorker} (hkind : input.spec.kind = .split) (hw : w ∈ plan.workers)
      (hn : n ∈ input.nodes) (hid : n.id = w.nodeId) (reverseDial : Bool) (id : AssignmentId)
      (deploymentId : DeploymentId) (coord : NodeRow) (workers : List (PlanWorker × NodeRow))
      (i : ℕ) : Sent input plan n (.worker
        (workerAssignment reverseDial id deploymentId input.profile plan coord workers i w n))
  | coordinator {n : NodeRow} (hkind : input.spec.kind = .split) (hn : n ∈ input.nodes)
      (hid : n.id = plan.coordinatorNodeId) (reverseDial : Bool) (id : AssignmentId)
      (dep : Deployment) (workers : List (PlanWorker × NodeRow)) (port : ℕ)
      (stopExternal : Option String) :
      Sent input plan n (.coordinator (coordinatorAssignment reverseDial id dep input.profile plan n
        workers port stopExternal))

/-- What the owner still has to grant for an assignment of a plan: the worker role for a
prefill-decode context, and numbers the agent can count with where no budget was fixed. -/
structure OwnerGrants (input : ResourceInput) (n : NodeRow) (o : Offer) : Prop where
  role : input.spec.kind = .prefillDecode → o.roles.worker = true
  ram : input.spec.allocations = none → (input.left n o).ramMiB ≤ MAX_SAFE_INTEGER
  cpu : input.spec.allocations = none → input.spec.kind.isNative = false →
    (input.left n o).cpuCores ≤ MAX_SAFE_INTEGER

theorem ShareOf.within {a : NodeAllocation} (h : ShareOf input n o a)
    (hkind : input.spec.kind.isNative = false) :
    Limits.Within ⟨a.ramMiB, a.cpuCores⟩ o ↔ OwnerGrants input n o := by
  have hram : (input.left n o).ramMiB ≤ o.ramMiB := Nat.sub_le _ _
  have hcpu : (input.left n o).cpuCores ≤ o.cpuCores := Nat.sub_le _ _
  constructor
  · intro hw
    refine ⟨fun hphases ↦ by simp [hphases, DeploymentKind.isNative] at hkind, fun hspec ↦ ?_,
      fun hspec _ ↦ ?_⟩
    · rw [← (h.rest hspec).1]
      exact hw.ram_safe
    · rw [← (h.rest hspec).2]
      exact hw.cpu_safe
  · intro hgrants
    have hsafe : a.ramMiB ≤ MAX_SAFE_INTEGER ∧ a.cpuCores ≤ MAX_SAFE_INTEGER := by
      by_cases hspec : input.spec.allocations = none
      · rw [(h.rest hspec).1, (h.rest hspec).2]
        exact ⟨hgrants.ram hspec, hgrants.cpu hspec hkind⟩
      · exact h.budget hspec
    exact ⟨h.ram_pos, h.ram_le.trans hram, hsafe.1, h.cpu_pos, h.cpu_le.trans hcpu, hsafe.2⟩

section Admits

variable {rt : Runtime} {input : ResourceInput} {plan : Plan}
  (hnodup : (input.nodes.map (·.id)).Nodup) (h : planWithResources rt input = .ok plan)
  {n : NodeRow} (hn : n ∈ input.nodes) {o : Offer} (ho : n.offer = some o)

include hnodup h hn ho

theorem share_admitted_iff {role : Role} (hpart : (n.id, role) ∈ plan.parts input.spec.kind)
    (hkind : input.spec.kind.isNative = false) {a : Assignment} (hrole : a.ownerRole = some role)
    (hlimits : ∀ share, plan.allocationOn n.id = some share →
      a.limits o = ⟨share.ramMiB, share.cpuCores⟩) :
    ownerAdmission o a = .ok () ↔ OwnerGrants input n o := by
  obtain ⟨henabled, hoffered, share, hshare, hwithin⟩ := share_of_part hnodup h hn ho hpart
  rw [ownerAdmission_ok hrole, hlimits share hshare, hwithin.within hkind]
  exact ⟨fun hall ↦ hall.2.2, fun hgrants ↦ ⟨henabled, hoffered, hgrants⟩⟩

theorem stage_admitted_iff (hkind : input.spec.kind.isNative = true) {e : NativeStageWorkerPlan}
    (he : e ∈ plan.endpoints) (hid : n.id = e.nodeId) (id : AssignmentId)
    (deploymentId : DeploymentId) :
    ownerAdmission o (.stage (stageAssignment id deploymentId plan e)) = .ok () ↔
      OwnerGrants input n o := by
  obtain ⟨hspec, hram, hcpu⟩ := native_share hnodup h hkind he hn hid ho
  have hpart : (n.id, input.spec.kind.nativeRole) ∈ plan.parts input.spec.kind := by
    rw [plan.parts_native hkind, hid]
    exact List.mem_map_of_mem he
  obtain ⟨henabled, hoffered, share, -, hshare⟩ := share_of_part hnodup h hn ho hpart
  have hramPos := hshare.ram_pos
  have hramLe := hshare.ram_le
  have hleftRam : (input.left n o).ramMiB ≤ o.ramMiB := Nat.sub_le _ _
  have hleftCpu : (input.left n o).cpuCores ≤ o.cpuCores := Nat.sub_le _ _
  rw [ownerAdmission_ok (show _ = some Role.worker from rfl)]
  constructor
  · rintro ⟨-, hworker, hwithin⟩
    refine ⟨fun _ ↦ hworker, fun _ ↦ hram ▸ hwithin.ram_safe, fun _ hnot ↦ ?_⟩
    rw [hkind] at hnot
    cases hnot
  · intro hgrants
    refine ⟨henabled, ?_, ?_⟩
    · cases hk : input.spec.kind with
      | prefillDecode => exact hgrants.role hk
      | stages => rwa [hk] at hoffered
      | split | replica | external => simp [hk, DeploymentKind.isNative] at hkind
    · have hlimits : (Assignment.stage (stageAssignment id deploymentId plan e)).limits o =
          ⟨(input.left n o).ramMiB, 2⟩ := by
        simp only [Assignment.limits, Assignment.enforce, Offer.limits, stageAssignment, hram]
        rfl
      rw [hlimits]
      exact ⟨hramPos.trans hramLe, hleftRam, hgrants.ram hspec, one_le_two, hcpu.trans hleftCpu,
        show 2 ≤ MAX_SAFE_INTEGER by decide⟩

end Admits

/-- **What control admits the owner admits**, for an assignment of an accepted plan, exactly when
the owner grants what the planner did not ask for. -/
theorem owner_admits_iff {rt : Runtime} {input : ResourceInput} {plan : Plan}
    (hnodup : (input.nodes.map (·.id)).Nodup) (h : planWithResources rt input = .ok plan)
    {n : NodeRow} {a : Assignment} (hsent : Sent input plan n a) {o : Offer}
    (ho : n.offer = some o) : ownerAdmission o a = .ok () ↔ OwnerGrants input n o := by
  cases hsent with
  | replica hkind hn hid =>
    refine share_admitted_iff hnodup h hn ho ?_ (by rw [hkind]; rfl) rfl fun share hshare ↦ ?_
    · rw [hkind, hid]
      exact List.mem_singleton_self _
    · simp [Assignment.limits, Assignment.enforce, Offer.limits, replicaAssignment, hshare]
  | stage hkind he hn hid id deploymentId =>
    exact stage_admitted_iff hnodup h hn ho hkind he hid id deploymentId
  | worker hkind hw hn hid =>
    refine share_admitted_iff hnodup h hn ho ?_ (by rw [hkind]; rfl) rfl fun share hshare ↦ ?_
    · rw [hkind, hid]
      exact List.mem_cons_of_mem _ (List.mem_map_of_mem hw)
    · simp [Assignment.limits, Assignment.enforce, Offer.limits, workerAssignment,
        Plan.enforceOn, hshare]
  | coordinator hkind hn hid =>
    refine share_admitted_iff hnodup h hn ho ?_ (by rw [hkind]; rfl) rfl fun share hshare ↦ ?_
    · rw [hkind, hid]
      exact List.mem_cons_self
    · simp [Assignment.limits, Assignment.enforce, Offer.limits, coordinatorAssignment,
        Plan.enforceOn, hshare]

/-! ## A prefill-decode deployment -/

def lending (roles : Roles) : Offer := ⟨true, roles, [⟨"cuda:0", 100⟩], 100, 2⟩

def phasesAmong (roles : Roles) : ResourceInput where
  spec := { name := "d", profile := "qwen35-2b-q8", kind := .prefillDecode }
  profile := qwen
  nodes := [{ stageNode "x" 100 1000 1 with offer := some (lending roles) },
    { stageNode "y" 100 1 1000 with offer := some (lending roles) }]
  reserved := []
  usedPorts := fun _ ↦ []
  nativeQualifications := [phases]

theorem owner_admits_phases :
    ∃ plan n a, planWithResources plainRuntime (phasesAmong ⟨true, false, true⟩) = .ok plan ∧
      Sent (phasesAmong ⟨true, false, true⟩) plan n a ∧
      ownerAdmission (lending ⟨true, false, true⟩) a = .ok () := by
  have hplan : ∃ plan, planWithResources plainRuntime (phasesAmong ⟨true, false, true⟩) = .ok plan ∧
      ∃ e ∈ plan.endpoints, e.nodeId = "x" := by decide +kernel
  obtain ⟨plan, hplan, e, he, hid⟩ := hplan
  have hsent : Sent (phasesAmong ⟨true, false, true⟩) plan
      { stageNode "x" 100 1000 1 with offer := some (lending ⟨true, false, true⟩) }
      (.stage (stageAssignment "as" "dep" plan e)) :=
    .stage rfl he List.mem_cons_self hid.symm "as" "dep"
  have hnodup : ((phasesAmong ⟨true, false, true⟩).nodes.map (·.id)).Nodup :=
    show ["x", "y"].Nodup by decide
  have hgrants : OwnerGrants (phasesAmong ⟨true, false, true⟩)
      { stageNode "x" 100 1000 1 with offer := some (lending ⟨true, false, true⟩) }
      (lending ⟨true, false, true⟩) :=
    ⟨fun _ ↦ rfl, fun _ ↦ by decide +kernel, fun _ hnot ↦ by cases hnot⟩
  exact ⟨plan, _, _, hplan, hsent, (owner_admits_iff hnodup hplan hsent rfl).mpr hgrants⟩

/-- **Placed and refused.** On nodes that offer the replica role alone a prefill-decode deployment
is planned, and the agents refuse each of its contexts. -/
theorem replica_only_refused :
    ∃ plan, planWithResources plainRuntime (phasesAmong ⟨false, false, true⟩) = .ok plan ∧
      plan.endpoints.map (·.nodeId) = ["x", "y"] ∧
      ∀ e ∈ plan.endpoints, ownerAdmission (lending ⟨false, false, true⟩)
        (.stage (stageAssignment "as" "dep" plan e)) = .error
          "owner offer does not allow worker; stop assignments before changing resources" := by
  decide +kernel

end Swarmlet
