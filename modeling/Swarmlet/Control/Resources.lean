import Swarmlet.Control.PlanFacts
import Swarmlet.Lib.Keyed

/-!
# Shared capacity

What admission, fleet previews and running assignments may use of a node. A stopped process
releases its share only after its agent acknowledged the cleanup, so `reservedResources` counts a
deployment by its live rows and not by its state alone.

## The accounting

A `Resource` is RAM, CPU cores or one GPU id, and `amount` measures allocations, offers and ledger
entries in it. Everything said about capacity is said once for every resource: the ledger law is
`amount_addAllocations`, what is left of an offer is bounded by `amount_availableOffer_le`, and
`planWithResources_fits` is the admission bound: a plan never takes more of a node than its offer
leaves beside what was reserved.
-/

namespace Swarmlet

open Js Checked

/-! ## Resources and amounts -/

inductive Resource
  | ram | cpu | gpu (id : String)
deriving DecidableEq, Repr

def gpuAmount (gpu : List GpuOffer) (id : String) : ℕ :=
  Keyed.total GpuOffer.id GpuOffer.memMiB gpu id

def NodeAllocation.amount (a : NodeAllocation) : Resource → ℕ
  | .ram => a.ramMiB
  | .cpu => a.cpuCores
  | .gpu id => gpuAmount a.gpu id

def Offer.amount (o : Offer) : Resource → ℕ
  | .ram => o.ramMiB
  | .cpu => o.cpuCores
  | .gpu id => gpuAmount o.gpu id

def NodeRow.offered (n : NodeRow) (r : Resource) : ℕ := (n.offer.map (·.amount r)).getD 0

/-! ## The ledger -/

def emptyAllocation (nodeId : NodeId) : NodeAllocation := ⟨nodeId, 0, 0, []⟩

def mergeGpu : List GpuOffer → GpuOffer → List GpuOffer :=
  Keyed.upsert GpuOffer.id (fun a v ↦ { a with memMiB := a.memMiB + v.memMiB }) id

def mergeAllocation (current value : NodeAllocation) : NodeAllocation where
  nodeId := current.nodeId
  ramMiB := current.ramMiB + value.ramMiB
  cpuCores := current.cpuCores + value.cpuCores
  gpu := value.gpu.foldl mergeGpu current.gpu

abbrev ResourceLedger := List NodeAllocation

def addAllocation : ResourceLedger → NodeAllocation → ResourceLedger :=
  Keyed.upsert NodeAllocation.nodeId mergeAllocation
    fun v ↦ mergeAllocation (emptyAllocation v.nodeId) v

section

variable (ledger : ResourceLedger) (plan : Plan)

def addAllocations (values : List NodeAllocation) : ResourceLedger :=
  values.foldl addAllocation ledger

def ResourceLedger.at (nodeId : NodeId) : NodeAllocation :=
  (ledger.find? (·.nodeId = nodeId)).getD (emptyAllocation nodeId)

def offeredAllocation (node : NodeRow) : NodeAllocation where
  nodeId := node.id
  ramMiB := (node.offer.map (·.ramMiB)).getD 0
  cpuCores := (node.offer.map (·.cpuCores)).getD 0
  gpu := (node.offer.map (·.gpu)).getD []

def planNodeIds : List NodeId :=
  match plan.nativeExecution with
  | some native => distinct (native.endpoints.map (·.nodeId))
  | none => plan.coordinatorNodeId :: plan.workers.map (·.nodeId)

/-! ## Reservations -/

def DeploymentState.active : DeploymentState → Bool
  | .placing | .loading | .ready | .draining => true
  | _ => false

def offersOf (nodes : List NodeRow) (ids : List NodeId) : List NodeAllocation :=
  (distinct ids).filterMap fun id ↦ (nodes.find? (·.id = id)).map offeredAllocation

/-- What one deployment reserves, given its live rows: its plan's allocations plus the whole offer
of any other node it still runs on; without recorded allocations, whole offers throughout. -/
def reservation (nodes : List NodeRow) (dep : Deployment) (rows : List AssignmentRow) :
    List NodeAllocation :=
  if dep.spec.kind = .external ∨ (dep.state.active = false ∧ rows = []) then []
  else match dep.plan.bind (·.allocations) with
    | some allocations =>
      let planned := allocations.map (·.nodeId)
      allocations ++ offersOf nodes ((rows.filter (·.nodeId ∉ planned)).map (·.nodeId))
    | none =>
      offersOf nodes (rows.map (·.nodeId) ++
        if dep.state.active then (dep.plan.map planNodeIds).getD [] else [])

def liveRows (assignments : List AssignmentRow) : List AssignmentRow :=
  assignments.filter fun r ↦ r.live && !r.healthWatch

def reservedResources (deployments : List Deployment) (assignments : List AssignmentRow)
    (nodes : List NodeRow) (exclude : List DeploymentId) : ResourceLedger :=
  let live := liveRows assignments
  let held := (deployments.filter (·.id ∉ exclude)).flatMap fun dep ↦
    reservation nodes dep (live.filter (·.deploymentId = dep.id))
  -- Rows of deployments that are gone still occupy their node's whole offer.
  let unknown := (distinct (live.map (·.deploymentId))).filter fun id ↦
    id ∉ deployments.map (·.id) ∧ id ∉ exclude
  let orphaned := unknown.flatMap fun id ↦
    offersOf nodes ((live.filter (·.deploymentId = id)).map (·.nodeId))
  addAllocations [] (held ++ orphaned)

def availableOffer (offer : Offer) (used : NodeAllocation) : Offer :=
  let ramMiB := offer.ramMiB - used.ramMiB
  let cpuCores := offer.cpuCores - used.cpuCores
  { offer with
    ramMiB
    cpuCores
    gpu := (offer.gpu.map fun g ↦
      { g with memMiB := g.memMiB - ((used.gpu.find? (·.id = g.id)).map (·.memMiB)).getD 0 }).filter
        (·.memMiB > 0)
    enabled := offer.enabled && ramMiB > 0 && cpuCores ≥ 1 }

def Capabilities.restrictGpus (caps : Capabilities) (gpu : List GpuOffer) : Capabilities :=
  { caps with gpus := caps.gpus.filter fun g ↦ gpu.any (·.id = g.id) }

def availableNode (reserved : ResourceLedger) (node : NodeRow) : NodeRow :=
  match node.offer with
  | none => node
  | some offer =>
    let left := availableOffer offer (reserved.at node.id)
    { node with offer := some left, caps := node.caps.map (·.restrictGpus left.gpu) }

def availableNodes (nodes : List NodeRow) (reserved : ResourceLedger) : List NodeRow :=
  nodes.map (availableNode reserved)

/-! ## Explicit budgets -/

def validGpuBudgets (gpu : List GpuOffer) : Bool :=
  gpu.all (fun g ↦ g.id ≠ "" && positiveSafe g.memMiB) && decide (gpu.map (·.id)).Nodup

def parseAllocationsFrom (seen : List NodeId) : List NodeAllocation → Except String Unit
  | [] => .ok ()
  | a :: rest =>
    if a.nodeId = "" ∨ a.nodeId ∈ seen ∨ positiveSafe a.ramMiB = false ∨
        positiveSafe a.cpuCores = false ∨ a.gpu.length > 64 then
      .error "Each allocation needs a unique node, positive integer RAM/CPU budgets and a GPU list."
    else if validGpuBudgets a.gpu then parseAllocationsFrom (a.nodeId :: seen) rest
    else .error "Invalid or duplicate GPU allocation."

def parseAllocations (value : List NodeAllocation) : Except String (List NodeAllocation) :=
  if value = [] ∨ value.length > 1000 then
    .error "Allocations must contain 1–1000 node budgets."
  else (parseAllocationsFrom [] value).map fun _ ↦ value

def fitProblem (allocation : NodeAllocation) (node : NodeRow) : Option String :=
  match node.offer.filter fun o ↦ node.online && o.enabled with
  | none => some s!"{node.hostname}: node is offline or not offering resources."
  | some offer =>
    if allocation.ramMiB > offer.ramMiB ∨ allocation.cpuCores > offer.cpuCores then
      some (s!"{node.hostname}: allocation needs {allocation.ramMiB} MiB RAM / " ++
        s!"{allocation.cpuCores} CPU, but only {offer.ramMiB} MiB / {offer.cpuCores} remain.")
    else allocation.gpu.findSome? fun gpu ↦
      let free := ((offer.gpu.find? (·.id = gpu.id)).map (·.memMiB)).getD 0
      if gpu.memMiB > free then
        some s!"{node.hostname}: {gpu.id} needs {gpu.memMiB} MiB, but only {free} MiB remain."
      else none

def assertFits (allocation : NodeAllocation) (node : NodeRow) : Except PlanFailure Unit :=
  match fitProblem allocation node with
  | none => .ok ()
  | some problem => .error (.error problem)

def minimumAllocation (profile : ModelProfile) (n : NodeRow) : NodeAllocation :=
  let worker := plan.workers.find? (·.nodeId = n.id)
  let layers := (worker.map (·.layers)).getD
    (if plan.workers = [] then profile.layers else plan.tensorSplit.getLastD 0)
  let device := (worker.map (·.device)).getD plan.coordinatorDevice
  let gpu := n.gpus.find? (·.engineName = device)
  let draftBytes :=
    (plan.mtpPath.bind fun path ↦ (n.models.find? (·.path = path)).map (·.sizeBytes)).getD 0
  let draft := if worker.isNone then (draftBytes + 1048575) / 1048576 else 0
  let resident := layers * profile.layerMiB + draft
  let gpuMiB := if gpu.isSome then resident + profile.workerMarginMiB else 0
  { nodeId := n.id
    ramMiB := if worker.isSome then max 1024 gpuMiB
      else (if n.os = .darwin ∨ gpu.isNone then resident
        else max resident profile.coordinatorHostMiB) + profile.coordinatorHostMiB
    cpuCores := 1
    gpu := gpu.toList.map fun g ↦ ⟨g.id, gpuMiB⟩ }

def minimumAllocations (profile : ModelProfile) (nodes : List NodeRow) : List NodeAllocation :=
  match plan.nativeExecution with
  | some native => native.endpoints.map fun e ↦
      { nodeId := e.nodeId, ramMiB := e.enforceRamMiB, cpuCores := 2
        gpu := ((nodes.find? (·.id = e.nodeId)).map fun n ↦ (offeredAllocation n).gpu).getD [] }
  | none => (planNodeIds plan).filterMap fun id ↦
      (nodes.find? (·.id = id)).map (minimumAllocation plan profile)

/-! ## Planning within what is left -/

structure ResourceInput where
  spec : DeploymentSpec
  profile : ModelProfile
  nodes : List NodeRow
  reserved : ResourceLedger
  usedPorts : NodeId → List ℕ
  nativeQualifications : List Qwen35NativeQualification

/-- The node as a budgeted plan sees it: exactly its budget, or offline without one. -/
def boundedNode (explicit : List NodeAllocation) (n : NodeRow) : NodeRow :=
  match explicit.find? (·.nodeId = n.id), n.offer with
  | some a, some offer =>
    { n with
      offer := some { offer with ramMiB := a.ramMiB, cpuCores := a.cpuCores, gpu := a.gpu }
      caps := n.caps.map (·.restrictGpus a.gpu) }
  | _, _ => { n with online := false }

def checkBudgets (available : List NodeRow) (explicit : List NodeAllocation) :
    Except PlanFailure Unit :=
  explicit.forM fun a ↦
    match available.find? (·.id = a.nodeId) with
    | none => .error (.error s!"Unknown allocation node {a.nodeId}.")
    | some n =>
      if n.caps.any (·.allocationVersion) then assertFits a n
      else .error (.error s!"{n.hostname}: update the node agent before assigning fleet budgets.")

def checkMinima (profile : ModelProfile) (bounded : List NodeRow)
    (explicit : List NodeAllocation) : Except PlanFailure Unit :=
  let ids := distinct (planNodeIds plan)
  if ids.length ≠ explicit.length ∨ explicit.any (·.nodeId ∉ ids) then
    .error (.error "Allocations must match every placement node exactly.")
  else (minimumAllocations plan profile bounded).forM fun minimum ↦
    match explicit.find? (·.nodeId = minimum.nodeId) with
    | none => .ok ()
    | some a =>
      if a.ramMiB < minimum.ramMiB ∨ minimum.gpu.any fun g ↦
          ((a.gpu.find? (·.id = g.id)).map (·.memMiB)).getD 0 < g.memMiB then
        let host := ((bounded.find? (·.id = a.nodeId)).map (·.hostname)).getD ""
        .error (.error s!"{host}: budget is below the model's RAM/GPU requirement.")
      else .ok ()

/-- The nodes the planner sees: what is left of every offer, cut down to explicit budgets. -/
def boundedNodes (available : List NodeRow) (explicit : Option (List NodeAllocation)) :
    List NodeRow :=
  match explicit with
  | some explicit => available.map (boundedNode explicit)
  | none => available

def planWithResources (rt : Runtime) (input : ResourceInput) : Except PlanFailure Plan := do
  let available := availableNodes input.nodes input.reserved
  let explicit ← (input.spec.allocations.mapM parseAllocations).mapError .error
  (explicit.toList).forM (checkBudgets available)
  let bounded := boundedNodes available explicit
  let plan ← planDeployment rt
    ⟨input.spec, input.profile, bounded, input.usedPorts, input.nativeQualifications⟩
  (explicit.toList).forM (checkMinima plan input.profile bounded)
  .ok { plan with allocations := some (explicit.getD (offersOf available (planNodeIds plan))) }

/-! ## The ledger law -/

theorem gpuAmount_mergeGpu (gpu : List GpuOffer) (g : GpuOffer) (id : String) :
    gpuAmount (mergeGpu gpu g) id = gpuAmount gpu id + if g.id = id then g.memMiB else 0 := by
  refine Keyed.total_upsert _ _ ?_ ?_ ?_ ?_ gpu g id <;> intros <;> rfl

theorem gpuAmount_foldl_mergeGpu (values gpu : List GpuOffer) (id : String) :
    gpuAmount (values.foldl mergeGpu gpu) id = gpuAmount gpu id + gpuAmount values id := by
  induction values generalizing gpu with
  | nil => rfl
  | cons g values ih =>
    rw [List.foldl_cons, ih, gpuAmount_mergeGpu, Nat.add_assoc]
    rw [gpuAmount, gpuAmount, gpuAmount, Keyed.total_cons]

theorem nodup_foldl_mergeGpu (values : List GpuOffer) {gpu : List GpuOffer}
    (h : (gpu.map (·.id)).Nodup) : ((values.foldl mergeGpu gpu).map (·.id)).Nodup := by
  induction values generalizing gpu with
  | nil => exact h
  | cons g values ih =>
    refine ih (Keyed.nodup_upsert _ ?_ ?_ h g) <;> intros <;> rfl

theorem amount_mergeAllocation (a v : NodeAllocation) (r : Resource) :
    (mergeAllocation a v).amount r = a.amount r + v.amount r := by
  cases r with
  | ram => rfl
  | cpu => rfl
  | gpu id => exact gpuAmount_foldl_mergeGpu v.gpu a.gpu id

@[simp] theorem amount_emptyAllocation (id : NodeId) (r : Resource) :
    (emptyAllocation id).amount r = 0 := by
  cases r <;> rfl

def sharedAmount (shares : List NodeAllocation) (nodeId : NodeId) (r : Resource) : ℕ :=
  Keyed.total NodeAllocation.nodeId (·.amount r) shares nodeId

theorem sharedAmount_addAllocation (v : NodeAllocation) (nodeId : NodeId) (r : Resource) :
    sharedAmount (addAllocation ledger v) nodeId r =
      sharedAmount ledger nodeId r + if v.nodeId = nodeId then v.amount r else 0 := by
  refine Keyed.total_upsert _ _ ?_ ?_ ?_ ?_ ledger v nodeId
  · exact fun a v _ ↦ amount_mergeAllocation a v r
  · exact fun _ _ ↦ rfl
  · intro v
    rw [amount_mergeAllocation, amount_emptyAllocation, Nat.zero_add]
  · exact fun _ ↦ rfl

/-- **The ledger law**: adding shares adds exactly what they give to each node. -/
theorem amount_addAllocations (values : List NodeAllocation) (nodeId : NodeId) (r : Resource) :
    sharedAmount (addAllocations ledger values) nodeId r =
      sharedAmount ledger nodeId r + sharedAmount values nodeId r := by
  induction values generalizing ledger with
  | nil => rfl
  | cons v values ih =>
    rw [addAllocations, List.foldl_cons, ← addAllocations, ih, sharedAmount_addAllocation,
      Nat.add_assoc]
    rw [sharedAmount, sharedAmount, sharedAmount, Keyed.total_cons]

end

/-- A ledger as the code builds it: one entry a node, one entry a GPU. -/
structure ResourceLedger.Merged (ledger : ResourceLedger) : Prop where
  nodes : (ledger.map (·.nodeId)).Nodup
  gpus : ∀ a ∈ ledger, (a.gpu.map (·.id)).Nodup

theorem ResourceLedger.merged_nil : ResourceLedger.Merged [] := ⟨by simp, by simp⟩

variable {nodes : List NodeRow} {reserved ledger : ResourceLedger} {plan : Plan} {n : NodeRow}
  {explicit : List NodeAllocation} {a : NodeAllocation}

theorem ResourceLedger.Merged.addAllocations (h : ledger.Merged) (values : List NodeAllocation) :
    (addAllocations ledger values).Merged := by
  induction values generalizing ledger with
  | nil => exact h
  | cons v values ih =>
    refine ih ⟨Keyed.nodup_upsert _ ?_ ?_ h.nodes v, ?_⟩
    · exact fun _ _ ↦ rfl
    · exact fun _ ↦ rfl
    intro b hb
    rcases Keyed.mem_upsert _ hb with hb | rfl | ⟨a, ha, rfl⟩
    · exact h.gpus b hb
    · exact nodup_foldl_mergeGpu _ (by simp [emptyAllocation])
    · exact nodup_foldl_mergeGpu _ (h.gpus a ha)

theorem reservedResources_merged (deployments : List Deployment)
    (assignments : List AssignmentRow) (nodes : List NodeRow) (exclude : List DeploymentId) :
    (reservedResources deployments assignments nodes exclude).Merged :=
  ResourceLedger.merged_nil.addAllocations _

theorem ResourceLedger.Merged.amount_at (h : ledger.Merged) (nodeId : NodeId) (r : Resource) :
    (ledger.at nodeId).amount r = sharedAmount ledger nodeId r := by
  rw [sharedAmount, Keyed.total_eq_find _ _ h.nodes, ResourceLedger.at]
  cases ledger.find? (·.nodeId = nodeId) with
  | none => exact amount_emptyAllocation nodeId r
  | some a => rfl

theorem ResourceLedger.Merged.gpus_at (h : ledger.Merged) (nodeId : NodeId) :
    ((ledger.at nodeId).gpu.map (·.id)).Nodup := by
  rw [ResourceLedger.at]
  cases hfind : ledger.find? (·.nodeId = nodeId) with
  | none => simp [emptyAllocation]
  | some a => exact h.gpus a (List.mem_of_find?_eq_some hfind)

/-! ## What is left of an offer -/

/-- Taking the reserved share from every entry of a GPU leaves at most the offered memory less
that share: an id that is listed twice loses it twice. -/
private theorem gpuAmount_available_le (gpu : List GpuOffer) (used : String → ℕ) (id : String) :
    gpuAmount ((gpu.map fun g ↦ { g with memMiB := g.memMiB - used g.id }).filter (·.memMiB > 0)) id
      ≤ gpuAmount gpu id - used id := by
  induction gpu with
  | nil => exact Nat.zero_le _
  | cons g gpu ih =>
    rw [List.map_cons, List.filter_cons]
    simp only [gpuAmount, Keyed.total_cons] at ih ⊢
    split_ifs with hpos hid hid
    · rw [Keyed.total_cons, if_pos hid]
      simp only at hpos hid ⊢
      subst hid
      omega
    · rw [Keyed.total_cons, if_neg hid]
      omega
    · omega
    · omega

theorem amount_availableOffer_le (offer : Offer) {used : NodeAllocation}
    (hused : (used.gpu.map (·.id)).Nodup) (r : Resource) :
    (availableOffer offer used).amount r ≤ offer.amount r - used.amount r := by
  cases r with
  | ram | cpu => exact le_rfl
  | gpu id =>
    have hfind : ∀ gid, ((used.gpu.find? (·.id = gid)).map (·.memMiB)).getD 0 =
        gpuAmount used.gpu gid := fun gid ↦ (Keyed.total_eq_find _ _ hused gid).symm
    simp only [availableOffer, Offer.amount, hfind]
    exact gpuAmount_available_le offer.gpu (gpuAmount used.gpu) id

@[simp] theorem availableNode_id (reserved : ResourceLedger) (n : NodeRow) :
    (availableNode reserved n).id = n.id := by
  unfold availableNode
  split <;> rfl

@[simp] theorem availableNode_online (reserved : ResourceLedger) (n : NodeRow) :
    (availableNode reserved n).online = n.online := by
  unfold availableNode
  split <;> rfl

theorem availableNode_offers (h : (availableNode reserved n).offers = true) :
    n.offers = true := by
  cases ho : n.offer with
  | none => simp [availableNode, ho, NodeRow.offers] at h
  | some offer =>
    simp only [availableNode, ho, NodeRow.offers, availableOffer, Option.any_some,
      Bool.and_eq_true] at h ⊢
    exact h.1.1

theorem offered_availableNode_le (hmerged : reserved.Merged) (n : NodeRow) (r : Resource) :
    (availableNode reserved n).offered r ≤ n.offered r - (reserved.at n.id).amount r := by
  cases ho : n.offer with
  | none => simp [availableNode, ho, NodeRow.offered]
  | some offer =>
    simpa [availableNode, ho, NodeRow.offered] using
      amount_availableOffer_le offer (hmerged.gpus_at n.id) r

theorem mem_availableNodes {m : NodeRow} :
    m ∈ availableNodes nodes reserved ↔ ∃ n ∈ nodes, availableNode reserved n = m := by
  simp [availableNodes]

@[simp] theorem map_id_availableNodes (nodes : List NodeRow) (reserved : ResourceLedger) :
    (availableNodes nodes reserved).map (·.id) = nodes.map (·.id) := by
  simp [availableNodes, Function.comp_def]

@[simp] theorem amount_offeredAllocation (n : NodeRow) (r : Resource) :
    (offeredAllocation n).amount r = n.offered r := by
  cases ho : n.offer <;> cases r <;>
    simp [offeredAllocation, NodeRow.offered, NodeAllocation.amount, Offer.amount, ho, gpuAmount]

/-! ## Explicit budgets -/

structure NodeAllocation.Valid (a : NodeAllocation) : Prop where
  ram_pos : 1 ≤ a.ramMiB
  ram_safe : a.ramMiB ≤ MAX_SAFE_INTEGER
  cpu_pos : 1 ≤ a.cpuCores
  cpu_safe : a.cpuCores ≤ MAX_SAFE_INTEGER
  gpus : (a.gpu.map (·.id)).Nodup
  gpu_pos : ∀ g ∈ a.gpu, 1 ≤ g.memMiB

theorem parseAllocationsFrom_ok {seen : List NodeId} {value : List NodeAllocation}
    (h : parseAllocationsFrom seen value = .ok ()) :
    (value.map (·.nodeId)).Nodup ∧ (∀ a ∈ value, a.nodeId ∉ seen) ∧ ∀ a ∈ value, a.Valid := by
  induction value generalizing seen with
  | nil => simp
  | cons a rest ih =>
    rw [parseAllocationsFrom] at h
    split_ifs at h with hbad hgpu
    obtain ⟨hnodup, hfresh, hvalid⟩ := ih h
    simp only [not_or, positiveSafe, Bool.not_eq_false, Bool.and_eq_true, decide_eq_true_eq] at hbad
    obtain ⟨-, hseen, hram, hcpu, -⟩ := hbad
    simp only [validGpuBudgets, positiveSafe, Bool.and_eq_true, decide_eq_true_eq,
      List.all_eq_true] at hgpu
    refine ⟨?_, ?_, ?_⟩
    · refine List.nodup_cons.mpr ⟨?_, hnodup⟩
      intro hmem
      obtain ⟨b, hb, hba⟩ := List.mem_map.mp hmem
      exact hfresh b hb (by simp [hba])
    · intro b hb
      rcases List.mem_cons.mp hb with rfl | hb
      · exact hseen
      · exact fun hs ↦ hfresh b hb (List.mem_cons_of_mem _ hs)
    · intro b hb
      rcases List.mem_cons.mp hb with rfl | hb
      · exact ⟨hram.1, hram.2, hcpu.1, hcpu.2, hgpu.2, fun g hg ↦ (hgpu.1 g hg).2.1⟩
      · exact hvalid b hb

theorem parseAllocations_ok {value parsed : List NodeAllocation}
    (h : parseAllocations value = .ok parsed) :
    parsed = value ∧ (value.map (·.nodeId)).Nodup ∧ ∀ a ∈ value, a.Valid := by
  unfold parseAllocations at h
  split_ifs at h
  obtain ⟨u, hu, rfl⟩ := map_ok h
  obtain ⟨hnodup, -, hvalid⟩ := parseAllocationsFrom_ok hu
  exact ⟨rfl, hnodup, hvalid⟩

theorem assertFits_ok {u : Unit} (h : assertFits a n = .ok u) :
    fitProblem a n = none := by
  unfold assertFits at h
  split at h
  · assumption
  · cases h

theorem assertFits_le {u : Unit} (hgpus : (a.gpu.map (·.id)).Nodup) (h : assertFits a n = .ok u)
    (r : Resource) : a.amount r ≤ n.offered r := by
  have hfit := assertFits_ok h
  unfold fitProblem at hfit
  cases hoffer : n.offer.filter fun o ↦ n.online && o.enabled with
  | none => simp [hoffer] at hfit
  | some offer =>
    have ho : n.offer = some offer := Option.filter_eq_some_iff.mp hoffer |>.1
    simp only [hoffer] at hfit
    split_ifs at hfit with hbig
    rw [not_or, Nat.not_lt, Nat.not_lt] at hbig
    simp only [NodeRow.offered, ho, Option.map_some, Option.getD_some]
    cases r with
    | ram => exact hbig.1
    | cpu => exact hbig.2
    | gpu id =>
      rw [NodeAllocation.amount, Offer.amount, gpuAmount, Keyed.total_eq_find _ _ hgpus]
      cases hfind : a.gpu.find? (·.id = id) with
      | none => exact Nat.zero_le _
      | some g =>
        have hid : g.id = id := by simpa using List.find?_some hfind
        have hfree := List.findSome?_eq_none_iff.mp hfit g (List.mem_of_find?_eq_some hfind)
        simp only [ite_eq_right_iff, reduceCtorEq, imp_false, Nat.not_lt, hid] at hfree
        refine le_trans hfree ?_
        cases hslot : offer.gpu.find? (·.id = id) with
        | none => exact Nat.zero_le _
        | some slot =>
          have hslotId : slot.id = id := by simpa using List.find?_some hslot
          have := Keyed.le_total GpuOffer.id GpuOffer.memMiB (List.mem_of_find?_eq_some hslot)
          simpa [gpuAmount, hslotId] using this

/-! ## The admission bound -/

@[simp] theorem mem_planNodeIds {id : NodeId} :
    id ∈ planNodeIds plan ↔ id ∈ planNodes plan := by
  unfold planNodeIds planNodes
  cases plan.nativeExecution <;> simp

/-- The shares of a plan: one entry for each node it runs on, each within what the node's offer
leaves beside the reserved share. -/
structure Plan.Shares (nodes : List NodeRow) (reserved : ResourceLedger) (plan : Plan)
    (shares : List NodeAllocation) : Prop where
  allocations : plan.allocations = some shares
  nodup : (shares.map (·.nodeId)).Nodup
  cover : ∀ id, id ∈ shares.map (·.nodeId) ↔ id ∈ planNodes plan
  fits : ∀ a ∈ shares, ∃ n ∈ nodes, n.id = a.nodeId ∧
    ∀ r, a.amount r ≤ n.offered r - (reserved.at n.id).amount r

theorem checkBudgets_ok (h : checkBudgets (availableNodes nodes reserved) explicit = .ok ()) :
    ∀ a ∈ explicit, ∃ n ∈ nodes, n.id = a.nodeId ∧
      (availableNode reserved n).caps.any (·.allocationVersion) = true ∧
      assertFits a (availableNode reserved n) = .ok () := by
  intro a ha
  have hfits := forM_ok h a ha
  cases hfind : (availableNodes nodes reserved).find? (·.id = a.nodeId) with
  | none => simp [hfind] at hfits
  | some m =>
    simp only [hfind] at hfits
    split_ifs at hfits with hversion
    obtain ⟨n, hn, rfl⟩ := mem_availableNodes.mp (List.mem_of_find?_eq_some hfind)
    have hid : n.id = a.nodeId := by simpa using List.find?_some hfind
    exact ⟨n, hn, hid, hversion, hfits⟩

theorem checkMinima_cover {profile : ModelProfile} {bounded : List NodeRow}
    (hnodup : (explicit.map (·.nodeId)).Nodup)
    (h : checkMinima plan profile bounded explicit = .ok ()) (id : NodeId) :
    id ∈ explicit.map (·.nodeId) ↔ id ∈ planNodes plan := by
  simp only [checkMinima] at h
  split_ifs at h with hbad
  rw [not_or, not_ne_iff] at hbad
  obtain ⟨hlen, hsub⟩ := hbad
  simp only [List.any_eq_true, not_exists, not_and, decide_eq_true_eq, not_not] at hsub
  have hsubset : explicit.map (·.nodeId) ⊆ distinct (planNodeIds plan) := by
    intro x hx
    obtain ⟨a, ha, rfl⟩ := List.mem_map.mp hx
    exact hsub a ha
  have hperm : (explicit.map (·.nodeId)).Perm (distinct (planNodeIds plan)) := by
    refine (List.subperm_of_subset hnodup hsubset).perm_of_length_le ?_
    rw [List.length_map, hlen]
  rw [hperm.mem_iff, mem_distinct, mem_planNodeIds]

theorem mem_offersOf {ids : List NodeId} (h : a ∈ offersOf nodes ids) :
    ∃ n ∈ nodes, a = offeredAllocation n := by
  obtain ⟨id, -, ha⟩ := List.mem_filterMap.mp h
  obtain ⟨n, hn, rfl⟩ := Option.map_eq_some_iff.mp ha
  exact ⟨n, List.mem_of_find?_eq_some hn, rfl⟩

theorem map_nodeId_offersOf {ids : List NodeId} (h : ∀ id ∈ ids, ∃ n ∈ nodes, n.id = id) :
    (offersOf nodes ids).map (·.nodeId) = distinct ids := by
  have hids : ∀ id ∈ distinct ids, ∃ n ∈ nodes, n.id = id := by simpa using h
  rw [offersOf]
  generalize distinct ids = l at hids
  induction l with
  | nil => rfl
  | cons id l ih =>
    obtain ⟨n, hn, hid⟩ := hids id (by simp)
    obtain ⟨m, hm⟩ := Option.isSome_iff_exists.mp
      (List.find?_isSome (p := fun n : NodeRow ↦ decide (n.id = id)) |>.mpr ⟨n, hn, by simp [hid]⟩)
    have hmid : m.id = id := by simpa using List.find?_some hm
    rw [List.filterMap_cons, hm]
    simp only [Option.map_some, List.map_cons, offeredAllocation, hmid]
    exact congrArg _ (ih fun x hx ↦ hids x (List.mem_cons_of_mem _ hx))

theorem offersOf_shares (hmerged : reserved.Merged)
    (hplaced : ∀ id ∈ planNodes plan, ∃ n ∈ availableNodes nodes reserved, n.id = id)
    (hplan : plan.allocations = some (offersOf (availableNodes nodes reserved)
    (planNodeIds plan))) :
    plan.Shares nodes reserved (offersOf (availableNodes nodes reserved) (planNodeIds plan)) := by
  have hids : (offersOf (availableNodes nodes reserved) (planNodeIds plan)).map (·.nodeId) =
      distinct (planNodeIds plan) :=
    map_nodeId_offersOf fun id hid ↦ hplaced id (mem_planNodeIds.mp hid)
  refine ⟨hplan, ?_, ?_, ?_⟩
  · rw [hids]
    exact nodup_distinct _
  · intro id
    rw [hids, mem_distinct, mem_planNodeIds]
  · intro a ha
    obtain ⟨m, hm, rfl⟩ := mem_offersOf ha
    obtain ⟨n, hn, rfl⟩ := mem_availableNodes.mp hm
    refine ⟨n, hn, (availableNode_id reserved n).symm, fun r ↦ ?_⟩
    rw [amount_offeredAllocation]
    exact offered_availableNode_le hmerged n r

@[simp] theorem boundedNode_id (explicit : List NodeAllocation) (n : NodeRow) :
    (boundedNode explicit n).id = n.id := by
  unfold boundedNode
  split <;> rfl

theorem boundedNode_placed (honline : (boundedNode explicit n).online = true)
    (hoffers : (boundedNode explicit n).offers = true) : n.online = true ∧ n.offers = true := by
  unfold boundedNode at honline hoffers
  split at honline
  · rename_i a offer hfind hoffer
    simp only [hfind, hoffer] at hoffers
    exact ⟨honline, by simpa [NodeRow.offers, hoffer] using hoffers⟩
  · cases honline

theorem mem_boundedNodes {explicit : Option (List NodeAllocation)} {m : NodeRow}
    (h : m ∈ boundedNodes (availableNodes nodes reserved) explicit) (honline : m.online = true)
    (hoffers : m.offers = true) :
    ∃ n ∈ nodes, n.id = m.id ∧ n.online = true ∧ n.offers = true := by
  have havailable : ∃ k ∈ availableNodes nodes reserved,
      k.id = m.id ∧ k.online = true ∧ k.offers = true := by
    cases explicit with
    | none => exact ⟨m, h, rfl, honline, hoffers⟩
    | some explicit =>
      obtain ⟨k, hk, rfl⟩ := List.mem_map.mp h
      obtain ⟨hkonline, hkoffers⟩ := boundedNode_placed honline hoffers
      exact ⟨k, hk, by simp, hkonline, hkoffers⟩
  obtain ⟨k, hk, hid, hkonline, hkoffers⟩ := havailable
  obtain ⟨n, hn, rfl⟩ := mem_availableNodes.mp hk
  exact ⟨n, hn, by simpa using hid, by simpa using hkonline, availableNode_offers hkoffers⟩

theorem map_id_boundedNodes (available : List NodeRow) (explicit : Option (List NodeAllocation)) :
    (boundedNodes available explicit).map (·.id) = available.map (·.id) := by
  cases explicit <;> simp [boundedNodes, Function.comp_def]

/-- **Admission**: a plan that passes is sound, and its shares fit beside what was reserved. -/
theorem planWithResources_fits {rt : Runtime} {input : ResourceInput}
    (hnodup : (input.nodes.map (·.id)).Nodup) (hmerged : input.reserved.Merged)
    (h : planWithResources rt input = .ok plan) :
    plan.Sound input.spec input.nodes input.usedPorts ∧
      ∃ shares, plan.Shares input.nodes input.reserved shares := by
  obtain ⟨explicit, hexplicit, h⟩ := bind_ok h
  obtain ⟨_, hbudgets, h⟩ := bind_ok h
  obtain ⟨placed, hplan, h⟩ := bind_ok h
  obtain ⟨_, hminima, h⟩ := bind_ok h
  cases h
  have hsound := planDeployment_sound (by simpa [map_id_boundedNodes] using hnodup) hplan
  refine ⟨{ hsound with placed := fun id hid ↦ ?_ }, ?_⟩
  · obtain ⟨m, hm, hmid, honline, hoffers⟩ := hsound.placed id hid
    obtain ⟨n, hn, hnid, hn'⟩ := mem_boundedNodes hm honline hoffers
    exact ⟨n, hn, hnid.trans hmid, hn'⟩
  cases explicit with
  | none =>
    refine ⟨_, offersOf_shares hmerged (fun id hid ↦ ?_) rfl⟩
    obtain ⟨m, hm, hmid, -⟩ := hsound.placed id hid
    exact ⟨m, hm, hmid⟩
  | some explicit =>
    have hparse : ∃ value, parseAllocations value = .ok explicit := by
      have hopt := mapError_ok hexplicit
      cases ha : input.spec.allocations with
      | none => simp [ha, pure, Except.pure] at hopt
      | some value =>
        rw [ha] at hopt
        obtain ⟨parsed, hparsed, hsome⟩ := map_ok hopt
        exact ⟨value, by rw [hparsed, Option.some.inj hsome]⟩
    obtain ⟨value, hvalue⟩ := hparse
    obtain ⟨rfl, hunique, hvalid⟩ := parseAllocations_ok hvalue
    refine ⟨explicit, rfl, hunique, ?_, fun a ha ↦ ?_⟩
    · exact checkMinima_cover hunique (forM_ok hminima explicit (by simp))
    · obtain ⟨n, hn, hid, -, hfits⟩ :=
        checkBudgets_ok (forM_ok hbudgets explicit (by simp)) a ha
      exact ⟨n, hn, hid, fun r ↦ (assertFits_le (hvalid a ha).gpus hfits r).trans
        (offered_availableNode_le hmerged n r)⟩

end Swarmlet
