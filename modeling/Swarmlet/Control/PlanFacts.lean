import Swarmlet.Control.Planner

/-!
# What an accepted plan guarantees

Whatever the request was, a plan the planner returns has a positive context and parallelism, as
many tensor-split weights as devices, ports that were free and come with a free peer port, and
placements on pairwise different nodes that are online with an enabled offer. `Plan.Sound` is the
list of these facts and `planDeployment_sound` proves it, one planner branch at a time.
-/

namespace Swarmlet

open Js Checked

/-! ## Ports -/

theorem pickPortFrom_some {used : List ℕ} {steps p q : ℕ} (h : pickPortFrom used steps p = some q) :
    q ∉ used ∧ q + 1 ∉ used ∧ p ≤ q ∧ q < p + WORKER_PORT_STEP * steps ∧
      q % WORKER_PORT_STEP = p % WORKER_PORT_STEP := by
  induction steps generalizing p with
  | zero => cases h
  | succ steps ih =>
    rw [pickPortFrom] at h
    split_ifs at h with hfree
    · cases h
      exact ⟨hfree.1, hfree.2, le_rfl, by simp only [WORKER_PORT_STEP]; omega, rfl⟩
    · obtain ⟨h₁, h₂, h₃, h₄, h₅⟩ := ih h
      refine ⟨h₁, h₂, by omega, ?_, ?_⟩
      · simp only [WORKER_PORT_STEP] at h₄ ⊢
        omega
      · rw [h₅, Nat.add_mod_right]

structure FreePair (used : List ℕ) (port : ℕ) : Prop where
  port_free : port ∉ used
  peer_free : port + 1 ∉ used
  base_le : WORKER_PORT_BASE ≤ port
  lt : port + 1 < 65536

theorem pickPort_ok {used : List ℕ} {port : ℕ} (h : pickPort used = .ok port) :
    FreePair used port := by
  unfold pickPort at h
  split at h
  · rename_i p hp
    cases h
    obtain ⟨h₁, h₂, h₃, h₄, h₅⟩ := pickPortFrom_some hp
    refine ⟨h₁, h₂, h₃, ?_⟩
    simp only [WORKER_PORT_STEPS, WORKER_PORT_BASE, WORKER_PORT_STEP] at h₄ h₅
    omega
  · cases h

/-! ## Nodes -/

structure Serves (c : PlanContext) (n : NodeRow) : Prop where
  mem : n ∈ c.all
  online : n.online = true
  offers : n.offers = true

structure PlanContext.Built (c : PlanContext) : Prop where
  eligible_serves : ∀ n ∈ c.eligible, Serves c n
  eligible_nodup : (c.all.map (·.id)).Nodup → (c.eligible.map (·.id)).Nodup

theorem planContext_built (rt : Runtime) (input : PlanInput) (ctx parallel chain : ℤ) :
    (planContext rt input ctx parallel chain).Built where
  eligible_serves n hn := by
    simp only [planContext, List.mem_filter, mem_sortBy, Bool.and_eq_true] at hn
    exact ⟨hn.1, hn.2.1, hn.2.2⟩
  eligible_nodup h := by
    have hperm := (sortBy_perm byHost input.nodes).map (·.id)
    exact (hperm.nodup_iff.mpr h).sublist (List.filter_sublist.map _)

variable {c : PlanContext} {n : NodeRow} {role : Role} {need : Bool}

theorem nodeProblems_eq_nil (h : nodeProblems c n role need = []) :
    n.online = true ∧ n.offers = true := by
  simp only [nodeProblems, List.append_eq_nil_iff] at h
  obtain ⟨⟨honline, hoffer⟩, -⟩ := h
  constructor
  · by_contra hoff
    simp [hoff] at honline
  · cases ho : n.offer with
    | none => simp [ho] at hoffer
    | some =>
      simp only [ho, List.append_eq_nil_iff] at hoffer
      rw [NodeRow.offers, ho, Option.any_some]
      by_contra hdisabled
      simp [hdisabled] at hoffer

theorem roles_of_nodeProblems (h : nodeProblems c n role need = []) :
    n.offer.any (·.roles.has role) = true := by
  simp only [nodeProblems, List.append_eq_nil_iff] at h
  obtain ⟨⟨-, hoffer⟩, -⟩ := h
  cases ho : n.offer with
  | none => simp [ho] at hoffer
  | some =>
    simp only [ho, List.append_eq_nil_iff] at hoffer
    by_contra hrole
    simp only [Option.any_some] at hrole
    simp [hrole] at hoffer

theorem requireNode_ok {id : NodeId} (h : requireNode c id role need = .ok n) :
    n.id = id ∧ Serves c n ∧ n.offer.any (·.roles.has role) = true := by
  unfold requireNode at h
  split at h
  · cases h
  · rename_i m hfind
    split_ifs at h with hok
    cases h
    obtain ⟨honline, hoffers⟩ := nodeProblems_eq_nil hok
    exact ⟨by simpa using List.find?_some hfind,
      ⟨List.mem_of_find?_eq_some hfind, honline, hoffers⟩, roles_of_nodeProblems hok⟩

theorem offeredGpu_pos {gpu : GpuSlot} (h : offeredGpu n = some gpu) :
    0 < gpu.memMiB := by
  obtain ⟨o, -, ho⟩ := List.exists_of_findSome?_eq_some h
  obtain ⟨d, -, hd⟩ := Option.bind_eq_some_iff.mp ho
  split_ifs at hd with hpos
  cases hd
  exact hpos

theorem replicaNode_ok (hc : c.Built) (h : replicaNode c = .ok n) :
    Serves c n ∧ n.offer.any (·.roles.replica) = true := by
  unfold replicaNode at h
  split at h
  · exact (requireNode_ok h).2
  · split at h
    · rename_i m hfind
      cases h
      have hrole := List.find?_some hfind
      rw [Bool.and_eq_true] at hrole
      exact ⟨hc.eligible_serves _ (List.mem_of_find?_eq_some hfind), hrole.1⟩
    · cases h

theorem splitCoordinator_ok (hc : c.Built) (h : splitCoordinator c = .ok n) :
    Serves c n ∧ n.offer.any (·.roles.coordinator) = true := by
  unfold splitCoordinator at h
  split at h
  · exact (requireNode_ok h).2
  · split at h
    · rename_i coord rest hcands
      cases h
      have hmem : n ∈ n :: rest := List.mem_cons_self
      rw [← hcands, coordinatorCandidates, mem_sortBy, List.mem_filter, Bool.and_eq_true] at hmem
      exact ⟨hc.eligible_serves _ hmem.1, hmem.2.1⟩
    · cases h

/-! ## Worker slots -/

/-- What the slots of a split satisfy: usable nodes, pairwise different and none of them the
coordinator, each with the GPU it offers. -/
structure SlotsOk (c : PlanContext) (coord : Option NodeRow) (slots : List WorkerSlot) : Prop where
  serves : ∀ s ∈ slots, Serves c s.node
  role : ∀ s ∈ slots, s.node.offer.any (·.roles.worker) = true
  gpu : ∀ s ∈ slots, offeredGpu s.node = some s.gpu
  nodup : (slots.map (·.node.id)).Nodup
  ne_coord : ∀ n ∈ coord, n.id ∉ slots.map (·.node.id)

private theorem requestedSlots_spec {coord : Option NodeRow} (ids seen : List NodeId)
    (h : (requestedSlots c coord seen ids).1 = []) :
    SlotsOk c coord (requestedSlots c coord seen ids).2 ∧
      (requestedSlots c coord seen ids).2.map (·.node.id) = ids ∧ ∀ id ∈ ids, id ∉ seen := by
  induction ids generalizing seen with
  | nil => exact ⟨⟨by simp [requestedSlots], by simp [requestedSlots], by simp [requestedSlots],
      by simp [requestedSlots], by simp [requestedSlots]⟩, rfl, by simp⟩
  | cons id rest ih =>
    rw [requestedSlots] at h ⊢
    by_cases hseen : id ∈ seen
    · rw [if_pos hseen] at h
      exact absurd h (List.cons_ne_nil _ _)
    · rw [if_neg hseen] at h ⊢
      cases hcoord : coord.filter (·.id = id) with
      | some =>
        simp only [hcoord] at h
        exact absurd h (List.cons_ne_nil _ _)
      | none =>
        cases hn : requireNode c id .worker false with
        | error =>
          simp only [hcoord, hn] at h
          exact absurd h (List.cons_ne_nil _ _)
        | ok n =>
          cases hgpu : offeredGpu n with
          | none =>
            simp only [hcoord, hn, hgpu] at h
            exact absurd h (List.cons_ne_nil _ _)
          | some gpu =>
            simp only [hcoord, hn, hgpu] at h ⊢
            obtain ⟨hok, hids, hfresh⟩ := ih _ h
            obtain ⟨hid, hserves, hrole⟩ := requireNode_ok hn
            refine ⟨⟨?_, ?_, ?_, ?_, ?_⟩, by simp [hids, hid], ?_⟩
            · simpa using ⟨hserves, hok.serves⟩
            · exact List.forall_mem_cons.mpr ⟨hrole, hok.role⟩
            · simpa using ⟨hgpu, hok.gpu⟩
            · rw [List.map_cons, List.nodup_cons, hids, hid]
              exact ⟨fun hmem ↦ hfresh id hmem (by simp), hids ▸ hok.nodup⟩
            · intro m hm
              rw [List.map_cons, List.mem_cons, not_or, hid]
              refine ⟨?_, hok.ne_coord m hm⟩
              rintro rfl
              rw [Option.mem_def] at hm
              simp [hm] at hcoord
            · intro x hx
              rcases List.mem_cons.mp hx with rfl | hx
              · exact hseen
              · exact fun hmem ↦ hfresh x hx (List.mem_cons_of_mem _ hmem)

private theorem slotIds_sublist (l : List NodeRow) :
    ((l.filterMap fun n ↦ (offeredGpu n).map (WorkerSlot.mk n)).map (·.node.id)).Sublist
      (l.map (·.id)) := by
  induction l with
  | nil => exact .slnil
  | cons n rest ih =>
    cases h : offeredGpu n with
    | none => simpa [h] using ih.cons n.id
    | some => simpa [h] using ih

private theorem automaticSlots_spec (hc : c.Built) (hnodup : (c.all.map (·.id)).Nodup)
    (coord : Option NodeRow) :
    SlotsOk c coord (automaticSlots c coord) := by
  have hmem : ∀ s ∈ automaticSlots c coord, s.node ∈ c.eligible ∧
      coord.all (·.id ≠ s.node.id) = true ∧ s.node.offer.any (·.roles.worker) = true ∧
      offeredGpu s.node = some s.gpu := by
    intro s hs
    simp only [automaticSlots, List.mem_filterMap, List.mem_append, mem_sortBy, List.mem_filter,
      Bool.and_eq_true] at hs
    obtain ⟨n, hn, hs⟩ := hs
    obtain ⟨gpu, hgpu, rfl⟩ := Option.map_eq_some_iff.mp hs
    rcases hn with ⟨⟨hn, ⟨hcoord, hrole⟩, -⟩, -⟩ | ⟨⟨hn, ⟨hcoord, hrole⟩, -⟩, -⟩ <;>
      exact ⟨hn, hcoord, hrole, hgpu⟩
  refine ⟨fun s hs ↦ hc.eligible_serves _ (hmem s hs).1, fun s hs ↦ (hmem s hs).2.2.1,
    fun s hs ↦ (hmem s hs).2.2.2, ?_, ?_⟩
  · -- direct and relayed workers partition a sublist of the eligible nodes
    refine List.Nodup.sublist (slotIds_sublist _) ?_
    have hperm := ((sortBy_perm byRtt _).append (sortBy_perm byRtt _)).trans
      (List.filter_append_perm dialableDirectly (c.eligible.filter fun n ↦
        coord.all (·.id ≠ n.id) && n.offer.any (·.roles.worker) && (offeredGpu n).isSome))
    rw [(hperm.map (·.id)).nodup_iff]
    exact (hc.eligible_nodup hnodup).sublist (List.filter_sublist.map _)
  · intro n hn hid
    obtain ⟨s, hs, hsid⟩ := List.mem_map.mp hid
    have := (hmem s hs).2.1
    rw [Option.mem_def] at hn
    simp [hn, hsid] at this

theorem splitSlots_ok (hc : c.Built) (hnodup : (c.all.map (·.id)).Nodup) {coord : Option NodeRow}
    (h : (splitSlots c coord).1 = []) :
    SlotsOk c coord (splitSlots c coord).2 ∧
      ∀ ids ∈ c.spec.workerNodeIds, (splitSlots c coord).2.map (·.node.id) = ids := by
  unfold splitSlots at h ⊢
  split
  · rename_i ids hids
    simp only [hids] at h
    obtain ⟨hok, hmap, -⟩ := requestedSlots_spec _ _ h
    refine ⟨hok, ?_⟩
    intro ids' hids'
    rw [Option.mem_def, hids] at hids'
    cases hids'
    exact hmap
  · rename_i hids
    exact ⟨automaticSlots_spec hc hnodup coord, by simp [hids]⟩

/-! ## Layer counts -/

@[simp] theorem length_shaveLargest (layers : List ℕ) :
    (shaveLargest layers).length = layers.length := by
  simp [shaveLargest]

@[simp] theorem length_iterate_shaveLargest (turns : ℕ) (layers : List ℕ) :
    (shaveLargest^[turns] layers).length = layers.length := by
  induction turns with
  | zero => rfl
  | succ turns ih => rw [Function.iterate_succ_apply', length_shaveLargest, ih]

@[simp] theorem length_shave (limit : ℕ) (layers : List ℕ) :
    (shave limit layers).length = layers.length :=
  length_iterate_shaveLargest _ _

/-! ## The plan as a whole -/

structure PlanWorker.Sound (used : NodeId → List ℕ) (w : PlanWorker) : Prop where
  port : FreePair (used w.nodeId) w.port
  peer : ∀ p ∈ w.peerPort, p = w.port + 1
  threads : 1 ≤ w.threads
  memCap : 1 ≤ w.memCapMiB

/-- A native context of a plan: its pins are hashes, its block range is canonical, and its memory
fits what the node enforces. -/
structure NativeStageWorkerPlan.Sound (used : NodeId → List ℕ) (e : NativeStageWorkerPlan) :
    Prop where
  port : FreePair (used e.nodeId) e.port
  binary : isSha256 e.binarySha256 = true
  engine : isSha256 e.identity.engine = true
  model : isSha256 e.identity.modelSha256 = true
  source : isSha256 e.identity.sourceSha256 = true
  range : (e.identity.stageStart = "" ∧ e.identity.stageEnd = "" ∧ e.identity.stageTotal = "" ∧
      e.identity.sourceSha256 = e.identity.modelSha256) ∨
    ∃ a b : ℕ, a < b ∧ b ≤ 24 ∧ e.identity.stageStart = toString a ∧
      e.identity.stageEnd = toString b ∧ e.identity.stageTotal = "24"
  ram_pos : 1 ≤ e.enforceRamMiB
  fit : ∀ fit ∈ e.fitMiB, 1 ≤ fit ∧ fit ≤ e.enforceRamMiB

def planNodes (plan : Plan) : List NodeId :=
  match plan.nativeExecution with
  | some native => native.endpoints.map (·.nodeId)
  | none => plan.coordinatorNodeId :: plan.workers.map (·.nodeId)

/-- A plan uses the nodes that its spec names. -/
def Plan.Follows (spec : DeploymentSpec) (plan : Plan) : Prop :=
  match spec.kind with
  | .replica => ∀ id ∈ spec.replicaNodeId, planNodes plan = [id]
  | .split => (∀ id ∈ spec.coordinatorNodeId, plan.coordinatorNodeId = id) ∧
      ∀ ids ∈ spec.workerNodeIds, plan.workers.map (·.nodeId) = ids
  | .stages => planNodes plan = (spec.stages.getD []).map (·.nodeId)
  | .prefillDecode => named spec.prefillNodeId ∨ named spec.decodeNodeId →
      planNodes plan = [spec.prefillNodeId.getD "", spec.decodeNodeId.getD ""]
  | .external => True

structure Plan.Sound (spec : DeploymentSpec) (nodes : List NodeRow) (used : NodeId → List ℕ)
    (plan : Plan) : Prop where
  ctx_pos : 1 ≤ plan.ctx
  parallel_pos : 1 ≤ plan.parallel
  nodup : (planNodes plan).Nodup
  placed : ∀ id ∈ planNodes plan, ∃ n ∈ nodes, n.id = id ∧ n.online = true ∧ n.offers = true
  workers : ∀ w ∈ plan.workers, w.Sound used
  weights : spec.kind = .split →
    (plan.engineTensorSplit.getD plan.tensorSplit).length = plan.workers.length + 1
  native : plan.nativeExecution.isSome = spec.kind.isNative
  nativeCtx : plan.nativeExecution.isSome = true → plan.ctx = 1024
  whole : spec.kind ≠ .split → plan.workers = []
  endpoints : ∀ native ∈ plan.nativeExecution, ∀ e ∈ native.endpoints, e.Sound used
  follows : plan.Follows spec

theorem Serves.placed (h : Serves c n) :
    ∃ m ∈ c.all, m.id = n.id ∧ m.online = true ∧ m.offers = true :=
  ⟨n, h.mem, rfl, h.online, h.offers⟩

theorem planReplica_sound (hc : c.Built) (hctx : 1 ≤ c.ctx) (hparallel : 1 ≤ c.parallel)
    (hkind : c.spec.kind = .replica) {plan : Plan} (h : planReplica c = .ok plan) :
    plan.Sound c.spec c.all c.usedPorts := by
  obtain ⟨node, hnode, h⟩ := bind_ok h
  obtain ⟨_, -, h⟩ := bind_ok h
  cases h
  exact {
    ctx_pos := hctx
    parallel_pos := hparallel
    nodup := by simp [planNodes]
    placed := by simpa [planNodes] using (replicaNode_ok hc (mapError_ok hnode)).1.placed
    workers := by simp
    weights := by simp [hkind]
    native := by simp [hkind, DeploymentKind.isNative]
    nativeCtx := by simp
    whole := by simp
    endpoints := by simp
    follows := by
      simp only [Plan.Follows, hkind]
      intro id hid
      have hnode := mapError_ok hnode
      rw [replicaNode, Option.mem_def.mp hid] at hnode
      simp [planNodes, (requireNode_ok hnode).1] }

theorem planWorker_sound {forwarding : Bool} {s : WorkerSlot} {layers : ℕ} {w : PlanWorker}
    (hgpu : offeredGpu s.node = some s.gpu) (h : planWorker c forwarding s layers = .ok w) :
    w.nodeId = s.node.id ∧ w.Sound c.usedPorts := by
  obtain ⟨port, hport, h⟩ := bind_ok h
  cases h
  refine ⟨rfl, pickPort_ok hport, ?_, le_max_left _ _, offeredGpu_pos hgpu⟩
  intro p hp
  cases forwarding with
  | false => cases hp
  | true => exact (Option.some.inj hp).symm

private theorem placed_spec {α β : Type*} {R : α → β → Prop} {id : α → NodeId} {nodeId : β → NodeId}
    {P : β → Prop} {slots : List α} {placed : List β} (h : List.Forall₂ R slots placed)
    (hone : ∀ a ∈ slots, ∀ b, R a b → nodeId b = id a ∧ P b) :
    placed.map nodeId = slots.map id ∧ ∀ b ∈ placed, P b := by
  induction h with
  | nil => simp
  | @cons a b slots placed hab _ ih =>
    obtain ⟨hid, hb⟩ := hone a (by simp) b hab
    obtain ⟨hids, hall⟩ := ih fun a ha ↦ hone a (List.mem_cons_of_mem _ ha)
    exact ⟨by simp [hid, hids], List.forall_mem_cons.mpr ⟨hb, hall⟩⟩

/-- What stands behind the plan of a split: the coordinator, a layer count for each slot and a
worker for each count. -/
structure SplitFound (c : PlanContext) (coord : NodeRow) (layers : List ℕ)
    (workers : List PlanWorker) : Prop where
  coordinator : splitCoordinator c = .ok coord
  slots : (splitSlots c (some coord)).1 = []
  counts : workerLayers c (splitSlots c (some coord)).2 = .ok layers
  resident : (placeResident c coord (c.profile.layers - layers.sum) "Coordinator").2 = []
  placed : ∃ forwarding, List.Forall₂ (fun p w ↦ planWorker c forwarding p.1 p.2 = .ok w)
    ((splitSlots c (some coord)).2.zip layers) workers

theorem planSplit_found {plan : Plan} (h : planSplit c = .ok plan) :
    ∃ coord layers workers, SplitFound c coord layers workers ∧
      plan = splitPlan c coord (splitSlots c (some coord)).2 layers workers := by
  obtain ⟨_, hproblems, h⟩ := bind_ok h
  obtain ⟨coord, hcoord, h⟩ := bind_ok h
  obtain ⟨layers, hlayers, h⟩ := bind_ok h
  obtain ⟨_, hresident, h⟩ := bind_ok h
  obtain ⟨workers, hworkers, h⟩ := bind_ok h
  rw [require_ok, List.append_eq_nil_iff, List.append_eq_nil_iff] at hproblems
  rw [require_ok, List.append_eq_nil_iff] at hresident
  have hcoord := mapError_ok hcoord
  have hsome : (splitCoordinator c).toOption = some coord := by rw [hcoord]; rfl
  rw [hsome] at hproblems hlayers hworkers h
  cases h
  exact ⟨coord, layers, workers, ⟨hcoord, hproblems.1.2, mapError_ok hlayers, hresident.2,
    _, mapM_ok hworkers⟩, rfl⟩

namespace SplitFound

variable {c : PlanContext} {coord : NodeRow} {layers : List ℕ} {workers : List PlanWorker}

theorem length_layers (h : SplitFound c coord layers workers) (hc : c.Built)
    (hnodup : (c.all.map (·.id)).Nodup) (hlen : ∀ requested ∈ c.spec.workerLayers,
      ∃ ids ∈ c.spec.workerNodeIds, ids.length = requested.length) :
    layers.length = (splitSlots c (some coord)).2.length := by
  have hcounts := h.counts
  unfold workerLayers at hcounts
  split at hcounts
  · rename_i requested hrequested
    obtain ⟨_, -, hcounts⟩ := bind_ok hcounts
    cases hcounts
    obtain ⟨ids, hids, hidslen⟩ := hlen requested hrequested
    rw [List.length_map, ← hidslen, ← (splitSlots_ok hc hnodup h.slots).2 ids hids, List.length_map]
  · obtain ⟨row, -, hcounts⟩ := bind_ok hcounts
    split_ifs at hcounts <;> cases hcounts <;> simp

end SplitFound

variable {c : PlanContext} {q : Qwen35NativeQualification} {start : ℤ}
  {quals : List Qwen35NativeQualification}

theorem planSplit_sound (hc : c.Built) (hnodup : (c.all.map (·.id)).Nodup) (hctx : 1 ≤ c.ctx)
    (hparallel : 1 ≤ c.parallel) (hkind : c.spec.kind = .split)
    (hlen : ∀ requested ∈ c.spec.workerLayers,
      ∃ ids ∈ c.spec.workerNodeIds, ids.length = requested.length) {plan : Plan}
    (h : planSplit c = .ok plan) : plan.Sound c.spec c.all c.usedPorts := by
  obtain ⟨coord, layers, workers, hfound, rfl⟩ := planSplit_found h
  obtain ⟨hslots, hnamed⟩ := splitSlots_ok hc hnodup hfound.slots
  have hlayers := hfound.length_layers hc hnodup hlen
  have hcoord := hfound.coordinator
  obtain ⟨forwarding, hworkers⟩ := hfound.placed
  obtain ⟨hids, hsound⟩ := placed_spec hworkers fun p hp w ↦
    planWorker_sound (hslots.gpu _ (List.of_mem_zip hp).1)
  have hmap : workers.map (·.nodeId) = (splitSlots c (some coord)).2.map (·.node.id) := by
    calc workers.map (·.nodeId)
        = (((splitSlots c (some coord)).2.zip layers).map Prod.fst).map (·.node.id) := by
          rw [hids, List.map_map]
          rfl
      _ = (splitSlots c (some coord)).2.map (·.node.id) := by rw [List.map_fst_zip (by omega)]
  have hcount : workers.length = layers.length := by
    simpa [hlayers] using congrArg List.length hmap
  exact {
    ctx_pos := hctx
    parallel_pos := hparallel
    nodup := by
      simp only [planNodes, splitPlan, hmap, List.nodup_cons]
      exact ⟨hslots.ne_coord coord rfl, hslots.nodup⟩
    placed := by
      simp only [planNodes, splitPlan, hmap, List.mem_cons, List.mem_map, forall_eq_or_imp]
      refine ⟨(splitCoordinator_ok hc hcoord).1.placed, ?_⟩
      rintro id ⟨s, hs, rfl⟩
      exact (hslots.serves s hs).placed
    workers := hsound
    weights := by
      cases hw : c.spec.workerLayers with
      | none => simp [splitPlan, hw]
      | some => simp [splitPlan, hw, hcount]
    native := by simp [splitPlan, hkind, DeploymentKind.isNative]
    nativeCtx := by simp [splitPlan]
    whole := fun h ↦ absurd hkind h
    endpoints := by simp [splitPlan]
    follows := by
      simp only [Plan.Follows, hkind]
      refine ⟨fun id hid ↦ ?_, fun ids hids ↦ hmap.trans (hnamed ids hids)⟩
      rw [splitCoordinator, Option.mem_def.mp hid] at hcoord
      exact (requireNode_ok hcoord).1 }

/-! ## Native plans -/

theorem stageErrors_eq_nil {stages : List StageSpec} {i : ℕ} {nodes : List NodeId}
    (h : stageErrors i start nodes stages = []) :
    (stages.map (·.nodeId)).Nodup ∧ ∀ s ∈ stages, s.nodeId ∉ nodes ∧ s.modelPath ≠ "" := by
  induction stages generalizing i start nodes with
  | nil => simp
  | cons s rest ih =>
    simp only [stageErrors, List.append_eq_nil_iff, ite_eq_right_iff, reduceCtorEq, imp_false,
      not_or] at h
    obtain ⟨⟨⟨⟨hne, hfresh⟩, hpath, -⟩, -⟩, hrest⟩ := h
    rw [if_neg (by simp [hne, hfresh])] at hrest
    obtain ⟨hnodup, hall⟩ := ih hrest
    refine ⟨?_, ?_⟩
    · rw [List.map_cons, List.nodup_cons]
      refine ⟨fun hmem ↦ ?_, hnodup⟩
      obtain ⟨t, ht, hid⟩ := List.mem_map.mp hmem
      exact (hall t ht).1 (by simp [hid])
    · intro t ht
      rcases List.mem_cons.mp ht with rfl | ht
      · exact ⟨hfresh, hpath⟩
      · exact ⟨fun hmem ↦ (hall t ht).1 (List.mem_cons_of_mem _ hmem), (hall t ht).2⟩

structure NativeQualifiedEndpoint.Valid (mode : NativeMode) (source : String)
    (e : NativeQualifiedEndpoint) : Prop where
  binary : isSha256 e.binarySha256 = true
  model : isSha256 e.artifact.sha256 = true
  start_nonneg : 0 ≤ e.artifact.start
  start_lt : e.artifact.start < e.artifact.end
  end_le : e.artifact.end ≤ 24
  whole : mode = .prefillDecode → e.artifact.sha256 = source

theorem validArtifacts_cons {mode : NativeMode} {source : String} {e : NativeQualifiedEndpoint}
    {rest : List NativeQualifiedEndpoint}
    (h : validArtifacts mode source start (e :: rest) = true) :
    e.Valid mode source ∧ (mode = .stages → e.artifact.start = start) ∧
      validArtifacts mode source e.artifact.end rest = true := by
  simp only [validArtifacts, Bool.and_eq_true, decide_eq_true_eq] at h
  obtain ⟨⟨⟨⟨⟨⟨⟨⟨hbinary, -⟩, -⟩, hmodel⟩, hnonneg⟩, hlt⟩, hle⟩, hmode⟩, hrest⟩ := h
  refine ⟨⟨hbinary, hmodel, hnonneg, hlt, hle, ?_⟩, ?_, hrest⟩
  · rintro rfl
    rw [if_neg (by simp)] at hmode
    simp only [Bool.and_eq_true, decide_eq_true_eq] at hmode
    exact hmode.2
  · rintro rfl
    simpa using hmode

theorem validArtifacts_valid {mode : NativeMode} {source : String}
    {endpoints : List NativeQualifiedEndpoint}
    (h : validArtifacts mode source start endpoints = true) :
    ∀ e ∈ endpoints, e.Valid mode source := by
  induction endpoints generalizing start with
  | nil => simp
  | cons e rest ih =>
    obtain ⟨hvalid, -, hrest⟩ := validArtifacts_cons h
    exact List.forall_mem_cons.mpr ⟨hvalid, ih hrest⟩

structure Qwen35NativeQualification.Valid (q : Qwen35NativeQualification) : Prop where
  source : isSha256 q.sourceSha256 = true
  evidence : isSha256 q.evidenceSha256 = true
  engine : isSha256 q.engine = true
  hostMiB_pos : 1 ≤ q.hostMiB
  length : q.endpoints.length = 2 ∨ q.mode = .stages ∧ q.endpoints.length = 3
  artifacts : validArtifacts q.mode q.sourceSha256 0 q.endpoints = true

theorem validNativeQualification_valid (h : validNativeQualification q = true) :
    q.Valid := by
  simp only [validNativeQualification, Bool.and_eq_true] at h
  obtain ⟨⟨⟨⟨⟨⟨⟨⟨hsource, hevidence⟩, hengine⟩, -⟩, -⟩, -⟩, hhost⟩, hlength⟩, hartifacts⟩ := h
  simp only [positiveSafe, Bool.and_eq_true, decide_eq_true_eq] at hhost
  refine ⟨hsource, hevidence, hengine, hhost.1, ?_, hartifacts⟩
  split_ifs at hlength with hmode
  · simp only [Bool.or_eq_true, decide_eq_true_eq] at hlength
    exact hlength.imp_right fun hthree ↦ ⟨hmode, hthree⟩
  · exact .inl (by simpa using hlength)

theorem Qwen35NativeQualification.Valid.endpoints (h : q.Valid) :
    ∀ e ∈ q.endpoints, e.Valid q.mode q.sourceSha256 :=
  validArtifacts_valid h.artifacts

private theorem foldl_fasterChoice_mem {choices : List (Except String PhasePlan)} {plan : PhasePlan}
    (h : choices.foldl fasterChoice none = some plan) : .ok plan ∈ choices := by
  refine List.foldlRecOn choices fasterChoice
    (motive := fun best ↦ ∀ p, best = some p → .ok p ∈ choices) (by simp) ?_ plan h
  intro best hbest choice hchoice p hp
  unfold fasterChoice at hp
  split at hp
  · exact hbest p hp
  · exact Option.some.inj hp ▸ hchoice
  · split_ifs at hp
    · exact Option.some.inj hp ▸ hchoice
    · exact hbest p hp

def PhaseNode (c : PlanContext) (q : Qwen35NativeQualification) (i : ℕ) (id : NodeId) : Prop :=
  ∃ n ∈ c.eligible, n.id = id ∧ q.endpoints[i]?.any (nativeEndpointFits n q) = true

theorem phaseChoice_spec {plan : PhasePlan} (h : phaseChoice c q = .ok plan) :
    PhaseNode c q 0 plan.prefillNodeId ∧ PhaseNode c q 1 plan.decodeNodeId ∧
      plan.isLocal = decide (plan.prefillNodeId = plan.decodeNodeId) := by
  simp only [phaseChoice] at h
  split_ifs at h
  obtain ⟨_, -, _, -, _, hcosts, hprefill, hdecode, hlocal, -⟩ :=
    choosePhasePlan_spec (mapError_ok h)
  obtain ⟨p, hp, hpid⟩ := List.mem_map.mp (hcosts.mayPrefill _ rfl)
  obtain ⟨d, hd, hdid⟩ := List.mem_map.mp (hcosts.mayDecode _ rfl)
  rw [List.mem_filter] at hp hd
  rw [hprefill, hdecode]
  exact ⟨⟨p, hp.1, hpid, hp.2⟩, ⟨d, hd.1, hdid, hd.2⟩, hlocal⟩

theorem chooseNativePhaseNodes_spec {prefill decode : NodeId}
    (h : chooseNativePhaseNodes c quals = .ok (prefill, decode)) :
    prefill ≠ decode ∧
      ∃ q ∈ phaseQualifications c quals, PhaseNode c q 0 prefill ∧ PhaseNode c q 1 decode := by
  simp only [chooseNativePhaseNodes] at h
  split_ifs at h
  split at h
  · cases h
  · rename_i plan hbest
    split_ifs at h with hlocal
    cases h
    obtain ⟨q, hq, hchoice⟩ := List.mem_map.mp (foldl_fasterChoice_mem hbest)
    obtain ⟨hprefill, hdecode, hsame⟩ := phaseChoice_spec hchoice
    rw [Bool.eq_false_of_not_eq_true hlocal] at hsame
    exact ⟨by simpa using hsame, q, hq, hprefill, hdecode⟩

theorem nativeNodeIds_nodup {ctx parallel chain : ℤ}
    (hreq : nativeRequestErrors c.spec ctx parallel chain = []) {ids : List NodeId}
    (h : nativeNodeIds c quals = .ok ids) : ids.Nodup := by
  simp only [nativeRequestErrors, List.append_eq_nil_iff] at hreq
  unfold nativeNodeIds at h
  split_ifs at h with hkind hnamed
  · rw [if_pos hkind] at hreq
    cases h
    cases hstages : c.spec.stages with
    | none => simp
    | some =>
      have herrors := hreq.2
      rw [hstages] at herrors
      split at herrors
      · cases herrors
      · rename_i stages' hfilter
        obtain ⟨hsome, -⟩ := Option.filter_eq_some_iff.mp hfilter
        cases hsome
        exact (stageErrors_eq_nil herrors).1
  · rw [if_neg hkind] at hreq
    cases h
    simp only [List.append_eq_nil_iff] at hreq
    have hpair := hreq.2.1
    split_ifs at hpair with hboth hsame
    rw [not_ne_iff] at hboth
    rw [hboth, or_self] at hnamed
    have hne : c.spec.prefillNodeId ≠ c.spec.decodeNodeId := fun h ↦ hsame ⟨hboth ▸ hnamed, h⟩
    rw [hnamed] at hboth
    cases hp : c.spec.prefillNodeId with
    | none => simp [named, hp] at hboth
    | some =>
      cases hd : c.spec.decodeNodeId with
      | none => simp [named, hd] at hnamed
      | some => simpa [hp, hd] using hne
  · obtain ⟨⟨prefill, decode⟩, hchoose, rfl⟩ := map_ok h
    simpa using (chooseNativePhaseNodes_spec hchoose).1

/-- A node without native errors enforces at least the record's host reserve, and on unified
memory the whole of what the context needs. -/
theorem nativeEndpointErrors_fit {n : NodeRow} (h : nativeEndpointErrors q n = []) :
    q.hostMiB ≤ (n.offer.map (·.ramMiB)).getD 0 ∧
      (n.os = .darwin → gpuNeedMiB q + q.hostMiB ≤ (n.offer.map (·.ramMiB)).getD 0) := by
  simp only [nativeEndpointErrors, List.append_eq_nil_iff] at h
  have hlast := h.2
  by_cases hdarwin : n.os = .darwin
  · rw [if_pos hdarwin] at hlast
    simp only [List.append_eq_nil_iff, ite_eq_right_iff, reduceCtorEq, imp_false] at hlast
    exact ⟨by omega, fun _ ↦ by omega⟩
  · rw [if_neg hdarwin] at hlast
    simp only [List.append_eq_nil_iff, ite_eq_right_iff, reduceCtorEq, imp_false] at hlast
    exact ⟨by omega, fun h ↦ absurd h hdarwin⟩

theorem nativeEndpoint_sound {entry : NativeQualifiedEndpoint} {n : NodeRow}
    {requested : Option StageSpec} {e : NativeStageWorkerPlan} (hq : q.Valid)
    (hentry : entry ∈ q.endpoints) (hmode : q.mode.kind = c.spec.kind)
    (herrors : nativeEndpointErrors q n = []) (h : nativeEndpoint c q entry n requested = .ok e) :
    e.nodeId = n.id ∧ e.Sound c.usedPorts := by
  obtain ⟨port, hport, h⟩ := bind_ok h
  cases h
  have hvalid := hq.endpoints entry hentry
  have hhost := hq.hostMiB_pos
  have hfit := nativeEndpointErrors_fit herrors
  refine ⟨rfl, pickPort_ok hport, hvalid.binary, hq.engine, hvalid.model, hq.source, ?_, ?_, ?_⟩
  · cases hm : q.mode with
    | prefillDecode =>
      rw [hm] at hmode
      simp only [← hmode, NativeMode.kind]
      exact .inl ⟨rfl, rfl, rfl, (hvalid.whole hm).symm⟩
    | stages =>
      rw [hm] at hmode
      obtain ⟨a, ha⟩ := Int.eq_ofNat_of_zero_le hvalid.start_nonneg
      obtain ⟨b, hb⟩ := Int.eq_ofNat_of_zero_le (hvalid.start_nonneg.trans hvalid.start_lt.le)
      have hlt := hvalid.start_lt
      have hle := hvalid.end_le
      simp only [← hmode, NativeMode.kind, ha, hb] at hlt hle ⊢
      exact .inr ⟨a, b, by omega, by omega, rfl, rfl, rfl⟩
  · exact hhost.trans hfit.1
  · intro fit hmem
    by_cases hdarwin : n.os = .darwin
    · rw [if_pos hdarwin] at hmem
      cases hmem
      have := hfit.2 hdarwin
      exact ⟨by omega, this⟩
    · rw [if_neg hdarwin] at hmem
      cases hmem

private theorem requireNodes_spec {role : Role} {need : Bool} {ids : List NodeId}
    (h : (ids.map fun id ↦ requireNode c id role need).flatMap problem = []) :
    ((ids.map fun id ↦ requireNode c id role need).filterMap (·.toOption)).map (·.id) = ids ∧
      ∀ n ∈ (ids.map fun id ↦ requireNode c id role need).filterMap (·.toOption),
        Serves c n ∧ n.offer.any (·.roles.has role) = true := by
  induction ids with
  | nil => simp
  | cons id rest ih =>
    rw [List.map_cons, List.flatMap_cons, List.append_eq_nil_iff, problem_eq_nil] at h
    obtain ⟨⟨n, hn⟩, hrest⟩ := h
    obtain ⟨hid, hserves⟩ := requireNode_ok hn
    obtain ⟨hids, hall⟩ := ih hrest
    rw [List.map_cons, hn, List.filterMap_cons_some
      (show (fun x : Except String NodeRow ↦ x.toOption) (.ok n) = some n from rfl)]
    exact ⟨by rw [List.map_cons, hid, hids], List.forall_mem_cons.mpr ⟨hserves, hall⟩⟩

theorem nativeSlots_spec (c : PlanContext) (q : Qwen35NativeQualification)
    (nodes : List NodeRow) (hlen : q.endpoints.length = nodes.length) :
    (nativeSlots c q nodes).map (·.2.1.id) = nodes.map (·.id) ∧
      ∀ slot ∈ nativeSlots c q nodes, slot.1 ∈ q.endpoints ∧ slot.2.1 ∈ nodes := by
  constructor
  · calc (nativeSlots c q nodes).map (·.2.1.id)
        = (((q.endpoints.zip nodes).zipIdx.map Prod.fst).map Prod.snd).map (·.id) := by
          simp only [nativeSlots, List.map_map]
          rfl
      _ = nodes.map (·.id) := by
          rw [List.zipIdx_map_fst, List.map_snd_zip (by omega)]
  · intro slot hslot
    obtain ⟨⟨⟨entry, n⟩, i⟩, hmem, rfl⟩ := List.mem_map.mp hslot
    exact List.of_mem_zip (List.fst_mem_of_mem_zipIdx hmem)

/-- What stands behind a native plan: a valid record of the kind asked for, a node for each of its
artifacts and a context for each of these. -/
structure NativeFound (c : PlanContext) (quals : List Qwen35NativeQualification)
    (q : Qwen35NativeQualification) (nodes : List NodeRow)
    (endpoints : List NativeStageWorkerPlan) : Prop where
  valid : validNativeQualification q = true
  mode : q.mode.kind = c.spec.kind
  length : q.endpoints.length = nodes.length
  ids : nativeNodeIds c quals = .ok (nodes.map (·.id))
  serves : ∀ n ∈ nodes, Serves c n
  roles : ∀ n ∈ nodes, n.offer.any
    (·.roles.has (if c.spec.kind = .stages then .worker else .replica)) = true
  qualified : ∀ slot ∈ nativeSlots c q nodes, qualifies c q slot.1 slot.2.1 slot.2.2 = true
  fits : ∀ n ∈ nodes, nativeEndpointErrors q n = []
  placed : List.Forall₂ (fun slot e ↦ nativeEndpoint c q slot.1 slot.2.1 slot.2.2 = .ok e)
    (nativeSlots c q nodes) endpoints

theorem planNative_found {plan : Plan} (h : planNative c quals = .ok plan) :
    ∃ q nodes endpoints, NativeFound c quals q nodes endpoints ∧ plan.ctx = 1024 ∧
      plan.parallel = 1 ∧ plan.workers = [] ∧
      plan.nativeExecution = some ⟨q.mode, endpoints, q.evidenceSha256, stateTransfer q⟩ := by
  obtain ⟨_, -, h⟩ := bind_ok h
  obtain ⟨ids, hids, h⟩ := bind_ok h
  obtain ⟨_, hfound, h⟩ := bind_ok h
  obtain ⟨hnodes, hserves⟩ := requireNodes_spec (require_ok.mp hfound)
  simp only at h
  split at h
  · cases h
  · rename_i q hfind
    obtain ⟨endpoints, hendpoints, h⟩ := bind_ok h
    obtain ⟨_, herrors, h⟩ := bind_ok h
    cases h
    have hq := List.mem_of_find?_eq_some hfind
    simp only [List.mem_filter, Bool.and_eq_true, decide_eq_true_eq] at hq
    obtain ⟨-, ⟨⟨hvalid, hmode⟩, -⟩, hlen⟩ := hq
    rw [require_ok, List.flatMap_eq_nil_iff] at herrors
    exact ⟨q, _, endpoints, {
      valid := hvalid
      mode := hmode
      length := hlen
      ids := hnodes.symm ▸ mapError_ok hids
      serves := fun n hn ↦ (hserves n hn).1
      roles := fun n hn ↦ (hserves n hn).2
      qualified := by
        have hall := List.find?_some hfind
        simpa only [List.all_eq_true] using hall
      fits := herrors
      placed := mapM_ok hendpoints }, rfl, rfl, rfl, rfl⟩

namespace NativeFound

variable {c : PlanContext} {quals : List Qwen35NativeQualification} {q : Qwen35NativeQualification}
  {nodes : List NodeRow} {endpoints : List NativeStageWorkerPlan}

theorem endpoints_spec (h : NativeFound c quals q nodes endpoints) :
    endpoints.map (·.nodeId) = nodes.map (·.id) ∧ ∀ e ∈ endpoints, e.Sound c.usedPorts := by
  obtain ⟨hslots, hmem⟩ := nativeSlots_spec c q nodes h.length
  obtain ⟨hmap, hsound⟩ := placed_spec h.placed fun slot hs e ↦ nativeEndpoint_sound
    (validNativeQualification_valid h.valid) (hmem slot hs).1 h.mode (h.fits _ (hmem slot hs).2)
  exact ⟨hmap.trans hslots, hsound⟩

theorem nodup (h : NativeFound c quals q nodes endpoints) {ctx parallel chain : ℤ}
    (hreq : nativeRequestErrors c.spec ctx parallel chain = []) :
    (endpoints.map (·.nodeId)).Nodup := by
  rw [h.endpoints_spec.1]
  exact nativeNodeIds_nodup hreq h.ids

end NativeFound

theorem planNative_sound {c : PlanContext} {quals : List Qwen35NativeQualification}
    (hkind : c.spec.kind.isNative = true) {ctx parallel chain : ℤ}
    (hreq : nativeRequestErrors c.spec ctx parallel chain = []) {plan : Plan}
    (h : planNative c quals = .ok plan) : plan.Sound c.spec c.all c.usedPorts := by
  obtain ⟨q, nodes, endpoints, hfound, hctx, hparallel, hworkers, hnative⟩ := planNative_found h
  obtain ⟨hmap, hsound⟩ := hfound.endpoints_spec
  have hnodes : planNodes plan = endpoints.map (·.nodeId) := by
    simp only [planNodes, hnative]
  exact {
    ctx_pos := by omega
    parallel_pos := by omega
    nodup := hnodes ▸ hfound.nodup hreq
    placed := by
      intro id hid
      rw [hnodes, hmap, List.mem_map] at hid
      obtain ⟨n, hn, rfl⟩ := hid
      exact (hfound.serves n hn).placed
    workers := by simp [hworkers]
    weights := by
      intro hsplit
      simp [hsplit, DeploymentKind.isNative] at hkind
    native := by rw [hnative]; exact hkind.symm
    nativeCtx := fun _ ↦ hctx
    whole := fun _ ↦ hworkers
    endpoints := by
      rintro _ hmem
      cases hnative.symm.trans hmem
      exact hsound
    follows := by
      have hids := hfound.ids
      rw [← hmap, ← hnodes, nativeNodeIds] at hids
      unfold Plan.Follows
      split
      all_goals rename_i hk; simp only [hk, DeploymentKind.isNative, Bool.false_eq_true] at hkind
      · rw [if_pos hk] at hids
        exact (Except.ok.inj hids).symm
      · intro hnamed
        rw [if_neg (by simp [hk]), if_pos hnamed] at hids
        exact (Except.ok.inj hids).symm }

/-! ## The planner -/

theorem requestErrors_eq_nil {spec : DeploymentSpec} {ctx parallel chain : ℤ}
    (h : requestErrors spec ctx parallel chain = []) :
    1 ≤ ctx ∧ 1 ≤ parallel ∧ spec.kind ≠ .external ∧
      (spec.kind.isNative = true → nativeRequestErrors spec ctx parallel chain = []) ∧
      ∀ layers ∈ spec.workerLayers, ∃ ids ∈ spec.workerNodeIds, ids.length = layers.length := by
  simp only [requestErrors, List.append_eq_nil_iff] at h
  obtain ⟨⟨⟨⟨⟨⟨⟨⟨hctx, hparallel⟩, -⟩, -⟩, -⟩, hkind⟩, hnative⟩, -⟩, hlayers⟩ := h
  refine ⟨?_, ?_, ?_, ?_, ?_⟩
  · by_contra hlt
    simp [not_le.mp hlt] at hctx
  · by_contra hlt
    simp [not_le.mp hlt] at hparallel
  · intro hexternal
    simp [hexternal] at hkind
  · intro hn
    rw [if_pos hn] at hnative
    exact hnative
  · intro layers hmem
    rw [Option.mem_def] at hmem
    simp only [hmem, List.append_eq_nil_iff] at hlayers
    have hlength := hlayers.2
    cases hids : spec.workerNodeIds with
    | none => simp [hids] at hlength
    | some => simpa [hids] using hlength

/-- **Every accepted plan is sound.** -/
theorem planDeployment_sound {rt : Runtime} {input : PlanInput} {plan : Plan}
    (hnodup : (input.nodes.map (·.id)).Nodup) (h : planDeployment rt input = .ok plan) :
    plan.Sound input.spec input.nodes input.usedPorts := by
  obtain ⟨_, hrequest, h⟩ := bind_ok h
  obtain ⟨hctx, hparallel, hexternal, hnative, hlen⟩ :=
    requestErrors_eq_nil (require_ok.mp hrequest)
  set c := planContext rt input
    (input.spec.ctx.getD (if input.spec.kind.isNative then 1024 else DEFAULT_CTX))
    (input.spec.parallel.getD DEFAULT_PARALLEL) (input.spec.chain.getD DEFAULT_CHAIN) with hc
  have hbuilt : c.Built := planContext_built _ _ _ _ _
  have hctx : 1 ≤ c.ctx := by
    simp only [hc, planContext]
    omega
  have hparallel : 1 ≤ c.parallel := by
    simp only [hc, planContext]
    omega
  split_ifs at h with hisNative hreplica
  · exact planNative_sound (c := c) hisNative (hnative hisNative) h
  · exact planReplica_sound hbuilt hctx hparallel hreplica h
  · have hsplit : input.spec.kind = .split := by
      cases hk : input.spec.kind <;> simp_all [DeploymentKind.isNative]
    exact planSplit_sound hbuilt hnodup hctx hparallel hsplit hlen h

end Swarmlet
