import Swarmlet.Control.FleetAgreement

/-!
# What a preview books

An applicable preview has placed its entries one beside the other. Here is what that leaves of the
fleet: whatever resource an entry takes of a node, all entries together fit into the node's offer
beside what the other deployments hold; no two workers are given one port of a node; and the budgets
written into the specs are exactly the nodes of their plans, each at least what the plan needs.

The bound speaks of the resources the entries take. Where they take nothing, the baseline alone
decides: an owner may have lowered an offer under what is reserved, and a preview that stays away
from the node is applicable all the same.

A GPU id that an offer lists twice is covered by one of its entries.
-/

namespace Swarmlet

open Js

/-! ## Room in an offer -/

def Offer.Covers (o : Offer) (taken : ℕ) : Resource → Prop
  | .ram => taken ≤ o.ramMiB
  | .cpu => taken ≤ o.cpuCores
  | .gpu id => ∃ g ∈ o.gpu, g.id = id ∧ taken ≤ g.memMiB

def NodeRow.Covers (n : NodeRow) (taken : ℕ) (r : Resource) : Prop :=
  ∃ o ∈ n.offer, o.Covers taken r

theorem availableNode_covers {reserved : ResourceLedger} (hmerged : reserved.Merged) {n : NodeRow}
    {r : Resource} {amount : ℕ} (hpos : 0 < amount)
    (h : amount ≤ (availableNode reserved n).capacity r) :
    n.Covers (sharedAmount reserved n.id r + amount) r := by
  rw [← hmerged.amount_at]
  cases ho : n.offer with
  | none =>
    simp only [availableNode, ho, NodeRow.capacity, Option.map_none, Option.getD_none] at h
    omega
  | some o =>
    simp only [availableNode, ho, NodeRow.capacity, Option.map_some, Option.getD_some] at h
    refine ⟨o, ho, ?_⟩
    cases r with
    | ram | cpu =>
      simp only [availableOffer, Offer.capacity] at h
      simp only [Offer.Covers, NodeAllocation.amount]
      omega
    | gpu id =>
      simp only [Offer.capacity, firstGpu] at h
      cases hslot : (availableOffer o (reserved.at n.id)).gpu.find? (·.id = id) with
      | none =>
        rw [hslot, Option.map_none, Option.getD_none] at h
        omega
      | some slot =>
        rw [hslot, Option.map_some, Option.getD_some] at h
        have hslotId : slot.id = id := by simpa using List.find?_some hslot
        have hmem := List.mem_of_find?_eq_some hslot
        simp only [availableOffer, List.mem_filter, List.mem_map] at hmem
        obtain ⟨⟨g, hg, rfl⟩, -⟩ := hmem
        have hused : gpuAmount (reserved.at n.id).gpu id =
            (((reserved.at n.id).gpu.find? (·.id = id)).map (·.memMiB)).getD 0 :=
          Keyed.total_eq_find _ _ (hmerged.gpus_at n.id) id
        simp only at hslotId h
        rw [hslotId] at h
        refine ⟨g, hg, hslotId, ?_⟩
        rw [NodeAllocation.amount, hused]
        omega

/-! ## Shares -/

section Placed

variable {c : FleetContext} {es : List FleetEntry} {L : ResourceLedger} {P : NodeId → List ℕ}
  {e : FleetEntry}

theorem Admitted.covers (hmerged : L.Merged) (h : Admitted c L P e) {a : NodeAllocation}
    (ha : a ∈ e.shares) {r : Resource} (hpos : 0 < a.amount r) :
    ∃ n ∈ c.input.nodes, n.id = a.nodeId ∧ n.Covers (sharedAmount L n.id r + a.amount r) r := by
  obtain ⟨spec, plan, profile, -, -, -, hspec, -, -, hplan⟩ := h
  obtain ⟨hparse, hbudgets, -⟩ := (planWithResources_explicit hspec).mp hplan
  obtain ⟨n, hn, hid, -, hfits⟩ := checkBudgets_ok hbudgets a ha
  have hvalid := (parseAllocations_ok hparse).2.2 a ha
  exact ⟨n, hn, hid, availableNode_covers hmerged hpos
    (((fitProblem_eq_none hvalid).mp (assertFits_ok hfits)).2.2 r)⟩

/-- **The offer covers all entries together**, in every resource they take something of. -/
theorem Placed.covers (h : Placed c es L P) {n : NodeRow} (hn : n ∈ c.input.nodes) {r : Resource}
    (htaken : 0 < sharedAmount (es.flatMap (·.shares)) n.id r) :
    n.Covers (sharedAmount L n.id r) r := by
  refine h.booked (Q := (n.Covers · r)) (fun hmerged hadmitted ha haid hpos ↦ ?_) htaken
  obtain ⟨m, hm, hmid, hcovers⟩ := hadmitted.covers hmerged ha hpos
  obtain rfl : m = n := List.inj_on_of_nodup_map c.input.distinctNodes hm hn (hmid.trans haid)
  exact hcovers

/-! ## Ports -/

def PlanWorker.endpoints (w : PlanWorker) : List (NodeId × ℕ) :=
  (w.nodeId, w.port) :: w.peerPort.toList.map fun peer ↦ (w.nodeId, peer)

def FleetEntry.workers (e : FleetEntry) : List PlanWorker := (e.plan.map (·.workers)).getD []

def FleetEntry.endpoints (e : FleetEntry) : List (NodeId × ℕ) := e.workers.flatMap (·.endpoints)

theorem PlanWorker.Sound.nodup_endpoints {used : NodeId → List ℕ} {w : PlanWorker}
    (h : w.Sound used) : w.endpoints.Nodup := by
  cases hpeer : w.peerPort with
  | none => simp [PlanWorker.endpoints, hpeer]
  | some peer =>
    have := h.peer peer hpeer
    simp only [PlanWorker.endpoints, hpeer, Option.toList_some, List.map_cons, List.map_nil,
      List.nodup_cons, List.mem_singleton, Prod.mk.injEq, true_and, List.not_mem_nil,
      not_false_eq_true, List.nodup_nil, and_true]
    omega

theorem PlanWorker.Sound.endpoints_free {used : NodeId → List ℕ} {w : PlanWorker}
    (h : w.Sound used) : ∀ x ∈ w.endpoints, x.1 = w.nodeId ∧ x.2 ∉ used x.1 := by
  intro x hx
  rcases List.mem_cons.mp hx with rfl | hx
  · exact ⟨rfl, h.port.port_free⟩
  · obtain ⟨peer, hpeer, rfl⟩ := List.mem_map.mp hx
    rw [h.peer peer (Option.mem_toList.mp hpeer)]
    exact ⟨rfl, h.port.peer_free⟩

theorem mem_occupyPorts {ports : NodeId → List ℕ} {plan : Plan} {nodeId : NodeId} {port : ℕ}
    (h : port ∈ ports nodeId ∨ (nodeId, port) ∈ plan.workers.flatMap (·.endpoints)) :
    port ∈ occupyPorts ports plan nodeId := by
  simp only [occupyPorts, List.mem_append, List.mem_flatMap, List.mem_filter, decide_eq_true_eq,
    PlanWorker.endpoints, List.mem_cons, List.mem_map, Prod.mk.injEq, Option.mem_toList] at h ⊢
  refine h.imp_right ?_
  rintro ⟨w, hw, ⟨rfl, rfl⟩ | ⟨peer, hpeer, rfl, rfl⟩⟩
  · exact ⟨w, ⟨hw, rfl⟩, .inl rfl⟩
  · exact ⟨w, ⟨hw, rfl⟩, .inr hpeer⟩

theorem Admitted.workers_sound (hmerged : L.Merged) (h : Admitted c L P e) :
    (∀ w ∈ e.workers, w.Sound P) ∧ (e.workers.map (·.nodeId)).Nodup := by
  obtain ⟨spec, plan, profile, -, hplan, -, -, hkind, -, hresult⟩ := h
  obtain ⟨hsound, -⟩ := planWithResources_fits c.input.distinctNodes hmerged hresult
  have hworkers : e.workers = plan.workers := by simp [FleetEntry.workers, hplan]
  have hnative : plan.nativeExecution = none := by simpa [hkind] using hsound.native
  have hnodup := hsound.nodup
  rw [planNodes, hnative] at hnodup
  rw [hworkers]
  exact ⟨hsound.workers, (List.nodup_cons.mp hnodup).2⟩

theorem Admitted.nodup_endpoints (hmerged : L.Merged) (h : Admitted c L P e) :
    e.endpoints.Nodup := by
  obtain ⟨hsound, hnodes⟩ := h.workers_sound hmerged
  refine List.nodup_flatMap.mpr ⟨fun w hw ↦ (hsound w hw).nodup_endpoints, ?_⟩
  refine (List.pairwise_map.mp hnodes).imp_of_mem fun {v w} hv hw hne x hxv hxw ↦ hne ?_
  exact ((hsound v hv).endpoints_free x hxv).1.symm.trans ((hsound w hw).endpoints_free x hxw).1

/-- **Each port is given once**: the ports of all entries are distinct, and they are in use. -/
theorem Placed.endpoints (h : Placed c es L P) :
    (es.flatMap (·.endpoints)).Nodup ∧ ∀ x ∈ es.flatMap (·.endpoints), x.2 ∈ P x.1 := by
  induction h with
  | start => exact ⟨List.nodup_nil, fun x hx ↦ absurd hx List.not_mem_nil⟩
  | @refused es L P e _ hnone ih =>
    have hnil : e.endpoints = [] := by simp [FleetEntry.endpoints, FleetEntry.workers, hnone]
    simpa [hnil] using ih
  | @admitted es L P e hrest hadmitted ih =>
    obtain ⟨hnodup, hused⟩ := ih
    have hoccupied : ∀ x : NodeId × ℕ, x.2 ∈ P x.1 ∨ x ∈ e.endpoints → x.2 ∈ e.occupy P x.1 := by
      obtain ⟨-, plan, -, -, hplan, -⟩ := hadmitted
      intro x hx
      rw [FleetEntry.endpoints, FleetEntry.workers, hplan, Option.map_some, Option.getD_some] at hx
      rw [FleetEntry.occupy, hplan, Option.map_some, Option.getD_some]
      exact mem_occupyPorts hx
    have hfree : ∀ x ∈ e.endpoints, x.2 ∉ P x.1 := by
      intro x hx
      obtain ⟨w, hw, hxw⟩ := List.mem_flatMap.mp hx
      exact (((hadmitted.workers_sound hrest.merged).1 w hw).endpoints_free x hxw).2
    rw [List.flatMap_append, List.flatMap_singleton]
    refine ⟨List.nodup_append.mpr ⟨hnodup, hadmitted.nodup_endpoints hrest.merged, ?_⟩, ?_⟩
    · rintro x hx y hy rfl
      exact hfree x hy (hused x hx)
    · intro x hx
      rcases List.mem_append.mp hx with hx | hx
      · exact hoccupied x (.inl (hused x hx))
      · exact hoccupied x (.inr hx)

/-! ## Budgets -/

structure Plan.Budgeted (nodes : List NodeRow) (profile : ModelProfile) (plan : Plan)
    (budgets : List NodeAllocation) : Prop where
  nodup : (budgets.map (·.nodeId)).Nodup
  cover : ∀ id, id ∈ budgets.map (·.nodeId) ↔ id ∈ planNodeIds plan
  minimum : ∀ a ∈ budgets, ∃ n ∈ nodes, n.id = a.nodeId ∧
    ∀ r, (minimumAllocation plan profile (boundedNode budgets n)).amount r ≤ a.amount r

theorem minimum_le_budget {minimum a : NodeAllocation} (ha : a.Valid) (hcpu : minimum.cpuCores = 1)
    (hgpu : minimum.gpu.length ≤ 1)
    (h : ¬(a.ramMiB < minimum.ramMiB ∨ minimum.gpu.any (fun g ↦
      ((a.gpu.find? (·.id = g.id)).map (·.memMiB)).getD 0 < g.memMiB) = true)) (r : Resource) :
    minimum.amount r ≤ a.amount r := by
  obtain ⟨hram, hgpus⟩ := not_or.mp h
  cases r with
  | ram => exact Nat.not_lt.mp hram
  | cpu =>
    have := ha.cpu_pos
    simp only [NodeAllocation.amount, hcpu]
    omega
  | gpu id =>
    by_cases hpos : 0 < minimum.amount (.gpu id)
    · obtain ⟨g, hg, rfl⟩ := exists_gpu_of_amount_pos hpos
      have hnodup : (minimum.gpu.map (·.id)).Nodup := by
        rcases hlist : minimum.gpu with _ | ⟨x, _ | ⟨y, rest⟩⟩
        · exact List.nodup_nil
        · exact List.nodup_singleton _
        · simp [hlist] at hgpu
      rw [amount_gpu_of_mem hnodup hg, NodeAllocation.amount, gpuAmount,
        Keyed.total_eq_find _ _ ha.gpus]
      simp only [List.any_eq_true, decide_eq_true_eq, not_exists, not_and, Nat.not_lt] at hgpus
      exact hgpus g hg
    · omega

theorem Admitted.budgeted (hmerged : L.Merged) (h : Admitted c L P e) :
    ∃ spec plan profile, e.spec = some spec ∧ e.plan = some plan ∧
      spec.allocations = some e.shares ∧ c.input.profile spec.profile = some profile ∧
      plan.Budgeted c.input.nodes profile e.shares := by
  obtain ⟨spec, plan, profile, hspec, hplan, -, hshares, hkind, hprofile, hresult⟩ := h
  obtain ⟨hsound, -⟩ := planWithResources_fits c.input.distinctNodes hmerged hresult
  have hnative : plan.nativeExecution = none := by simpa [hkind] using hsound.native
  obtain ⟨hparse, hbudgets, placed, -, hminima, rfl⟩ :=
    (planWithResources_explicit hshares).mp hresult
  obtain ⟨-, hnodup, hvalid⟩ := parseAllocations_ok hparse
  refine ⟨spec, _, profile, hspec, hplan, hshares, hprofile, hnodup, ?_, ?_⟩
  · intro id
    rw [mem_planNodeIds]
    exact checkMinima_cover hnodup hminima id
  · intro a ha
    obtain ⟨n, hn, hid, -, hfits⟩ := checkBudgets_ok hbudgets a ha
    have hbudget := Keyed.find?_of_mem NodeAllocation.nodeId hnodup ha hid.symm
    have hbounded := boundedNode_availableNode hbudget (hvalid a ha) (assertFits_ok hfits)
    have hnode : a.nodeId ∈ planNodeIds placed :=
      mem_planNodeIds.mpr ((checkMinima_cover hnodup hminima a.nodeId).mp (List.mem_map_of_mem ha))
    have hfind : (boundedNodes (availableNodes c.input.nodes L) (some e.shares)).find?
        (·.id = a.nodeId) = some (boundedNode e.shares n) := by
      refine Keyed.find?_of_mem NodeRow.id ?_ ?_ (by simpa using hid)
      · simpa [map_id_boundedNodes] using c.input.distinctNodes
      · rw [← hbounded]
        exact List.mem_map_of_mem (mem_availableNodes.mpr ⟨n, hn, rfl⟩)
    have hmem : minimumAllocation placed profile (boundedNode e.shares n) ∈
        minimumAllocations placed profile
          (boundedNodes (availableNodes c.input.nodes L) (some e.shares)) :=
      (mem_minimumAllocations hnative).mpr ⟨a.nodeId, hnode, _, hfind, rfl⟩
    simp only [checkMinima] at hminima
    split_ifs at hminima
    have hcheck := Checked.forM_ok hminima _ hmem
    have hown : (minimumAllocation placed profile (boundedNode e.shares n)).nodeId = n.id :=
      boundedNode_id _ _
    simp only [hown, hbudget] at hcheck
    split_ifs at hcheck with hlow
    refine ⟨n, hn, hid, minimum_le_budget (hvalid a ha) rfl ?_ hlow⟩
    rw [minimumAllocation, List.length_map]
    exact Option.length_toList_le

end Placed

/-! ## The preview -/

/-- **A preview does not over-commit what it uses**: of every resource its entries take a share of,
the baseline and all entries together are within the published offer; no port of a node is given
twice; and the entries are those of the items, with budgets that are exactly the nodes of their
plans, at least the minimum there, and of the cores the item asks for. -/
theorem previewFleet_within_offers {rt : Runtime} {quals : List Qwen35NativeQualification}
    {request : FleetRequest} {input : FleetInput} {preview : FleetPreview}
    (h : previewFleet rt quals request input = .ok preview) (happly : preview.canApply = true) :
    (∀ n ∈ input.nodes, ∀ r, 0 < sharedAmount (preview.entries.flatMap (·.shares)) n.id r →
      n.Covers (sharedAmount (reservedResources input.deployments input.assignments input.nodes
          (request.items.map (·.deploymentId))) n.id r +
        sharedAmount (preview.entries.flatMap (·.shares)) n.id r) r) ∧
    (preview.entries.flatMap (·.endpoints)).Nodup ∧
    (preview.entries.map (·.deploymentId)).Perm (request.items.map (·.deploymentId)) ∧
    ∀ e ∈ preview.entries, ∃ item ∈ request.items, e.deploymentId = item.deploymentId ∧
      ∃ spec plan profile, e.spec = some spec ∧ e.plan = some plan ∧
        spec.allocations = some e.shares ∧ input.profile spec.profile = some profile ∧
        plan.Budgeted input.nodes profile e.shares ∧
        ∀ cores ∈ item.cpuCores, ∀ a ∈ e.shares, a.cpuCores = cores := by
  obtain ⟨es, L, P, hplaced, hplans, hperm, hids, hitems, -⟩ := previewFleet_placed h happly
  refine ⟨fun n hn r hr ↦ ?_, ?_, (hperm.map _).trans hids, fun e he ↦ ?_⟩
  · have hsum : sharedAmount (preview.entries.flatMap (·.shares)) n.id r =
        sharedAmount (es.flatMap (·.shares)) n.id r :=
      Keyed.total_perm _ _ (hperm.flatMap_right FleetEntry.shares) n.id
    rw [hsum] at hr ⊢
    have hcovers := hplaced.covers hn hr
    rw [hplaced.ledger] at hcovers
    exact hcovers
  · exact (hperm.flatMap_right FleetEntry.endpoints).nodup_iff.mpr hplaced.endpoints.1
  · have hmem := hperm.mem_iff.mp he
    obtain ⟨L', P', hmerged, hadmitted⟩ := hplaced.exists_admitted hmem (hplans e hmem)
    obtain ⟨spec, plan, profile, hspec, hplan, hshares, hprofile, hbudgeted⟩ :=
      hadmitted.budgeted hmerged
    obtain ⟨item, hitem, hid, hcores⟩ := hitems e hmem
    exact ⟨item, hitem, hid, spec, plan, profile, hspec, hplan, hshares, hprofile, hbudgeted,
      hcores⟩

/-- Two replicas share the card of one node. -/
theorem previewFleet_within_offers_shared :
    ∃ preview, previewFleet plainRuntime [] bothRequest (lenderFleet [⟨"cuda:0", 2000⟩]) =
        .ok preview ∧
      0 < sharedAmount (preview.entries.flatMap (·.shares)) "n" (.gpu "cuda:0") ∧
      (lenderNode [⟨"cuda:0", 2000⟩]).Covers
        (sharedAmount (preview.entries.flatMap (·.shares)) "n" (.gpu "cuda:0"))
        (.gpu "cuda:0") := by
  have hpreview : ∃ preview, previewFleet plainRuntime [] bothRequest
      (lenderFleet [⟨"cuda:0", 2000⟩]) = .ok preview ∧ preview.canApply = true ∧
        0 < sharedAmount (preview.entries.flatMap (·.shares)) "n" (.gpu "cuda:0") :=
    by decide +kernel
  obtain ⟨preview, h, happly, hpos⟩ := hpreview
  have hcovers := (previewFleet_within_offers h happly).1 _ List.mem_cons_self (.gpu "cuda:0") hpos
  rw [show reservedResources _ _ _ _ = [] by decide +kernel] at hcovers
  exact ⟨preview, h, hpos, by simpa [sharedAmount, lenderNode] using hcovers⟩

/-- The lender's fleet with one node more, whose owner has lowered the offer under what the
deployment there holds. -/
def loweredFleet : FleetInput where
  nodes := [lenderNode [⟨"cuda:0", 2000⟩],
    { lenderNode [] with id := "m", offer := some ⟨true, ⟨true, true, true⟩, [], 512, 8⟩ }]
  deployments := [stoppedReplica "big", stoppedReplica "small",
    { stoppedReplica "kept" with
      state := .ready
      plan := some {
        coordinatorNodeId := "m", coordinatorDevice := "CPU", workers := [], tensorSplit := []
        ctx := 1536, parallel := 1, chain := 0, env := [], modelPath := "/small"
        allocations := some [⟨"m", 1024, 2, []⟩] } }]
  assignments := []
  profiles := [bigProfile, smallProfile]
  now := 0
  distinctNodes := by decide
  distinctDeployments := by decide

/-- A preview that stays away from the lowered node is applicable, and the node's offer is exceeded
by its baseline as it was before. -/
theorem lowered_offer_overcommitted :
    ∃ preview, previewFleet plainRuntime [] bothRequest loweredFleet = .ok preview ∧
      preview.canApply = true ∧
      ∃ n ∈ loweredFleet.nodes, n.offered .ram <
        sharedAmount (reservedResources loweredFleet.deployments loweredFleet.assignments
          loweredFleet.nodes (bothRequest.items.map (·.deploymentId))) n.id .ram +
        sharedAmount (preview.entries.flatMap (·.shares)) n.id .ram := by
  decide +kernel

/-! ## The memory the search believes in

The search for splits takes the largest GPU offer of a node for its memory; the planner checks the
first offer whose device the node reports. -/

def workerNeed (profile : ModelProfile) (count : ℕ) : ℕ :=
  count * profile.layerMiB + profile.workerMarginMiB

/-- Where the layers fit the largest GPU offer of the node, they fit the first one that the node
reports. -/
def FirstHolds (profile : ModelProfile) (n : NodeRow) (count : ℕ) : Prop :=
  workerNeed profile count ≤ gpuMemory n →
    (offeredGpu n).any (fun gpu ↦ workerNeed profile count ≤ gpu.memMiB) = true

instance (profile : ModelProfile) (n : NodeRow) (count : ℕ) :
    Decidable (FirstHolds profile n count) :=
  inferInstanceAs (Decidable (_ → _))

def SlotsOf (slots : List WorkerSlot) (group : List NodeRow) : Prop :=
  List.Forall₂ (fun s n ↦ s.node = n ∧ offeredGpu n = some s.gpu) slots group

/-- The planner gives every worker a slot, and `requestedLayers` refuses no count for GPU memory. -/
def GpuPasses (profile : ModelProfile) (group : List NodeRow) (counts : List ℕ) : Prop :=
  ∃ slots, SlotsOf slots group ∧ ∀ q ∈ slots.zip counts, overGpu profile q.1 q.2 = false

theorem requestedLayers_overGpu {c : PlanContext} {slots : List WorkerSlot} {counts : List ℕ}
    {q : WorkerSlot × ℕ} (hq : q ∈ slots.zip counts) (hover : overGpu c.profile q.1 q.2 = true) :
    ∃ problems, requestedLayers c slots counts = .error problems := by
  cases hrequested : requestedLayers c slots counts with
  | error problems => exact ⟨problems, rfl⟩
  | ok layers =>
    obtain ⟨_, hproblems, -⟩ := Checked.bind_ok hrequested
    rw [Checked.require_ok, List.append_eq_nil_iff, List.flatMap_eq_nil_iff] at hproblems
    have hnone := hproblems.1 q hq
    simp only [requestedLayerProblems, hover, if_true, List.append_eq_nil_iff] at hnone
    exact absurd hnone.1.2 (List.cons_ne_nil _ _)

theorem gpuPasses_cons {profile : ModelProfile} {n : NodeRow} {group : List NodeRow} {k : ℕ}
    {counts : List ℕ} : GpuPasses profile (n :: group) (k :: counts) ↔
      (offeredGpu n).any (fun gpu ↦ workerNeed profile k ≤ gpu.memMiB) = true ∧
        GpuPasses profile group counts := by
  have hover (s : WorkerSlot) : overGpu profile s k = false ↔
      workerNeed profile k ≤ s.gpu.memMiB := by
    simp [overGpu, workerNeed]
  constructor
  · rintro ⟨_, hslots, hpass⟩
    cases hslots with
    | @cons s _ slots _ hs hslots =>
      rw [List.zip_cons_cons, List.forall_mem_cons] at hpass
      refine ⟨?_, slots, hslots, hpass.2⟩
      rw [hs.2, Option.any_some, decide_eq_true_iff]
      exact (hover s).mp hpass.1
  · rintro ⟨hany, slots, hslots, hpass⟩
    obtain ⟨gpu, hgpu, hholds⟩ := (Option.any_eq_true _ _).mp hany
    refine ⟨⟨n, gpu⟩ :: slots, .cons ⟨rfl, hgpu⟩ hslots, ?_⟩
    rw [List.zip_cons_cons, List.forall_mem_cons]
    exact ⟨(hover _).mpr (of_decide_eq_true hholds), hpass⟩

/-- Workers with counts that fit their largest cards pass exactly if the first reported ones hold
them, too. -/
theorem gpuPasses_iff {profile : ModelProfile} {group : List NodeRow} {counts : List ℕ}
    (hfits : List.Forall₂ (fun n k ↦ workerNeed profile k ≤ gpuMemory n) group counts) :
    GpuPasses profile group counts ↔ ∀ q ∈ group.zip counts, FirstHolds profile q.1 q.2 := by
  induction hfits with
  | nil => exact ⟨fun _ ↦ by simp, fun _ ↦ ⟨[], .nil, by simp⟩⟩
  | cons hfits _ ih =>
    rw [gpuPasses_cons, List.zip_cons_cons, List.forall_mem_cons, ih]
    exact and_congr_left' ⟨fun hany _ ↦ hany, fun hfirst ↦ hfirst hfits⟩

theorem groupLayers_fits {profile : ModelProfile} {rows : List ℕ} {least : ℕ} {group : List NodeRow}
    {left : ℕ} {layers : List ℕ} (h : groupLayers profile rows least group left = some layers) :
    List.Forall₂ (fun n k ↦ k ∈ rows ∧ workerNeed profile k ≤ gpuMemory n) group layers := by
  induction group generalizing left layers with
  | nil =>
    cases h
    exact .nil
  | cons n group ih =>
    obtain ⟨k, hk, h⟩ := Option.bind_eq_some_iff.mp h
    obtain ⟨ks, hks, rfl⟩ := Option.map_eq_some_iff.mp h
    have hneed := List.find?_some hk
    simp only [Bool.and_eq_true, decide_eq_true_eq] at hneed
    exact .cons ⟨List.mem_of_find?_eq_some hk, hneed.1⟩ (ih hks)

/-- **A split passes the planner's check of GPU memory exactly if** on each of its workers, which
are free and have the worker role, the first reported GPU holds the layers where the largest offered
one does; otherwise `requestedLayers` refuses it. -/
theorem splitPlacements_gpuPasses_iff {c : AttemptContext} {coord : NodeRow} {p : FleetPlacement}
    {layers : List ℤ} (h : p ∈ splitPlacements c (envelopeCounts c.dep c.profile) coord)
    (hlayers : p.workerLayers = some layers) :
    ∃ group counts, (∀ n ∈ group, n ∈ c.free ∧ n.id ≠ coord.id ∧ n.offer.any (·.roles.worker)) ∧
      (∀ k ∈ counts, k ∈ envelopeCounts c.dep c.profile) ∧
      p.workerNodeIds = some (group.map (·.id)) ∧ layers = counts.map Int.ofNat ∧
      (GpuPasses c.profile group counts ↔
        ∀ q ∈ group.zip counts, FirstHolds c.profile q.1 q.2) ∧
      ∀ pc slots, pc.profile = c.profile → SlotsOf slots group →
        (∃ q ∈ group.zip counts, ¬ FirstHolds c.profile q.1 q.2) →
        ∃ problems, requestedLayers pc slots counts = .error problems := by
  obtain ⟨count, -, h⟩ := List.mem_filterMap.mp h
  dsimp only at h
  split_ifs at h
  · obtain ⟨counts, hcounts, rfl⟩ := Option.map_eq_some_iff.mp h
    cases hlayers
    have hgroup := groupLayers_fits hcounts
    have hiff := gpuPasses_iff (hgroup.imp fun _ _ hk ↦ hk.2)
    refine ⟨_, counts, fun n hn ↦ ?_, ((List.forall₂_and_left _ _).mp hgroup.flip).1, rfl, rfl,
      hiff, ?_⟩
    · have hworker := List.mem_filter.mp (mem_sortBy.mp (List.mem_of_mem_take hn))
      simp only [Bool.and_eq_true, decide_eq_true_eq] at hworker
      exact ⟨hworker.1, hworker.2.1⟩
    · rintro pc slots hprofile hslots ⟨q, hq, hnot⟩
      have hover : ∃ q ∈ slots.zip counts, overGpu c.profile q.1 q.2 = true := by
        by_contra hnone
        push Not at hnone
        have hpasses : GpuPasses c.profile _ counts :=
          ⟨slots, hslots, fun q hq ↦ Bool.eq_false_iff.mpr (hnone q hq)⟩
        exact hnot (hiff.mp hpasses q hq)
      obtain ⟨q, hq, hover⟩ := hover
      exact requestedLayers_overGpu hq (hprofile ▸ hover)
  · cases h
    cases hlayers

/-- A split of the small model, with a worker whose owner lends two cards. -/
def splitSearch (gpu : List GpuOffer) : AttemptContext :=
  FleetContext.attemptContext ⟨plainRuntime, [], { lenderFleet [] with
    nodes := [lenderNode [], { lenderNode gpu with
      id := "w"
      models := []
      caps := some { allocationVersion := true, os := .linux, gpus := [⟨"cuda:0", "card", .cuda,
        "CUDA0", 2000⟩, ⟨"cuda:1", "card", .cuda, "CUDA1", 2000⟩] } }]
    distinctNodes := by simp [lenderNode] }, ["small"], ["n", "w"]⟩ 1 ⟨"small", .balanced, none⟩
      (stoppedReplica "small") { smallProfile with
        envelope := [⟨2, 4096, 1, 0, false⟩], envelope_lt := by decide }
      { ledger := [], ports := fun _ ↦ [] }

/-- The first card is the smaller one, but holds the two layers. -/
theorem splitPlacements_gpuPasses_iff_smaller :
    ∃ p ∈ splitPlacements (splitSearch [⟨"cuda:0", 150⟩, ⟨"cuda:1", 2000⟩]) [2] (lenderNode []),
      p.workerLayers = some [2] ∧ ∃ group counts, p.workerNodeIds = some (group.map (·.id)) ∧
        [2] = counts.map Int.ofNat ∧
        GpuPasses (splitSearch [⟨"cuda:0", 150⟩, ⟨"cuda:1", 2000⟩]).profile group counts := by
  have hcandidate : ∃ p ∈ splitPlacements (splitSearch [⟨"cuda:0", 150⟩, ⟨"cuda:1", 2000⟩]) [2]
      (lenderNode []), p.workerLayers = some [2] := by
    decide +kernel
  obtain ⟨p, hp, hlayers⟩ := hcandidate
  obtain ⟨group, counts, hfree, hrows, hids, hcounts, hiff, -⟩ :=
    splitPlacements_gpuPasses_iff hp hlayers
  refine ⟨p, hp, hlayers, group, counts, hids, hcounts, hiff.mpr fun q hq ↦ ?_⟩
  have hfirst : ∀ n ∈ (splitSearch [⟨"cuda:0", 150⟩, ⟨"cuda:1", 2000⟩]).free,
      ∀ k ∈ [2], FirstHolds (splitSearch [⟨"cuda:0", 150⟩, ⟨"cuda:1", 2000⟩]).profile n k := by
    decide +kernel
  exact hfirst q.1 (hfree q.1 (List.of_mem_zip hq).1).1 q.2 (hrows q.2 (List.of_mem_zip hq).2)

/-- The search gives a worker two layers on the strength of its second card, and the planner refuses
them on the first. -/
theorem smaller_card_first_refused :
    ∃ p ∈ splitPlacements (splitSearch [⟨"cuda:0", 100⟩, ⟨"cuda:1", 2000⟩]) [2] (lenderNode []),
      p.workerLayers = some [2] ∧
      (planAttempt (splitSearch [⟨"cuda:0", 100⟩, ⟨"cuda:1", 2000⟩]) p).mapError (·.message) =
        .error ("Deployment \"small\" (small, split) cannot be planned. Worker n needs 150 MiB " ++
          "for requested 2 layers but offers 100 MiB on CUDA0.") := by
  decide +kernel

end Swarmlet
