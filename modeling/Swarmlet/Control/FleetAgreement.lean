import Mathlib.Data.List.Induction
import Swarmlet.Control.Fleet
import Swarmlet.Control.PlanStability

/-!
# Preview and apply agree

A preview places its deployments in its own order; an apply plans the entries again, one after
another, beside what the entries before took. Both go through `planWithResources` with the budgets
that the preview wrote into the specs.

## Why the order does not matter

With explicit budgets the planner sees exactly the budgets, whatever is reserved
(`boundedNodes_sameOnline`), so only the budget check looks at the ledger. A budget passes it when
its shares fit beside the reservation (`fitProblem_of_room`), and along the preview's own order the
shares add up to at most the capacity (`Placed.booked`). A sum does not depend on the order.

The capacity of a GPU id is the memory of its *first* entry in the offer, because that is the entry
the check looks up. Once the first entry is used up the check finds the next one, so a preview may
book more than the first entry has where a later one is larger, and then the order matters.
-/

namespace Swarmlet

open Js Checked

/-! ## Capacity -/

def firstGpu (gpu : List GpuOffer) (id : String) : ℕ :=
  ((gpu.find? (·.id = id)).map (·.memMiB)).getD 0

def Offer.capacity (o : Offer) : Resource → ℕ
  | .ram => o.ramMiB
  | .cpu => o.cpuCores
  | .gpu id => firstGpu o.gpu id

def NodeRow.capacity (n : NodeRow) (r : Resource) : ℕ := (n.offer.map (·.capacity r)).getD 0

/-- The node's offer lists no GPU entry of a resource with more memory than the first one. -/
def NodeRow.FirstLargest (n : NodeRow) : Resource → Prop
  | .ram | .cpu => True
  | .gpu id => ∀ o ∈ n.offer, ∀ g ∈ o.gpu, g.id = id → g.memMiB ≤ firstGpu o.gpu id

theorem firstGpu_available {gpu : List GpuOffer} (used : String → ℕ) {id : String}
    (h : used id < firstGpu gpu id ∨ ∀ g ∈ gpu, g.id = id → g.memMiB ≤ firstGpu gpu id) :
    firstGpu ((gpu.map fun g ↦ { g with memMiB := g.memMiB - used g.id }).filter (·.memMiB > 0))
    id =
      firstGpu gpu id - used id := by
  have hfind : ((gpu.map fun g ↦ { g with memMiB := g.memMiB - used g.id }).filter
      (·.memMiB > 0)).find? (·.id = id) =
      (gpu.find? fun g ↦ decide (g.memMiB - used g.id > 0 ∧ g.id = id)).map
        fun g ↦ { g with memMiB := g.memMiB - used g.id } := by
    rw [List.find?_filter, List.find?_map]
    congr 2
    funext g
    simp only [Function.comp_apply, decide_eq_true_eq]
  rw [firstGpu, firstGpu, hfind]
  cases hfirst : gpu.find? (·.id = id) with
  | none =>
    have hnone : gpu.find? (fun g ↦ decide (g.memMiB - used g.id > 0 ∧ g.id = id)) = none := by
      rw [List.find?_eq_none] at hfirst ⊢
      intro g hg hboth
      exact hfirst g hg (decide_eq_true (of_decide_eq_true hboth).2)
    rw [hnone, Option.map_none, Option.map_none, Option.getD_none, Nat.zero_sub]
  | some f =>
    have hfid : f.id = id := by simpa using List.find?_some hfirst
    by_cases hleft : f.memMiB - used id > 0
    · have hsome : gpu.find? (fun g ↦ decide (g.memMiB - used g.id > 0 ∧ g.id = id)) = some f := by
        obtain ⟨-, as, bs, hsplit, has⟩ := List.find?_eq_some_iff_append.mp hfirst
        refine List.find?_eq_some_iff_append.mpr
          ⟨decide_eq_true ⟨hfid.symm ▸ hleft, hfid⟩, as, bs, hsplit, fun a ha ↦ ?_⟩
        have hne : a.id ≠ id := by simpa using has a ha
        simp [hne]
      rw [hsome, Option.map_some, Option.map_some, Option.getD_some, Option.map_some,
        Option.getD_some, hfid]
    · have hnone : gpu.find? (fun g ↦ decide (g.memMiB - used g.id > 0 ∧ g.id = id)) = none := by
        rw [List.find?_eq_none]
        intro g hg hboth
        obtain ⟨hpos, hgid⟩ := of_decide_eq_true hboth
        rw [firstGpu, hfirst, Option.map_some, Option.getD_some] at h
        rw [hgid] at hpos
        rcases h with hunused | hlargest
        · omega
        · have := hlargest g hg hgid
          omega
      rw [hnone, Option.map_none, Option.map_none, Option.getD_none, Option.map_some,
        Option.getD_some]
      omega

/-! ## The budget check -/

/-- A budget fits a node beside what a ledger reserves there: every share that is asked for is
within the capacity. -/
def Room (reserved : ResourceLedger) (n : NodeRow) (a : NodeAllocation) : Prop :=
  ∀ r, 0 < a.amount r → sharedAmount reserved n.id r + a.amount r ≤ n.capacity r

variable {a : NodeAllocation} {n : NodeRow} {reserved : ResourceLedger}

theorem amount_gpu_of_mem (h : (a.gpu.map (·.id)).Nodup) {g : GpuOffer} (hg : g ∈ a.gpu) :
    a.amount (.gpu g.id) = g.memMiB := by
  rw [NodeAllocation.amount, gpuAmount, Keyed.total_eq_find _ _ h, Keyed.find?_of_mem _ h hg rfl]
  rfl

theorem exists_gpu_of_amount_pos {id : String} (h : 0 < a.amount (.gpu id)) :
    ∃ g ∈ a.gpu, g.id = id := by
  by_contra hnone
  push Not at hnone
  rw [NodeAllocation.amount, gpuAmount, Keyed.total_eq_zero _ _ hnone] at h
  exact lt_irrefl 0 h

theorem capacity_availableNode (hmerged : reserved.Merged) {r : Resource}
    (h : (reserved.at n.id).amount r < n.capacity r ∨ n.FirstLargest r) :
    (availableNode reserved n).capacity r = n.capacity r - (reserved.at n.id).amount r := by
  cases ho : n.offer with
  | none => simp [availableNode, ho, NodeRow.capacity]
  | some offer =>
    simp only [availableNode, ho, NodeRow.capacity, Option.map_some, Option.getD_some] at h ⊢
    cases r with
    | ram | cpu => rfl
    | gpu id =>
      have hfind : ∀ gid, (((reserved.at n.id).gpu.find? (·.id = gid)).map (·.memMiB)).getD 0 =
          gpuAmount (reserved.at n.id).gpu gid := fun gid ↦
        (Keyed.total_eq_find _ _ (hmerged.gpus_at n.id) gid).symm
      simp only [availableOffer, Offer.capacity, hfind]
      exact firstGpu_available (gpuAmount (reserved.at n.id).gpu) (h.imp_right fun h ↦ h offer ho)

theorem fitProblem_eq_none (ha : a.Valid) :
    fitProblem a n = none ↔
      n.online = true ∧ n.offers = true ∧ ∀ r, a.amount r ≤ n.capacity r := by
  unfold fitProblem
  cases ho : n.offer with
  | none => simp [NodeRow.offers, ho]
  | some offer =>
    by_cases hup : n.online = true ∧ offer.enabled = true
    · have hfilter : (some offer).filter (fun o ↦ n.online && o.enabled) = some offer := by
        simp [Option.filter, hup]
      rw [hfilter]
      simp only [NodeRow.offers, NodeRow.capacity, ho, hup.1, hup.2, Option.any_some, true_and,
        Option.map_some, Option.getD_some]
      refine ⟨fun h r ↦ ?_, fun h ↦ ?_⟩
      · split_ifs at h with hbig
        rw [not_or, Nat.not_lt, Nat.not_lt] at hbig
        cases r with
        | ram => exact hbig.1
        | cpu => exact hbig.2
        | gpu id =>
          rcases Nat.eq_zero_or_pos (a.amount (.gpu id)) with hzero | hpos
          · rw [hzero]
            exact Nat.zero_le _
          · obtain ⟨g, hg, rfl⟩ := exists_gpu_of_amount_pos hpos
            have hfree := List.findSome?_eq_none_iff.mp h g hg
            rw [amount_gpu_of_mem ha.gpus hg]
            simpa [Offer.capacity, firstGpu] using hfree
      · rw [if_neg (by rw [not_or, Nat.not_lt, Nat.not_lt]; exact ⟨h .ram, h .cpu⟩)]
        rw [List.findSome?_eq_none_iff]
        intro g hg
        have hle := h (.gpu g.id)
        rw [amount_gpu_of_mem ha.gpus hg, Offer.capacity, firstGpu] at hle
        rw [if_neg (Nat.not_lt.mpr hle)]
    · have hfilter : (some offer).filter (fun o ↦ n.online && o.enabled) = none := by
        simpa [Option.filter] using hup
      rw [hfilter]
      simp only [reduceCtorEq, false_iff]
      rintro ⟨honline, hoffers, -⟩
      exact hup ⟨honline, by simpa [NodeRow.offers, ho] using hoffers⟩

section

variable (hmerged : reserved.Merged) (ha : a.Valid)

include hmerged ha

/-- A budget that fits beside the reservation **passes the check**. -/
theorem fitProblem_of_room (honline : n.online = true) (hoffers : n.offers = true)
    (hroom : Room reserved n a) : fitProblem a (availableNode reserved n) = none := by
  refine (fitProblem_eq_none ha).mpr ⟨by simpa using honline, ?_, fun r ↦ ?_⟩
  · have hram := hroom .ram ha.ram_pos
    have hcpu := hroom .cpu ha.cpu_pos
    rw [← hmerged.amount_at] at hram hcpu
    have := ha.ram_pos
    have := ha.cpu_pos
    cases ho : n.offer with
    | none => simp [NodeRow.offers, ho] at hoffers
    | some =>
      simp only [NodeRow.offers, NodeRow.capacity, ho, Option.any_some, Option.map_some,
        Option.getD_some, Offer.capacity, NodeAllocation.amount] at hoffers hram hcpu
      simp only [NodeRow.offers, availableNode, ho, availableOffer, Option.any_some,
        Bool.and_eq_true, decide_eq_true_eq]
      exact ⟨⟨hoffers, by omega⟩, by omega⟩
  · rcases Nat.eq_zero_or_pos (a.amount r) with hzero | hpos
    · rw [hzero]
      exact Nat.zero_le _
    · have hle := hroom r hpos
      rw [← hmerged.amount_at] at hle
      rw [capacity_availableNode hmerged (.inl (by omega))]
      omega

/-- Where the first entry is the largest, a budget that passes the check **fits beside** the
reservation. -/
theorem room_of_fitProblem (hfit : fitProblem a (availableNode reserved n) = none) {r : Resource}
    (hfirst : n.FirstLargest r) (hr : 0 < a.amount r) :
    sharedAmount reserved n.id r + a.amount r ≤ n.capacity r := by
  have hle := ((fitProblem_eq_none ha).mp hfit).2.2 r
  rw [capacity_availableNode hmerged (.inr hfirst), hmerged.amount_at] at hle
  omega

end

/-! ## What the planner sees of a budget -/

theorem boundedNode_availableNode {explicit : List NodeAllocation}
    (hfind : explicit.find? (·.nodeId = n.id) = some a) (ha : a.Valid)
    (hfit : fitProblem a (availableNode reserved n) = none) :
    boundedNode explicit (availableNode reserved n) = boundedNode explicit n := by
  obtain ⟨-, hoffers, hcap⟩ := (fitProblem_eq_none ha).mp hfit
  cases ho : n.offer with
  | none => simp [availableNode, NodeRow.offers, ho] at hoffers
  | some offer =>
    simp only [availableNode, ho, NodeRow.offers, Option.any_some] at hoffers
    have henabled : offer.enabled = true := by
      simp only [availableOffer, Bool.and_eq_true] at hoffers
      exact hoffers.1.1
    -- Every budgeted GPU still has memory left, so the first restriction drops nothing more.
    have hgpus : ∀ g : GpuDevice, a.gpu.any (·.id = g.id) = true →
        (availableOffer offer (reserved.at n.id)).gpu.any (·.id = g.id) = true := by
      intro g hg
      obtain ⟨b, hb, hbid⟩ := List.any_eq_true.mp hg
      have hle := hcap (.gpu b.id)
      rw [amount_gpu_of_mem ha.gpus hb] at hle
      simp only [availableNode, ho, NodeRow.capacity, Option.map_some, Option.getD_some,
        Offer.capacity, firstGpu] at hle
      have := ha.gpu_pos b hb
      cases hslot : (availableOffer offer (reserved.at n.id)).gpu.find? (·.id = b.id) with
      | none =>
        rw [hslot, Option.map_none, Option.getD_none] at hle
        omega
      | some slot =>
        have hslotId : slot.id = b.id := by simpa using List.find?_some hslot
        refine List.any_eq_true.mpr ⟨slot, List.mem_of_find?_eq_some hslot, ?_⟩
        rw [hslotId]
        exact hbid
    have hrestrict : ∀ caps : Capabilities,
        (caps.restrictGpus (availableOffer offer (reserved.at n.id)).gpu).restrictGpus a.gpu =
          caps.restrictGpus a.gpu := by
      intro caps
      simp only [Capabilities.restrictGpus, List.filter_filter]
      congr 1
      refine List.filter_congr fun g _ ↦ ?_
      cases hg : a.gpu.any (·.id = g.id) with
      | false => simp
      | true => simp [hgpus g hg]
    simp only [boundedNode, availableNode, ho, hfind, Option.map_map, Function.comp_def,
      hrestrict]
    simp only [availableOffer] at hoffers ⊢
    rw [hoffers, henabled]

section Replan

variable {nodes : List NodeRow} {explicit : List NodeAllocation}

structure Placeable (nodes : List NodeRow) (a : NodeAllocation) (n : NodeRow) : Prop where
  mem : n ∈ nodes
  id : n.id = a.nodeId
  version : n.caps.any (·.allocationVersion) = true
  online : n.online = true
  offers : n.offers = true

def Fits (reserved : ResourceLedger) (nodes : List NodeRow) (a : NodeAllocation) : Prop :=
  ∃ n, Placeable nodes a n ∧ fitProblem a (availableNode reserved n) = none

@[simp] theorem availableNode_allocationVersion (reserved : ResourceLedger) (n : NodeRow) :
    (availableNode reserved n).caps.any (·.allocationVersion) =
      n.caps.any (·.allocationVersion) := by
  unfold availableNode
  split
  · rfl
  · cases n.caps <;> rfl

variable {plan plan' : Plan} {reserved : ResourceLedger}

section

variable (hnodup : (nodes.map (·.id)).Nodup) (hvalid : ∀ a ∈ explicit, a.Valid)

include hnodup hvalid

theorem checkBudgets_iff :
    checkBudgets (availableNodes nodes reserved) explicit = .ok () ↔
      ∀ a ∈ explicit, Fits reserved nodes a := by
  refine ⟨fun h a ha ↦ ?_, fun h ↦ forM_of_ok fun a ha ↦ ?_⟩
  · obtain ⟨n, hn, hid, hversion, hfits⟩ := checkBudgets_ok h a ha
    have hfit := assertFits_ok hfits
    obtain ⟨honline, hoffers, -⟩ := (fitProblem_eq_none (hvalid a ha)).mp hfit
    exact ⟨n, ⟨hn, hid, by simpa using hversion, by simpa using honline,
      availableNode_offers hoffers⟩, hfit⟩
  · obtain ⟨n, hn, hfit⟩ := h a ha
    have hfind : (availableNodes nodes reserved).find? (·.id = a.nodeId) =
        some (availableNode reserved n) :=
      Keyed.find?_of_mem _ (by simpa using hnodup) (mem_availableNodes.mpr ⟨n, hn.mem, rfl⟩)
        (by simpa using hn.id)
    simp only [hfind, availableNode_allocationVersion, hn.version, if_true, assertFits, hfit]

theorem boundedNodes_sameOnline
    (h : ∀ a ∈ explicit, Fits reserved nodes a) :
    SameOnline (boundedNodes (availableNodes nodes reserved) (some explicit))
      (nodes.map (boundedNode explicit)) := by
  rw [boundedNodes, availableNodes, List.map_map, SameOnline, List.forall₂_map_left_iff,
    List.forall₂_map_right_iff, List.forall₂_same]
  intro n hn
  rw [Function.comp_apply]
  cases hfind : explicit.find? (·.nodeId = n.id) with
  | none =>
    have hid : (availableNode reserved n).hostname = n.hostname := by
      unfold availableNode
      split <;> rfl
    have hoff : ∀ m : NodeRow, m.id = n.id → boundedNode explicit m =
        { m with online := false } := by
      intro m hm
      rw [boundedNode, hm, hfind]
    rw [hoff _ (by simp), hoff n rfl]
    exact ⟨by simp, hid, rfl, fun h ↦ by cases h⟩
  | some a =>
    have ha := List.mem_of_find?_eq_some hfind
    have haid : a.nodeId = n.id := by simpa using List.find?_some hfind
    obtain ⟨m, hm, hfit⟩ := h a ha
    obtain rfl : m = n :=
      List.inj_on_of_nodup_map hnodup hm.mem hn (hm.id.trans haid)
    rw [boundedNode_availableNode hfind (hvalid a ha) hfit]
    exact ⟨rfl, rfl, rfl, fun _ ↦ rfl⟩

end

/-- A plan with explicit budgets: the budgets are well formed and fit, and the placement is the
planner's on exactly these budgets. -/
theorem planWithResources_explicit {rt : Runtime} {input : ResourceInput}
    (hspec : input.spec.allocations = some explicit) :
    planWithResources rt input = .ok plan ↔
      parseAllocations explicit = .ok explicit ∧
      checkBudgets (availableNodes input.nodes input.reserved) explicit = .ok () ∧
      ∃ placed, planDeployment rt ⟨input.spec, input.profile,
          boundedNodes (availableNodes input.nodes input.reserved) (some explicit),
          input.usedPorts, input.nativeQualifications⟩ = .ok placed ∧
        checkMinima placed input.profile
          (boundedNodes (availableNodes input.nodes input.reserved) (some explicit)) explicit =
            .ok () ∧
        plan = { placed with allocations := some explicit } := by
  constructor
  · intro h
    obtain ⟨parsed, hparsed, h⟩ := bind_ok h
    obtain ⟨_, hbudgets, h⟩ := bind_ok h
    obtain ⟨placed, hplan, h⟩ := bind_ok h
    obtain ⟨_, hminima, h⟩ := bind_ok h
    cases h
    have hopt := mapError_ok hparsed
    rw [hspec] at hopt
    obtain ⟨value, hvalue, rfl⟩ := map_ok hopt
    obtain rfl := (parseAllocations_ok hvalue).1
    exact ⟨hvalue, forM_ok hbudgets _ (by simp), placed, hplan,
      forM_ok hminima _ (by simp), rfl⟩
  · rintro ⟨hparse, hbudgets, placed, hplan, hminima, rfl⟩
    have hparsed : (input.spec.allocations.mapM parseAllocations).mapError PlanFailure.error =
        .ok (some explicit) := by
      rw [hspec, Option.mapM_some, hparse]
      rfl
    exact bind_of_ok hparsed <|
      bind_of_ok (forM_of_ok (by simpa using hbudgets)) <|
      bind_of_ok hplan <|
      bind_of_ok (forM_of_ok (by simpa using hminima)) rfl

theorem minimumAllocation_shape (h : plan'.shape = plan.shape) (profile : ModelProfile)
    (n : NodeRow) :
    minimumAllocation plan' profile n = minimumAllocation plan profile n := by
  have hworker : ∀ p : Plan, p.shape.workers.find? (·.nodeId = n.id) =
      (p.workers.find? (·.nodeId = n.id)).map (·.shape) := fun p ↦ by
    rw [Plan.shape, List.find?_map]
    rfl
  have hdata : ∀ p : Plan, minimumAllocation p.shape profile n = minimumAllocation p profile n := by
    intro p
    unfold minimumAllocation
    rw [hworker]
    have hnil : (p.shape.workers = []) = (p.workers = []) := by simp [Plan.shape]
    cases p.workers.find? (·.nodeId = n.id) <;>
      simp only [Option.map_none, Option.map_some, hnil] <;> rfl
  rw [← hdata plan', h, hdata plan]

theorem planNodeIds_shape (h : plan'.shape = plan.shape) :
    planNodeIds plan' = planNodeIds plan := by
  have hdata : ∀ p : Plan, planNodeIds p.shape = planNodeIds p := by
    simp [planNodeIds, Plan.shape, PlanWorker.shape, Function.comp_def]
  rw [← hdata plan', h, hdata plan]

theorem checkMinima_stable {profile : ModelProfile} {bounded bounded' : List NodeRow}
    (hshape : plan'.shape = plan.shape)
    (hminimum : minimumAllocations plan' profile bounded' = minimumAllocations plan profile bounded)
    (h : checkMinima plan profile bounded explicit = .ok ()) :
    checkMinima plan' profile bounded' explicit = .ok () := by
  simp only [checkMinima, planNodeIds_shape hshape, hminimum] at h ⊢
  split_ifs at h with hbad
  rw [if_neg hbad]
  refine forM_of_ok fun minimum hmem ↦ ?_
  have hok := forM_ok h minimum hmem
  cases hfind : explicit.find? (·.nodeId = minimum.nodeId) with
  | none => rfl
  | some =>
    simp only [hfind] at hok ⊢
    split_ifs at hok with hlow
    rw [if_neg hlow]

theorem minimumAllocations_stable (profile : ModelProfile) {bounded bounded' : List NodeRow}
    (hsame : SameOnline bounded bounded') (hnodup : (bounded.map (·.id)).Nodup)
    (hnative : plan.nativeExecution = none)
    (hplaced : ∀ id ∈ planNodes plan, ∃ n ∈ bounded, n.id = id ∧ n.online = true)
    (hshape : plan'.shape = plan.shape) :
    minimumAllocations plan' profile bounded' = minimumAllocations plan profile bounded := by
  have hnative' : plan'.nativeExecution = none := by
    have := congrArg Plan.nativeExecution hshape
    exact this.trans hnative
  simp only [minimumAllocations, hnative, hnative', planNodeIds_shape hshape]
  refine List.filterMap_congr fun id hid ↦ ?_
  obtain ⟨n, hn, hnid, honline⟩ := hplaced id (mem_planNodeIds.mp hid)
  have hfind := Keyed.find?_of_mem _ hnodup hn hnid
  rw [hfind, hsame.find? hfind honline, Option.map_some, Option.map_some,
    minimumAllocation_shape hshape]

/-- **Planned again**: a request with budgets that was planned once is planned again beside any
reservation that leaves room for its budgets, with the same shares. -/
theorem planWithResources_again {rt : Runtime} {input : ResourceInput}
    (hspec : input.spec.allocations = some explicit) (hkind : input.spec.kind.isNative = false)
    (hnodup : (input.nodes.map (·.id)).Nodup)
    (h : planWithResources rt input = .ok plan) (hmerged : reserved.Merged)
    (hroom : ∀ a ∈ explicit, ∀ n, Placeable input.nodes a n → Room reserved n a) :
    ∃ plan', planWithResources rt { input with reserved, usedPorts := fun _ ↦ [] } = .ok plan' ∧
      plan'.allocations = some explicit := by
  obtain ⟨hparse, hbudgets, placed, hplan, hminima, rfl⟩ := (planWithResources_explicit hspec).mp h
  have hvalid := (parseAllocations_ok hparse).2.2
  have hfits := (checkBudgets_iff hnodup hvalid).mp hbudgets
  have hfits' : ∀ a ∈ explicit, Fits reserved input.nodes a := by
    intro a ha
    obtain ⟨n, hn, -⟩ := hfits a ha
    exact ⟨n, hn, fitProblem_of_room hmerged (hvalid a ha) hn.online hn.offers (hroom a ha n hn)⟩
  have hsame := (boundedNodes_sameOnline hnodup hvalid hfits).trans
    (boundedNodes_sameOnline hnodup hvalid hfits').symm
  obtain ⟨placed', hplan', hshape⟩ := planDeployment_stable hsame hkind hplan
  have hids : ((boundedNodes (availableNodes input.nodes input.reserved) (some explicit)).map
      (·.id)).Nodup := by simpa [map_id_boundedNodes] using hnodup
  have hsound := planDeployment_sound hids hplan
  have hnative : placed.nativeExecution = none := by
    simpa [hkind] using hsound.native
  have hminimum := minimumAllocations_stable input.profile hsame hids hnative
    (fun id hid ↦ by
      obtain ⟨n, hn, hnid, honline, -⟩ := hsound.placed id hid
      exact ⟨n, hn, hnid, honline⟩) hshape
  refine ⟨{ placed' with allocations := some explicit }, ?_, rfl⟩
  have hspec' :
      ({ input with reserved, usedPorts := fun _ ↦ [] } : ResourceInput).spec.allocations =
    some explicit := hspec
  exact (planWithResources_explicit hspec').mpr ⟨hparse,
    (checkBudgets_iff hnodup hvalid).mpr hfits', placed', hplan',
    checkMinima_stable hshape hminimum hminima, rfl⟩

end Replan

/-! ## Along the preview's own order -/

def FleetEntry.shares (e : FleetEntry) : List NodeAllocation :=
  (e.plan.bind (·.allocations)).getD []

def FleetEntry.occupy (e : FleetEntry) (ports : NodeId → List ℕ) : NodeId → List ℕ :=
  (e.plan.map (occupyPorts ports)).getD ports

/-- An entry that was planned within its own budgets, beside a ledger and the ports in use. -/
def Admitted (c : FleetContext) (reserved : ResourceLedger) (ports : NodeId → List ℕ)
    (e : FleetEntry) : Prop :=
  ∃ spec plan profile, e.spec = some spec ∧ e.plan = some plan ∧ e.error = none ∧
    spec.allocations = some e.shares ∧ spec.kind.isNative = false ∧
    c.input.profile spec.profile = some profile ∧
    planWithResources c.rt ⟨spec, profile, c.input.nodes, reserved, ports, c.quals⟩ = .ok plan

/-- An entry is that of an item, with the cores the item asks for on every node. -/
structure FleetEntry.Follows (e : FleetEntry) (item : FleetItem) (dep : Deployment) : Prop where
  deploymentId : e.deploymentId = dep.id
  cpuCores : ∀ cores ∈ item.cpuCores, ∀ a ∈ e.shares, a.cpuCores = cores

/-- The entries, the ledger and the ports in use of a preview after some of its items. -/
inductive Placed (c : FleetContext) :
    List FleetEntry → ResourceLedger → (NodeId → List ℕ) → Prop
  | start : Placed c [] c.baseline (fleetUsedPorts c.input.assignments c.selected)
  | refused {es L P e} : Placed c es L P → e.plan = none → Placed c (es ++ [e]) L P
  | admitted {es L P e} : Placed c es L P → Admitted c L P e →
      Placed c (es ++ [e]) (addAllocations L e.shares) (e.occupy P)

/-- What is reserved of a resource once all entries are placed beside the baseline. -/
def FleetContext.booked (c : FleetContext) (entries : List FleetEntry) (nodeId : NodeId)
    (r : Resource) : ℕ :=
  sharedAmount c.baseline nodeId r + sharedAmount (entries.flatMap (·.shares)) nodeId r

/-- **No entry is booked on a later listing of a GPU id**: of every id that the entries take of, the
first entry of the node's offer is the largest, or has the memory of all that is booked. -/
def FleetContext.FirstListed (c : FleetContext) (entries : List FleetEntry) : Prop :=
  ∀ n ∈ c.input.nodes, ∀ id, 0 < sharedAmount (entries.flatMap (·.shares)) n.id (.gpu id) →
    n.FirstLargest (.gpu id) ∨ c.booked entries n.id (.gpu id) ≤ n.capacity (.gpu id)

section Placed

variable {c : FleetContext} {es : List FleetEntry} {L : ResourceLedger} {P : NodeId → List ℕ}
  {e : FleetEntry}

theorem Placed.merged (h : Placed c es L P) : L.Merged := by
  induction h with
  | start => exact reservedResources_merged _ _ _ _
  | refused _ _ ih => exact ih
  | admitted _ _ ih => exact ih.addAllocations _

theorem sharedAmount_flatMap_snoc (es : List FleetEntry) (e : FleetEntry) (nodeId : NodeId)
    (r : Resource) :
    sharedAmount ((es ++ [e]).flatMap (·.shares)) nodeId r =
      sharedAmount (es.flatMap (·.shares)) nodeId r + sharedAmount e.shares nodeId r := by
  rw [List.flatMap_append, List.flatMap_singleton]
  exact Keyed.total_append _ _ _ _ _

/-- The preview's ledger is what was reserved before plus the shares of its entries. -/
theorem Placed.ledger (h : Placed c es L P) (nodeId : NodeId) (r : Resource) :
    sharedAmount L nodeId r =
      sharedAmount c.baseline nodeId r + sharedAmount (es.flatMap (·.shares)) nodeId r := by
  induction h with
  | start => rfl
  | @refused es L _ e _ hnone ih =>
    have hshares : e.shares = [] := by simp [FleetEntry.shares, hnone]
    rw [ih, sharedAmount_flatMap_snoc, hshares]
    rfl
  | admitted _ _ ih =>
    rw [amount_addAllocations, ih, sharedAmount_flatMap_snoc, Nat.add_assoc]

theorem Placed.exists_admitted (h : Placed c es L P) (he : e ∈ es)
    (hplan : e.plan.isSome = true) : ∃ L P, L.Merged ∧ Admitted c L P e := by
  induction h with
  | start => cases he
  | refused _ hnone ih =>
    rcases List.mem_append.mp he with he | he
    · exact ih he
    · rw [List.mem_singleton.mp he, hnone] at hplan
      cases hplan
  | admitted hrest hadmitted ih =>
    rcases List.mem_append.mp he with he | he
    · exact ih he
    · rw [List.mem_singleton.mp he]
      exact ⟨_, _, hrest.merged, hadmitted⟩

theorem Admitted.shares_nodup (h : Admitted c L P e) : (e.shares.map (·.nodeId)).Nodup := by
  obtain ⟨spec, plan, profile, -, -, -, hspec, -, -, hplan⟩ := h
  exact (parseAllocations_ok ((planWithResources_explicit hspec).mp hplan).1).2.1

theorem Admitted.fits (h : Admitted c L P e) :
    ∀ a ∈ e.shares, a.Valid ∧ Fits L c.input.nodes a := by
  obtain ⟨spec, plan, profile, -, -, -, hspec, -, -, hplan⟩ := h
  obtain ⟨hparse, hbudgets, -⟩ := (planWithResources_explicit hspec).mp hplan
  have hvalid := (parseAllocations_ok hparse).2.2
  exact fun a ha ↦
    ⟨hvalid a ha, (checkBudgets_iff c.input.distinctNodes hvalid).mp hbudgets a ha⟩

theorem sharedAmount_of_nodup {shares : List NodeAllocation} (h : (shares.map (·.nodeId)).Nodup)
    (nodeId : NodeId) (r : Resource) :
    sharedAmount shares nodeId r = 0 ∨
      ∃ a ∈ shares, a.nodeId = nodeId ∧ sharedAmount shares nodeId r = a.amount r := by
  rw [sharedAmount, Keyed.total_eq_find _ _ h]
  cases hfind : shares.find? (·.nodeId = nodeId) with
  | none => exact .inl rfl
  | some a =>
    exact .inr ⟨a, List.mem_of_find?_eq_some hfind, by simpa using List.find?_some hfind, rfl⟩

theorem Placed.booked (h : Placed c es L P) {nodeId : NodeId} {r : Resource} {Q : ℕ → Prop}
    (hQ : ∀ {L P e a}, L.Merged → Admitted c L P e → a ∈ e.shares → a.nodeId = nodeId →
      0 < a.amount r → Q (sharedAmount L nodeId r + a.amount r))
    (htaken : 0 < sharedAmount (es.flatMap (·.shares)) nodeId r) :
    Q (sharedAmount L nodeId r) := by
  induction h with
  | start => exact absurd htaken (Nat.lt_irrefl 0)
  | @refused es L _ e _ hnone ih =>
    have hshares : e.shares = [] := by simp [FleetEntry.shares, hnone]
    rw [sharedAmount_flatMap_snoc, hshares] at htaken
    exact ih htaken
  | @admitted es L _ e hrest hadmitted ih =>
    rw [sharedAmount_flatMap_snoc] at htaken
    rw [amount_addAllocations]
    rcases sharedAmount_of_nodup hadmitted.shares_nodup nodeId r with hzero | ⟨a, ha, haid, hamount⟩
    · rw [hzero, Nat.add_zero] at htaken ⊢
      exact ih htaken
    · rcases Nat.eq_zero_or_pos (a.amount r) with hzero | hpos
      · rw [hamount, hzero, Nat.add_zero] at htaken ⊢
        exact ih htaken
      · rw [hamount]
        exact hQ hrest.merged hadmitted ha haid hpos

/-! ## Along any order -/

/-- **The apply's loop**: entries that were each admitted once are admitted one after another, in
any order, while all their shares together are within the capacity. -/
theorem validateEntries_ok
    (hadmitted : ∀ e ∈ es, ∃ L P, L.Merged ∧ Admitted c L P e) {reserved : ResourceLedger}
    (hmerged : reserved.Merged)
    (htotal : ∀ n ∈ c.input.nodes, ∀ r, 0 < sharedAmount (es.flatMap (·.shares)) n.id r →
      sharedAmount reserved n.id r + sharedAmount (es.flatMap (·.shares)) n.id r ≤ n.capacity r) :
    validateEntries c.rt c.quals c.input reserved es = .ok () := by
  induction es generalizing reserved with
  | nil => rfl
  | cons e rest ih =>
    have hsplit : ∀ n : NodeRow, ∀ r, sharedAmount ((e :: rest).flatMap (·.shares)) n.id r =
        sharedAmount e.shares n.id r + sharedAmount (rest.flatMap (·.shares)) n.id r :=
      fun n r ↦ by
        exact Keyed.total_append _ _ _ _ _
    obtain ⟨L, ports, hL, spec, plan, profile, hspec, hplan, herror, hshares, hkind,
      hprofile, hok⟩ :=
      hadmitted e (by simp)
    have hroom : ∀ a ∈ e.shares, ∀ n, Placeable c.input.nodes a n → Room reserved n a := by
      intro a ha n hn r hr
      have hle : a.amount r ≤ sharedAmount e.shares n.id r := by
        rw [hn.id]
        exact Keyed.le_total NodeAllocation.nodeId (·.amount r) ha
      have hshare := htotal n hn.mem r
      rw [hsplit] at hshare
      omega
    obtain ⟨plan', hplan', hallocations⟩ := planWithResources_again hshares hkind
      c.input.distinctNodes hok hmerged hroom
    rw [validateEntries]
    simp only [hspec, hplan, herror, hprofile]
    rw [hplan']
    simp only [hallocations]
    refine ih (fun e he ↦ hadmitted e (List.mem_cons_of_mem _ he)) (hmerged.addAllocations _) ?_
    intro n hn r hr
    rw [Option.getD_some, amount_addAllocations]
    have hshare := htotal n hn r (by rw [hsplit]; exact Nat.add_pos_right _ hr)
    rw [hsplit] at hshare
    omega

end Placed

/-! ## The preview's loop -/

/-- A placement names its serving node under the name its kind has for it. -/
def FleetPlacement.Shaped (p : FleetPlacement) : Prop :=
  match p.kind with
  | .replica => p.coordinatorNodeId = none
  | .split => p.replicaNodeId = none

/-- The placements a search tries: shaped ones, and the one a manual item names. -/
def AttemptContext.Tries (c : AttemptContext) (p : FleetPlacement) : Prop :=
  p.Shaped ∨ c.item.mode = .manual p

def Search.Found (c : AttemptContext) (s : Search) : Prop :=
  ∀ w ∈ s.winner, ∃ placement, c.Tries placement ∧ planAttempt c placement = .ok w

section Search

variable {c : AttemptContext} {s : Search}

theorem attempt_found (h : s.Found c) {placement : FleetPlacement} (htries : c.Tries placement) :
    (attempt c placement s).2.Found c := by
  unfold attempt
  simp only
  split
  · rename_i winner hok
    obtain ⟨w, hw, hwinner⟩ := bind_ok hok
    unfold considerWinner at hwinner
    split_ifs at hwinner
    · dsimp only at hwinner
      split_ifs at hwinner
      cases hwinner
      rintro _ ⟨⟩
      exact ⟨placement, htries, hw⟩
    · cases hwinner
      exact h
  · split_ifs
    · exact h
    · exact h

theorem attemptUpTo_found (limit : ℕ) {ps : List FleetPlacement} (hps : ∀ p ∈ ps, c.Tries p)
    (h : s.Found c) : (attemptUpTo c limit ps s).Found c := by
  induction ps generalizing s limit with
  | nil => exact h
  | cons p ps ih =>
    obtain ⟨hp, hps⟩ := List.forall_mem_cons.mp hps
    rw [attemptUpTo]
    split_ifs
    · exact attempt_found h hp
    · exact ih _ hps (attempt_found h hp)
    · exact ih _ hps (attempt_found h hp)

theorem attemptAll_found {ps : List FleetPlacement} (hps : ∀ p ∈ ps, c.Tries p)
    {r : Bool × Search} (h : r.2.Found c) : (attemptAll c ps r).2.Found c := by
  induction ps generalizing r with
  | nil => exact h
  | cons p ps ih =>
    obtain ⟨hp, hps⟩ := List.forall_mem_cons.mp hps
    exact ih hps (attempt_found h hp)

theorem splitPlacements_tries (rows : List ℕ) (coord : NodeRow) :
    ∀ p ∈ splitPlacements c rows coord, c.Tries p := by
  intro p hp
  simp only [splitPlacements, List.mem_filterMap] at hp
  obtain ⟨count, -, hp⟩ := hp
  split_ifs at hp
  · obtain ⟨layers, -, rfl⟩ := Option.map_eq_some_iff.mp hp
    exact .inl rfl
  · cases hp
    exact .inl rfl

theorem searchCoordinators_found (rows : List ℕ) (limit : ℕ) (coords : List NodeRow)
    (h : s.Found c) : (searchCoordinators c rows limit coords s).Found c := by
  induction coords generalizing s limit with
  | nil => exact h
  | cons coord coords ih =>
    have hall := attemptAll_found (splitPlacements_tries rows coord) (r := (false, s)) h
    rw [searchCoordinators]
    split_ifs
    · exact hall
    · exact ih _ hall
    · exact ih _ hall

theorem searchBalanced_found (h : s.Found c) : (searchBalanced c s).Found c := by
  unfold searchBalanced
  simp only
  have hreplicas : ∀ nodes : List NodeRow, ∀ p ∈ nodes.map fun n ↦
      ({ kind := .replica, replicaNodeId := some n.id } : FleetPlacement), c.Tries p := by
    intro nodes p hp
    obtain ⟨n, -, rfl⟩ := List.mem_map.mp hp
    exact .inl rfl
  split_ifs <;>
    first
    | exact searchCoordinators_found _ _ _ (attemptUpTo_found _ (hreplicas _) h)
    | exact searchCoordinators_found _ _ _ h
    | exact attemptUpTo_found _ (hreplicas _) h
    | exact h

theorem currentPlacement_shaped (dep : Deployment) : (currentPlacement dep).Shaped := by
  unfold currentPlacement
  split_ifs <;> rfl

theorem searchPlacement_found (c : AttemptContext) : (searchPlacement c).Found c := by
  have hempty : ({} : Search).Found c := fun _ h ↦ by cases h
  unfold searchPlacement
  cases hmode : c.item.mode with
  | balanced => exact searchBalanced_found hempty
  | keep => exact attempt_found hempty (.inl (currentPlacement_shaped c.dep))
  | manual => exact attempt_found hempty (.inr hmode)

end Search

section

variable {a : NodeAllocation} {profile : ModelProfile} {placement : FleetPlacement}
  {ledger : ResourceLedger}

theorem mem_minimumAllocations {plan : Plan} {nodes : List NodeRow}
    (hnative : plan.nativeExecution = none) :
    a ∈ minimumAllocations plan profile nodes ↔ ∃ id ∈ planNodeIds plan, ∃ n,
      nodes.find? (·.id = id) = some n ∧ minimumAllocation plan profile n = a := by
  simp only [minimumAllocations, hnative, List.mem_filterMap, Option.map_eq_some_iff]

theorem budgetedSpec_ok {c : AttemptContext} (hfree : (c.free.map (·.id)).Nodup)
    {spec : DeploymentSpec}
    (h : budgetedSpec c placement = .ok spec) :
    spec.profile = c.dep.spec.profile ∧ spec.kind.isNative = false ∧
      ∃ budgets, spec.allocations = some budgets ∧
        ∀ cores ∈ c.item.cpuCores, ∀ a ∈ budgets, a.cpuCores = cores := by
  unfold budgetedSpec at h
  split_ifs at h
  obtain ⟨base, hbase, h⟩ := bind_ok h
  cases h
  have hkind : placement.kind.kind.isNative = false := by cases placement.kind <;> rfl
  refine ⟨rfl, hkind, _, rfl, fun cores hcores a ha ↦ ?_⟩
  have hsound := planDeployment_sound ((List.filter_sublist.map _).nodup hfree) hbase
  have hnative : base.nativeExecution = none := by
    simpa [placementSpec, hkind] using hsound.native
  obtain ⟨minimum, hminimum, rfl⟩ := List.mem_map.mp ha
  obtain ⟨id, -, n, hn, rfl⟩ := (mem_minimumAllocations hnative).mp hminimum
  have hid : n.id = id := by simpa using List.find?_some hn
  have hfind : (c.free.filter fun n ↦ some n.id ∈ placement.ids).find?
      (·.id = (minimumAllocation base c.profile n).nodeId) = some n := by
    rw [show (minimumAllocation base c.profile n).nodeId = id from hid]
    exact hn
  simp only [hfind, budgetFor]
  rw [Option.mem_def.mp hcores, Option.getD_some]

theorem planAttempt_admitted {c : FleetContext} {sharing : ℕ} {item : FleetItem} {dep : Deployment}
    {s : FleetState} (hprofile : c.input.profile dep.spec.profile = some profile)
    {w : Winner}
    (h : planAttempt (c.attemptContext sharing item dep profile s) placement = .ok w) :
    Admitted c s.ledger s.ports (entryOf dep w) ∧ (entryOf dep w).Follows item dep := by
  obtain ⟨spec, hspec, h⟩ := bind_ok h
  obtain ⟨plan, hplan, h⟩ := bind_ok h
  cases h
  have hfree : ((c.attemptContext sharing item dep profile s).free.map (·.id)).Sublist
      (c.input.nodes.map (·.id)) := by
    refine (List.filter_sublist.map _).trans ?_
    rw [map_id_availableNodes]
    exact List.filter_sublist.map _
  obtain ⟨hprofileId, hkind, budgets, hbudgets, hcores⟩ :=
    budgetedSpec_ok (hfree.nodup c.input.distinctNodes) hspec
  obtain ⟨-, -, placed, -, -, rfl⟩ := (planWithResources_explicit hbudgets).mp hplan
  exact ⟨⟨_, _, profile, rfl, rfl, rfl, hbudgets, hkind, hprofileId ▸ hprofile, hplan⟩, rfl, hcores⟩

/-- One item is **refused** with an entry that plans nothing, or its search's winner is placed. -/
theorem placeItem_cases (c : FleetContext) (sharing : ℕ) (s : FleetState) (item : FleetItem)
    (dep : Deployment) :
    (∃ evaluated, ∃ e : FleetEntry, e.deploymentId = dep.id ∧ e.plan = none ∧ e.spec = none ∧
      placeItem c sharing s item dep = { s with evaluated, entries := s.entries ++ [e] }) ∨
    ∃ profile w evaluated, c.input.profile dep.spec.profile = some profile ∧
      (dep.spec.kind = .split ∨ dep.spec.kind = .replica) ∧
      (searchPlacement (c.attemptContext sharing item dep profile s)).winner = some w ∧
      placeItem c sharing s item dep =
        { evaluated, entries := s.entries ++ [entryOf dep w]
          ledger := addAllocations s.ledger (w.plan.allocations.getD [])
          ports := occupyPorts s.ports w.plan } := by
  unfold placeItem
  cases hprofile : c.input.profile dep.spec.profile with
  | none => exact .inl ⟨_, _, rfl, rfl, rfl, rfl⟩
  | some profile =>
    by_cases hkind : dep.spec.kind ≠ .split ∧ dep.spec.kind ≠ .replica
    · exact .inl ⟨_, _, rfl, rfl, rfl, if_pos hkind⟩
    simp only [if_neg hkind]
    by_cases hstop : dep.spec.stopExternal = some true
    · exact .inl ⟨_, _, rfl, rfl, rfl, if_pos hstop⟩
    simp only [if_neg hstop]
    cases hw : (searchPlacement (c.attemptContext sharing item dep profile s)).winner with
    | none => exact .inl ⟨_, _, rfl, rfl, rfl, rfl⟩
    | some w => exact .inr ⟨profile, w, _, rfl, by tauto, hw, rfl⟩

theorem placeAll_placed (c : FleetContext) (sharing : ℕ) (order : List (FleetItem × Deployment)) :
    Placed c (placeAll c sharing order).entries (placeAll c sharing order).ledger
        (placeAll c sharing order).ports ∧
      (placeAll c sharing order).entries.map (·.deploymentId) = order.map (·.2.id) ∧
      ∀ e ∈ (placeAll c sharing order).entries, ∃ p ∈ order, e.Follows p.1 p.2 := by
  induction order using List.reverseRecOn with
  | nil => exact ⟨.start, rfl, fun e he ↦ nomatch he⟩
  | append_singleton order p ih =>
    obtain ⟨hplaced, hids, hall⟩ := ih
    rw [placeAll, List.foldl_concat, ← placeAll]
    -- the entries before the last follow the items before the last
    have hsnoc : ∀ e : FleetEntry, e.Follows p.1 p.2 →
        ∀ x ∈ (placeAll c sharing order).entries ++ [e], ∃ q ∈ order ++ [p], x.Follows q.1 q.2 := by
      intro e he x hx
      rcases List.mem_append.mp hx with hx | hx
      · obtain ⟨q, hq, hx⟩ := hall x hx
        exact ⟨q, List.mem_append_left _ hq, hx⟩
      · exact ⟨p, by simp, List.mem_singleton.mp hx ▸ he⟩
    obtain ⟨_, e, hid, hnone, -, heq⟩ | ⟨profile, w, _, hprofile, -, hw, heq⟩ :=
      placeItem_cases c sharing (placeAll c sharing order) p.1 p.2 <;> rw [heq]
    · exact ⟨.refused hplaced hnone, by simp [hids, hid],
        hsnoc e ⟨hid, by simp [FleetEntry.shares, hnone]⟩⟩
    · obtain ⟨placement, -, hattempt⟩ := searchPlacement_found _ w hw
      obtain ⟨hadmitted, hfollows⟩ := planAttempt_admitted hprofile hattempt
      exact ⟨.admitted hplaced hadmitted, by simp [hids, hfollows.deploymentId], hsnoc _ hfollows⟩

/-! ## Measured memory does not depend on the order -/

theorem reservedResources_congr {exclude exclude' : List DeploymentId}
    (h : ∀ id, id ∈ exclude ↔ id ∈ exclude') (deployments : List Deployment)
    (assignments : List AssignmentRow) (nodes : List NodeRow) :
    reservedResources deployments assignments nodes exclude =
      reservedResources deployments assignments nodes exclude' := by
  simp only [reservedResources, h]

theorem mem_keys_addAllocations {values : List NodeAllocation} {id : NodeId} :
    id ∈ (addAllocations ledger values).map (·.nodeId) ↔
      id ∈ ledger.map (·.nodeId) ∨ id ∈ values.map (·.nodeId) := by
  induction values generalizing ledger with
  | nil => simp [addAllocations]
  | cons v values ih =>
    rw [addAllocations, List.foldl_cons, ← addAllocations, ih]
    have hkeys : id ∈ (addAllocation ledger v).map (·.nodeId) ↔
        id ∈ ledger.map (·.nodeId) ∨ id = v.nodeId := by
      refine Keyed.mem_keys_upsert _ ?_ ?_
      · exact fun _ _ ↦ rfl
      · exact fun _ ↦ rfl
    rw [hkeys, List.map_cons, List.mem_cons, or_assoc]

theorem ResourceLedger.Merged.amount_of_mem (h : ledger.Merged) (ha : a ∈ ledger) (r : Resource) :
    a.amount r = sharedAmount ledger a.nodeId r := by
  rcases sharedAmount_of_nodup h.nodes a.nodeId r with hzero | ⟨b, hb, hid, hamount⟩
  · have hle := Keyed.le_total NodeAllocation.nodeId (·.amount r) ha
    rw [← sharedAmount, hzero] at hle
    rw [hzero]
    exact Nat.le_zero.mp hle
  · rw [hamount, List.inj_on_of_nodup_map h.nodes hb ha hid]

end

section Memory

variable {input : FleetInput} {selected selected' : List DeploymentId} {v v' : NodeAllocation}

theorem gpuMemoryErrors_congr (hgpus : (v.gpu.map (·.id)).Nodup)
    (hgpus' : (v'.gpu.map (·.id)).Nodup) (hamount : ∀ r, v.amount r = v'.amount r) {node : NodeRow}
    {metrics : NodeMetrics} (h : gpuMemoryErrors node metrics v = []) :
    gpuMemoryErrors node metrics v' = [] := by
  rw [gpuMemoryErrors, List.flatMap_eq_nil_iff] at h ⊢
  intro g' hg'
  split
  · rename_i device observed hdevice hobserved
    rw [if_neg]
    intro hshort
    have hpos : 0 < g'.memMiB := by
      have : (0 : ℚ) < g'.memMiB := lt_of_le_of_lt (le_max_left _ _) hshort
      exact_mod_cast this
    have hsame : v.amount (.gpu g'.id) = g'.memMiB :=
      (hamount _).trans (amount_gpu_of_mem hgpus' hg')
    obtain ⟨g, hg, hid⟩ := exists_gpu_of_amount_pos (hsame ▸ hpos)
    have hmem : g.memMiB = g'.memMiB := by
      rw [← hsame, ← hid, amount_gpu_of_mem hgpus hg]
    have hok := h g hg
    rw [hid, hdevice, hobserved] at hok
    simp only at hok
    rw [if_pos (hmem ▸ hshort)] at hok
    cases hok
  · rfl

theorem nodeMemoryErrors_congr (hselected : ∀ id, id ∈ selected ↔ id ∈ selected')
    (hid : v.nodeId = v'.nodeId) (hgpus : (v.gpu.map (·.id)).Nodup)
    (hgpus' : (v'.gpu.map (·.id)).Nodup) (hamount : ∀ r, v.amount r = v'.amount r)
    (h : nodeMemoryErrors input selected v = []) : nodeMemoryErrors input selected' v' = [] := by
  unfold nodeMemoryErrors at h ⊢
  rw [← hid]
  cases hnode : input.node v.nodeId with
  | none => rfl
  | some node =>
    rw [hnode] at h
    cases hmetrics : node.metrics with
    | none => simp [hmetrics]
    | some metrics =>
      simp only [hmetrics] at h ⊢
      cases hts : metrics.ts with
      | none => rfl
      | some =>
        simp only [hts] at h ⊢
        split_ifs at h ⊢
        · rfl
        · obtain ⟨hgpu, hram⟩ := List.append_eq_nil_iff.mp h
          have hsame : v.ramMiB = v'.ramMiB := hamount .ram
          simp only [ramMemoryErrors, reservedResources_congr hselected, hselected, hsame] at hram
          rw [gpuMemoryErrors_congr hgpus hgpus' hamount hgpu, List.nil_append]
          simpa only [ramMemoryErrors] using hram

theorem hostMemoryErrors_perm {entries entries' : List FleetEntry} (hperm : entries.Perm entries')
    (hselected : ∀ id, id ∈ selected ↔ id ∈ selected')
    (h : hostMemoryErrors input entries selected = []) :
    hostMemoryErrors input entries' selected' = [] := by
  rw [hostMemoryErrors, List.flatMap_eq_nil_iff] at h ⊢
  have hshares := hperm.flatMap_right (·.shares)
  have hmerged : ∀ es : List FleetEntry, (entryTotals es).Merged :=
    fun es ↦ ResourceLedger.merged_nil.addAllocations _
  have htotal : ∀ es nodeId r, sharedAmount (entryTotals es) nodeId r =
      sharedAmount (es.flatMap (·.shares)) nodeId r := by
    intro es nodeId r
    rw [entryTotals, amount_addAllocations]
    exact Nat.zero_add _
  intro v' hv'
  have hkey : v'.nodeId ∈ (entryTotals entries).map (·.nodeId) := by
    have hkey' := List.mem_map_of_mem (f := NodeAllocation.nodeId) hv'
    rw [entryTotals, mem_keys_addAllocations] at hkey' ⊢
    exact hkey'.imp_right fun hmem ↦ (hshares.map _).mem_iff.mpr hmem
  obtain ⟨v, hv, hid⟩ := List.mem_map.mp hkey
  refine nodeMemoryErrors_congr hselected hid ((hmerged _).gpus v hv) ((hmerged _).gpus v' hv') ?_
    (h v hv)
  intro r
  rw [(hmerged _).amount_of_mem hv, (hmerged _).amount_of_mem hv', htotal, htotal, hid]
  exact Keyed.total_perm _ _ hshares _

end Memory

/-! ## Preview and apply -/

theorem better_mem {states : List FleetState} {best : FleetState}
    (h : states.foldl better none = some best) : best ∈ states := by
  refine List.foldlRecOn states better
    (motive := fun current ↦ ∀ s, current = some s → s ∈ states) (by simp) ?_ best h
  intro current hcurrent s hs next hnext
  unfold better at hnext
  split_ifs at hnext
  · exact Option.some.inj hnext ▸ hs
  · exact hcurrent next hnext

variable {input : FleetInput} {items : List FleetItem} {selected : List (FleetItem × Deployment)}

section

variable (h : selectedDeployments input items = .ok selected)

include h

theorem selectedDeployments_ok :
    List.Forall₂ (fun item p ↦ p.1 = item ∧ p.2.id = item.deploymentId ∧
      p.2 ∈ input.deployments) items selected := by
  refine (mapM_ok h).imp fun item p hp ↦ ?_
  split at hp
  · rename_i dep hdep
    cases hp
    exact ⟨rfl, by simpa using List.find?_some hdep, List.mem_of_find?_eq_some hdep⟩
  · cases hp

theorem selectedDeployments_ids :
    selected.map (·.2.id) = items.map (·.deploymentId) := by
  have hall := selectedDeployments_ok h
  clear h
  induction hall with
  | nil => rfl
  | cons hp _ ih => rw [List.map_cons, List.map_cons, ih, hp.2.1]

theorem selectedDeployments_mem
    {p : FleetItem × Deployment} (hp : p ∈ selected) :
    p.1 ∈ items ∧ p.2.id = p.1.deploymentId ∧ p.2 ∈ input.deployments := by
  have hall := selectedDeployments_ok h
  clear h
  induction hall with
  | nil => cases hp
  | cons hq _ ih =>
    rcases List.mem_cons.mp hp with rfl | hp
    · obtain ⟨rfl, hid, hdep⟩ := hq
      exact ⟨List.mem_cons_self, hid, hdep⟩
    · exact ⟨List.mem_cons_of_mem _ (ih hp).1, (ih hp).2⟩

end

theorem filterMap_find?_perm {entries : List FleetEntry} {ids : List DeploymentId}
    (hperm : (entries.map (·.deploymentId)).Perm ids) (hnodup : ids.Nodup) :
    (ids.filterMap fun id ↦ entries.find? (·.deploymentId = id)).Perm entries := by
  have hids : (entries.map (·.deploymentId)).Nodup := hperm.nodup_iff.mpr hnodup
  refine (hperm.symm.filterMap _).trans ?_
  rw [List.filterMap_map]
  have hself : entries.filterMap ((fun id ↦ entries.find? (·.deploymentId = id)) ∘
      fun e ↦ e.deploymentId) = entries.filterMap some :=
    List.filterMap_congr fun e he ↦ Keyed.find?_of_mem _ hids he rfl
  rw [hself, List.filterMap_some]

/-- What an applicable preview has done: all its entries were placed, one beside the other, and the
hosts' measured memory takes them. -/
theorem previewFleet_placed {rt : Runtime} {quals : List Qwen35NativeQualification}
    {request : FleetRequest} {preview : FleetPreview}
    (h : previewFleet rt quals request input = .ok preview) (happly : preview.canApply = true) :
    ∃ es L P, Placed (request.context rt quals input) es L P ∧ (∀ e ∈ es, e.plan.isSome = true) ∧
      preview.entries.Perm es ∧
      (es.map (·.deploymentId)).Perm (request.items.map (·.deploymentId)) ∧
      (∀ e ∈ es, ∃ item ∈ request.items, e.deploymentId = item.deploymentId ∧
        ∀ cores ∈ item.cpuCores, ∀ a ∈ e.shares, a.cpuCores = cores) ∧
      hostMemoryErrors input preview.entries (request.items.map (·.deploymentId)) = [] := by
  obtain ⟨items, hitems, h⟩ := bind_ok h
  obtain ⟨_, -, h⟩ := bind_ok h
  simp only at h
  split at h
  · cases h
  rename_i best hbest
  cases h
  obtain ⟨sharing, -, hstate⟩ := List.mem_map.mp (better_mem hbest)
  obtain ⟨hplaced, hids, hfollows⟩ := placeAll_placed (request.context rt quals input) sharing
    (sortBy (fleetOrder (request.context rt quals input)) items)
  rw [hstate] at hplaced hids hfollows
  simp only [Bool.and_eq_true, decide_eq_true_eq] at happly
  obtain ⟨hcount, hmemory⟩ := happly
  have hperm : (best.entries.map (·.deploymentId)).Perm (request.items.map (·.deploymentId)) := by
    rw [hids, ← selectedDeployments_ids hitems]
    exact (sortBy_perm _ _).map _
  refine ⟨best.entries, best.ledger, best.ports, hplaced, ?_, ?_, hperm, ?_, hmemory⟩
  · have hlen := hperm.length_eq
    rw [List.length_map, List.length_map] at hlen
    rw [FleetState.count, ← hlen] at hcount
    exact List.filter_eq_self.mp (List.filter_sublist.eq_of_length hcount)
  · have hread := filterMap_find?_perm hperm request.distinctItems
    rwa [List.filterMap_map] at hread
  · intro e he
    obtain ⟨p, hp, hfollow⟩ := hfollows e he
    obtain ⟨hitem, hid, -⟩ := selectedDeployments_mem hitems ((sortBy_perm _ _).mem_iff.mp hp)
    exact ⟨p.1, hitem, hfollow.deploymentId.trans hid, hfollow.cpuCores⟩

/-- **Preview and apply agree** where no entry is booked on a later listing of a GPU id: the entries
of an applicable preview are accepted in every order. -/
theorem validateFleetPlans_of_preview {rt : Runtime} {quals : List Qwen35NativeQualification}
    {request : FleetRequest} {input : FleetInput} {preview : FleetPreview}
    {entries : List FleetEntry} (h : previewFleet rt quals request input = .ok preview)
    (happly : preview.canApply = true)
    (hfirst : (request.context rt quals input).FirstListed preview.entries)
    (hperm : entries.Perm preview.entries) :
    validateFleetPlans rt quals input entries = .ok () := by
  obtain ⟨es, L, P, hplaced, hplans, hes, hids, -, hmemory⟩ := previewFleet_placed h happly
  have hentries := hperm.trans hes
  have hselected : ∀ id, id ∈ request.items.map (·.deploymentId) ↔
      id ∈ entries.map (·.deploymentId) :=
    fun id ↦ ((hentries.map _).trans hids).mem_iff.symm
  have hadmitted : ∀ e ∈ entries, ∃ L P, L.Merged ∧
      Admitted (request.context rt quals input) L P e :=
    fun e he ↦ hplaced.exists_admitted (hentries.mem_iff.mp he) (hplans e (hentries.mem_iff.mp he))
  have hbaseline : (request.context rt quals input).baseline =
      reservedResources input.deployments input.assignments input.nodes
        (entries.map (·.deploymentId)) :=
    reservedResources_congr hselected _ _ _
  have htotal : ∀ n ∈ input.nodes, ∀ r, 0 < sharedAmount (entries.flatMap (·.shares)) n.id r →
      sharedAmount (request.context rt quals input).baseline n.id r +
        sharedAmount (entries.flatMap (·.shares)) n.id r ≤ n.capacity r := by
    intro n hn r hr
    have hsum : ∀ {es'}, entries.Perm es' → sharedAmount (entries.flatMap (·.shares)) n.id r =
        sharedAmount (es'.flatMap (·.shares)) n.id r := fun hes' ↦
      Keyed.total_perm _ _ (hes'.flatMap_right FleetEntry.shares) n.id
    have hcase : n.FirstLargest r ∨
        (request.context rt quals input).booked preview.entries n.id r ≤ n.capacity r := by
      cases r with
      | ram | cpu => exact .inl trivial
      | gpu id => exact hfirst n hn id (hsum hperm ▸ hr)
    rcases hcase with hlargest | hbooked
    · rw [hsum hentries] at hr ⊢
      rw [← hplaced.ledger]
      -- along the preview's own order, each share was taken beside those before it
      refine hplaced.booked (Q := (· ≤ n.capacity r)) (fun hmerged hadmitted ha haid hpos ↦ ?_) hr
      obtain ⟨hvalid, m, hm, hfit⟩ := hadmitted.fits _ ha
      obtain rfl : m = n :=
        List.inj_on_of_nodup_map input.distinctNodes hm.mem hn (hm.id.trans haid)
      exact room_of_fitProblem hmerged hvalid hfit hlargest hpos
    · rwa [FleetContext.booked, ← hsum hperm] at hbooked
  have hmerged : (request.context rt quals input).baseline.Merged :=
    reservedResources_merged _ _ _ _
  have hvalid := validateEntries_ok hadmitted hmerged htotal
  rw [hbaseline] at hvalid
  refine bind_of_ok hvalid ?_
  exact if_pos (hostMemoryErrors_perm hperm.symm hselected hmemory)

/-! ## A GPU that is listed twice

Two replicas on one node, whose owner lends the parameter `gpu`. The larger one is planned first. -/

def bigProfile : ModelProfile where
  id := "big"
  modelName := "big"
  ggufPattern := "big"
  layers := 9
  layerMiB := 100
  coordinatorHostMiB := 100
  boundaryBytes := 0
  envelope := []
  extraArgs := []
  workerMarginMiB := 50
  layers_pos := by decide
  layerMiB_pos := by decide
  envelope_lt := by simp

def smallProfile : ModelProfile where
  id := "small"
  modelName := "small"
  ggufPattern := "small"
  layers := 5
  layerMiB := 50
  coordinatorHostMiB := 100
  boundaryBytes := 0
  envelope := []
  extraArgs := []
  workerMarginMiB := 50
  layers_pos := by decide
  layerMiB_pos := by decide
  envelope_lt := by simp

def lenderNode (gpu : List GpuOffer) : NodeRow where
  id := "n"
  certFp := ""
  hostname := "n"
  os := .linux
  online := true
  caps := some {
    allocationVersion := true
    os := .linux
    gpus := [⟨"cuda:0", "card", .cuda, "CUDA0", 2000⟩] }
  offer := some ⟨true, ⟨true, true, true⟩, gpu, 10000, 8⟩
  models := [⟨"big", "/big", 0, none, .gguf⟩, ⟨"small", "/small", 0, none, .gguf⟩]

def stoppedReplica (id : DeploymentId) : Deployment where
  id
  spec := { name := id, profile := id, kind := .replica }
  state := .stopped
  createdAt := 0
  updatedAt := 0

def lenderFleet (gpu : List GpuOffer) : FleetInput where
  nodes := [lenderNode gpu]
  deployments := [stoppedReplica "big", stoppedReplica "small"]
  assignments := []
  profiles := [bigProfile, smallProfile]
  now := 0
  distinctNodes := List.nodup_singleton _
  distinctDeployments := by decide

def bothRequest : FleetRequest where
  items := [⟨"big", .balanced, some 1⟩, ⟨"small", .balanced, some 1⟩]
  poolNodeIds := ["n"]
  distinctItems := by decide
  distinctPool := by decide

/-- The larger replica fills the first entry, which leaves the second one to the other; planned the
other way round, the first entry is what is left for the larger replica. -/
theorem validateFleetPlans_listed_twice :
    ∃ preview, previewFleet plainRuntime [] bothRequest
        (lenderFleet [⟨"cuda:0", 1000⟩, ⟨"cuda:0", 2000⟩]) = .ok preview ∧
      preview.canApply = true ∧
      validateFleetPlans plainRuntime [] (lenderFleet [⟨"cuda:0", 1000⟩, ⟨"cuda:0", 2000⟩])
        preview.entries.reverse =
          .error "n: cuda:0 needs 1000 MiB, but only 616 MiB remain." :=
  by decide +kernel

/-- On an offer whose first entry has the memory for both, the same preview is accepted the other
way round, whatever else the offer lists. -/
theorem validateFleetPlans_first_listed :
    ∃ preview, previewFleet plainRuntime [] bothRequest
        (lenderFleet [⟨"cuda:0", 1500⟩, ⟨"cuda:0", 2000⟩]) = .ok preview ∧
      preview.canApply = true ∧
      validateFleetPlans plainRuntime [] (lenderFleet [⟨"cuda:0", 1500⟩, ⟨"cuda:0", 2000⟩])
        preview.entries.reverse = .ok () := by
  have hpreview : ∃ preview, previewFleet plainRuntime [] bothRequest
      (lenderFleet [⟨"cuda:0", 1500⟩, ⟨"cuda:0", 2000⟩]) = .ok preview ∧
        preview.canApply = true ∧ preview.entries.flatMap (·.shares) =
          [⟨"n", 1216, 1, [⟨"cuda:0", 1088⟩]⟩, ⟨"n", 448, 1, [⟨"cuda:0", 384⟩]⟩] :=
    by decide +kernel
  obtain ⟨preview, h, happly, hshares⟩ := hpreview
  refine ⟨preview, h, happly,
    validateFleetPlans_of_preview h happly (fun n hn id hid ↦ ?_) (List.reverse_perm _)⟩
  obtain rfl : n = lenderNode [⟨"cuda:0", 1500⟩, ⟨"cuda:0", 2000⟩] := List.mem_singleton.mp hn
  rw [FleetContext.booked, hshares]
  by_cases hcuda : id = "cuda:0"
  · subst hcuda
    exact .inr (by decide +kernel)
  · have hne : "cuda:0" ≠ id := fun heq ↦ hcuda heq.symm
    exact .inl (by simp [NodeRow.FirstLargest, lenderNode, hne])

end Swarmlet
