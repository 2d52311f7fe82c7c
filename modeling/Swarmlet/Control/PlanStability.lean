import Swarmlet.Control.PlanFacts

/-!
# What a plan depends on

The planner looks at an offline node only to say why it cannot be used. So two fleets that agree on
every online node lead to the same placement, and the ports in use decide about nothing but the
ports of the workers. `planDeployment_stable` says this for the plans of replicas and splits: with
the online nodes kept and every port free, the plan is found again, its ports aside.
-/

namespace Swarmlet

open Js Checked

/-! ## Fleets that agree on the online nodes -/

structure SameNode (n m : NodeRow) : Prop where
  id : n.id = m.id
  hostname : n.hostname = m.hostname
  online : n.online = m.online
  eq : n.online = true → n = m

abbrev SameOnline : List NodeRow → List NodeRow → Prop := List.Forall₂ SameNode

variable {n : NodeRow} {l l' : List NodeRow} {plan : Plan} {workers : List PlanWorker}

theorem SameNode.symm {m : NodeRow} (h : SameNode n m) : SameNode m n :=
  ⟨h.id.symm, h.hostname.symm, h.online.symm, fun hm ↦ (h.eq (h.online.trans hm)).symm⟩

theorem SameOnline.symm (h : SameOnline l l') : SameOnline l' l := by
  induction h with
  | nil => exact .nil
  | cons hn _ ih => exact .cons hn.symm ih

theorem SameNode.trans {m k : NodeRow} (h : SameNode n m) (h' : SameNode m k) : SameNode n k :=
  ⟨h.id.trans h'.id, h.hostname.trans h'.hostname, h.online.trans h'.online,
    fun hn ↦ (h.eq hn).trans (h'.eq (h.online ▸ hn))⟩

theorem SameOnline.trans {l'' : List NodeRow} (h : SameOnline l l') (h' : SameOnline l' l'') :
    SameOnline l l'' := by
  induction h generalizing l'' with
  | nil => exact h'
  | cons hn _ ih =>
    cases h' with
    | cons hm hrest => exact .cons (hn.trans hm) (ih hrest)

theorem SameOnline.find? (h : SameOnline l l') {id : NodeId} (hfind : l.find? (·.id = id) = some n)
    (honline : n.online = true) :
    l'.find? (·.id = id) = some n := by
  induction h with
  | nil => cases hfind
  | @cons a b l l' hab _ ih =>
    rw [List.find?_cons] at hfind ⊢
    rw [← hab.id]
    by_cases ha : a.id = id
    · rw [decide_eq_true ha] at hfind ⊢
      cases hfind
      rw [hab.eq honline]
    · rw [decide_eq_false ha] at hfind ⊢
      exact ih hfind

theorem SameOnline.filter_eq (h : SameOnline l l') (p : NodeRow → Bool) :
    l.filter (fun n ↦ n.online && p n) = l'.filter fun n ↦ n.online && p n := by
  induction h with
  | nil => rfl
  | @cons a b l l' hab _ ih =>
    rw [List.filter_cons, List.filter_cons, ih, ← hab.online]
    cases ha : a.online with
    | false => rfl
    | true =>
      rw [hab.eq ha]

private theorem sameOnline_orderedInsert {a b : NodeRow} (hab : SameNode a b)
    (h : SameOnline l l') :
    SameOnline (l.orderedInsert (fun x y ↦ (byHost x y).isLE = true) a)
      (l'.orderedInsert (fun x y ↦ (byHost x y).isLE = true) b) := by
  induction h with
  | nil => exact .cons hab .nil
  | @cons c d l l' hcd hrest ih =>
    have hle : byHost a c = byHost b d := by
      rw [byHost, byHost, hab.id, hab.hostname, hcd.id, hcd.hostname]
    rw [List.orderedInsert_cons, List.orderedInsert_cons, hle]
    split_ifs
    · exact .cons hab (.cons hcd hrest)
    · exact .cons hcd ih

theorem SameOnline.sortBy_byHost (h : SameOnline l l') :
    SameOnline (sortBy byHost l) (sortBy byHost l') := by
  induction h with
  | nil => exact .nil
  | cons hab _ ih => exact sameOnline_orderedInsert hab ih

/-! ## The planner under such a change -/

def PlanContext.onFleet (c : PlanContext) (all : List NodeRow) : PlanContext :=
  { c with all, usedPorts := fun _ ↦ [] }

variable {c : PlanContext} {all : List NodeRow}

@[simp] theorem PlanContext.onFleet_spec : (c.onFleet all).spec = c.spec := rfl

section

variable (h : SameOnline c.all all)

include h

theorem requireNode_stable {id : NodeId} {role : Role} {need : Bool}
    (hn : requireNode c id role need = .ok n) :
    requireNode (c.onFleet all) id role need = .ok n := by
  unfold requireNode at hn ⊢
  cases hfind : c.all.find? (·.id = id) with
  | none => simp [hfind] at hn
  | some =>
    simp only [hfind] at hn
    split_ifs at hn with hproblems
    cases hn
    have hfind' := h.find? hfind (nodeProblems_eq_nil hproblems).1
    have hsame : nodeProblems (c.onFleet all) n role need = [] := hproblems
    simp only [PlanContext.onFleet, hfind']
    exact if_pos hsame

theorem replicaNode_stable (hn : replicaNode c = .ok n) :
    replicaNode (c.onFleet all) = .ok n := by
  unfold replicaNode at hn ⊢
  cases hid : c.spec.replicaNodeId with
  | none =>
    simp only [hid] at hn
    simp only [PlanContext.onFleet, hid]
    exact hn
  | some =>
    simp only [hid] at hn
    simp only [PlanContext.onFleet, hid]
    exact requireNode_stable h hn

theorem planReplica_stable (hplan : planReplica c = .ok plan) :
    planReplica (c.onFleet all) = .ok plan := by
  obtain ⟨node, hnode, hplan⟩ := bind_ok hplan
  unfold planReplica
  rw [replicaNode_stable h (mapError_ok hnode)]
  exact hplan

theorem splitCoordinator_stable (hn : splitCoordinator c = .ok n) :
    splitCoordinator (c.onFleet all) = .ok n := by
  unfold splitCoordinator at hn ⊢
  cases hid : c.spec.coordinatorNodeId with
  | none =>
    simp only [hid] at hn
    simp only [PlanContext.onFleet, hid]
    exact hn
  | some =>
    simp only [hid] at hn
    simp only [PlanContext.onFleet, hid]
    exact requireNode_stable h hn

theorem requestedSlots_stable {coord : Option NodeRow}
    {seen ids : List NodeId} (hok : (requestedSlots c coord seen ids).1 = []) :
    requestedSlots (c.onFleet all) coord seen ids = requestedSlots c coord seen ids := by
  induction ids generalizing seen with
  | nil => rfl
  | cons id rest ih =>
    rw [requestedSlots] at hok ⊢
    rw [requestedSlots]
    by_cases hseen : id ∈ seen
    · simp [hseen] at hok
    · rw [if_neg hseen] at hok ⊢
      rw [if_neg hseen]
      cases hcoord : coord.filter (·.id = id) with
      | some => simp [hcoord] at hok
      | none =>
        simp only [hcoord] at hok ⊢
        cases hnode : requireNode c id .worker false with
        | error => simp [hnode] at hok
        | ok n =>
          simp only [hnode] at hok
          simp only [requireNode_stable h hnode]
          cases hgpu : offeredGpu n with
          | none => simp [hgpu] at hok
          | some =>
            simp only [hgpu] at hok
            simp only [ih hok]

theorem splitSlots_stable {coord : Option NodeRow}
    (hok : (splitSlots c coord).1 = []) : splitSlots (c.onFleet all) coord =
    splitSlots c coord := by
  unfold splitSlots at hok ⊢
  cases hids : c.spec.workerNodeIds with
  | none =>
    simp only [PlanContext.onFleet_spec, hids]
    rfl
  | some =>
    simp only [hids] at hok
    simp only [PlanContext.onFleet_spec, hids]
    exact requestedSlots_stable h hok

end

def PlanWorker.shape (w : PlanWorker) : PlanWorker := { w with port := 0, peerPort := none }

def Plan.shape (plan : Plan) : Plan := { plan with workers := plan.workers.map (·.shape) }

theorem planWorkers_stable (all : List NodeRow) {forwarding : Bool} {slots : List (WorkerSlot × ℕ)}
    (h : slots.mapM (fun (slot, count) ↦ planWorker c forwarding slot count) = .ok workers) :
    ∃ workers', slots.mapM (fun (slot, count) ↦ planWorker (c.onFleet all) forwarding slot count) =
      .ok workers' ∧ workers'.map (·.shape) = workers.map (·.shape) := by
  induction slots generalizing workers with
  | nil =>
    cases h
    exact ⟨[], rfl, rfl⟩
  | cons s slots ih =>
    rw [List.mapM_cons] at h
    obtain ⟨w, hw, h⟩ := bind_ok h
    obtain ⟨ws, hws, h⟩ := bind_ok h
    cases h
    obtain ⟨port, -, hw⟩ := bind_ok hw
    cases hw
    obtain ⟨ws', hws', hshape⟩ := ih hws
    rw [List.mapM_cons]
    exact ⟨_, bind_of_ok rfl (bind_of_ok hws' rfl), congrArg (List.cons _) hshape⟩

theorem planSplit_stable (h : SameOnline c.all all) (hplan : planSplit c = .ok plan) :
    ∃ plan', planSplit (c.onFleet all) = .ok plan' ∧ plan'.shape = plan.shape := by
  obtain ⟨_, hrequire, hplan⟩ := bind_ok hplan
  obtain ⟨coord, hcoord, hplan⟩ := bind_ok hplan
  obtain ⟨layers, hlayers, hplan⟩ := bind_ok hplan
  obtain ⟨_, hresident, hplan⟩ := bind_ok hplan
  obtain ⟨workers, hworkers, hplan⟩ := bind_ok hplan
  cases hplan
  have hsame : splitCoordinator (c.onFleet all) = splitCoordinator c :=
    (splitCoordinator_stable h (mapError_ok hcoord)).trans (mapError_ok hcoord).symm
  have hproblems := require_ok.mp hrequire
  rw [List.append_eq_nil_iff, List.append_eq_nil_iff] at hproblems
  have hslots := splitSlots_stable h hproblems.1.2
  obtain ⟨workers', hworkers', hshape⟩ := planWorkers_stable all hworkers
  have hsame' : workers'.map (·.layers) = workers.map (·.layers) := by
    simpa [Function.comp_def, PlanWorker.shape] using congrArg (List.map (·.layers)) hshape
  refine ⟨splitPlan (c.onFleet all) coord (splitSlots c (splitCoordinator c).toOption).2 layers
    workers', ?_, by simp only [Plan.shape, splitPlan, hshape, hsame']; rfl⟩
  unfold planSplit
  simp only [hsame, hslots]
  exact bind_of_ok hrequire <| bind_of_ok hcoord <| bind_of_ok hlayers <|
    bind_of_ok hresident <| bind_of_ok hworkers' rfl

/-- **What a plan depends on**: on another fleet with the same online nodes, and with every port
free, the request leads to the same plan, the ports of its workers aside. -/
theorem planDeployment_stable {rt : Runtime} {input : PlanInput} {nodes : List NodeRow}
    (hnodes : SameOnline input.nodes nodes) (hkind : input.spec.kind.isNative = false)
    (h : planDeployment rt input = .ok plan) :
    ∃ plan', planDeployment rt { input with nodes, usedPorts := fun _ ↦ [] } = .ok plan' ∧
      plan'.shape = plan.shape := by
  obtain ⟨_, hrequest, h⟩ := bind_ok h
  have hcontext : ∀ ctx parallel chain, planContext rt { input with nodes, usedPorts := fun _ ↦ [] }
      ctx parallel chain = (planContext rt input ctx parallel chain).onFleet nodes := by
    intro ctx parallel chain
    simp only [planContext, PlanContext.onFleet, hnodes.sortBy_byHost.filter_eq]
  have hnative : ¬input.spec.kind.isNative = true := by simp [hkind]
  unfold planDeployment
  simp only [hcontext]
  rw [if_neg hnative] at h
  by_cases hreplica : input.spec.kind = .replica
  · rw [if_pos hreplica] at h
    refine ⟨plan, bind_of_ok hrequest ?_, rfl⟩
    rw [if_neg hnative, if_pos hreplica]
    exact planReplica_stable hnodes h
  · rw [if_neg hreplica] at h
    obtain ⟨plan', hplan', hshape⟩ := planSplit_stable hnodes h
    refine ⟨plan', bind_of_ok hrequest ?_, hshape⟩
    rw [if_neg hnative, if_neg hreplica]
    exact hplan'

end Swarmlet
