import Swarmlet.Control.Routing
import Swarmlet.Control.StoredTopology

/-!
# The automatic choice of a model

`chooseAuto` goes down the ranks and asks the planner for a replica without naming a node. The
planner takes the first node by hostname that has the role and the model. If that node cannot hold
the model, no other one is tried, so a node further down that could serve it by name does not count.
The choice is the best model that can be served exactly where the first node stands for all of them
(`FirstServes`), for every profile that is not rivalled by another candidate of at least its rank.
-/

namespace Swarmlet

open Js EventMachine

/-! ## A replica on a named node -/

/-- The first node by host that is here and has the replica role and the model. -/
def firstReplica (rt : Runtime) (profile : ModelProfile) (nodes : List NodeRow) : Option NodeRow :=
  ((sortBy byHost nodes).filter fun n ↦ n.online && n.offers).find? fun n ↦
    n.offer.any (·.roles.replica) && (findModel rt n profile.ggufPattern).isSome

variable {rt : Runtime} {m : NodeRow}

theorem planDeployment_named (input : PlanInput) (hkind : input.spec.kind = .replica)
    (hnone : input.spec.replicaNodeId = none) (hnodup : (input.nodes.map (·.id)).Nodup)
    (hfirst : firstReplica rt input.profile input.nodes = some m) :
    planDeployment rt { input with spec := { input.spec with replicaNodeId := some m.id } } =
      planDeployment rt input := by
  have hmem := List.mem_of_find?_eq_some hfirst
  have hserves := List.find?_some hfirst
  simp only [List.mem_filter, mem_sortBy, Bool.and_eq_true] at hmem hserves
  obtain ⟨hmem, honline, hoffers⟩ := hmem
  obtain ⟨hrole, hmodel⟩ := hserves
  have hfound : input.nodes.find? (·.id = m.id) = some m := Keyed.find?_of_mem _ hnodup hmem rfl
  have hnode (ctx parallel chain : ℤ) : replicaNode { planContext rt input ctx parallel chain with
      spec := { input.spec with replicaNodeId := some m.id } } =
        replicaNode (planContext rt input ctx parallel chain) := by
    have hnamed : nodeProblems (planContext rt input ctx parallel chain) m .replica true = [] := by
      cases hoffer : m.offer with
      | none => simp [hoffer] at hrole
      | some offer =>
        simp only [NodeRow.offers, hoffer, Option.any_some] at hoffers hrole
        simp [nodeProblems, honline, hoffer, hoffers, Roles.has, hrole, planContext,
          Option.isSome_iff_ne_none.mp hmodel]
    have hfree : replicaNode (planContext rt input ctx parallel chain) = .ok m := by
      unfold replicaNode
      simp only [planContext, hnone]
      rw [show List.find? _ _ = some m from hfirst]
    rw [hfree]
    simp only [replicaNode, requireNode, planContext, hfound]
    exact if_pos hnamed
  have hplan (ctx parallel chain : ℤ) : planReplica { planContext rt input ctx parallel chain with
      spec := { input.spec with replicaNodeId := some m.id } } =
        planReplica (planContext rt input ctx parallel chain) := by
    unfold planReplica
    rw [hnode]
    rfl
  have hnative : input.spec.kind.isNative = false := by rw [hkind]; rfl
  have hreplica : (input.spec.kind = .replica) = True := eq_true hkind
  have hcommon : CommonAlike { input.spec with replicaNodeId := some m.id } input.spec :=
    ⟨rfl, rfl, rfl, rfl, rfl⟩
  unfold planDeployment
  simp only [planContext_withSpec rt input hcommon, requestErrors, hnative, hreplica,
    Bool.false_eq_true, if_false, if_true, hplan]

/-- The nodes a plan is made on: what is left of every offer, cut to the budgets of the spec. -/
def ResourceInput.seen (input : ResourceInput) : List NodeRow :=
  boundedNodes (availableNodes input.nodes input.reserved) input.spec.allocations

theorem eq_of_parsed {allocations explicit : Option (List NodeAllocation)}
    (h : (allocations.mapM parseAllocations).mapError PlanFailure.error = .ok explicit) :
    explicit = allocations := by
  have hparse := Checked.mapError_ok h
  cases allocations with
  | none =>
    cases hparse
    rfl
  | some value =>
    obtain ⟨parsed, hvalue, rfl⟩ := Checked.map_ok hparse
    rw [(parseAllocations_ok hvalue).1]

section

variable {input : ResourceInput} {plan : Plan} (hkind : input.spec.kind = .replica)
  (hnone : input.spec.replicaNodeId = none)

include hkind hnone

theorem planWithResources_named (hnodup : (input.nodes.map (·.id)).Nodup)
    (hfirst : firstReplica rt input.profile input.seen = some m) :
    planWithResources rt { input with
      spec := { input.spec with replicaNodeId := some m.id } } = .ok plan ↔
        planWithResources rt input = .ok plan := by
  have hsame := planDeployment_named ⟨input.spec, input.profile, input.seen, input.usedPorts,
    input.nativeQualifications⟩ hkind hnone
    (by simpa [ResourceInput.seen, map_id_boundedNodes] using hnodup) hfirst
  simp only [ResourceInput.seen] at hsame
  unfold planWithResources
  dsimp only
  constructor <;> intro h <;> obtain ⟨explicit, hexplicit, h⟩ := Checked.bind_ok h <;>
    obtain rfl := eq_of_parsed hexplicit <;> rw [hexplicit]
  · rw [hsame] at h
    exact h
  · rw [← hsame] at h
    exact h

theorem firstReplica_of_planned (h : planWithResources rt input = .ok plan) :
    ∃ m, firstReplica rt input.profile input.seen = some m := by
  obtain ⟨explicit, hexplicit, h⟩ := Checked.bind_ok h
  obtain ⟨_, -, h⟩ := Checked.bind_ok h
  obtain ⟨placed, hplan, -⟩ := Checked.bind_ok h
  obtain rfl := eq_of_parsed hexplicit
  obtain ⟨_, -, hplan⟩ := Checked.bind_ok hplan
  rw [if_neg (by simp [hkind, DeploymentKind.isNative]), if_pos hkind] at hplan
  obtain ⟨node, hnode, -⟩ := Checked.bind_ok hplan
  have hfound := Checked.mapError_ok hnode
  simp only [replicaNode, planContext, hnone] at hfound
  split at hfound
  · rename_i n hfind
    exact ⟨n, hfind⟩
  · cases hfound

end

/-! ## The choice -/

namespace Control

variable (k : Deps) (s : Control) (base : DeploymentSpec) (replacing : Option DeploymentId)
  (exclude : List NodeId)

def planInput (spec : DeploymentSpec) (profile : ModelProfile) : ResourceInput :=
  let input := s.fleetInput k
  let remembered := (replacing.map fun d ↦ (s.slots d).freshExclusions s.now).getD []
  ⟨spec, profile, input.nodes.filter fun n ↦ n.id ∉ exclude ++ remembered,
    reservedResources input.deployments input.assignments input.nodes replacing.toList,
    s.usedPorts, k.nativeQualifications⟩

def autoReplica (p : ModelProfile) : DeploymentSpec :=
  { base with profile := p.id, kind := .replica, autoModel := some true,
              replicaNodeId := none, workerNodeIds := none, workerLayers := none }

def admits (p : ModelProfile) (spec : DeploymentSpec) : Bool :=
  match s.plan k spec replacing exclude with
  | .ok plan => s.fitsNow plan p spec.kind
  | .error _ => false

def servableOn (p : ModelProfile) (n : NodeId) : Bool :=
  s.admits k replacing exclude p { autoReplica base p with replicaNodeId := some n }

def firstNode (p : ModelProfile) : Option NodeRow :=
  firstReplica k.rt p (s.planInput k replacing exclude (autoReplica base p) p).seen

/-- The first node by host could serve the profile by name. -/
def FirstServes (p : ModelProfile) : Prop :=
  ∃ m ∈ s.firstNode k base replacing exclude p, s.servableOn k base replacing exclude p m.id = true

/-- Another candidate of at least this rank is admitted: a better profile, or the same one as a
split. -/
def Rivalled (p : ModelProfile) (rank : ℕ) : Prop :=
  ∃ c ∈ autoCandidates k base, c ≠ (p, autoReplica base p) ∧ rank ≤ c.1.rank.getD 0 ∧
    s.admits k replacing exclude c.1 c.2 = true

variable {k s base replacing exclude} {p : ModelProfile}

theorem plan_ok_iff {spec : DeploymentSpec} {plan : Plan}
    (hprofile : k.profiles.find? (·.id = spec.profile) = some p) :
    s.plan k spec replacing exclude = .ok plan ↔
      planWithResources k.rt (s.planInput k replacing exclude spec p) = .ok plan := by
  rw [Control.plan, hprofile]
  dsimp only [planInput]
  generalize planWithResources _ _ = result
  cases result with
  | error => exact iff_of_false nofun nofun
  | ok => simp [Except.mapError]

/-- A replica is **admitted without a name** exactly where the first node could serve it by name. -/
theorem admits_autoReplica (hprofile : k.profiles.find? (·.id = p.id) = some p) :
    s.admits k replacing exclude p (autoReplica base p) = true ↔
      s.FirstServes k base replacing exclude p := by
  have hnodup : ((s.planInput k replacing exclude (autoReplica base p) p).nodes.map
      (·.id)).Nodup := (List.filter_sublist.map _).nodup (s.fleetInput k).distinctNodes
  have hplan {m : NodeRow} (hfirst : s.firstNode k base replacing exclude p = some m)
      (plan : Plan) : s.plan k { autoReplica base p with replicaNodeId := some m.id } replacing
      exclude = .ok plan ↔
        s.plan k (autoReplica base p) replacing exclude = .ok plan := by
    rw [plan_ok_iff hprofile, plan_ok_iff hprofile]
    exact planWithResources_named rfl rfl hnodup hfirst
  constructor
  · intro h
    unfold admits at h
    split at h
    · rename_i plan hauto
      obtain ⟨m, hfirst⟩ := firstReplica_of_planned rfl rfl ((plan_ok_iff hprofile).mp hauto)
      refine ⟨m, hfirst, ?_⟩
      rw [servableOn, admits, (hplan hfirst plan).mpr hauto]
      exact h
    · cases h
  · rintro ⟨m, hfirst, h⟩
    unfold servableOn admits at h
    split at h
    · rename_i plan hnamed
      rw [admits, (hplan hfirst plan).mp hnamed]
      exact h
    · cases h

theorem exists_find?_of_pairwise {α : Type*} {R : α → α → Prop} {l : List α} (hl : l.Pairwise R)
    {q : α → Bool} {a : α} (ha : a ∈ l) (hq : q a = true) :
    ∃ b, l.find? q = some b ∧ (b = a ∨ R b a) := by
  induction hl with
  | nil => cases ha
  | @cons b l hb _ ih =>
    by_cases hqb : q b = true
    · exact ⟨b, by simp [hqb], (List.mem_cons.mp ha).imp Eq.symm (hb a)⟩
    · rcases List.mem_cons.mp ha with rfl | ha
      · exact absurd hq hqb
      · obtain ⟨c, hc, hca⟩ := ih ha
        exact ⟨c, by simpa [hqb] using hc, hca⟩

theorem pairwise_autoCandidates : (autoCandidates k base).Pairwise fun a b ↦
    b.1.rank.getD 0 ≤ a.1.rank.getD 0 := by
  have hsorted := pairwise_sortBy (l := k.profiles.filter (·.rank.isSome))
    (c := fun a b ↦ compare (b.rank.getD 0) (a.rank.getD 0))
    (fun a _ b _ ↦ by simpa [Nat.isLE_compare] using Nat.le_total _ _)
    fun x _ y _ z _ hxy hyz ↦ by
      rw [Nat.isLE_compare] at hxy hyz ⊢
      exact hyz.trans hxy
  refine List.pairwise_flatMap.mpr ⟨fun p _ ↦ by simp, hsorted.imp fun hab x hx y hy ↦ ?_⟩
  obtain ⟨_, -, rfl⟩ := List.mem_map.mp hx
  obtain ⟨_, -, rfl⟩ := List.mem_map.mp hy
  exact Nat.isLE_compare.mp hab

theorem mem_autoCandidates {c : ModelProfile × DeploymentSpec} (h : c ∈ autoCandidates k base) :
    c.1 ∈ k.profiles ∧ c.2.profile = c.1.id ∧ c.1.rank = some (c.1.rank.getD 0) := by
  obtain ⟨q, hq, hpair⟩ := List.mem_flatMap.mp h
  obtain ⟨kind, -, rfl⟩ := List.mem_map.mp hpair
  obtain ⟨hprofile, hranked⟩ := List.mem_filter.mp (mem_sortBy.mp hq)
  obtain ⟨rank, hrank⟩ := Option.isSome_iff_exists.mp hranked
  exact ⟨hprofile, rfl, by simp [hrank]⟩

/-- What `chooseAuto` returns is of at least the rank of every candidate that is admitted. -/
theorem chooseAuto_of_admits {c : ModelProfile × DeploymentSpec} (hc : c ∈ autoCandidates k base)
    (h : s.admits k replacing exclude c.1 c.2 = true) :
    ∃ choice, s.chooseAuto k base replacing exclude = some choice ∧
      ∃ q ∈ k.profiles, q.id = choice.profile ∧ ∃ rank ∈ q.rank, c.1.rank.getD 0 ≤ rank := by
  obtain ⟨⟨q, choice⟩, hfind, hbest⟩ := exists_find?_of_pairwise pairwise_autoCandidates hc
    (q := fun c ↦ s.admits k replacing exclude c.1 c.2) h
  obtain ⟨hq, hid, hrank⟩ := mem_autoCandidates (List.mem_of_find?_eq_some hfind)
  refine ⟨choice, congrArg (·.map (·.2)) hfind, q, hq, hid.symm, _, hrank, ?_⟩
  rcases hbest with rfl | hle
  · exact le_rfl
  · exact hle

/-- **When the choice is the best model that can be served.** Whenever some node could serve a
ranked profile by name, `chooseAuto` returns a profile of at least that rank: exactly if the first
node by host could serve every such profile that no other candidate rivals. -/
theorem chooseAuto_best_iff (hids : (k.profiles.map (·.id)).Nodup) :
    (∀ p ∈ k.profiles, ∀ rank ∈ p.rank, ∀ n, s.servableOn k base replacing exclude p n = true →
      ∃ choice, s.chooseAuto k base replacing exclude = some choice ∧
        ∃ q ∈ k.profiles, q.id = choice.profile ∧ ∃ rank' ∈ q.rank, rank ≤ rank') ↔
    ∀ p ∈ k.profiles, ∀ rank ∈ p.rank, ∀ n, s.servableOn k base replacing exclude p n = true →
      ¬s.Rivalled k base replacing exclude p rank → s.FirstServes k base replacing exclude p := by
  refine forall₂_congr fun p hp ↦ forall₂_congr fun rank hrank ↦ forall₂_congr fun n hservable ↦ ?_
  rw [← admits_autoReplica (Keyed.find?_of_mem _ hids hp rfl)]
  have hown : (p, autoReplica base p) ∈ autoCandidates k base :=
    List.mem_flatMap.mpr ⟨p, mem_sortBy.mpr (List.mem_filter.mpr
      ⟨hp, by rw [Option.mem_def.mp hrank]; rfl⟩), List.mem_map.mpr ⟨.replica, by simp, rfl⟩⟩
  constructor
  · rintro ⟨choice, hchoice, q, hq, hid, rank', hrank', hle⟩ hrival
    obtain ⟨c, hfind, rfl⟩ := Option.map_eq_some_iff.mp hchoice
    have hc := List.mem_of_find?_eq_some hfind
    obtain ⟨hprofile, hcid, hcrank⟩ := mem_autoCandidates hc
    obtain rfl : q = c.1 := List.inj_on_of_nodup_map hids hq hprofile (hid.trans hcid)
    have hadmits : s.admits k replacing exclude c.1 c.2 = true :=
      List.find?_some (p := fun c : ModelProfile × DeploymentSpec ↦
        s.admits k replacing exclude c.1 c.2) hfind
    -- what was chosen is no rival, so it is the replica itself
    by_contra hnot
    refine hrival ⟨c, hc, ?_, by rw [Option.mem_def.mp hrank']; exact hle, hadmits⟩
    rintro rfl
    exact hnot hadmits
  · intro h
    by_cases hrival : s.Rivalled k base replacing exclude p rank
    · obtain ⟨c, hc, -, hle, hadmits⟩ := hrival
      obtain ⟨choice, hchoice, q, hq, hid, rank', hrank', hbest⟩ := chooseAuto_of_admits hc hadmits
      exact ⟨choice, hchoice, q, hq, hid, rank', hrank', hle.trans hbest⟩
    · have hbest := chooseAuto_of_admits hown (h hrival)
      rwa [Option.mem_def.mp hrank] at hbest

def rankedProfile : ModelProfile := { smallProfile with rank := some 1 }

def rankedDeps : Deps := { smallDeps with profiles := [rankedProfile] }

def unequalPair : List Event :=
  [.enroll { id := "a", certFp := "", hostname := "a", os := .linux, online := false },
    .connect "a", .hello "a" { smallHello with
      offer := ⟨true, ⟨true, true, true⟩, [⟨"cuda:0", 100⟩], 10000, 8⟩ }] ++ joins "n"

/-- The second node by host could serve the model by name, but nothing is chosen. -/
theorem servable_model_missed : ∃ s, run (step rankedDeps) Control.init unequalPair = some s ∧
    s.servableOn rankedDeps replicaSpec none [] rankedProfile "n" = true ∧
      s.chooseAuto rankedDeps replicaSpec none [] = none := by
  obtain ⟨s, hs, hserves, hnone⟩ := exists_run (step rankedDeps) Control.init unequalPair
    (fun s ↦ s.servableOn rankedDeps replicaSpec none [] rankedProfile "n" = true ∧
      (s.chooseAuto rankedDeps replicaSpec none []).isNone = true) (by decide +kernel)
  exact ⟨s, hs, hserves, Option.isNone_iff_eq_none.mp hnone⟩

def tinyProfile : ModelProfile :=
  { smallProfile with id := "tiny", layerMiB := 1, rank := some 2, layerMiB_pos := by decide }

def rivalDeps : Deps := { smallDeps with profiles := [rankedProfile, tinyProfile] }

/-- Where the first node can hold a better model, that one is chosen, although the first node cannot
hold the other. -/
theorem chooseAuto_best_iff_rival : ∃ s, run (step rivalDeps) Control.init unequalPair = some s ∧
    s.servableOn rivalDeps replicaSpec none [] rankedProfile "n" = true ∧
      ∃ choice, s.chooseAuto rivalDeps replicaSpec none [] = some choice ∧ choice.profile =
      "tiny" := by
  obtain ⟨s, hs, hserves, hrival, m, hm, hfirst⟩ := exists_run (step rivalDeps) Control.init
    unequalPair (fun s ↦ s.servableOn rivalDeps replicaSpec none [] rankedProfile "n" = true ∧
      s.admits rivalDeps none [] tinyProfile (autoReplica replicaSpec tinyProfile) = true ∧
      ∃ m ∈ s.firstNode rivalDeps replicaSpec none [] tinyProfile,
        s.servableOn rivalDeps replicaSpec none [] tinyProfile m.id = true) (by decide +kernel)
  have hcond : ∀ p ∈ rivalDeps.profiles, ∀ rank ∈ p.rank, ∀ n,
      s.servableOn rivalDeps replicaSpec none [] p n = true →
      ¬s.Rivalled rivalDeps replicaSpec none [] p rank →
      s.FirstServes rivalDeps replicaSpec none [] p := by
    rintro p hp rank hrank n - hfree
    rcases List.mem_cons.mp hp with rfl | hp
    · cases hrank
      refine absurd ⟨(tinyProfile, autoReplica replicaSpec tinyProfile), ?_, ?_, ?_, hrival⟩ hfree
      · exact List.mem_flatMap.mpr ⟨tinyProfile, mem_sortBy.mpr (by decide),
          List.mem_map.mpr ⟨.replica, by simp, rfl⟩⟩
      · exact fun heq ↦ absurd (congrArg (·.1.id) heq) (by decide)
      · decide
    · obtain rfl := List.mem_singleton.mp hp
      exact ⟨m, hm, hfirst⟩
  obtain ⟨choice, hchoice, q, hq, hid, rank, hrank, hle⟩ := (chooseAuto_best_iff (by decide)).mpr
    hcond tinyProfile (by decide) 2 rfl m.id hfirst
  refine ⟨s, hs, hserves, choice, hchoice, ?_⟩
  rcases List.mem_cons.mp hq with rfl | hq
  · cases hrank
    omega
  · obtain rfl := List.mem_singleton.mp hq
    exact hid.symm

end Control

end Swarmlet
