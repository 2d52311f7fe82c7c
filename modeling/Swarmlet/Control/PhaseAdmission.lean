import Swarmlet.Control.WorkerFloors
import Swarmlet.Control.StageExecution

/-!
# Automatic phase placement and admission

A prefill-decode request that names no nodes is placed twice. The chooser goes through the records
that are usable, keeps for each the nodes that could run its two phases (`runsPhases`), and picks
the fastest pair over all records. Admission then looks for a record again, this time for the picked
pair, and takes the first one in the list that the two nodes have engine and model for
(`holdsPhases`): the pinned digest counts now, and the memory of the nodes does not. So the record
that is admitted need not be the one the pair was picked for.

`phases_admitted_iff` says exactly when the second look agrees with the first.
-/

namespace Swarmlet

open Js Checked

/-! ## Admission of nodes that were found -/

variable {c : PlanContext} {q : Qwen35NativeQualification}

def NodeRow.LendsReplica (n : NodeRow) : Prop :=
  n.online = true ∧ ∃ o, n.offer = some o ∧ o.enabled = true ∧ o.roles.replica = true

theorem lendsReplica_of_fits {n : NodeRow} {entry : NativeQualifiedEndpoint}
    (h : nativeEndpointFits n q entry = true) : n.LendsReplica := by
  simp only [nativeEndpointFits, Bool.and_eq_true] at h
  obtain ⟨o, ho, hrole⟩ := (Option.any_eq_true ..).mp h.1.1.1.1.2
  simp only [Bool.and_eq_true] at hrole
  exact ⟨h.1.1.1.1.1, o, ho, hrole.1.1, hrole.1.2⟩

theorem PhaseNode.found (hc : c.Built) (hids : (c.all.map (·.id)).Nodup) {i : ℕ} {id : NodeId}
    (h : PhaseNode c q i id) :
    ∃ n ∈ c.all, n.id = id ∧ n.LendsReplica ∧ requireNode c id .replica false = .ok n := by
  obtain ⟨n, hn, hid, hphase⟩ := h
  obtain ⟨hmem, -, -⟩ := hc.eligible_serves n hn
  obtain ⟨entry, -, hfits⟩ := (Option.any_eq_true ..).mp hphase
  obtain ⟨honline, o, ho, henabled, hreplica⟩ := lendsReplica_of_fits hfits
  have hproblems : nodeProblems c n .replica false = [] := by
    simp [nodeProblems, honline, ho, henabled, Roles.has, hreplica]
  have hfind : c.all.find? (·.id = id) = some n := Keyed.find?_of_mem NodeRow.id hids hmem hid
  refine ⟨n, hmem, hid, lendsReplica_of_fits hfits, ?_⟩
  simp only [requireNode, hfind]
  exact if_pos hproblems

/-- **Admission**: of nodes that were found, a native plan is returned exactly when the first record
that covers them fits each of them and each has a free port. -/
theorem planNative_iff {quals : List Qwen35NativeQualification}
    (hprofile : c.profile.id = "qwen35-2b-q8" ∧ c.profile.layers = 24) {ids : List NodeId}
    (hids : nativeNodeIds c quals = .ok ids) {nodes : List NodeRow}
    (hnodes : (ids.map fun id ↦ requireNode c id
      (if c.spec.kind = .stages then Role.worker else .replica) false) = nodes.map .ok) :
    (∃ plan, planNative c quals = .ok plan) ↔
      ∃ q, nativeQualification c quals nodes = some q ∧
        (∀ n ∈ nodes, nativeEndpointErrors q n = []) ∧
        ∀ slot ∈ nativeSlots c q nodes, ∃ port, pickPort (c.usedPorts slot.2.1.id) = .ok port := by
  have hproblems : (nodes.map Except.ok : List (Except String NodeRow)).flatMap problem = [] := by
    simp [List.flatMap_eq_nil_iff]
  have hfound : (nodes.map Except.ok : List (Except String NodeRow)).filterMap (·.toOption) =
      nodes := by
    rw [List.filterMap_map]
    exact List.filterMap_some
  have hids' : (nativeNodeIds c quals).mapError (fun e ↦ PlanFailure.plan c.headline [e]) =
      .ok ids := by
    rw [hids]
    rfl
  constructor
  · rintro ⟨plan, h⟩
    obtain ⟨_, -, h⟩ := bind_ok h
    obtain ⟨_, hsame, h⟩ := bind_ok h
    cases hids'.symm.trans hsame
    simp only [hnodes, hfound] at h
    obtain ⟨_, -, h⟩ := bind_ok h
    split at h
    · cases h
    · rename_i q hq
      obtain ⟨endpoints, hendpoints, h⟩ := bind_ok h
      obtain ⟨_, herrors, -⟩ := bind_ok h
      rw [require_ok, List.flatMap_eq_nil_iff] at herrors
      refine ⟨q, hq, herrors, fun slot hslot ↦ ?_⟩
      obtain ⟨e, he⟩ := exists_mapM_iff.mp ⟨endpoints, hendpoints⟩ slot hslot
      obtain ⟨port, hport, -⟩ := bind_ok he
      exact ⟨port, hport⟩
  · rintro ⟨q, hq, herrors, hports⟩
    have hplaced : ∀ slot ∈ nativeSlots c q nodes,
        ∃ e, nativeEndpoint c q slot.1 slot.2.1 slot.2.2 = .ok e := by
      intro slot hslot
      obtain ⟨port, hport⟩ := hports slot hslot
      exact ⟨_, bind_of_ok hport rfl⟩
    obtain ⟨endpoints, hendpoints⟩ := exists_mapM_iff.mpr hplaced
    have hrequired : require (PlanFailure.plan c.headline)
        (nodes.flatMap (nativeEndpointErrors q)) = .ok () := by
      rw [require_ok, List.flatMap_eq_nil_iff]
      exact herrors
    refine exists_bind (by rw [if_pos hprofile]; rfl) (exists_bind hids' ?_)
    simp only [hnodes, hfound, hproblems, hq]
    exact exists_bind rfl
      (exists_bind hendpoints (exists_bind hrequired ⟨_, rfl⟩))

/-! ## The picked pair -/

theorem nativeEndpointErrors_eq_nil {n : NodeRow} {o : Offer} (ho : n.offer = some o) :
    nativeEndpointErrors q n = [] ↔ 2 ≤ o.cpuCores ∧ n.gpus.length = 1 ∧
      ∃ slot, offeredGpu n = some slot ∧ n.gpus.head?.any (·.id = slot.id) = true ∧
        gpuNeedMiB q ≤ slot.memMiB ∧
        if n.os = .darwin then gpuNeedMiB q + q.hostMiB ≤ o.ramMiB else q.hostMiB ≤ o.ramMiB := by
  have hnil : ∀ {p : Prop} [Decidable p] {e : String}, (if p then [e] else []) = [] ↔ ¬p := by
    intro p _ e
    split_ifs with hp <;> simp [hp]
  have hnil' : ∀ {p : Prop} [Decidable p] {e : String}, (if p then [] else [e]) = [] ↔ p := by
    intro p _ e
    split_ifs with hp <;> simp [hp]
  cases hgpu : offeredGpu n with
  | none =>
    simp only [nativeEndpointErrors, hgpu, List.append_eq_nil_iff, hnil']
    simp
  | some slot =>
    by_cases hdarwin : n.os = .darwin
    · simp only [nativeEndpointErrors, hgpu, ho, List.append_eq_nil_iff, hnil, hnil',
        if_pos hdarwin]
      simp
      tauto
    · simp only [nativeEndpointErrors, hgpu, ho, List.append_eq_nil_iff, hnil, hnil',
        if_neg hdarwin]
      simp
      tauto

theorem nativeEndpointFits_iff {n : NodeRow} {entry : NativeQualifiedEndpoint}
    (hlends : n.LendsReplica) :
    nativeEndpointFits n q entry = true ↔
      (runsEngine n q entry && (artifactOn n entry none).isSome) = true ∧
        nativeEndpointErrors q n = [] := by
  obtain ⟨honline, o, ho, henabled, hreplica⟩ := hlends
  rw [nativeEndpointErrors_eq_nil ho, nativeEndpointFits]
  cases offeredGpu n with
  | none => simp
  | some slot =>
    have hram : (if n.os = .darwin then decide (gpuNeedMiB q + q.hostMiB ≤ o.ramMiB)
        else decide (q.hostMiB ≤ o.ramMiB)) = true ↔
        if n.os = .darwin then gpuNeedMiB q + q.hostMiB ≤ o.ramMiB else q.hostMiB ≤ o.ramMiB := by
      split_ifs <;> exact decide_eq_true_iff
    simp only [Option.any_some, Bool.and_eq_true, decide_eq_true_eq, ho, honline, henabled,
      hreplica, hram, Option.some.injEq, exists_eq_left', true_and]
    constructor
    · rintro ⟨⟨⟨⟨hcpu, hengine⟩, hmodel⟩, hone⟩, ⟨hid, hneed⟩, hfits⟩
      exact ⟨⟨hengine, hmodel⟩, hcpu, hone, hid, hneed, hfits⟩
    · rintro ⟨⟨hengine, hmodel⟩, hcpu, hone, hid, hneed, hfits⟩
      exact ⟨⟨⟨⟨hcpu, hengine⟩, hmodel⟩, hone⟩, ⟨hid, hneed⟩, hfits⟩

section

variable (c : PlanContext) (prefill decode : NodeRow) (q : Qwen35NativeQualification)

def pinsSource : Bool := c.spec.modelSha256.all fun sha ↦ sha = "" || sha = q.sourceSha256

/-- A record for two phases at this context size, whose endpoints pass `test` on the two nodes. -/
def phasesPass
    (test : NodeRow → Qwen35NativeQualification → NativeQualifiedEndpoint → Bool) : Bool :=
  validNativeQualification q && q.mode = .prefillDecode && q.ctx = c.ctx &&
  match q.endpoints with
  | [first, second] => test prefill q first && test decode q second
  | _ => false

/-- The nodes **have the engine and the model** of the record. -/
def holdsPhases : Bool :=
  phasesPass c prefill decode q fun n q entry ↦
    runsEngine n q entry && (artifactOn n entry none).isSome

/-- The nodes **can run the phases** of the record: the chooser's own test. -/
def runsPhases : Bool := phasesPass c prefill decode q nativeEndpointFits

end

section

variable {prefill decode : NodeRow}

theorem phasesPass_eq_true
    {test : NodeRow → Qwen35NativeQualification → NativeQualifiedEndpoint → Bool} :
    phasesPass c prefill decode q test = true ↔ (validNativeQualification q = true ∧
      q.mode = .prefillDecode ∧ q.ctx = c.ctx) ∧ ∃ first second, q.endpoints = [first, second] ∧
        test prefill q first = true ∧ test decode q second = true := by
  rw [phasesPass]
  rcases hq : q.endpoints with _ | ⟨first, _ | ⟨second, _ | ⟨third, rest⟩⟩⟩ <;>
    simp [and_assoc]

theorem nativeQualification_pair (hkind : c.spec.kind = .prefillDecode)
    (hstages : c.spec.stages = none) (quals : List Qwen35NativeQualification)
    (prefill decode : NodeRow) : nativeQualification c quals [prefill, decode] =
      quals.find? fun q ↦ pinsSource c q && holdsPhases c prefill decode q := by
  have hmode : ∀ q : Qwen35NativeQualification,
      decide (q.mode.kind = c.spec.kind) = decide (q.mode = .prefillDecode) := by
    intro q
    rw [hkind]
    cases q.mode <;> decide
  simp only [nativeQualification, List.find?_filter]
  refine congrArg (quals.find? ·) (funext fun q ↦ ?_)
  rw [holdsPhases, phasesPass, hmode]
  rcases hq : q.endpoints with _ | ⟨first, _ | ⟨second, _ | ⟨third, rest⟩⟩⟩
  all_goals simp only [nativeSlots, hq, qualifies, hstages, pinsSource]
  all_goals
    cases c.spec.modelSha256.all fun sha ↦ decide (sha = "") || decide (sha = q.sourceSha256) <;>
      simp [Bool.and_assoc]

theorem runsPhases_iff (hp : prefill.LendsReplica) (hd : decode.LendsReplica) :
    runsPhases c prefill decode q = true ↔ holdsPhases c prefill decode q = true ∧
      nativeEndpointErrors q prefill = [] ∧ nativeEndpointErrors q decode = [] := by
  rw [runsPhases, holdsPhases, phasesPass_eq_true, phasesPass_eq_true]
  simp only [nativeEndpointFits_iff hp, nativeEndpointFits_iff hd]
  constructor
  · rintro ⟨hq, first, second, hpair, ⟨hfirst, hperrors⟩, hsecond, hderrors⟩
    exact ⟨⟨hq, first, second, hpair, hfirst, hsecond⟩, hperrors, hderrors⟩
  · rintro ⟨⟨hq, first, second, hpair, hfirst, hsecond⟩, hperrors, hderrors⟩
    exact ⟨hq, first, second, hpair, ⟨hfirst, hperrors⟩, hsecond, hderrors⟩

/-- **The two searches**: the first record that the nodes hold, of the pinned digest, runs on them
exactly when some record of that digest runs on them and none before it is held by them and too
large. -/
theorem exists_find?_runs {quals : List Qwen35NativeQualification}
    (hruns : ∀ q, runsPhases c prefill decode q = true → holdsPhases c prefill decode q = true) :
    (∃ q, quals.find? (fun q ↦ pinsSource c q && holdsPhases c prefill decode q) = some q ∧
        runsPhases c prefill decode q = true) ↔
      ∃ earlier q later, quals = earlier ++ q :: later ∧ pinsSource c q = true ∧
        runsPhases c prefill decode q = true ∧ ∀ r ∈ earlier, pinsSource c r = true →
          holdsPhases c prefill decode r = true → runsPhases c prefill decode r = true := by
  constructor
  · rintro ⟨q, hfind, hq⟩
    obtain ⟨hcovers, earlier, later, hsplit, hbefore⟩ := List.find?_eq_some_iff_append.mp hfind
    rw [Bool.and_eq_true] at hcovers
    refine ⟨earlier, q, later, hsplit, hcovers.1, hq, fun r hr hpins hholds ↦ ?_⟩
    have := hbefore r hr
    simp [hpins, hholds] at this
  · rintro ⟨earlier, q, later, rfl, hpins, hq, hbefore⟩
    rw [List.find?_append]
    cases hfind : earlier.find? fun q ↦ pinsSource c q && holdsPhases c prefill decode q with
    | none =>
      refine ⟨q, ?_, hq⟩
      rw [Option.none_or, List.find?_cons_of_pos (by simp [hpins, hruns q hq])]
    | some r =>
      have hr := List.find?_some hfind
      rw [Bool.and_eq_true] at hr
      exact ⟨r, rfl, hbefore r (List.mem_of_find?_eq_some hfind) hr.1 hr.2⟩

theorem nativeNodeIds_of_pick {quals : List Qwen35NativeQualification}
    (hkind : c.spec.kind = .prefillDecode) (hprefill : named c.spec.prefillNodeId = false)
    (hdecode : named c.spec.decodeNodeId = false) {p d : NodeId}
    (hpick : chooseNativePhaseNodes c quals = .ok (p, d)) :
    nativeNodeIds c quals = .ok [p, d] := by
  have hnamed : ¬(named c.spec.prefillNodeId = true ∨ named c.spec.decodeNodeId = true) := by
    simp [hprefill, hdecode]
  rw [nativeNodeIds, if_neg (by rw [hkind]; decide), if_neg hnamed, hpick]
  rfl

theorem forall_nativeSlots_pair (h : holdsPhases c prefill decode q = true) {P : NodeId → Prop} :
    (∀ slot ∈ nativeSlots c q [prefill, decode], P slot.2.1.id) ↔ P prefill.id ∧ P decode.id := by
  obtain ⟨-, first, second, hpair, -⟩ := phasesPass_eq_true.mp h
  have hslots := (nativeSlots_spec c q [prefill, decode] (by rw [hpair]; rfl)).1
  calc (∀ slot ∈ nativeSlots c q [prefill, decode], P slot.2.1.id)
      ↔ ∀ id ∈ (nativeSlots c q [prefill, decode]).map (·.2.1.id), P id := List.forall_mem_map.symm
    _ ↔ P prefill.id ∧ P decode.id := by rw [hslots]; simp

end

/-- **When the two looks agree.** Let the chooser pick a pair. A plan on exactly this pair is
returned if and only if some record of the pinned digest runs on the pair, no record of that digest
before it is one that the nodes hold but cannot run, and each of them has a free port. -/
theorem phases_admitted_iff {rt : Runtime} {input : PlanInput}
    (hids : (input.nodes.map (·.id)).Nodup)
    (hprofile : input.profile.id = "qwen35-2b-q8" ∧ input.profile.layers = 24)
    (hkind : input.spec.kind = .prefillDecode) (hstages : input.spec.stages = none)
    (hprefill : named input.spec.prefillNodeId = false)
    (hdecode : named input.spec.decodeNodeId = false) {p d : NodeId}
    (hpick : chooseNativePhaseNodes (input.context rt) input.nativeQualifications = .ok (p, d)) :
    ∃ prefill ∈ input.nodes, ∃ decode ∈ input.nodes, prefill.id = p ∧ decode.id = d ∧
      ((∃ plan native, planNative (input.context rt) input.nativeQualifications = .ok plan ∧
          plan.nativeExecution = some native ∧ native.endpoints.map (·.nodeId) = [p, d]) ↔
        (∃ earlier q later, input.nativeQualifications = earlier ++ q :: later ∧
          pinsSource (input.context rt) q = true ∧
          runsPhases (input.context rt) prefill decode q = true ∧
          ∀ r ∈ earlier, pinsSource (input.context rt) r = true →
            holdsPhases (input.context rt) prefill decode r = true →
            runsPhases (input.context rt) prefill decode r = true) ∧
          (∃ port, pickPort (input.usedPorts p) = .ok port) ∧
          ∃ port, pickPort (input.usedPorts d) = .ok port) := by
  have hbuilt : (input.context rt).Built := planContext_built rt input _ _ _
  obtain ⟨-, q₀, -, hp, hd⟩ := chooseNativePhaseNodes_spec hpick
  obtain ⟨prefill, hpmem, rfl, hplends, hpfound⟩ := hp.found hbuilt hids
  obtain ⟨decode, hdmem, rfl, hdlends, hdfound⟩ := hd.found hbuilt hids
  have hruns : ∀ q, runsPhases (input.context rt) prefill decode q = true ↔
      holdsPhases (input.context rt) prefill decode q = true ∧
        nativeEndpointErrors q prefill = [] ∧ nativeEndpointErrors q decode = [] :=
    fun q ↦ runsPhases_iff hplends hdlends
  refine ⟨prefill, hpmem, decode, hdmem, rfl, rfl, ?_⟩
  have hkind' : (input.context rt).spec.kind = .prefillDecode := hkind
  have hnative := nativeNodeIds_of_pick hkind' hprefill hdecode hpick
  have hnodes : ([prefill.id, decode.id].map fun id ↦ requireNode (input.context rt) id
      (if (input.context rt).spec.kind = .stages then Role.worker else .replica) false) =
      [prefill, decode].map .ok := by
    rw [hkind', if_neg (by decide)]
    simp only [List.map_cons, List.map_nil, hpfound, hdfound]
  have hiff := planNative_iff hprofile hnative hnodes
  rw [nativeQualification_pair hkind' hstages] at hiff
  rw [← exists_find?_runs fun q hq ↦ ((hruns q).mp hq).1]
  have hports (q) (hq : holdsPhases (input.context rt) prefill decode q = true) :=
    forall_nativeSlots_pair hq (P := fun id ↦ ∃ port, pickPort (input.usedPorts id) = .ok port)
  have hholds {q} (hq : input.nativeQualifications.find? (fun q ↦ pinsSource (input.context rt) q &&
      holdsPhases (input.context rt) prefill decode q) = some q) :
      holdsPhases (input.context rt) prefill decode q = true :=
    (Bool.and_eq_true_iff.mp (List.find?_some hq :)).2
  constructor
  · rintro ⟨plan, -, hplan, -, -⟩
    obtain ⟨q, hq, herrors, hslots⟩ := hiff.mp ⟨plan, hplan⟩
    exact ⟨⟨q, hq, (hruns q).mpr ⟨hholds hq, herrors prefill (by simp), herrors decode (by simp)⟩⟩,
      (hports q (hholds hq)).mp hslots⟩
  · rintro ⟨⟨q, hq, hfits⟩, hfree⟩
    obtain ⟨-, hperrors, hderrors⟩ := (hruns q).mp hfits
    obtain ⟨plan, hplan⟩ := hiff.mpr ⟨q, hq, by simp [hperrors, hderrors],
      (hports q (hholds hq)).mpr hfree⟩
    obtain ⟨_, _, _, hfound, -, -, -, hexec⟩ := planNative_found hplan
    refine ⟨plan, _, hplan, hexec, hfound.endpoints_spec.1.trans ?_⟩
    exact Except.ok.inj (hfound.ids.symm.trans hnative)

theorem phases_admitted_iff_two :
    chooseNativePhaseNodes ((phasesOn "x").context plainRuntime) [phases] = .ok ("x", "y") ∧
      ∃ plan native, planNative ((phasesOn "x").context plainRuntime) [phases] = .ok plan ∧
        plan.nativeExecution = some native ∧ native.endpoints.map (·.nodeId) = ["x", "y"] := by
  have hpick : chooseNativePhaseNodes ((phasesOn "x").context plainRuntime) [phases] =
      .ok ("x", "y") := by decide +kernel
  obtain ⟨prefill, hprefill, decode, hdecode, hp, hd, hiff⟩ := @phases_admitted_iff plainRuntime
    (phasesOn "x") (show ["x", "y"].Nodup by decide) ⟨rfl, rfl⟩ rfl rfl rfl rfl _ _ hpick
  have hmem : ∀ n ∈ (phasesOn "x").nodes,
      n = stageNode "x" 100 1000 1 ∨ n = stageNode "y" 100 1 1000 := by
    simp [phasesOn]
  obtain rfl : prefill = stageNode "x" 100 1000 1 :=
    (hmem prefill hprefill).resolve_right fun h ↦ by simp [h, stageNode] at hp
  obtain rfl : decode = stageNode "y" 100 1 1000 :=
    (hmem decode hdecode).resolve_left fun h ↦ by simp [h, stageNode] at hd
  exact ⟨hpick, hiff.mpr ⟨⟨[], phases, [], rfl, by decide +kernel, by decide +kernel,
    fun r hr ↦ by cases hr⟩, ⟨50200, rfl⟩, ⟨50200, rfl⟩⟩⟩

def widePhases : Qwen35NativeQualification := { phases with workspaceMiB := 1000 }

/-- **Picked and refused.** The chooser picks a pair for which admission finds no record, because
another digest is pinned, and one for which it takes an earlier record that needs more memory. -/
theorem picked_phases_refused :
    [{ phasesOn "x" with
        spec := { (phasesOn "x").spec with modelSha256 := some (sameDigits 'f') } },
      { phasesOn "x" with nativeQualifications := [widePhases, phases] }].map (fun input ↦
        (chooseNativePhaseNodes (input.context plainRuntime) input.nativeQualifications,
          (planDeployment plainRuntime input).isOk)) =
      [(.ok ("x", "y"), false), (.ok ("x", "y"), false)] := by
  decide +kernel

end Swarmlet
