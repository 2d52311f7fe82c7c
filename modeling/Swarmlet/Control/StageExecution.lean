import Swarmlet.Lib.JsNumber
import Swarmlet.Control.Delivery

/-!
# Native plans are executable

Three checks that were written apart look at a native plan: the planner, which builds it from a
qualified record; the stage executor, which refuses a plan whose identities, ranges or digests do
not belong together; and the agent, which refuses an assignment it cannot run. This module adds the
second, `validatePlan`, and proves that what the planner returns passes both others
(`native_plan_executable`).

The executor walks the contexts in order and keeps the block its last one ended at. The invariant is
the one `validNativeQualification` keeps on the artifacts of the record: both walks are at the same
block, because the planner writes the artifact's range into the identity as text and the executor
reads the number back.
-/

namespace Swarmlet

open Js Json

/-! ## The executor's check -/

abbrev ObjectValue := List (String × Json)

structure NativeStageEndpoint where
  nodeId : NodeId
  port : ℕ
  identity : ObjectValue
  binarySha256 : String

/-- What the router hands to the executor; an identity may be any object. -/
structure StageExecutionPlan where
  deploymentId : DeploymentId
  profile : String
  mode : NativeMode
  endpoints : List NativeStageEndpoint
  stateTransferQualification : Option StateTransferQualification

def NativeStageWorkerPlan.endpoint (e : NativeStageWorkerPlan) : NativeStageEndpoint :=
  ⟨e.nodeId, e.port, defined e.identity.members, e.binarySha256⟩

def NativeExecutionPlacement.execution (native : NativeExecutionPlacement)
    (deploymentId : DeploymentId) : StageExecutionPlan where
  deploymentId
  profile := "qwen35-2b-q8"
  mode := native.mode
  endpoints := native.endpoints.map (·.endpoint)
  stateTransferQualification := native.stateTransferQualification

def integer (low high : ℚ) : Option Json → Bool :=
  numThat fun x ↦ x.den = 1 ∧ |x| ≤ 9007199254740991 ∧ low ≤ x ∧ x ≤ high

def endpointKey (e : NativeStageEndpoint) : String := s!"{e.nodeId}:{e.port}"

def numberOf : Option Json → Option ℚ
  | some (.str s) => number s
  | _ => none

def stageEnd (identity : ObjectValue) (boundary : ℚ) : Option ℚ :=
  if isText "" (get identity "stage_start") || isText "" (get identity "stage_end") ||
      !isText "24" (get identity "stage_total") ||
      numberOf (get identity "stage_start") ≠ some boundary then none
  else (numberOf (get identity "stage_end")).filter fun stop ↦
    integer (boundary + 1) 24 (some (.num stop))

/-- The fixed fields of a qualified identity, and hashes where it pins something. -/
def qualifiedIdentity (i : ObjectValue) : Bool :=
  isNumber 1 (get i "schema") && FP_OK (get i "engine") && FP_OK (get i "model_sha256") &&
    FP_OK (get i "source_sha256") && integer 64 32768 (get i "ctx") &&
    isText "f32" (get i "cache_k") && isText "f32" (get i "cache_v") &&
    isNumber 1 (get i "ubatch") && isText "disabled" (get i "flash_attn")

def compatibleIdentity (i first : ObjectValue) : Bool :=
  strictEq (get i "engine") (get first "engine") &&
    strictEq (get i "source_sha256") (get first "source_sha256") &&
    strictEq (get i "ctx") (get first "ctx")

def fullModel (i first : ObjectValue) : Bool :=
  isText "" (get i "stage_start") && isText "" (get i "stage_end") &&
    isText "" (get i "stage_total") &&
    strictEq (get i "model_sha256") (get first "model_sha256") &&
    strictEq (get i "model_sha256") (get i "source_sha256")

/-- The loop over the endpoints: `first` is the identity of the first one, `boundary` where the last
stage ended and `seen` the keys so far. -/
def validateEndpoints (mode : NativeMode) (first : ObjectValue) (boundary : ℚ)
    (seen : List String) : List NativeStageEndpoint → Except String ℚ
  | [] => .ok boundary
  | e :: rest =>
    if e.nodeId = "" || !integer 1024 65535 (some (nat e.port)) || !isSha256 e.binarySha256 ||
        endpointKey e ∈ seen then
      .error "invalid or duplicate native endpoint"
    else if !qualifiedIdentity e.identity then .error "unqualified native identity"
    else if !compatibleIdentity e.identity first then
      .error "incompatible native source, ABI or context"
    else if mode = .stages then
      match stageEnd e.identity boundary with
      | none => .error "stage intervals must cover 24 transformer layers in order"
      | some stop => validateEndpoints mode first stop (endpointKey e :: seen) rest
    else if !fullModel e.identity first then .error "prefill-decode requires matching full models"
    else validateEndpoints mode first boundary (endpointKey e :: seen) rest

def StateTransferQualification.pinned (q : StateTransferQualification) : Bool :=
  isSha256 q.sourceBinarySha256 && isSha256 q.targetBinarySha256 && isSha256 q.evidenceSha256

def validatePlan (plan : StageExecutionPlan) : Except String Unit :=
  if plan.profile ≠ "qwen35-2b-q8" ∨ plan.deploymentId = "" then
    .error "only an identified Qwen35-2B deployment is supported"
  else if plan.endpoints.length ≠ 2 ∧ plan.endpoints.length ≠ 3 then
    .error "invalid native execution layout"
  else if plan.mode = .prefillDecode ∧ plan.endpoints.length ≠ 2 then
    .error "prefill-decode requires exactly two endpoints"
  else do
    let first := ((plan.endpoints.head?).map (·.identity)).getD []
    let boundary ← validateEndpoints plan.mode first 0 [] plan.endpoints
    if plan.mode = .stages ∧ boundary ≠ 24 then .error "incomplete stage coverage"
    else if plan.mode = .prefillDecode ∧
        plan.stateTransferQualification.any (·.pinned) = false then
      .error "prefill-decode binary-pair qualification required"
    else .ok ()

/-! ## Identities of one record -/

theorem endpointKey_inj {d e : NativeStageEndpoint} (h : endpointKey d = endpointKey e) :
    d.nodeId = e.nodeId := by
  have htext : d.nodeId ++ ":" ++ toString d.port = e.nodeId ++ ":" ++ toString e.port := h
  refine (numbered_inj (c := ':') (by decide) (m := d.port) (n := e.port) ?_).1
  simpa using congrArg String.toList htext

theorem integer_nat {low high n : ℕ} (hlow : low ≤ n) (hhigh : n ≤ high)
    (hsafe : n ≤ 9007199254740991) : integer low high (some (nat n)) = true := by
  simp only [integer, nat, numThat_num, Rat.den_natCast, Nat.abs_cast, decide_eq_true_eq, true_and]
  exact ⟨by exact_mod_cast hsafe, by exact_mod_cast hlow, by exact_mod_cast hhigh⟩

structure NativeStageWorkerPlan.Pins (q : Qwen35NativeQualification)
    (entry : NativeQualifiedEndpoint) (e : NativeStageWorkerPlan) : Prop where
  engine : e.identity.engine = q.engine
  source : e.identity.sourceSha256 = q.sourceSha256
  model : e.identity.modelSha256 = entry.artifact.sha256
  range : q.mode = .stages → e.identity.stageStart = toString entry.artifact.start ∧
    e.identity.stageEnd = toString entry.artifact.end ∧ e.identity.stageTotal = "24"
  whole : q.mode = .prefillDecode → e.identity.stageStart = "" ∧ e.identity.stageEnd = "" ∧
    e.identity.stageTotal = ""

theorem stageEnd_members {i : NativeStageIdentity} {a b : ℕ} (hstart : i.stageStart = toString a)
    (hend : i.stageEnd = toString b) (htotal : i.stageTotal = "24") (hab : a < b) (hb : b ≤ 24) :
    stageEnd (defined i.members) a = some (b : ℚ) := by
  have hne : ∀ n : ℕ, toString n ≠ "" := fun n h ↦ by
    have := congrArg String.toList h
    simp at this
  have hread : integer ((a : ℚ) + 1) 24 (some (.num b)) = true := by
    exact_mod_cast integer_nat hab hb (by omega)
  simp only [stageEnd, i.get_members]
  simp only [NativeStageIdentity.members, List.find?_cons, String.reduceEq, decide_true,
    decide_false, Option.bind_some, isText, strThat_str, numberOf, hstart, hend, htotal,
    number_toString (show a < 100 by omega), number_toString (show b < 100 by omega), hne]
  simp [hread]

theorem qualifiedIdentity_members {i : NativeStageIdentity} (hengine : isSha256 i.engine = true)
    (hmodel : isSha256 i.modelSha256 = true) (hsource : isSha256 i.sourceSha256 = true) :
    qualifiedIdentity (defined i.members) = true := by
  have hctx : integer 64 32768 (some (nat 1024)) = true := by
    exact_mod_cast integer_nat (show 64 ≤ 1024 by decide) (show 1024 ≤ 32768 by decide) (by decide)
  simp only [qualifiedIdentity, i.get_members]
  simp only [NativeStageIdentity.members, List.find?_cons, String.reduceEq, decide_true,
    decide_false, Option.bind_some, isText, FP_OK, strThat_str, isNumber_nat.mpr Nat.cast_one, hctx,
    hengine, hmodel, hsource, Bool.and_self]

theorem compatibleIdentity_members {i first : NativeStageIdentity}
    (hengine : i.engine = first.engine) (hsource : i.sourceSha256 = first.sourceSha256) :
    compatibleIdentity (defined i.members) (defined first.members) = true := by
  simp only [compatibleIdentity, i.get_members, first.get_members]
  simp [NativeStageIdentity.members, strictEq, nat, hengine, hsource]

/-! ## The walk -/

section

variable {q : Qwen35NativeQualification} {first : NativeStageWorkerPlan} {used : NodeId → List ℕ}

structure Walkable (q : Qwen35NativeQualification) (used : NodeId → List ℕ) (seen : List String)
    (entries : List NativeQualifiedEndpoint) (endpoints : List NativeStageWorkerPlan) : Prop where
  pins : List.Forall₂ (NativeStageWorkerPlan.Pins q) entries endpoints
  sound : ∀ e ∈ endpoints, e.Sound used
  named : ∀ e ∈ endpoints, e.nodeId ≠ ""
  nodup : (endpoints.map (·.nodeId)).Nodup
  fresh : ∀ e ∈ endpoints, endpointKey e.endpoint ∉ seen

section

variable {entries : List NativeQualifiedEndpoint} {seen : List String}
  {endpoints : List NativeStageWorkerPlan}

theorem Walkable.tail {entry : NativeQualifiedEndpoint} {e : NativeStageWorkerPlan}
    (h : Walkable q used seen (entry :: entries) (e :: endpoints)) :
    Walkable q used (endpointKey e.endpoint :: seen) entries endpoints := by
  obtain ⟨_, hpins⟩ := List.forall₂_cons.mp h.pins
  have hnodup := h.nodup
  rw [List.map_cons, List.nodup_cons] at hnodup
  refine ⟨hpins, fun d hd ↦ h.sound d (List.mem_cons_of_mem _ hd),
    fun d hd ↦ h.named d (List.mem_cons_of_mem _ hd), hnodup.2, fun d hd hmem ↦ ?_⟩
  rcases List.mem_cons.mp hmem with hkey | hmem
  · have hnode : d.nodeId = e.nodeId := endpointKey_inj hkey
    exact hnodup.1 (hnode ▸ List.mem_map_of_mem hd)
  · exact h.fresh d (List.mem_cons_of_mem _ hd) hmem

/-- **The executor's walk keeps pace with the record's**: while the stages are walked, `boundary` is
the block `validArtifacts` is at. -/
theorem validateEndpoints_ok {start : ℤ} {boundary : ℚ} (hengine : first.identity.engine = q.engine)
    (hsource : first.identity.sourceSha256 = q.sourceSha256)
    (hmodel : q.mode = .prefillDecode → first.identity.modelSha256 = q.sourceSha256)
    (hwalk : Walkable q used seen entries endpoints)
    (hvalid : validArtifacts q.mode q.sourceSha256 start entries = true)
    (hboundary : q.mode = .stages → boundary = start) :
    ∃ stop, validateEndpoints q.mode first.endpoint.identity boundary seen
      (endpoints.map (·.endpoint)) = .ok stop ∧ (q.mode = .stages → stop = 24) := by
  induction entries generalizing endpoints seen start boundary with
  | nil =>
    cases hwalk.pins
    refine ⟨boundary, rfl, fun hm ↦ ?_⟩
    simp only [validArtifacts, hm, ne_eq, not_true_eq_false, decide_false, Bool.false_or,
      decide_eq_true_eq] at hvalid
    rw [hboundary hm, hvalid]
    rfl
  | cons entry entries ih =>
    obtain ⟨e, endpoints, hpins, -, rfl⟩ := List.forall₂_cons_left_iff.mp hwalk.pins
    obtain ⟨hentry, hstart, hrest⟩ := validArtifacts_cons hvalid
    have hsound := hwalk.sound e List.mem_cons_self
    have hbase := hsound.port.base_le
    have hlt := hsound.port.lt
    simp only [WORKER_PORT_BASE] at hbase
    have hport : integer 1024 65535 (some (nat e.port)) = true := by
      exact_mod_cast integer_nat (show 1024 ≤ e.port by omega) (show e.port ≤ 65535 by omega)
        (by omega)
    have hplace : (decide (e.endpoint.nodeId = "") ||
        !integer 1024 65535 (some (nat e.endpoint.port)) || !isSha256 e.endpoint.binarySha256 ||
        decide (endpointKey e.endpoint ∈ seen)) = false := by
      simp only [hwalk.fresh e List.mem_cons_self]
      simp [NativeStageWorkerPlan.endpoint, hwalk.named e List.mem_cons_self, hport, hsound.binary]
    have hqualified : qualifiedIdentity e.endpoint.identity = true :=
      qualifiedIdentity_members hsound.engine hsound.model hsound.source
    have hcompatible : compatibleIdentity e.endpoint.identity first.endpoint.identity = true :=
      compatibleIdentity_members (hpins.engine.trans hengine.symm) (hpins.source.trans hsource.symm)
    rw [List.map_cons, validateEndpoints, if_neg (by simp [hplace]), if_neg (by simp [hqualified]),
      if_neg (by simp [hcompatible])]
    by_cases hm : q.mode = .stages
    · obtain ⟨hfrom, hto, htotal⟩ := hpins.range hm
      obtain ⟨a, ha⟩ := Int.eq_ofNat_of_zero_le hentry.start_nonneg
      obtain ⟨b, hb⟩ := Int.eq_ofNat_of_zero_le (hentry.start_nonneg.trans hentry.start_lt.le)
      have hab := hentry.start_lt
      have hle := hentry.end_le
      have hstop : stageEnd e.endpoint.identity boundary = some (b : ℚ) := by
        rw [hboundary hm, ← hstart hm, ha]
        exact stageEnd_members (by rw [hfrom, ha]; rfl) (by rw [hto, hb]; rfl) htotal (by omega)
          (by omega)
      rw [if_pos hm, hstop]
      exact ih hwalk.tail hrest fun _ ↦ by rw [hb]; rfl
    · have hphase : q.mode = .prefillDecode := by
        cases h : q.mode with
        | stages => exact absurd h hm
        | prefillDecode => rfl
      obtain ⟨hfrom, hto, htotal⟩ := hpins.whole hphase
      have hsame : e.identity.modelSha256 = q.sourceSha256 :=
        hpins.model.trans (hentry.whole hphase)
      have hfull : fullModel e.endpoint.identity first.endpoint.identity = true := by
        simp only [NativeStageWorkerPlan.endpoint, fullModel, e.identity.get_members,
          first.identity.get_members]
        simp [NativeStageIdentity.members, strictEq, isText, hfrom, hto, htotal, hsame,
          hmodel hphase, hpins.source]
      rw [if_neg hm, if_neg (by simp [hfull])]
      exact ih hwalk.tail hrest fun h ↦ absurd h hm

end

end

/-! ## Every native plan -/

variable {q : Qwen35NativeQualification} {c : PlanContext}
  {quals : List Qwen35NativeQualification} {nodes : List NodeRow}
  {endpoints : List NativeStageWorkerPlan}

theorem NativeFound.pins (h : NativeFound c quals q nodes endpoints) :
    List.Forall₂ (NativeStageWorkerPlan.Pins q) q.endpoints endpoints := by
  have hslots : (nativeSlots c q nodes).map (·.1) = q.endpoints := by
    calc (nativeSlots c q nodes).map (·.1)
        = ((q.endpoints.zip nodes).zipIdx.map Prod.fst).map Prod.fst := by
          simp only [nativeSlots, List.map_map]
          rfl
      _ = q.endpoints := by rw [List.zipIdx_map_fst, List.map_fst_zip (by rw [h.length])]
  rw [← hslots, List.forall₂_map_left_iff]
  refine h.placed.imp fun _ _ he ↦ ?_
  obtain ⟨port, -, he⟩ := Checked.bind_ok he
  cases he
  have hmode := h.mode
  refine ⟨rfl, rfl, rfl, fun hm ↦ ?_, fun hm ↦ ?_⟩
  · rw [hm] at hmode
    simp only [← hmode, NativeMode.kind, if_true, and_self]
  · rw [hm] at hmode
    simp [← hmode, NativeMode.kind]

theorem stateTransfer_pinned (h : q.Valid) (hm : q.mode = .prefillDecode) :
    (stateTransfer q).any (·.pinned) = true := by
  have hlength : q.endpoints.length = 2 := by
    rcases h.length with htwo | ⟨hstages, -⟩
    · exact htwo
    · rw [hm] at hstages
      cases hstages
  obtain ⟨source, target, hpair⟩ := List.length_eq_two.mp hlength
  have hsource := (h.endpoints source (by simp [hpair])).binary
  have htarget := (h.endpoints target (by simp [hpair])).binary
  simp [stateTransfer, hm, hpair, StateTransferQualification.pinned, hsource, htarget, h.evidence]

/-- **The executor accepts what the planner found**, on nodes that have a name. -/
theorem NativeFound.validatePlan_ok (h : NativeFound c quals q nodes endpoints)
    {ctx parallel chain : ℤ} (hreq : nativeRequestErrors c.spec ctx parallel chain = [])
    (hnamed : ∀ n ∈ c.all, n.id ≠ "") {deploymentId : DeploymentId} (hdep : deploymentId ≠ "") :
    validatePlan ((NativeExecutionPlacement.mk q.mode endpoints q.evidenceSha256
      (stateTransfer q)).execution deploymentId) = .ok () := by
  have hvalid := validNativeQualification_valid h.valid
  have hlength : endpoints.length = q.endpoints.length := h.pins.length_eq.symm
  obtain ⟨hids, hsound⟩ := h.endpoints_spec
  have hwalk : Walkable q c.usedPorts [] q.endpoints endpoints := by
    refine ⟨h.pins, hsound, fun e he hempty ↦ ?_, h.nodup hreq, fun _ _ hmem ↦ nomatch hmem⟩
    have hmem : e.nodeId ∈ nodes.map (·.id) := hids ▸ List.mem_map_of_mem he
    obtain ⟨n, hn, hid⟩ := List.mem_map.mp hmem
    exact hnamed n (h.serves n hn).mem (hid.trans hempty)
  have hlayout : endpoints.length = 2 ∨ q.mode = .stages ∧ endpoints.length = 3 :=
    hlength ▸ hvalid.length
  obtain ⟨entry, entries, first, rest, hentries, hendpoints⟩ :
      ∃ entry entries first rest, q.endpoints = entry :: entries ∧ endpoints = first :: rest := by
    rcases hentries : q.endpoints with _ | ⟨entry, entries⟩
    · rw [hentries, List.length_nil] at hlength
      omega
    · rcases hfirst : endpoints with _ | ⟨first, rest⟩
      · rw [hfirst, List.length_nil] at hlayout
        omega
      · exact ⟨entry, entries, first, rest, rfl, rfl⟩
  have hpins : first.Pins q entry := by
    have hall := h.pins
    rw [hentries, hendpoints] at hall
    exact (List.forall₂_cons.mp hall).1
  have hmodel : q.mode = .prefillDecode → first.identity.modelSha256 = q.sourceSha256 := fun hm ↦
    hpins.model.trans ((hvalid.endpoints entry (hentries ▸ List.mem_cons_self)).whole hm)
  have hzero : q.mode = .stages → (0 : ℚ) = ((0 : ℤ) : ℚ) := fun _ ↦ rfl
  obtain ⟨stop, hstop, hcovered⟩ := validateEndpoints_ok hpins.engine hpins.source hmodel hwalk
    hvalid.artifacts hzero
  have hfirst : (((endpoints.map (·.endpoint)).head?).map (·.identity)).getD [] =
      first.endpoint.identity := by rw [hendpoints]; rfl
  -- The refusals, in the order of the source; none of them applies.
  have hidentified : ¬("qwen35-2b-q8" ≠ "qwen35-2b-q8" ∨ deploymentId = "") := by simp [hdep]
  have hcount : ¬(endpoints.length ≠ 2 ∧ endpoints.length ≠ 3) := by omega
  have hpair : ¬(q.mode = .prefillDecode ∧ endpoints.length ≠ 2) := fun h ↦
    h.2 (hlayout.resolve_right fun hthree ↦ nomatch h.1.symm.trans hthree.1)
  have hcoverage : ¬(q.mode = .stages ∧ stop ≠ 24) := fun h ↦ h.2 (hcovered h.1)
  have hproof : ¬(q.mode = .prefillDecode ∧ (stateTransfer q).any (·.pinned) = false) := fun h ↦
    absurd (stateTransfer_pinned hvalid h.1) (by simp [h.2])
  simp only [validatePlan, NativeExecutionPlacement.execution, List.length_map, hidentified, hcount,
    hpair, hfirst, hstop, if_false]
  exact (if_neg hcoverage).trans (if_neg hproof)

/-- What is taken of a node: it has an id, its model files have paths without `NUL`, and its RAM
offer is a safe integer. -/
structure NodeRow.Presentable (n : NodeRow) : Prop where
  id : n.id ≠ ""
  paths : ∀ m ∈ n.models, m.path ≠ "" ∧ '\x00' ∉ m.path.toList
  ram : ∀ o ∈ n.offer, o.ramMiB ≤ MAX_SAFE_INTEGER

theorem NativeFound.presentable (h : NativeFound c quals q nodes endpoints)
    (hnodes : ∀ n ∈ c.all, n.Presentable) :
    ∀ e ∈ endpoints, e.modelPath ≠ "" ∧ '\x00' ∉ e.modelPath.toList ∧
      e.enforceRamMiB ≤ MAX_SAFE_INTEGER := by
  intro e he
  obtain ⟨i, hi, rfl⟩ := List.getElem_of_mem he
  have hslot : i < (nativeSlots c q nodes).length := h.placed.length_eq ▸ hi
  have hmem := ((nativeSlots_spec c q nodes h.length).2 _ (List.getElem_mem hslot)).2
  have hn := hnodes _ (h.serves _ hmem).mem
  have hqualified := h.qualified _ (List.getElem_mem hslot)
  have he : nativeEndpoint c q (nativeSlots c q nodes)[i].1 (nativeSlots c q nodes)[i].2.1
    (nativeSlots c q nodes)[i].2.2 = .ok endpoints[i] := h.placed.get hslot hi
  generalize (nativeSlots c q nodes)[i] = slot at hn hqualified he
  generalize endpoints[i] = e at he ⊢
  obtain ⟨port, -, he⟩ := Checked.bind_ok he
  cases he
  simp only [qualifies, Bool.and_eq_true, Option.isSome_iff_exists] at hqualified
  obtain ⟨-, m, hm⟩ := hqualified
  obtain ⟨hpath, hnul⟩ := hn.paths m (List.mem_of_find?_eq_some hm)
  refine ⟨by simpa [hm] using hpath, by simpa [hm] using hnul, ?_⟩
  cases ho : slot.2.1.offer with
  | none => exact Nat.zero_le _
  | some o => exact hn.ram o ho

/-- **Native plans are executable.** Whatever the planner returns for a native spec is accepted by
the executor, and every stage assignment the manager builds from it by the agent. -/
theorem native_plan_executable {rt : Runtime} {input : PlanInput} {plan : Plan}
    (hnodes : ∀ n ∈ input.nodes, n.Presentable) (hkind : input.spec.kind.isNative = true)
    (h : planDeployment rt input = .ok plan) :
    ∃ native, plan.nativeExecution = some native ∧ ∀ depBytes,
      validatePlan (native.execution (newId "dep" depBytes)) = .ok () ∧
      ∀ e ∈ native.endpoints, ∀ bytes,
        let a := Assignment.stage (stageAssignment (newId "as" bytes) (newId "dep" depBytes) plan e)
        validateAssignment (some a.encode) = .ok a.encode := by
  obtain ⟨_, hrequest, h⟩ := Checked.bind_ok h
  obtain ⟨-, -, -, hnative, -⟩ := requestErrors_eq_nil (Checked.require_ok.mp hrequest)
  rw [if_pos hkind] at h
  obtain ⟨q, nodes, endpoints, hfound, hctx, -, -, hplan⟩ := planNative_found h
  refine ⟨_, hplan, fun depBytes ↦ ⟨?_, ?_⟩⟩
  · exact hfound.validatePlan_ok (hnative hkind) (fun n hn ↦ (hnodes n hn).id) (by
      intro hempty
      have hlength := length_newId_dep depBytes
      rw [hempty] at hlength
      exact absurd hlength (by decide))
  · intro e he bytes
    rw [Assignment.validateAssignment_encode]
    exact ((hfound.endpoints_spec.2 e he).assignment_valid hctx depBytes bytes).mpr
      (hfound.presentable hnodes e he)

/-! ## Two nodes that run the stages -/

def sameDigits (c : Char) : String := String.ofList (List.replicate 64 c)

/-- A node with the stage engine, the shard `shard` and the whole model. -/
def stageNode (id : NodeId) (ramMiB : ℕ) (prefill decode : ℚ) : NodeRow where
  id
  certFp := ""
  hostname := id
  os := .linux
  online := true
  caps := some {
    os := .linux
    gpus := [⟨"cuda:0", "card", .cuda, "CUDA0", 100⟩]
    engine := some ⟨[("mesh-stage-worker", sameDigits 'b')], some (sameDigits 'e')⟩ }
  offer := some ⟨true, ⟨true, true, true⟩, [⟨"cuda:0", 100⟩], ramMiB, 2⟩
  models := [⟨"shard", "/shard", 0, some (sameDigits 'a'), .gguf⟩,
    ⟨"whole", "/whole", 0, some (sameDigits 'c'), .gguf⟩]
  metrics := some { prefillTokPerSec := some prefill, tokPerSec := some decode }

theorem stageNode_presentable {id : NodeId} {ramMiB : ℕ} {prefill decode : ℚ} (hid : id ≠ "")
    (hram : ramMiB ≤ MAX_SAFE_INTEGER) : (stageNode id ramMiB prefill decode).Presentable := by
  refine ⟨hid, ?_, ?_⟩
  · simp [stageNode]
  · rintro o ⟨⟩
    exact hram

def qwen : ModelProfile where
  id := "qwen35-2b-q8"
  modelName := "qwen"
  ggufPattern := "qwen"
  layers := 24
  layerMiB := 1
  coordinatorHostMiB := 1
  boundaryBytes := 1
  envelope := []
  extraArgs := []
  workerMarginMiB := 0
  layers_pos := by decide
  layerMiB_pos := Nat.one_pos
  envelope_lt := by simp

def halves : Qwen35NativeQualification where
  mode := .stages
  sourceSha256 := sameDigits 'c'
  sourceSizeBytes := 1
  engine := sameDigits 'e'
  ctx := 1024
  workspaceMiB := 1
  hostMiB := 1
  endpoints := [⟨⟨"shard", sameDigits 'a', 0, 12⟩, sameDigits 'b'⟩,
    ⟨⟨"shard", sameDigits 'a', 12, 24⟩, sameDigits 'b'⟩]
  evidenceSha256 := sameDigits 'd'

def halvesOn (ramMiB : ℕ) : PlanInput where
  spec := {
    name := "d"
    profile := "qwen35-2b-q8"
    kind := .stages
    stages := some [⟨"x", "/shard", sameDigits 'a', 0, 12⟩, ⟨"y", "/shard", sameDigits 'a', 12, 24⟩]
    }
  profile := qwen
  nodes := [stageNode "x" ramMiB 1 1, stageNode "y" ramMiB 1 1]
  usedPorts := fun _ ↦ []
  nativeQualifications := [halves]

def phases : Qwen35NativeQualification :=
  { halves with
    mode := .prefillDecode
    endpoints := [⟨⟨"whole", sameDigits 'c', 0, 24⟩, sameDigits 'b'⟩,
      ⟨⟨"whole", sameDigits 'c', 0, 24⟩, sameDigits 'b'⟩] }

/-- A node without a name is the fastest to prefill, another one the fastest to decode. -/
def phasesOn (first : NodeId) : PlanInput where
  spec := { name := "d", profile := "qwen35-2b-q8", kind := .prefillDecode }
  profile := qwen
  nodes := [stageNode first 100 1000 1, stageNode "y" 100 1 1000]
  usedPorts := fun _ ↦ []
  nativeQualifications := [phases]

theorem native_plan_executable_halves :
    ∃ plan, planDeployment plainRuntime (halvesOn 100) = .ok plan ∧
      ∃ native, plan.nativeExecution = some native ∧ native.endpoints.length = 2 ∧
        validatePlan (native.execution (newId "dep" fun _ ↦ 0)) = .ok () := by
  have hplan : ∃ plan, planDeployment plainRuntime (halvesOn 100) = .ok plan ∧
      (plan.nativeExecution.map (·.endpoints.length)) = some 2 := by decide +kernel
  obtain ⟨plan, hplan, hlength⟩ := hplan
  have hnodes : ∀ n ∈ (halvesOn 100).nodes, n.Presentable := by
    simp only [halvesOn, List.forall_mem_cons, List.not_mem_nil, false_imp_iff, implies_true,
      and_true]
    exact ⟨stageNode_presentable (by decide) (by decide), stageNode_presentable (by decide)
      (by decide)⟩
  obtain ⟨native, hnative, haccepted⟩ := native_plan_executable hnodes rfl hplan
  rw [hnative] at hlength
  exact ⟨plan, hplan, native, hnative, Option.some.inj hlength, (haccepted _).1⟩

/-- **Offers and names the other checks refuse.** With an offer of `2 ^ 53` MiB, an integer that is
not a safe one, the agent refuses the assignments of the plan; with a node whose id is empty the
executor refuses the plan. -/
theorem native_plan_refused :
    (∃ plan, planDeployment plainRuntime (halvesOn 9007199254740992) = .ok plan ∧
      (plan.nativeExecution.map fun native ↦ native.endpoints.map fun e ↦
        (validateAssignment (some (Assignment.stage (stageAssignment (newId "as" fun _ ↦ 0)
          (newId "dep" fun _ ↦ 0) plan e)).encode)).isOk) = some [false, false]) ∧
    ∃ plan, planDeployment plainRuntime (phasesOn "") = .ok plan ∧
      (plan.nativeExecution.map fun native ↦
      validatePlan (native.execution (newId "dep" fun _ ↦ 0)))
        = some (.error "invalid or duplicate native endpoint") := by
  decide +kernel

end Swarmlet
