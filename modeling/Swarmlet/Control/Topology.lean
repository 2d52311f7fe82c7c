import Mathlib.Tactic.Linarith
import Swarmlet.Control.RowOrder

/-!
# Choosing a topology

The operator may leave the kind of a deployment and its nodes to the control plane. Every placement
the fleet offers is priced against one reference request, with the phase speeds its nodes measured
and the locality of their addresses, and put to the ordinary planner: fit, inventory, roles and
qualifications still decide admission, the search only ranks the plans that are admitted.

The ranking is local-first, since the time of a relayed placement counts `RELAY_PENALTY` times. Two
scores that differ by no more than `EPSILON_MS` are a tie, which the kind and the node ids decide.
Being within a fixed distance is not transitive, and nor is this comparison: the winner is within
the distance of every other score where the comparison is transitive on the candidates, and may be
further off where ties chain in a circle.

The winner is a function of the set of rows as long as the model it is priced for is one. A request
that names no digest takes the first that the inventory has, in the order of the rows.
-/

namespace Swarmlet

open Js

namespace Topology

structure Reference where
  promptTokens : ℕ
  outputTokens : ℕ
deriving DecidableEq

def REFERENCE_REQUEST : Reference := ⟨512, 64⟩

def LAN_MIB_PER_SEC : ℚ := 1
def RELAY_MIB_PER_SEC : ℚ := 1 / 10

def RELAY_PENALTY : ℚ := 5 / 4
def EPSILON_MS : ℚ := 1

/-! ## Locality -/

def isOctet (part : List Char) : Bool :=
  part ≠ [] && part.length ≤ 3 && part.all fun c ↦ '0' ≤ c && c ≤ '9'

def octet (part : List Char) : ℕ := part.foldl (fun n c ↦ 10 * n + (c.toNat - '0'.toNat)) 0

def isPrivateV4 (ip : String) : Bool :=
  match ip.toList.splitOn '.' with
  | [a, b, c, d] => [a, b, c, d].all isOctet &&
      (octet a = 10 || (octet a = 192 && octet b = 168) ||
        (octet a = 172 && 16 ≤ octet b && octet b ≤ 31))
  | _ => false

def subnetsOf (n : NodeRow) : List String :=
  sortBy compareText <| distinct <|
    (((n.caps.map (·.privateIps)).getD []).filter isPrivateV4).map fun ip ↦
      ".".intercalate (((ip.toList.splitOn '.').take 3).map String.ofList)

def sameLan (a b : NodeRow) : Bool := (subnetsOf b).any (· ∈ subnetsOf a)

/-! ## Pricing a placement -/

structure BenchRow where
  prefillTokPerSec : ℚ
  decodeTokPerSec : ℚ
deriving DecidableEq

/-- The entry for this model and the engine the node runs now: the largest context, and among those
the latest. -/
def benchFor (rt : Runtime) (n : NodeRow) (modelSha256 : String) : Option BenchRow :=
  let engine := ((n.caps.bind (·.engine)).bind fun e ↦
    e.sha256.find? (·.1 = "llama-server")).map (·.2)
  let entries := ((n.caps.map (·.bench)).getD []).filter fun b ↦
    b.kind = "llama-server" && b.modelSha256 = modelSha256 &&
    engine.all (fun sha ↦ sha = "" || b.engineSha256 = sha) &&
    0 < b.prefillTokPerSec && 0 < b.decodeTokPerSec
  let latest (a b : BenchResult) : Ordering :=
    (compare b.ctx a.ctx).then (rt.localeCompare b.measuredAt a.measuredAt)
  (sortBy latest entries).head?.map fun b ↦ ⟨b.prefillTokPerSec, b.decodeTokPerSec⟩

structure TopologyInput where
  spec : DeploymentSpec
  profile : ModelProfile
  nodes : List NodeRow
  usedPorts : NodeId → List ℕ
  qualifications : List Qwen35NativeQualification
  reference : Reference := REFERENCE_REQUEST

/-- One way to serve the model, with the nodes in the order the plan uses them. -/
inductive Placement
  | replica (node : NodeRow)
  | prefillDecode (prefill decode : NodeRow)
  | split (coordinator : NodeRow) (workers : List NodeRow)

namespace Placement

def kind : Placement → DeploymentKind
  | replica _ => .replica
  | prefillDecode _ _ => .prefillDecode
  | split _ _ => .split

def nodes : Placement → List NodeRow
  | replica n => [n]
  | prefillDecode a b => [a, b]
  | split coordinator workers => coordinator :: workers

def isLocal : Placement → Bool
  | replica _ => true
  | p => 1 < p.nodes.length && (p.nodes.zip p.nodes.tail).all fun (a, b) ↦ sameLan a b

end Placement

section

variable (rt : Runtime) (nodes : List NodeRow)

def orderNodes : List NodeRow :=
  sortBy (fun a b ↦ (rt.localeCompare a.hostname b.hostname).then (rt.localeCompare a.id b.id))
    nodes

/-- Round trip to control; 50 ms where it was not measured. -/
def rttMs (n : NodeRow) : ℚ :=
  (((n.metrics.bind (·.link)).orElse fun _ ↦ n.caps.bind (·.net)).map (·.rttMs)).getD 50

def least (l : List ℚ) : ℚ := l.tail.foldl min (l.headD 0)
def greatest (l : List ℚ) : ℚ := l.tail.foldl max (l.headD 0)

/-- Estimated wall time of one reference request on a placement, or why there is none. -/
def estimate (input : TopologyInput) (modelSha256 : String) (p : Placement) : Except String ℚ :=
  let ref := input.reference
  match p with
  | .replica n =>
    match benchFor rt n modelSha256 with
    | none =>
      let model := String.ofList (modelSha256.toList.take 12)
      .error s!"no bench for model {model} on {n.hostname}"
    | some bench =>
      .ok (ms ref.promptTokens bench.prefillTokPerSec + ms ref.outputTokens bench.decodeTokPerSec)
  | .prefillDecode a b =>
    match benchFor rt a modelSha256, benchFor rt b modelSha256 with
    | none, _ => .error s!"no bench on {a.hostname}"
    | some _, none => .error s!"no bench on {b.hostname}"
    | some pa, some pb =>
      let rate := if p.isLocal then LAN_MIB_PER_SEC else RELAY_MIB_PER_SEC
      (choosePhasePlan rt {
        candidates := [⟨a.id, some pa.prefillTokPerSec, some pa.decodeTokPerSec⟩,
          ⟨b.id, some pb.prefillTokPerSec, some pb.decodeTokPerSec⟩]
        promptTokens := ref.promptTokens
        outputTokens := ref.outputTokens
        stateBytesPerToken := input.profile.boundaryBytes
        transferBytesPerSec := fun _ _ ↦ rate * 1048576
        prefillNodeIds := some [a.id]
        decodeNodeIds := some [b.id] }).map (·.estimatedMs)
  | .split _ _ =>
    -- Every token crosses each boundary, and a prompt crosses once per 64 tokens.
    let missing := p.nodes.filter fun n ↦ (benchFor rt n modelSha256).isNone
    if missing = [] then
      let benches := p.nodes.filterMap (benchFor rt · modelSha256)
      let prefill := least (benches.map (·.prefillTokPerSec))
      let decode := least (benches.map (·.decodeTokPerSec))
      let hops : ℚ := (p.nodes.length - 1 : ℕ)
      let crossings : ℚ := ((ref.promptTokens + 63) / 64 + ref.outputTokens : ℕ)
      .ok (ms ref.promptTokens prefill + ms ref.outputTokens decode +
        hops * crossings * greatest (p.nodes.map rttMs))
    else
      let hosts := ", ".intercalate (missing.map (·.hostname))
      .error s!"no bench on {hosts}"

/-! ## The placements a fleet offers -/

def nodeModelSha (profile : ModelProfile) (n : NodeRow) : Option String :=
  n.models.findSome? fun m ↦
    if m.kind = .gguf && rt.test profile.ggufPattern m.name then m.sha256.filter (· ≠ "") else none

def profileModelSha (profile : ModelProfile) (nodes : List NodeRow) : Option String :=
  nodes.findSome? (nodeModelSha rt profile)

def endpointFits (q : Qwen35NativeQualification) (n : NodeRow) (entry : NativeQualifiedEndpoint) :
    Bool :=
  n.offer.any (·.roles.replica) && runsEngine n q entry && (artifactOn n entry none).isSome

/-- The ordered pairs a qualification of this model covers. A record of two phases has two
endpoints. -/
def qualificationPairs (qualifications : List Qwen35NativeQualification)
    (modelSha256 : String) : List (NodeRow × NodeRow) :=
  (qualifications.filter fun q ↦ q.mode = .prefillDecode && q.sourceSha256 = modelSha256).flatMap
    fun q ↦ nodes.flatMap fun a ↦ (nodes.filter fun b ↦ a.id ≠ b.id &&
      q.endpoints[0]?.any (endpointFits q a) && q.endpoints[1]?.any (endpointFits q b)).map (a, ·)

def lanGroupsFrom (rt : Runtime) (nodes : List NodeRow) (seen : List NodeId) :
    List NodeRow → List (List NodeRow)
  | [] => []
  | n :: rest =>
    if n.id ∈ seen then lanGroupsFrom rt nodes seen rest
    else
      let group := n :: nodes.filter fun other ↦
        other.id ≠ n.id && other.id ∉ seen && sameLan n other
      orderNodes rt group :: lanGroupsFrom rt nodes (group.map (·.id) ++ seen) rest

def lanGroups : List (List NodeRow) :=
  lanGroupsFrom rt nodes [] nodes

def placements (eligible : List NodeRow)
    (qualifications : List Qwen35NativeQualification) (modelSha256 : String) : List Placement :=
  eligible.map .replica ++
  (qualificationPairs eligible qualifications modelSha256).flatMap
    (fun (a, b) ↦ [.prefillDecode a b, .prefillDecode b a]) ++
  (lanGroups rt eligible).flatMap fun group ↦
    if group.length < 2 then []
    else group.map fun coordinator ↦ .split coordinator (group.filter (·.id ≠ coordinator.id))

end

/-! ## Admission -/

structure TopologyCandidate where
  kind : DeploymentKind
  nodes : List NodeId
  estimatedMs : ℚ
  isLocal : Bool
  reason : String
deriving DecidableEq

def scoreCandidate (c : TopologyCandidate) : ℚ :=
  c.estimatedMs * if c.isLocal then 1 else RELAY_PENALTY

/-- The spec of a placement, built key by key: nothing of the request leaks in except the common
fields. -/
def specPatch (spec : DeploymentSpec) (profile : ModelProfile) (modelSha256 : String)
    (kind : DeploymentKind) (nodes : List NodeId) : DeploymentSpec :=
  let common : DeploymentSpec :=
    { name := spec.name
      profile := profile.id
      kind
      ctx := some (spec.ctx.getD 1024)
      parallel := some (spec.parallel.getD 1)
      chain := some (spec.chain.getD 0)
      transport := spec.transport }
  match kind with
  | .replica => { common with replicaNodeId := nodes[0]? }
  | .prefillDecode =>
    { common with
      prefillNodeId := nodes[0]?
      decodeNodeId := nodes[1]?
      modelSha256 := some modelSha256 }
  | .split => { common with coordinatorNodeId := nodes[0]?, workerNodeIds := some nodes.tail }
  | _ => common

def TopologyInput.planInput (input : TopologyInput) (spec : DeploymentSpec) : PlanInput where
  spec
  profile := input.profile
  nodes := input.nodes
  usedPorts := input.usedPorts
  nativeQualifications := input.qualifications

/-- `e.reasons[0] ?? e.message`. The planner throws nothing but plan errors. -/
def firstReason (e : PlanFailure) : String :=
  match e with
  | .plan _ (reason :: _) => reason
  | e => e.message

def consider (rt : Runtime) (input : TopologyInput) (modelSha256 : String) (p : Placement) :
    Except String TopologyCandidate :=
  let ref := input.reference
  let kind := p.kind.text
  let hosts := " → ".intercalate (p.nodes.map (·.hostname))
  let label := s!"{kind} [{hosts}]"
  let ids := p.nodes.map (·.id)
  match estimate rt input modelSha256 p with
  | .error reason => .error s!"{label}: {reason}"
  | .ok estimatedMs =>
    let trial := specPatch input.spec input.profile modelSha256 p.kind ids
    match planDeployment rt (input.planInput trial) with
    | .error e =>
      let reason := firstReason e
      .error s!"{label}: {reason}"
    | .ok _ =>
      let path := if p.isLocal then "same LAN" else "relayed"
      let time := oneText rt estimatedMs
      .ok {
        kind := p.kind
        nodes := ids
        estimatedMs
        isLocal := p.isLocal
        reason := s!"{label}: {time} ms for {ref.promptTokens}+{ref.outputTokens} ({path})" }

/-! ## The winner -/

def byKind (rt : Runtime) (a b : TopologyCandidate) : Ordering :=
  (rt.localeCompare a.kind.text b.kind.text).then
    (rt.localeCompare (",".intercalate a.nodes) (",".intercalate b.nodes))

def byScore (rt : Runtime) (a b : TopologyCandidate) : Ordering :=
  if EPSILON_MS < |scoreCandidate a - scoreCandidate b| then
    if scoreCandidate a < scoreCandidate b then .lt else .gt
  else byKind rt a b

structure Decision where
  modelSha256 : String
  ref : Reference
  chosen : TopologyCandidate
  candidates : List TopologyCandidate
deriving DecidableEq

structure TopologyChoice extends TopologyCandidate where
  spec : DeploymentSpec
  planHash : String
  candidates : List TopologyCandidate
  reasons : List String
deriving DecidableEq

section

variable (rt : Runtime) (input : TopologyInput)

def modelSha : Option String :=
  input.spec.modelSha256.orElse fun _ ↦ profileModelSha rt input.profile input.nodes

def eligible : List NodeRow :=
  orderNodes rt (input.nodes.filter fun n ↦ n.online && n.offers)

def considered (modelSha256 : String) : List (Except String TopologyCandidate) :=
  (placements rt (eligible rt input) input.qualifications modelSha256).map
    (consider rt input modelSha256)

def admitted (modelSha256 : String) : List TopologyCandidate :=
  (considered rt input modelSha256).filterMap (·.toOption)

def rejectedText (considered : List (Except String TopologyCandidate)) : String :=
  "; ".intercalate ((considered.flatMap Checked.problem).take 4)

def choiceReasons (rejected : String)
    (best : TopologyCandidate) (candidates : List TopologyCandidate) : List String :=
  let ref := input.reference
  let penalty := rt.number RELAY_PENALTY
  let kind := best.kind.text
  let ids := " → ".intercalate best.nodes
  let time := oneText rt best.estimatedMs
  let path := if best.isLocal then "stays on the LAN" else "relayed"
  [s!"topology: {candidates.length} admitted candidate(s) for {input.profile.id}; reference " ++
   s!"{ref.promptTokens} prompt + {ref.outputTokens} output."] ++
  candidates.map (fun c ↦
    c.reason ++ if c.isLocal then "" else s!" → score ×{penalty} (relayed)") ++
  (if rejected = "" then [] else [s!"rejected: {rejected}"]) ++
  [s!"chosen {kind} [{ids}]: {time} ms, {path}."]

/-- Rank every topology admission allows and return the local-first winner. The hash of a decision
is a host function. -/
def chooseTopology (hash : Decision → String) (input : TopologyInput) :
    Except String TopologyChoice :=
  match (modelSha rt input).filter (· ≠ "") with
  | none => .error s!"profile {input.profile.id} has no model sha to price against"
  | some modelSha256 =>
    if eligible rt input = [] then .error "no online node with an enabled offer"
    else
      let rejected := rejectedText (considered rt input modelSha256)
      match sortBy (byScore rt) (admitted rt input modelSha256) with
      | [] => .error s!"no topology can be priced and admitted for {input.profile.id}: {rejected}"
      | best :: others =>
        let candidates := best :: others
        .ok {
          toTopologyCandidate := best
          spec := specPatch input.spec input.profile modelSha256 best.kind best.nodes
          planHash := hash ⟨modelSha256, input.reference, best, candidates⟩
          candidates
          reasons := choiceReasons rt input rejected best candidates }

end

section

variable {rt : Runtime} {a b : TopologyCandidate}

/-- **What a choice is**: the first of the ranked candidates, with its patch and its hash. -/
theorem chooseTopology_ok {hash : Decision → String} {input : TopologyInput}
    {choice : TopologyChoice} (h : chooseTopology rt hash input = .ok choice) :
    ∃ sha others, modelSha rt input = some sha ∧
      sortBy (byScore rt) (admitted rt input sha) = choice.toTopologyCandidate :: others ∧
      choice.spec = specPatch input.spec input.profile sha choice.kind choice.nodes ∧
      choice.planHash = hash ⟨sha, input.reference, choice.toTopologyCandidate,
        choice.toTopologyCandidate :: others⟩ := by
  unfold chooseTopology at h
  cases hsha : (modelSha rt input).filter (· ≠ "") with
  | none =>
    rw [hsha] at h
    cases h
  | some sha =>
    rw [hsha] at h
    by_cases heligible : eligible rt input = []
    · simp [heligible] at h
    simp only [if_neg heligible] at h
    cases hsort : sortBy (byScore rt) (admitted rt input sha) with
    | nil => simp [hsort] at h
    | cons best others =>
      simp only [hsort, Except.ok.injEq] at h
      subst h
      exact ⟨sha, others, (Option.filter_eq_some_iff.mp hsha).1, hsort, rfl, rfl⟩

/-! ## The winner is the best where the ranking is transitive -/

/-- Two scores that the ranking does not tell apart. -/
def Close (a b : TopologyCandidate) : Prop := |scoreCandidate a - scoreCandidate b| ≤ EPSILON_MS

/-- The comparison of the ranking is **transitive** on these candidates. -/
def RankTransitive (rt : Runtime) (l : List TopologyCandidate) : Prop :=
  ∀ a ∈ l, ∀ b ∈ l, ∀ c ∈ l, (byScore rt a b).isLE = true → (byScore rt b c).isLE = true →
    (byScore rt a c).isLE = true

theorem close_comm : Close a b ↔ Close b a := by
  rw [Close, Close, abs_sub_comm]

theorem close_iff : Close a b ↔ scoreCandidate a ≤ scoreCandidate b + EPSILON_MS ∧
      scoreCandidate b ≤ scoreCandidate a + EPSILON_MS := by
  rw [Close, abs_le]
  constructor
  · rintro ⟨h₁, h₂⟩
    constructor <;> linarith
  · rintro ⟨h₁, h₂⟩
    constructor <;> linarith

theorem isLE_byScore_iff :
    (byScore rt a b).isLE = true ↔ (Close a b ∧ (byKind rt a b).isLE = true) ∨
      scoreCandidate a + EPSILON_MS < scoreCandidate b := by
  unfold byScore
  by_cases hclose : Close a b
  · have hle := close_iff.mp hclose
    rw [if_neg (not_lt.mpr hclose)]
    constructor
    · exact fun h ↦ .inl ⟨hclose, h⟩
    · rintro (⟨-, h⟩ | h)
      · exact h
      · linarith
  · rw [if_pos (not_le.mp hclose)]
    have hfar : ¬(scoreCandidate a ≤ scoreCandidate b + EPSILON_MS ∧
      scoreCandidate b ≤ scoreCandidate a + EPSILON_MS) := fun h ↦ hclose (close_iff.mpr h)
    have hpos : 0 < EPSILON_MS := by norm_num [EPSILON_MS]
    split_ifs
    · refine iff_of_true rfl (.inr ?_)
      by_contra hnot
      exact hfar ⟨by linarith, not_lt.mp hnot⟩
    · refine iff_of_false (by decide) ?_
      rintro (⟨h, -⟩ | h)
      · exact hclose h
      · linarith

end

section ranking

variable {rt : Runtime} [Std.TransCmp rt.localeCompare]

instance : Std.TransCmp (byKind rt) :=
  haveI := transCmp_on rt.localeCompare fun c : TopologyCandidate ↦ c.kind.text
  haveI := transCmp_on rt.localeCompare fun c : TopologyCandidate ↦ ",".intercalate c.nodes
  inferInstanceAs (Std.TransCmp (compareLex
    (fun a b : TopologyCandidate ↦ rt.localeCompare a.kind.text b.kind.text)
    fun a b ↦ rt.localeCompare (",".intercalate a.nodes) (",".intercalate b.nodes)))

theorem byScore_total (a b : TopologyCandidate) :
    (byScore rt a b).isLE = true ∨ (byScore rt b a).isLE = true := by
  simp only [isLE_byScore_iff]
  by_cases hclose : Close a b
  · have hswap : byKind rt b a = (byKind rt a b).swap := Std.OrientedCmp.eq_swap
    rw [hswap]
    cases hkind : byKind rt a b
    · exact .inl (.inl ⟨hclose, rfl⟩)
    · exact .inl (.inl ⟨hclose, rfl⟩)
    · exact .inr (.inl ⟨close_comm.mp hclose, rfl⟩)
  · by_contra hnot
    obtain ⟨hab, hba⟩ := not_or.mp hnot
    refine hclose (close_iff.mpr ⟨?_, ?_⟩)
    · exact not_lt.mp fun h ↦ hba (.inr h)
    · exact not_lt.mp fun h ↦ hab (.inr h)

/-- **The chosen topology is the best one** where the ranking is transitive: its score exceeds no
score of an admitted candidate by more than the fixed epsilon. -/
theorem chosen_within_epsilon {hash : Decision → String} {input : TopologyInput}
    {choice : TopologyChoice} {sha : String} (hsha : modelSha rt input = some sha)
    (h : chooseTopology rt hash input = .ok choice)
    (htrans : RankTransitive rt (admitted rt input sha)) :
    ∀ c ∈ admitted rt input sha,
      scoreCandidate choice.toTopologyCandidate ≤ scoreCandidate c + EPSILON_MS := by
  obtain ⟨sha', others, hsha', hsort, -, -⟩ := chooseTopology_ok h
  obtain rfl : sha' = sha := Option.mem_unique hsha' hsha
  have hsorted := pairwise_sortBy (fun a _ b _ ↦ @byScore_total rt _ a b)
    (fun a ha b hb c hc ↦ htrans a ha b hb c hc)
  rw [hsort, List.pairwise_cons] at hsorted
  have hpos : 0 < EPSILON_MS := by norm_num [EPSILON_MS]
  intro c hc
  have hmem : c ∈ choice.toTopologyCandidate :: others := hsort ▸ mem_sortBy.mpr hc
  rcases List.mem_cons.mp hmem with rfl | hmem
  · linarith
  · rcases isLE_byScore_iff.mp (hsorted.1 c hmem) with ⟨hclose, -⟩ | hlt
    · exact (close_iff.mp hclose).1
    · linarith

end ranking

/-! ### A fleet of replicas -/

def benchProfile : ModelProfile where
  id := "m"
  modelName := "m"
  ggufPattern := "m"
  layers := 3
  layerMiB := 10
  coordinatorHostMiB := 5
  boundaryBytes := 0
  envelope := []
  extraArgs := []
  workerMarginMiB := 2
  layers_pos := by decide
  layerMiB_pos := by decide
  envelope_lt := by simp

def benchNode (id hostname sha : String) (prefill : ℚ) : NodeRow where
  id
  certFp := ""
  hostname
  os := .linux
  online := true
  caps := some { os := .linux, bench := [⟨sha, "", "llama-server", 1024, prefill, 64, ""⟩] }
  offer := some ⟨true, ⟨true, true, true⟩, [], 100, 8⟩
  models := [⟨"m", "/m", 0, some sha, .gguf⟩]

def benchFleet (nodes : List NodeRow) : TopologyInput where
  spec := { name := "d", profile := "m", kind := .replica, autoTopology := some true }
  profile := benchProfile
  nodes
  usedPorts := fun _ ↦ []
  qualifications := []

/-- Replicas that take 2001.8, 3000, 2000.9 and 2000 ms. The first ties with the third and the third
with the last, and each time the ids prefer the slower one. -/
def chainedFleet : TopologyInput :=
  benchFleet [benchNode "a" "1" "s" (5120000 / 10018), benchNode "d" "2" "s" 256,
    benchNode "b" "3" "s" (5120000 / 10009), benchNode "c" "4" "s" 512]

/-- Replicas that take 2000, 2000.9 and 2001.8 ms: the ties chain, and the ids prefer the faster
one. -/
def orderedFleet : TopologyInput :=
  benchFleet [benchNode "a" "1" "s" 512, benchNode "b" "2" "s" (5120000 / 10009),
    benchNode "c" "3" "s" (5120000 / 10018)]

theorem chained_ties_win : ∃ choice, chooseTopology plainRuntime (·.modelSha256) chainedFleet =
      .ok choice ∧ ∃ c ∈ admitted plainRuntime chainedFleet "s",
        scoreCandidate c + EPSILON_MS < scoreCandidate choice.toTopologyCandidate := by
  decide +kernel

theorem chosen_within_epsilon_ordered :
    ∃ choice, chooseTopology plainRuntime (·.modelSha256) orderedFleet = .ok choice ∧
      ∀ c ∈ admitted plainRuntime orderedFleet "s",
        scoreCandidate choice.toTopologyCandidate ≤ scoreCandidate c + EPSILON_MS := by
  have hchoice : ∃ choice, chooseTopology plainRuntime (·.modelSha256) orderedFleet = .ok choice ∧
      modelSha plainRuntime orderedFleet = some "s" ∧
      ∀ a ∈ admitted plainRuntime orderedFleet "s", ∀ b ∈ admitted plainRuntime orderedFleet "s",
        ∀ c ∈ admitted plainRuntime orderedFleet "s", (byScore plainRuntime a b).isLE = true →
          (byScore plainRuntime b c).isLE = true → (byScore plainRuntime a c).isLE = true := by
    decide +kernel
  obtain ⟨choice, hok, hsha, htrans⟩ := hchoice
  have : Std.TransCmp plainRuntime.localeCompare := inferInstanceAs (Std.TransCmp compareText)
  exact ⟨choice, hok, chosen_within_epsilon hsha hok htrans⟩

/-! ## The order of the rows -/

/-- The digests of the inventory agree, node by node, or the request does not ask for them. -/
def OneModel (rt : Runtime) (input : TopologyInput) : Prop :=
  input.spec.modelSha256.isSome = true ∨
    ∀ a ∈ input.nodes, ∀ b ∈ input.nodes, ∀ x y, nodeModelSha rt input.profile a = some x →
      nodeModelSha rt input.profile b = some y → x = y

/-- The collation tells the ids of a fleet apart. -/
def Collates (rt : Runtime) (nodes : List NodeRow) : Prop :=
  ∀ a ∈ nodes, ∀ b ∈ nodes, rt.localeCompare a.id b.id = .eq → a.id = b.id

theorem findSome?_perm {α β : Type*} {f : α → Option β} {l l' : List α} (h : l.Perm l')
    (hagree : ∀ a ∈ l', ∀ b ∈ l', ∀ x y, f a = some x → f b = some y → x = y) :
    l.findSome? f = l'.findSome? f := by
  cases hfind : l'.findSome? f with
  | none =>
    rw [List.findSome?_eq_none_iff] at hfind ⊢
    exact fun a ha ↦ hfind a (h.mem_iff.mp ha)
  | some y =>
    obtain ⟨b, hb, hy⟩ := List.exists_of_findSome?_eq_some hfind
    cases hfind' : l.findSome? f with
    | none =>
      rw [List.findSome?_eq_none_iff] at hfind'
      exact absurd (hfind' b (h.mem_iff.mpr hb)) (by simp [hy])
    | some x =>
      obtain ⟨a, ha, hx⟩ := List.exists_of_findSome?_eq_some hfind'
      rw [hagree a (h.mem_iff.mp ha) b hb x y hx hy]

section rows

variable {rt : Runtime} {input : TopologyInput} {rows : List NodeRow}

theorem consider_onRows (hperm : rows.Perm input.nodes) (hids : (input.nodes.map (·.id)).Nodup) :
    consider rt { input with nodes := rows } = consider rt input := by
  have hplan (spec : DeploymentSpec) :
      planDeployment rt (({ input with nodes := rows } : TopologyInput).planInput spec) =
        planDeployment rt (input.planInput spec) :=
    planDeployment_onRows rt (input.planInput spec) hperm hids
  unfold consider
  simp only [hplan]
  rfl

theorem modelSha_onRows (hperm : rows.Perm input.nodes) (hone : OneModel rt input) :
    modelSha rt { input with nodes := rows } = modelSha rt input := by
  unfold modelSha
  cases hpin : input.spec.modelSha256 with
  | some sha => simp
  | none =>
    have hagree := hone.resolve_left (by simp [hpin])
    exact findSome?_perm hperm hagree

variable [Std.TransCmp rt.localeCompare]

theorem orderNodes_perm {l l' : List NodeRow} (hperm : l.Perm l') (hids : (l'.map (·.id)).Nodup)
    (hcollates : Collates rt l') : orderNodes rt l = orderNodes rt l' := by
  have hhost := transCmp_on rt.localeCompare NodeRow.hostname
  have hid := transCmp_on rt.localeCompare NodeRow.id
  have htrans : Std.TransCmp fun a b : NodeRow ↦
      (rt.localeCompare a.hostname b.hostname).then (rt.localeCompare a.id b.id) :=
    inferInstanceAs (Std.TransCmp (compareLex
      (fun a b : NodeRow ↦ rt.localeCompare a.hostname b.hostname)
      fun a b ↦ rt.localeCompare a.id b.id))
  refine (sortBy_eq_of_perm hperm.symm fun a ha b hb heq ↦ ?_).symm
  exact List.inj_on_of_nodup_map hids ha hb (hcollates a ha b hb (Ordering.then_eq_eq.mp heq).2)

theorem eligible_onRows (hperm : rows.Perm input.nodes) (hids : (input.nodes.map (·.id)).Nodup)
    (hcollates : Collates rt input.nodes) :
    eligible rt { input with nodes := rows } = eligible rt input := by
  have hsub : (input.nodes.filter fun n ↦ n.online && n.offers).Sublist input.nodes :=
    List.filter_sublist
  refine orderNodes_perm (hperm.filter _) (hids.sublist (hsub.map _)) ?_
  exact fun a ha b hb ↦ hcollates a (hsub.subset ha) b (hsub.subset hb)

/-- **Topology choice does not depend on row order** where the model is one: every order of the rows
gives the same answer. For a fleet that has an answer, and a hash that tells digests apart, this is
the only way. -/
theorem chooseTopology_perm_iff (hash : Decision → String) (hids : (input.nodes.map (·.id)).Nodup)
    (hcollates : Collates rt input.nodes) :
    (OneModel rt input → ∀ rows : List NodeRow, rows.Perm input.nodes →
      chooseTopology rt hash { input with nodes := rows } = chooseTopology rt hash input) ∧
    ((∀ d d', hash d = hash d' → d.modelSha256 = d'.modelSha256) →
      (∃ choice, chooseTopology rt hash input = .ok choice) →
      (∀ rows : List NodeRow, rows.Perm input.nodes →
        chooseTopology rt hash { input with nodes := rows } = chooseTopology rt hash input) →
      OneModel rt input) := by
  refine ⟨fun hone rows hperm ↦ ?_, ?_⟩
  · have heligible := eligible_onRows hperm hids hcollates
    have hconsidered : considered rt { input with nodes := rows } = considered rt input := by
      funext sha
      simp only [considered, heligible, consider_onRows hperm hids]
    have hadmitted : admitted rt { input with nodes := rows } = admitted rt input := by
      funext sha
      simp only [admitted, hconsidered]
    unfold chooseTopology
    rw [modelSha_onRows hperm hone, heligible, hconsidered, hadmitted]
    rfl
  rintro hhash ⟨choice, h⟩ hall
  obtain ⟨sha, others, hsha, -, -, hplanHash⟩ := chooseTopology_ok h
  by_contra hmany
  obtain ⟨hpin, hdiffer⟩ := not_or.mp hmany
  have hpin : input.spec.modelSha256 = none := by simpa using hpin
  -- Any node that has another digest can come first.
  have hsame : ∀ n ∈ input.nodes, ∀ z, nodeModelSha rt input.profile n = some z → z = sha := by
    intro n hn z hz
    have hfirst := hall (n :: input.nodes.erase n) (List.perm_cons_erase hn).symm
    obtain ⟨sha', others', hsha', -, -, hplanHash'⟩ := chooseTopology_ok (hfirst.trans h)
    obtain rfl : z = sha' := by simpa [modelSha, hpin, profileModelSha, hz] using hsha'
    exact hhash _ _ (hplanHash'.symm.trans hplanHash)
  refine hdiffer fun a ha b hb x y hx hy ↦ ?_
  rw [hsame a ha x hx, hsame b hb y hy]

end rows

def mixedFleet : TopologyInput :=
  benchFleet [benchNode "a" "1" "s" 512, benchNode "b" "2" "t" 512]

theorem choice_follows_first_row :
    ∃ choice, chooseTopology plainRuntime (·.modelSha256) mixedFleet = .ok choice ∧
      ∃ choice', chooseTopology plainRuntime (·.modelSha256)
          { mixedFleet with nodes := mixedFleet.nodes.reverse } = .ok choice' ∧
        choice.nodes ≠ choice'.nodes ∧ choice.planHash ≠ choice'.planHash := by
  decide +kernel

theorem chooseTopology_perm_iff_apart :
    (∃ choice, chooseTopology plainRuntime (·.modelSha256) orderedFleet = .ok choice) ∧
      ∀ rows : List NodeRow, rows.Perm orderedFleet.nodes →
        chooseTopology plainRuntime (·.modelSha256) { orderedFleet with nodes := rows } =
          chooseTopology plainRuntime (·.modelSha256) orderedFleet := by
  have hfacts : ∃ choice, chooseTopology plainRuntime (·.modelSha256) orderedFleet = .ok choice ∧
      (∀ n ∈ orderedFleet.nodes, nodeModelSha plainRuntime benchProfile n = some "s") ∧
        (orderedFleet.nodes.map (·.id)).Nodup := by
    decide +kernel
  obtain ⟨choice, hok, hmodels, hids⟩ := hfacts
  have : Std.TransCmp plainRuntime.localeCompare := inferInstanceAs (Std.TransCmp compareText)
  have hcollates : Collates plainRuntime orderedFleet.nodes := fun a _ b _ heq ↦
    @Std.LawfulEqCmp.eq_of_compare _ compareText _ a.id b.id heq
  have hone : OneModel plainRuntime orderedFleet := by
    refine .inr fun a ha b hb x y hx hy ↦ ?_
    exact Option.some.inj (hx.symm.trans ((hmodels a ha).trans ((hmodels b hb).symm.trans hy)))
  exact ⟨⟨choice, hok⟩, (chooseTopology_perm_iff _ hids hcollates).1 hone⟩

end Topology

end Swarmlet
