import Swarmlet.Control.SplitPlans

/-!
# What every worker of a split gets

A row of the envelope that says `maxFit` declares with `workerLayers` the floor each worker gets.
The planner gives every worker the most layers its memory fits and then shaves the largest until the
coordinator keeps a layer, and neither step looks at the floor: a worker whose memory fits fewer
layers is accepted as long as it fits one, and shaving goes on below the floor, and to zero, when
the workers are too many for the layers of the model.

`floors_iff_room` says exactly when the floors are kept: each worker's offers hold its floor, and
all the floors together leave the coordinator a layer. Counts from a fixed row, or asked for by the
spec, are at least one in any case.
-/

namespace Swarmlet

open Js

/-! ## Shaving to a floor -/

section

variable {floor limit : ℕ} {layers : List ℕ}

private theorem floor_le_modify_pred {i : ℕ} (h : ∀ n ∈ layers, floor ≤ n)
    (hi : floor < layers.getD i 0) : ∀ n ∈ layers.modify i (· - 1), floor ≤ n := by
  induction layers generalizing i with
  | nil => simp at hi
  | cons m layers ih =>
    rw [List.forall_mem_cons] at h
    cases i with
    | zero =>
      rw [List.getD_cons_zero] at hi
      rw [List.modify_zero_cons, List.forall_mem_cons]
      exact ⟨by omega, h.2⟩
    | succ i =>
      rw [List.modify_succ_cons, List.forall_mem_cons]
      exact ⟨h.1, ih h.2 hi⟩

/-- **Shaving stops before a floor that all can have**: as long as the counts exceed the limit, the
largest exceeds the floor. -/
theorem floor_le_shave (h : ∀ n ∈ layers, floor ≤ n) (hroom : layers.length * floor ≤ limit) :
    ∀ n ∈ shave limit layers, floor ≤ n := by
  have hturns : ∀ turns ≤ layers.sum - limit, ∀ n ∈ shaveLargest^[turns] layers, floor ≤ n := by
    intro turns
    induction turns with
    | zero => exact fun _ ↦ h
    | succ turns ih =>
      intro hle
      have hsum := sum_iterate_shaveLargest (show turns ≤ layers.sum by omega)
      rw [Function.iterate_succ_apply', shaveLargest]
      refine floor_le_modify_pred (ih (by omega)) (lt_getD_argmax ?_)
      rw [length_iterate_shaveLargest]
      omega
  exact hturns _ le_rfl

end

/-! ## Room for the floor -/

structure WorkerSlot.Holds (p : ModelProfile) (s : WorkerSlot) (count : ℕ) : Prop where
  gpu : count * p.layerMiB + p.workerMarginMiB ≤ s.gpu.memMiB
  ram : count * p.layerMiB + p.workerMarginMiB ≤ (s.node.offer.map (·.ramMiB)).getD 0

theorem le_maxFitLayers_iff {p : ModelProfile} {s : WorkerSlot} {count : ℕ} (hcount : 1 ≤ count) :
    count ≤ maxFitLayers s p ↔ s.Holds p count := by
  have hpos : 1 ≤ count * p.layerMiB := Nat.mul_le_mul hcount p.layerMiB_pos
  rw [maxFitLayers, le_min_iff, Nat.le_div_iff_mul_le p.layerMiB_pos,
    Nat.le_div_iff_mul_le p.layerMiB_pos]
  constructor
  · rintro ⟨hgpu, hram⟩
    exact ⟨by omega, by omega⟩
  · rintro ⟨hgpu, hram⟩
    exact ⟨by omega, by omega⟩

instance (p : ModelProfile) (s : WorkerSlot) (count : ℕ) : Decidable (s.Holds p count) :=
  decidable_of_iff (_ ∧ _) ⟨fun h ↦ ⟨h.1, h.2⟩, fun h ↦ ⟨h.gpu, h.ram⟩⟩

def PlanInput.context (rt : Runtime) (input : PlanInput) : PlanContext :=
  planContext rt input
    (input.spec.ctx.getD (if input.spec.kind.isNative then 1024 else DEFAULT_CTX))
    (input.spec.parallel.getD DEFAULT_PARALLEL) (input.spec.chain.getD DEFAULT_CHAIN)

def PlanInput.slots (rt : Runtime) (input : PlanInput) : List WorkerSlot :=
  let c := input.context rt
  (splitSlots c (splitCoordinator c).toOption).2

/-- The max-fit row a split takes its counts from; none when the spec asks for counts or the row
chosen is a fixed one. -/
def PlanInput.maxFitRow (rt : Runtime) (input : PlanInput) : Option EnvelopeRow :=
  match input.spec.workerLayers with
  | some _ => none
  | none => (chooseRow (input.context rt) (input.slots rt)).toOption.filter (·.maxFit)

/-- Every worker has a layer, and the floor of the max-fit row if there is one. -/
structure Plan.Earned (row : Option EnvelopeRow) (plan : Plan) : Prop where
  one : ∀ w ∈ plan.workers, 1 ≤ w.layers
  floor : ∀ r ∈ row, ∀ w ∈ plan.workers, r.workerLayers ≤ w.layers

/-- Every slot's offers hold a floor, and the floors leave the coordinator a layer. -/
structure FloorFits (p : ModelProfile) (slots : List WorkerSlot) (floor : ℕ) : Prop where
  each : ∀ s ∈ slots, s.Holds p floor
  together : slots.length * floor < p.layers

instance (p : ModelProfile) (slots : List WorkerSlot) (floor : ℕ) :
    Decidable (FloorFits p slots floor) :=
  decidable_of_iff (_ ∧ _) ⟨fun h ↦ ⟨h.1, h.2⟩, fun h ↦ ⟨h.each, h.together⟩⟩

/-- **The floor survives filling and shaving exactly when there is room for it.** -/
theorem floor_le_maxFit_iff {p : ModelProfile} {slots : List WorkerSlot} {floor : ℕ}
    (hfloor : 1 ≤ floor) :
    (∀ n ∈ shave (p.layers - 1) (slots.map (maxFitLayers · p)), floor ≤ n) ↔
      FloorFits p slots floor := by
  have hlayers := p.layers_pos
  constructor
  · intro h
    have hmost : List.Forall₂ (fun s n ↦ n ≤ maxFitLayers s p) slots
        (slots.map (maxFitLayers · p)) :=
      List.forall₂_map_right_iff.mpr (List.forall₂_same.mpr fun s _ ↦ le_rfl)
    obtain ⟨hsum, hbound⟩ := shave_spec (p.layers - 1) hmost
    refine ⟨fun s hs ↦ ?_, ?_⟩
    · obtain ⟨i, hi, rfl⟩ := List.getElem_of_mem hs
      have hcount : i < (shave (p.layers - 1) (slots.map (maxFitLayers · p))).length :=
        hbound.length_eq ▸ hi
      have hle := (h _ (List.getElem_mem hcount)).trans (hbound.get hi hcount)
      exact (le_maxFitLayers_iff hfloor).mp hle
    · have htotal := List.card_nsmul_le_sum _ floor h
      rw [length_shave, List.length_map] at htotal
      exact Nat.lt_of_le_pred hlayers (htotal.trans hsum)
  · rintro ⟨heach, htogether⟩
    refine floor_le_shave ?_ ?_
    · rw [List.forall_mem_map]
      exact fun s hs ↦ (le_maxFitLayers_iff hfloor).mpr (heach s hs)
    · rw [List.length_map]
      omega

theorem one_le_requestedLayers {c : PlanContext} {slots : List WorkerSlot}
    {requested layers : List ℕ} (h : requestedLayers c slots requested = .ok layers) :
    ∀ q ∈ slots.zip layers, 1 ≤ q.2 := by
  obtain ⟨_, hproblems, h⟩ := Checked.bind_ok h
  cases h
  rw [Checked.require_ok, List.append_eq_nil_iff, List.flatMap_eq_nil_iff] at hproblems
  intro q hq
  have hnone := hproblems.1 q hq
  simp only [requestedLayerProblems, List.append_eq_nil_iff] at hnone
  obtain ⟨⟨hrow, -⟩, -⟩ := hnone
  split at hrow
  next hsome =>
    obtain ⟨row, hfound⟩ := Option.isSome_iff_exists.mp hsome
    have hcount : row.workerLayers = q.2 := by
      have := List.find?_some hfound
      simp only [decide_eq_true_eq] at this
      exact this.1
    exact hcount ▸ (c.profile.envelope_lt row (List.mem_of_find?_eq_some hfound)).1
  next => exact absurd hrow (List.cons_ne_nil _ _)

theorem workerLayers_cases {rt : Runtime} {input : PlanInput} {layers : List ℕ}
    (h : workerLayers (input.context rt) (input.slots rt) = .ok layers) :
    (input.maxFitRow rt = none ∧ ∀ q ∈ (input.slots rt).zip layers, 1 ≤ q.2) ∨
      ∃ row, input.maxFitRow rt = some row ∧ 1 ≤ row.workerLayers ∧ layers =
        shave (input.profile.layers - 1) ((input.slots rt).map (maxFitLayers · input.profile)) := by
  unfold workerLayers at h
  split at h
  next requested hrequested =>
    have hspec : input.spec.workerLayers = some requested := hrequested
    exact .inl ⟨by rw [PlanInput.maxFitRow, hspec], one_le_requestedLayers h⟩
  next hrequested =>
    have hspec : input.spec.workerLayers = none := hrequested
    obtain ⟨row, hrow, h⟩ := Checked.bind_ok h
    have hone := (input.profile.envelope_lt row (chooseRow_ok hrow).1).1
    split_ifs at h with hfit
    · cases h
      refine .inr ⟨row, ?_, hone, rfl⟩
      rw [PlanInput.maxFitRow, hspec, hrow]
      exact Option.filter_eq_some_iff.mpr ⟨rfl, hfit⟩
    · cases h
      refine .inl ⟨?_, ?_⟩
      · rw [PlanInput.maxFitRow, hspec, hrow]
        simpa [Except.toOption] using hfit
      · intro q hq
        obtain ⟨_, -, hq⟩ := List.mem_map.mp (List.of_mem_zip hq).2
        exact hq ▸ hone

/-- **The floors are kept exactly when there is room for them**, in every split plan of every
profile that passes validation and every set of nodes. -/
theorem floors_iff_room {rt : Runtime} {input : PlanInput} {plan : Plan}
    (hkind : input.spec.kind = .split) (h : planDeployment rt input = .ok plan) :
    plan.Earned (input.maxFitRow rt) ↔
      ∀ row ∈ input.maxFitRow rt, FloorFits input.profile (input.slots rt) row.workerLayers := by
  obtain ⟨_, -, h⟩ := Checked.bind_ok h
  rw [if_neg (by rw [hkind]; decide), if_neg (by rw [hkind]; decide)] at h
  obtain ⟨coord, layers, workers, hfound, rfl⟩ := planSplit_found h
  have hslots : input.slots rt = (splitSlots (input.context rt) (some coord)).2 := by
    have hcoord : splitCoordinator (input.context rt) = .ok coord := hfound.coordinator
    rw [PlanInput.slots, hcoord]
    rfl
  have hcounts : workerLayers (input.context rt) (input.slots rt) = .ok layers :=
    hslots ▸ hfound.counts
  obtain ⟨forwarding, hplaced⟩ := hfound.placed
  obtain ⟨hlayers, hof⟩ := planWorkers_slots hplaced
  replace hlayers : workers.map (·.layers) = ((input.slots rt).zip layers).map (·.2) :=
    hslots ▸ hlayers
  have hall : ∀ P : ℕ → Prop, (∀ w ∈ workers, P w.layers) ↔ ∀ q ∈ (input.slots rt).zip layers,
      P q.2 := by
    intro P
    rw [← List.forall_mem_map, hlayers, List.forall_mem_map]
  rcases workerLayers_cases hcounts with ⟨hrow, hone⟩ | ⟨row, hrow, hone, rfl⟩
  · rw [hrow]
    exact ⟨fun _ _ hr ↦ (nomatch hr), fun _ ↦ ⟨(hall _).mpr hone, fun _ hr ↦ (nomatch hr)⟩⟩
  · have hfloor : (∀ w ∈ workers, row.workerLayers ≤ w.layers) ↔
        FloorFits input.profile (input.slots rt) row.workerLayers := by
      rw [hall, ← floor_le_maxFit_iff hone, ← List.forall_mem_map,
        List.map_snd_zip (by simp)]
    rw [hrow]
    constructor
    · rintro hearned _ ⟨⟩
      exact hfloor.mp (hearned.floor row rfl)
    · intro hroom
      have hle := hfloor.mpr (hroom row rfl)
      refine ⟨fun w hw ↦ hone.trans (hle w hw), ?_⟩
      rintro _ ⟨⟩
      exact hle

/-! ## Workers below the floor -/

def maxFitFile (layers floor : ℕ) : Json := .obj [("id", .str "m"), ("name", .str "m"),
  ("modelName", .str "m"), ("ggufPattern", .str "m"), ("layers", .num layers),
  ("layerMiB", .num 10), ("coordinatorHostMiB", .num 5), ("boundaryBytes", .num 0),
  ("workerMarginMiB", .num 2), ("extraArgs", .arr []),
  ("envelope", .arr [.obj [("workerLayers", .num floor),
    ("maxCtx", .num 4096), ("maxParallel", .num 1), ("maxChain", .num 0), ("maxFit", .bool true)]])]

def oneLayerNode (id : NodeId) : NodeRow :=
  { gpuNode id with offer := some ⟨true, ⟨true, true, true⟩, [⟨"cuda:0", 12⟩], 90, 8⟩ }

def splitAmong (nodes : List NodeRow) (profile : ModelProfile) : PlanInput :=
  { splitOn profile with nodes }

theorem floors_iff_room_threeLayers :
    ∃ file, validateProfile (fun pattern ↦ .ok (· = pattern)) (maxFitFile 3 2) "m.json" = .ok file ∧
      ∃ plan, planDeployment plainRuntime (splitOn file.toModelProfile) = .ok plan ∧
        (∃ row ∈ (splitOn file.toModelProfile).maxFitRow plainRuntime, row.workerLayers = 2) ∧
        plan.Earned ((splitOn file.toModelProfile).maxFitRow plainRuntime) := by
  have hfile : ∃ file, validateProfile (fun pattern ↦ .ok (· = pattern)) (maxFitFile 3 2) "m.json" =
      .ok file ∧ ∃ plan, planDeployment plainRuntime (splitOn file.toModelProfile) = .ok plan ∧
      ((splitOn file.toModelProfile).maxFitRow plainRuntime).map (·.workerLayers) = some 2 ∧
      FloorFits file.toModelProfile ((splitOn file.toModelProfile).slots plainRuntime) 2 := by
    decide +kernel
  obtain ⟨file, hfile, plan, hplan, hrow, hfits⟩ := hfile
  obtain ⟨row, hrow, htwo⟩ := Option.map_eq_some_iff.mp hrow
  refine ⟨file, hfile, plan, hplan, ⟨row, hrow, htwo⟩, (floors_iff_room rfl hplan).mpr ?_⟩
  intro r hr
  cases Option.mem_unique hr hrow
  exact htwo ▸ hfits

/-- **Workers below their floor.** A model of two layers is split among two workers, and one of them
gets none; a worker that can hold one layer gets it from a row whose floor is two. -/
theorem workers_below_floor :
    (∃ file, validateProfile (fun pattern ↦ .ok (· = pattern)) (maxFitFile 2 1) "m.json" =
    .ok file ∧
      ∃ plan, planDeployment plainRuntime
          (splitAmong [gpuNode "a", gpuNode "b", gpuNode "c"] file.toModelProfile) = .ok plan ∧
        plan.workers.map (·.layers) = [0, 1]) ∧
    ∃ file, validateProfile (fun pattern ↦ .ok (· = pattern)) (maxFitFile 3 2) "m.json" = .ok file ∧
      ((splitAmong [gpuNode "a", oneLayerNode "b"] file.toModelProfile).maxFitRow plainRuntime).map
        (·.workerLayers) = some 2 ∧
      ∃ plan, planDeployment plainRuntime
          (splitAmong [gpuNode "a", oneLayerNode "b"] file.toModelProfile) = .ok plan ∧
        plan.workers.map (·.layers) = [1] := by
  decide +kernel

end Swarmlet
