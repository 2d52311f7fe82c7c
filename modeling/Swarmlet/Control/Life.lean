import Swarmlet.Control.Step

/-!
# The life of a deployment

An abstract machine for what the manager does to *one* deployment. Its state, a `View`, forgets
everything no guarantee depends on: timings, details and retired marks of rows, waits inside a
teardown, the pacing of moves. Its transitions are `Move`s and `Dispatch`es, each with the guard
under which the code makes it.

## What a run allows

Moves are relative to the clock, the nodes that are here, what nodes have said and the fleet apply
(`Ambient`), and to the terms of the event they belong to (`Terms`): only the deployments it names
may start without being asked to run already, only the nodes it greets are sent an assignment again,
and, if agents are honest, no assignment is reported live after its agent reported it stopped or
absent.

## The invariant

`View.Good` collects what holds between any two moves. It is proved here once, by cases on the move;
every guarantee of the manager about single deployments is another such case analysis on top of it.
-/

namespace Swarmlet

open Js

/-! ## Views -/

/-- Where an operation stands, as far as it matters: a teardown is not told from a queued one. -/
inductive Stand
  | idle
  | awaiting (target : Target) (pending : List AssignmentId)
  | cleaning

structure OpView where
  work : Work
  cont : Cont
  stand : Stand := .idle
  sent : List AssignmentId := []
  excluded : List NodeId := []

structure RowView where
  id : AssignmentId
  deploymentId : DeploymentId
  nodeId : NodeId
  state : RowState
  watch : Bool
  ports : List ℕ
  origin : Option Plan

def RowView.live (r : RowView) : Bool := r.state != .reported .stopped

structure Face where
  spec : DeploymentSpec
  state : DeploymentState
  plan : Option Plan
  endpoint : Option RouteEndpoint

structure View where
  face : Option Face
  running : Bool
  rows : List RowView
  ops : List OpView
  jobs : List Job
  generation : ℕ
  reconnecting : Bool
  blocked : String → Option Block
  crashes : String → ℕ
  inflight : ℕ

/-! ## Shapes of operations and continuations -/

structure OpView.Behind (o : OpView) : Prop where
  work : o.work.isStart = false
  cont : o.cont = .none ∨ o.cont = .remove

/-- Continuations that must not meet a start of the same deployment. -/
def Cont.Grave : Cont → Prop
  | .remove | .distribution _ _ | .move (.expired _) => True
  | _ => False

def Cont.Fleet : Cont → Prop
  | .none | .move .other | .fleetStop | .fleetStart => True
  | _ => False

def Job.Grave : Job → Prop
  | .settled cont _ _ _ => cont.Grave
  | .lateFailure _ => True

def DeploymentKind.planned : DeploymentKind → Bool
  | .replica | .split => true
  | _ => false

def FleetTask.isStopping (t : FleetTask) : Bool :=
  match t.stage with
  | .stopping _ _ => true
  | .starting _ _ _ => false

/-! ## Moves -/

structure Ambient where
  now : ℕ
  heard : List Heard
  fleet : Option FleetTask
  views : DeploymentId → View

/-- The server an external deployment watches: its node and its normalized origin. -/
def DeploymentSpec.server (rt : Runtime) (spec : DeploymentSpec) : Option (NodeId × String) :=
  spec.external.bind fun ext ↦ (Control.externalOrigin rt ext.url).map fun key ↦ (ext.nodeId, key)

def View.Owns (rt : Runtime) (v : View) (server : NodeId × String) : Prop :=
  v.running = true ∧
    ∃ f, v.face = some f ∧ f.spec.kind = .external ∧ f.spec.server rt = some server

/-- What the event a move belongs to is about, and what is assumed of the others. -/
structure Terms where
  names : DeploymentId → Prop
  /-- No agent reports an assignment live after it reported it stopped or absent. -/
  honest : Prop
  offers : Prop
  greets : NodeId → Prop
  traffic : DeploymentId → Prop
  leases : Prop
  fleet : Prop
  restarts : Prop

def OpView.task (o : OpView) : Work × Cont := (o.work, o.cont)

def OpView.hear (id : AssignmentId) (state : AssignmentState) (o : OpView) : OpView :=
  match o.stand with
  | .awaiting target pending =>
    if state = target.state then { o with stand := .awaiting target (pending.erase id) } else o
  | _ => o

@[simp] theorem OpView.task_hear (id : AssignmentId) (state : AssignmentState) (o : OpView) :
    (o.hear id state).task = o.task := by
  unfold OpView.hear
  split
  · split_ifs <;> rfl
  · rfl

namespace View

section

variable (v : View)

def setState (state : DeploymentState) : View :=
  { v with face := v.face.map fun f ↦ { f with state, endpoint := none } }

def setReady (endpoint : RouteEndpoint) : View :=
  { v with face := v.face.map fun f ↦ { f with state := .ready, endpoint := some endpoint } }

def halt : View := { v with face := v.face.map fun f ↦ { f with state := .stopped } }

@[grind =] theorem face_setState (state : DeploymentState) :
    (v.setState state).face = v.face.map fun f ↦ { f with state, endpoint := none } := rfl

@[grind →] theorem face_of_setState {v : View} {state : DeploymentState} {g : Face}
    (h : (v.setState state).face = some g) : ∃ f, v.face = some f ∧ g.spec = f.spec ∧
      g.plan = f.plan ∧ g.state = state ∧ g.endpoint = none := by
  obtain ⟨f, hf, rfl⟩ := Option.map_eq_some_iff.mp h
  exact ⟨f, hf, rfl, rfl, rfl, rfl⟩

@[grind =] theorem face_setReady (endpoint : RouteEndpoint) : (v.setReady endpoint).face =
    v.face.map fun f ↦ { f with state := .ready, endpoint := some endpoint } := rfl

@[grind →] theorem face_of_setReady {v : View} {endpoint : RouteEndpoint} {g : Face}
    (h : (v.setReady endpoint).face = some g) : ∃ f, v.face = some f ∧ g.spec = f.spec ∧
      g.plan = f.plan ∧ g.state = .ready ∧ g.endpoint = some endpoint := by
  obtain ⟨f, hf, rfl⟩ := Option.map_eq_some_iff.mp h
  exact ⟨f, hf, rfl, rfl, rfl, rfl⟩

@[grind →] theorem face_of_halt {v : View} {g : Face} (h : v.halt.face = some g) :
    ∃ f, v.face = some f ∧ g.spec = f.spec ∧ g.plan = f.plan ∧ g.state = .stopped ∧
      g.endpoint = f.endpoint := by
  obtain ⟨f, hf, rfl⟩ := Option.map_eq_some_iff.mp h
  exact ⟨f, hf, rfl, rfl, rfl, rfl⟩

def settle (o : OpView) (rest : List OpView) (result : Except String Unit) : View :=
  { v with
    ops := rest
    jobs := v.jobs ++ if o.cont = .none then [] else [.settled o.cont result o.sent o.excluded] }

def setRowState (id : AssignmentId) (state : RowState) : View :=
  { v with rows := v.rows.map fun r ↦ if r.id = id then { r with state } else r }

def hear (v : View) (id : AssignmentId) (state : AssignmentState) : View :=
  { v with ops := v.ops.map (OpView.hear id state) }

theorem task_hear {id : AssignmentId} {state : AssignmentState} :
    (v.hear id state).ops.map OpView.task = v.ops.map OpView.task := by
  simp [hear, List.map_map, Function.comp_def]

def nextCooldown (k : Deps) (fingerprint : String) : ℕ :=
  match v.blocked fingerprint with
  | some previous => min (previous.cooldownMs * 4) CRASH_COOLDOWN_MAX_MS
  | none => k.crashCooldownMs

def block (k : Deps) (now : ℕ) (fingerprint why : String) : View :=
  let cooldownMs := v.nextCooldown k fingerprint
  { v with
    blocked := Function.update v.blocked fingerprint (some ⟨now + cooldownMs, cooldownMs, why⟩)
    crashes := Function.update v.crashes fingerprint (v.crashes fingerprint + 1) }

def expire (now : ℕ) (fingerprint : String) : View :=
  let kept := (v.blocked fingerprint).filter fun b ↦ now < b.until
  { v with blocked := Function.update v.blocked fingerprint kept }

def Clear : Prop := ∀ j ∈ v.jobs, j.isSettled = false

end

theorem Clear.cont_of_settle {v : View} (hclear : v.Clear) {o : OpView} {rest : List OpView}
    {cont : Cont} {result result' : Except String Unit} {sent : List AssignmentId}
    {excluded : List NodeId}
    (hj : .settled cont result' sent excluded ∈ (v.settle o rest result).jobs) : o.cont = cont := by
  rcases List.mem_append.mp hj with hj | hj
  · cases hclear _ hj
  · split_ifs at hj
    · cases hj
    · exact (Job.settled.inj (List.mem_singleton.mp hj)).1.symm

end View

section

variable (k : Deps) (T : Terms) (c : Ambient) (d : DeploymentId)

inductive Move (v : View) : View → Prop
  | book : Move v v
  | respec {f : Face} (spec : DeploymentSpec) (hface : v.face = some f) (hops : v.ops = [])
      (hold : f.spec.kind.planned = true) (hnew : spec.kind.planned = true)
      (hpins : Control.pinsNodes f.spec = false) (hrunning : v.running = true) :
      Move v { v with face := some { f with spec } }
  | expire {f : Face} (fingerprint : String) (hface : v.face = some f)
      (hkind : f.spec.kind.planned = true) :
      Move v (v.expire c.now fingerprint)
  | rowState (id : AssignmentId) (state : RowState) (hjobs : v.jobs = [])
      (hacked : state = .reported .stopped →
        ∀ r ∈ v.rows, r.id = id → ⟨r.nodeId, id, .stopped⟩ ∈ c.heard)
      (hhonest : T.honest → state ≠ .reported .stopped →
        ∀ r ∈ v.rows, r.id = id → r.watch = false → r.live = true)
      (hsent : state = .sent → ∀ r ∈ v.rows, r.id = id → T.greets r.nodeId) :
      Move v (v.setRowState id state)
  | heard (id : AssignmentId) (state : AssignmentState)
      (hheard : ∀ r ∈ v.rows, r.id = id → ⟨r.nodeId, id, state⟩ ∈ c.heard) :
      Move v (v.hear id state)
  | acceptStop (cont : Cont) (hface : v.face.isSome = true)
      (hcont : cont = .none ∨ cont = .remove ∨ v.ops = [] ∧ v.jobs = [] ∧ T.names d ∧
        (cont = .fleetStop ∨ ∃ spec f, cont = .distribution spec (v.generation + 1) ∧
          spec.kind.planned = true ∧ v.face = some f ∧ f.spec.kind.planned = true))
      (hfleet : c.fleet.isSome = true → T.fleet ∧ cont = .fleetStop) :
      Move v { v.setState .draining with
        running := false, reconnecting := false, generation := v.generation + 1
        blocked := fun _ ↦ none, crashes := fun _ ↦ 0
        ops := v.ops ++ [{ work := .stop, cont }] }
  | acceptStart {f : Face} (dep : Deployment) (cont : Cont) (hface : v.face = some f)
      (hid : dep.id = d) (hspec : dep.spec = f.spec) (hops : v.ops = [])
      (hjobs : ∀ j ∈ v.jobs, ¬j.Grave) (hlicense : v.running = true ∨ T.names d)
      (hcont : cont = .none ∨ (∃ o, cont = .move o) ∨ cont = .applied ∨ cont = .fleetStart)
      (hfleet : c.fleet.isSome = true → T.fleet ∧ cont = .fleetStart)
      (hstopping : ∀ t ∈ c.fleet, t.isStopping = false)
      (howner : f.spec.kind = .external → ∃ server, f.spec.server k.rt = some server ∧
        ∀ d', d' ≠ d → ¬(c.views d').Owns k.rt server) :
      Move v { v.setState .placing with
        running := true, reconnecting := false
        ops := v.ops ++ [{ work := .start dep v.generation, cont }] }
  | failed {f : Face} (hface : v.face = some f)
      (hstate : f.state ∉ [.failed, .stopped, .draining]) :
      Move v { v.setState .failed with
        reconnecting := false, generation := v.generation + 1
        ops := v.ops ++ [{ work := .teardown, cont := .none }] }
  | crashed {f : Face} {plan : Plan} (why : String) (hface : v.face = some f)
      (hplan : f.plan = some plan) (hstate : f.state ∉ [.failed, .stopped, .draining]) :
      Move v { (v.block k c.now (planFingerprint plan) why).setState .failed with
        reconnecting := false, generation := v.generation + 1
        ops := v.ops ++ [{ work := .teardown, cont := .none }] }
  /-- A node is lost; the placement is cleaned up while the grace runs. -/
  | offline {f : Face} (hface : v.face = some f) (hrunning : v.running = true) :
      Move v { v.setState .loading with
        reconnecting := true, generation := v.generation + 1
        ops := v.ops ++ [{ work := .teardown, cont := .none }] }
  | watchLost {f : Face} (hface : v.face = some f) (hkind : f.spec.kind = .external)
      (hrunning : v.running = true) : Move v (v.setState .loading)
  | watchReady {f : Face} (endpoint : RouteEndpoint) (hface : v.face = some f)
      (hkind : f.spec.kind = .external) (hrunning : v.running = true)
      (hreconnecting : v.reconnecting = false) : Move v (v.setReady endpoint)
  | drained (hrunning : v.running = false) (hrows : ∀ r ∈ v.rows, r.live = false) :
      Move v (v.setState .stopped)
  /-- A start fails and cleans up; `excluded` are the nodes it was not allowed to use. -/
  | caught {o : OpView} {rest : List OpView} {dep : Deployment} (excluded : List NodeId)
      (hops : v.ops = o :: rest) (hwork : o.work = .start dep v.generation) (hclear : v.Clear) :
      Move v { v.setState .failed with
        reconnecting := false
        ops := { o with stand := .cleaning, excluded := o.excluded ++ excluded } :: rest }
  | settleError {o : OpView} {rest : List OpView} (error : String) (hops : v.ops = o :: rest)
      (hclear : v.Clear) : Move v (v.settle o rest (.error error))
  | teardownDone {o : OpView} {rest : List OpView} (hops : v.ops = o :: rest)
      (hwork : o.work = .teardown) (hclear : v.Clear) : Move v (v.settle o rest (.ok ()))
  | stopDone {o : OpView} {rest : List OpView} (hops : v.ops = o :: rest) (hwork : o.work = .stop)
      (hrows : ∀ r ∈ v.rows, r.live = false) (hclear : v.Clear) :
      Move v (v.halt.settle o rest (.ok ()))
  | ready {o : OpView} {rest : List OpView} {dep : Deployment} {endpoint : RouteEndpoint}
      (hops : v.ops = o :: rest) (hwork : o.work = .start dep v.generation)
      (hstand : o.stand = .awaiting (.route endpoint) []) (hrunning : v.running = true)
      (hclear : v.Clear) : Move v ((v.setReady endpoint).settle o rest (.ok ()))
  /-- A continuation is no longer due; a fleet apply takes those of its own stops. -/
  | popJob (i : ℕ) (hfleet : ∀ result sent excluded,
      v.jobs[i]? = some (.settled .fleetStop result sent excluded) → T.fleet) :
      Move v { v with jobs := v.jobs.eraseIdx i }
  | late (i : ℕ) (why : String) (hj : v.jobs[i]? = some (.lateFailure why)) :
      Move v { v.setState .failed with reconnecting := false, jobs := v.jobs.eraseIdx i }
  | removed (i : ℕ) (sent : List AssignmentId) (excluded : List NodeId)
      (hj : v.jobs[i]? = some (.settled .remove (.ok ()) sent excluded)) :
      Move v { v with face := none, running := false, rows := [], jobs := v.jobs.eraseIdx i }
  | pushLate (why : String) (hops : ∀ o ∈ v.ops, o.Behind) (hjobs : v.jobs = [])
      (hfleet : c.fleet = none) : Move v { v with jobs := [.lateFailure why] }
  | pushRefused (origin : Origin) (error : String) (hops : v.ops = []) (hjobs : v.jobs = [])
      (hrunning : v.running = true) (hfleet : c.fleet.isSome = true → origin = .other) :
      Move v { v with jobs := [.settled (.move origin) (.error error) [] []] }
  | applySpec {f : Face} (spec : DeploymentSpec) (hface : v.face = some f) (hname : T.names d)
      (hold : f.spec.kind.planned = true) (hnew : spec.kind.planned = true)
      (hops : ∀ o ∈ v.ops, o.work.isStart = false) (hfleet : c.fleet.isSome = true → T.fleet) :
      Move v { v with face := some { spec, state := .planned, plan := none, endpoint := none } }
  | drain (hname : T.names d) (hops : v.ops = []) (hfleet : c.fleet = none) :
      Move v (v.setState .draining)
  | traffic (inflight : ℕ) (hname : T.traffic d) : Move v { v with inflight }

/-! ## Dispatches -/

structure RowView.Sent (d : DeploymentId) (plan : Plan) (r : RowView) : Prop where
  own : r.deploymentId = d
  live : r.live = true
  watch : r.watch = false
  origin : r.origin = some plan
  placed : r.nodeId ∈ planNodes plan

/-- What a dispatch may look at beyond its own deployment: the nodes that answer and those that have
said hello besides, what a spec is planned as, which ports are free, and which ids are new. -/
structure Surroundings where
  online : NodeId → Bool
  present : NodeId → Bool
  plans : DeploymentSpec → Plan → Prop
  free : List RowView → Prop
  fresh : AssignmentId → Prop

def OpView.dispatched (o : OpView) (stand : Stand) (rows : List RowView) (excluded : List NodeId) :
    OpView :=
  { o with stand, sent := o.sent ++ rows.map (·.id), excluded := o.excluded ++ excluded }

/-- Where an operation stands after it has sent rows: it cleans up because one could not be sent, or
it waits for them. -/
def Stand.After (rows : List RowView) (waits : Target → Prop) (stand : Stand) : Prop :=
  stand = .cleaning ∨ ∃ target, stand = .awaiting target (rows.map (·.id)) ∧ waits target

/-- The state that a start waits for on a node of its plan: the workers of a split without native
execution only listen. -/
def Plan.awaited (plan : Plan) (n : NodeId) : AssignmentState :=
  if plan.nativeExecution = none ∧ n ≠ plan.coordinatorNodeId then .listening else .ready

/-- What a planned start waits for: every assignment of its plan, or the workers of a split. -/
structure PlannedTarget (dep : Deployment) (plan : Plan) (rows : List RowView) (target : Target) :
    Prop where
  route : ∀ endpoint, target = .route endpoint → rows ≠ [] ∧
    ∀ n ∈ planNodes plan, plan.awaited n = .ready ∧ n ∈ rows.map (·.nodeId)
  workers : ∀ p coord workers, target = .workers p coord workers → p = plan ∧
    dep.spec.kind = .split ∧ coord.id = plan.coordinatorNodeId ∧ plan.nativeExecution = none ∧
    ∀ n ∈ planNodes plan, n = plan.coordinatorNodeId ∨ n ∈ rows.map (·.nodeId)

/-- A start sends its assignments. Rows may still be live then, but only on nodes that are gone. -/
inductive Dispatch (e : Surroundings) (v : View) : View → Prop
  | planned {f : Face} {o : OpView} {rest : List OpView} {dep : Deployment} (plan : Plan)
      (state : DeploymentState) (rows : List RowView) (stand : Stand) (excluded : List NodeId)
      (hface : v.face = some f) (hops : v.ops = o :: rest)
      (hwork : o.work = .start dep v.generation) (hstand : o.stand = .idle)
      (hrunning : v.running = true) (hkind : dep.spec.kind ≠ .external)
      (hblocked : dep.spec.kind.planned = true → v.blocked (planFingerprint plan) = none)
      (hstate : state = f.state ∨ state = .loading)
      (hgone : ∀ r ∈ v.rows, r.live = true → e.online r.nodeId = false)
      (hplaced : ∀ n ∈ planNodes plan, e.present n = true)
      (hexcluded : ∀ n ∈ planNodes plan, n ∉ excluded)
      (hids : ((v.rows ++ rows).map (·.id)).Nodup) (hfresh : ∀ r ∈ rows, e.fresh r.id)
      (hrows : ∀ r ∈ rows, r.Sent d plan) (hplan : e.plans dep.spec plan) (hfree : e.free rows)
      (hafter : stand.After rows (PlannedTarget dep plan rows)) :
      Dispatch e v
        { v with
          face := some { f with plan := some plan, state }, rows := v.rows ++ rows
          ops := o.dispatched stand rows excluded :: rest }
  | coordinator {f : Face} {o : OpView} {rest : List OpView} {dep : Deployment} {plan : Plan}
      {coord : NodeRow} {workers : List (PlanWorker × NodeRow)} (rows : List RowView)
      (stand : Stand) (hface : v.face = some f) (hops : v.ops = o :: rest)
      (hwork : o.work = .start dep v.generation)
      (hstand : o.stand = .awaiting (.workers plan coord workers) [])
      (hrunning : v.running = true)
      (hids : ((v.rows ++ rows).map (·.id)).Nodup) (hfresh : ∀ r ∈ rows, e.fresh r.id)
      (hrows : ∀ r ∈ rows, r.Sent d plan) (hfree : e.free rows)
      (hafter : stand.After rows fun target ↦
        (∃ endpoint, target = .route endpoint) ∧ coord.id ∈ rows.map (·.nodeId)) :
      Dispatch e v
        { v with
          face := some { f with state := .loading }, rows := v.rows ++ rows
          ops := o.dispatched stand rows [] :: rest }
  | watch {f : Face} {o : OpView} {rest : List OpView} {dep : Deployment} (rows : List RowView)
      (stand : Stand) (excluded : List NodeId)
      (hface : v.face = some f) (hops : v.ops = o :: rest)
      (hwork : o.work = .start dep v.generation) (hstand : o.stand = .idle)
      (hrunning : v.running = true) (hkind : dep.spec.kind = .external)
      (hids : ((v.rows ++ rows).map (·.id)).Nodup) (hfresh : ∀ r ∈ rows, e.fresh r.id)
      (hrows : ∀ r ∈ rows, r.deploymentId = d ∧ r.live = true ∧ r.watch = true)
      (hplaced : ∀ r ∈ rows, e.present r.nodeId = true)
      (hafter : stand.After rows fun target ↦ (∃ endpoint, target = .route endpoint) ∧ rows ≠ []) :
      Dispatch e v
        { v with
          face := some { f with plan := none, state := .loading }, rows := v.rows ++ rows
          ops := o.dispatched stand rows excluded :: rest }

end

/-! ## The rows -/

/-- Rows belong to a deployment that is there, and watch exactly when it is external. -/
structure View.RowsGood (d : DeploymentId) (v : View) : Prop where
  ids : (v.rows.map (·.id)).Nodup
  own : ∀ r ∈ v.rows, r.deploymentId = d
  placed : v.rows ≠ [] → v.face.isSome = true
  watch : ∀ f, v.face = some f → ∀ r ∈ v.rows, r.watch = true ↔ f.spec.kind = .external

variable {d : DeploymentId} {v w : View} {k : Deps} {T : Terms} {c : Ambient} {o : OpView}
  {rest : List OpView}

theorem Move.rowsGood (h : v.RowsGood d) (hm : Move k T c d v w) : w.RowsGood d := by
  obtain ⟨hids, hown, hplaced, hwatch⟩ := h
  refine ⟨?_, ?_, ?_, ?_⟩
  all_goals cases hm <;> grind [View.setState, View.setReady, View.halt, View.setRowState,
    View.hear, View.settle, View.expire, View.block, DeploymentKind.planned]

theorem Move.rows_sub
    (hm : Move k T c d v w) : ∀ r ∈ w.rows, ∃ q ∈ v.rows, r = { q with state := r.state } := by
  have hsame : ∀ r ∈ v.rows, ∃ q ∈ v.rows, r = { q with state := r.state } :=
    fun r hr ↦ ⟨r, hr, rfl⟩
  cases hm with
  | rowState =>
    intro r hr
    obtain ⟨q, hq, rfl⟩ := List.mem_map.mp hr
    refine ⟨q, hq, ?_⟩
    split_ifs <;> rfl
  | removed => simp
  | _ => exact hsame

/-! ## The queue -/

def Cont.Fits (v : View) : Cont → Prop
  | .distribution spec generation => generation ≤ v.generation ∧ spec.kind.planned = true ∧
      ∀ f, v.face = some f → f.spec.kind.planned = true
  | _ => True

/-- The queue is a start, or a stop somebody awaits, with cleanups behind it. -/
structure View.QueueGood (d : DeploymentId) (v : View) : Prop where
  snapshot : ∀ o ∈ v.ops, ∀ dep generation, o.work = .start dep generation →
    generation ≤ v.generation ∧ dep.id = d ∧ ∃ f, v.face = some f ∧ f.spec = dep.spec
  tail : ∀ o ∈ v.ops.tail, o.Behind
  removes : ∀ o ∈ v.ops, o.cont = .remove → o.work = .stop
  moves : ∀ o ∈ v.ops, ∀ origin, o.cont = .move origin → o.work.isStart = true
  fits : ∀ o ∈ v.ops, o.cont.Fits v
  fitsJobs : ∀ cont result sent excluded, .settled cont result sent excluded ∈ v.jobs → cont.Fits v
  one : v.jobs.countP Job.isSettled ≤ 1
  grave : ∀ j ∈ v.jobs, j.Grave → ∀ o ∈ v.ops, o.Behind
  late : ∀ why, .lateFailure why ∈ v.jobs →
    ∀ cont result sent excluded, .settled cont result sent excluded ∈ v.jobs → cont = .remove

/-- The deployment keeps its spec, up to another planned one, and generations only grow. -/
structure View.Keeps (v w : View) : Prop where
  generation : v.generation ≤ w.generation
  kind : ∀ g, w.face = some g → ∃ f, v.face = some f ∧
    (f.spec.kind.planned = true → g.spec.kind.planned = true)
  spec : (∀ o ∈ v.ops, o.work.isStart = false) ∨
    ∀ f, v.face = some f → ∃ g, w.face = some g ∧ g.spec = f.spec

namespace View.Keeps

theorem same (hface : w.face = v.face := by rfl)
    (hgeneration : v.generation ≤ w.generation := by exact le_rfl) : v.Keeps w where
  generation := hgeneration
  kind g hg := ⟨g, hface ▸ hg, id⟩
  spec := .inr fun f hf ↦ ⟨f, hface ▸ hf, rfl⟩

theorem map {g : Face → Face} (hface : w.face = v.face.map g)
    (hgeneration : v.generation ≤ w.generation := by exact le_rfl)
    (hg : ∀ f, (g f).spec = f.spec := by exact fun _ ↦ rfl) : v.Keeps w where
  generation := hgeneration
  kind g' hg' := by
    obtain ⟨f, hf, rfl⟩ := Option.map_eq_some_iff.mp (hface.symm.trans hg')
    exact ⟨f, hf, fun hkind ↦ (hg f).symm ▸ hkind⟩
  spec := .inr fun f hf ↦ ⟨g f, by rw [hface, hf]; rfl, hg f⟩

end View.Keeps

theorem Cont.Fits.mono {cont : Cont} (h : cont.Fits v) (hk : v.Keeps w) : cont.Fits w := by
  cases cont with
  | distribution spec generation =>
    obtain ⟨hgen, hspec, hface⟩ := h
    refine ⟨hgen.trans hk.generation, hspec, fun g hg ↦ ?_⟩
    obtain ⟨f, hf, hfg⟩ := hk.kind g hg
    exact hfg (hface f hf)
  | _ => trivial

theorem exists_of_task_eq {ops ops' : List OpView}
    (h : ops'.map OpView.task = ops.map OpView.task) {p : OpView} (hp : p ∈ ops') :
    ∃ q ∈ ops, q.work = p.work ∧ q.cont = p.cont := by
  have hmem : p.task ∈ ops.map OpView.task := h ▸ List.mem_map_of_mem hp
  obtain ⟨q, hq, hqp⟩ := List.mem_map.mp hmem
  exact ⟨q, hq, congrArg Prod.fst hqp, congrArg Prod.snd hqp⟩

namespace View.QueueGood

private theorem snapshot_mono (h : v.QueueGood d) (hk : v.Keeps w) (ho : o ∈ v.ops)
    {dep : Deployment} {generation : ℕ} (hwork : o.work = .start dep generation) :
    generation ≤ w.generation ∧ dep.id = d ∧ ∃ f, w.face = some f ∧ f.spec = dep.spec := by
  obtain ⟨hgen, hid, f, hf, hspec⟩ := h.snapshot o ho dep generation hwork
  refine ⟨hgen.trans hk.generation, hid, ?_⟩
  rcases hk.spec with hstart | hsame
  · have := hstart o ho
    rw [hwork] at this
    cases this
  · obtain ⟨g, hg, hgf⟩ := hsame f hf
    exact ⟨g, hg, hgf.trans hspec⟩

theorem keep (h : v.QueueGood d) (hk : v.Keeps w)
    (hops : w.ops.map OpView.task = v.ops.map OpView.task := by rfl)
    (hjobs : w.jobs.Sublist v.jobs := by exact .refl _) : w.QueueGood d := by
  have htail : w.ops.tail.map OpView.task = v.ops.tail.map OpView.task := by
    rw [List.map_tail, List.map_tail, hops]
  constructor
  · intro p hp dep generation hwork
    obtain ⟨q, hq, hw, -⟩ := exists_of_task_eq hops hp
    exact h.snapshot_mono hk hq (hw.trans hwork)
  · intro p hp
    obtain ⟨q, hq, hw, hc⟩ := exists_of_task_eq htail hp
    exact ⟨hw ▸ (h.tail q hq).work, hc ▸ (h.tail q hq).cont⟩
  · intro p hp hcont
    obtain ⟨q, hq, hw, hc⟩ := exists_of_task_eq hops hp
    exact hw ▸ h.removes q hq (hc.trans hcont)
  · intro p hp origin hcont
    obtain ⟨q, hq, hw, hc⟩ := exists_of_task_eq hops hp
    exact hw ▸ h.moves q hq origin (hc.trans hcont)
  · intro p hp
    obtain ⟨q, hq, -, hc⟩ := exists_of_task_eq hops hp
    exact hc ▸ (h.fits q hq).mono hk
  · intro cont result sent excluded hj
    exact (h.fitsJobs cont result sent excluded (hjobs.subset hj)).mono hk
  · exact (hjobs.countP_le).trans h.one
  · intro j hj hgrave p hp
    obtain ⟨q, hq, hw, hc⟩ := exists_of_task_eq hops hp
    have := h.grave j (hjobs.subset hj) hgrave q hq
    exact ⟨hw ▸ this.work, hc ▸ this.cont⟩
  · intro why hj cont result sent excluded hs
    exact h.late why (hjobs.subset hj) cont result sent excluded (hjobs.subset hs)

theorem behind (h : v.QueueGood d) (hk : v.Keeps w) (ho : o.Behind)
    (hstop : o.cont = .remove → o.work = .stop) (hops : w.ops = v.ops ++ [o])
    (hjobs : w.jobs = v.jobs) : w.QueueGood d := by
  have hall : ∀ {P : OpView → Prop}, (∀ p ∈ v.ops, P p) → P o → ∀ p ∈ w.ops, P p :=
    fun hold hnew ↦ hops ▸ List.forall_mem_append.mpr ⟨hold, List.forall_mem_singleton.mpr hnew⟩
  constructor
  · refine hall (fun p hp dep generation hwork ↦ h.snapshot_mono hk hp hwork) ?_
    intro dep generation hwork
    cases (congrArg Work.isStart hwork).symm.trans ho.work
  · intro p hp
    rw [hops] at hp
    cases hv : v.ops with
    | nil => simp [hv] at hp
    | cons =>
      rw [hv, List.cons_append, List.tail_cons, List.mem_append, List.mem_singleton] at hp
      rcases hp with hp | rfl
      · exact h.tail p (by rwa [hv])
      · exact ho
  · exact hall h.removes hstop
  · refine hall h.moves fun origin hcont ↦ ?_
    rcases ho.cont with hc | hc <;> rw [hc] at hcont <;> cases hcont
  · refine hall (fun p hp ↦ (h.fits p hp).mono hk) ?_
    rcases ho.cont with hc | hc <;> rw [hc] <;> trivial
  · intro cont result sent excluded hj
    exact (h.fitsJobs cont result sent excluded (hjobs ▸ hj)).mono hk
  · exact hjobs ▸ h.one
  · exact fun j hj hgrave ↦ hall (h.grave j (hjobs ▸ hj) hgrave) ho
  · exact hjobs ▸ h.late

theorem first (h : v.QueueGood d) (hk : v.Keeps w) (hops : w.ops = [o])
    (hjobs : w.jobs = v.jobs) (hgrave : ∀ j ∈ v.jobs, ¬j.Grave)
    (hsnapshot : ∀ dep generation, o.work = .start dep generation →
      generation ≤ w.generation ∧ dep.id = d ∧ ∃ f, w.face = some f ∧ f.spec = dep.spec)
    (hremoves : o.cont = .remove → o.work = .stop)
    (hmoves : ∀ origin, o.cont = .move origin → o.work.isStart = true) (hfits : o.cont.Fits w) :
    w.QueueGood d := by
  have hone : ∀ p ∈ w.ops, o = p := by simp [hops]
  exact {
    snapshot := fun p hp ↦ hone p hp ▸ hsnapshot
    tail := by simp [hops]
    removes := fun p hp ↦ hone p hp ▸ hremoves
    moves := fun p hp ↦ hone p hp ▸ hmoves
    fits := fun p hp ↦ hone p hp ▸ hfits
    fitsJobs := fun cont result sent excluded hj ↦
      (h.fitsJobs cont result sent excluded (hjobs ▸ hj)).mono hk
    one := hjobs ▸ h.one
    grave := fun j hj hj' ↦ absurd hj' (hgrave j (hjobs ▸ hj))
    late := hjobs ▸ h.late }

theorem settle (h : v.QueueGood d) (hops : v.ops = o :: rest)
    (hclear : v.Clear) (result : Except String Unit) : (v.settle o rest result).QueueGood d := by
  have hmem : ∀ p ∈ rest, p ∈ v.ops := fun p hp ↦ hops ▸ List.mem_cons_of_mem o hp
  have hhead : o ∈ v.ops := hops ▸ List.mem_cons_self
  have hbehind : ∀ p ∈ rest, p.Behind := fun p hp ↦ h.tail p (by rwa [hops])
  have hk : v.Keeps (v.settle o rest result) := .same rfl le_rfl
  have hnone : v.jobs.countP Job.isSettled = 0 :=
    List.countP_eq_zero.mpr fun j hj ↦ by simp [hclear j hj]
  constructor
  · exact fun p hp dep generation hwork ↦ h.snapshot_mono hk (hmem p hp) hwork
  · exact fun p hp ↦ hbehind p (List.mem_of_mem_tail hp)
  · exact fun p hp ↦ h.removes p (hmem p hp)
  · exact fun p hp ↦ h.moves p (hmem p hp)
  · exact fun p hp ↦ (h.fits p (hmem p hp)).mono hk
  · intro cont result' sent excluded hj
    rw [← hclear.cont_of_settle hj]
    exact (h.fits o hhead).mono hk
  · simp only [View.settle, List.countP_append, hnone]
    split_ifs <;> simp [Job.isSettled]
  · exact fun _ _ _ ↦ hbehind
  · intro why hj cont result' sent excluded hs
    -- A late failure is due, so what settles is a cleanup or a stop.
    have hj : Job.lateFailure why ∈ v.jobs := by
      rcases List.mem_append.mp hj with hj | hj
      · exact hj
      · split_ifs at hj
        · cases hj
        · cases List.mem_singleton.mp hj
    have ho := h.grave _ hj trivial o hhead
    rcases List.mem_append.mp hs with hs | hs
    · cases hclear _ hs
    · split_ifs at hs with hcont
      · cases hs
      · cases List.mem_singleton.mp hs
        exact ho.cont.resolve_left hcont

end View.QueueGood

theorem Move.queueGood (h : v.QueueGood d) (hm : Move k T c d v w) : w.QueueGood d := by
  cases hm with
  | book => exact h
  | respec spec hface hops => exact h.keep ⟨le_rfl, by grind, .inl (by simp [hops])⟩
  | expire | rowState | traffic => exact h.keep .same
  | heard => exact h.keep .same v.task_hear
  | acceptStop cont hface hcont =>
    have hk : ∀ w : View, w.face = (v.setState .draining).face → w.generation = v.generation + 1 →
        v.Keeps w := fun w hw hgen ↦ .map hw (hgen ▸ Nat.le_succ _) fun _ ↦ rfl
    rcases hcont with rfl | rfl | ⟨hops, hjobs, -, hcont⟩
    · exact h.behind (hk _ rfl rfl) ⟨rfl, .inl rfl⟩ (fun _ ↦ rfl) rfl rfl
    · exact h.behind (hk _ rfl rfl) ⟨rfl, .inr rfl⟩ (fun _ ↦ rfl) rfl rfl
    · refine h.first (hk _ rfl rfl) (by rw [hops]; rfl) rfl (by simp [hjobs]) ?_ ?_ ?_ ?_
      · exact fun dep generation hwork ↦ nomatch hwork
      · exact fun _ ↦ rfl
      · rcases hcont with rfl | ⟨spec, f, rfl, -⟩ <;> exact fun _ hc ↦ nomatch hc
      · rcases hcont with rfl | ⟨spec, f, rfl, hspec, hf, hkind⟩
        · trivial
        · exact ⟨le_rfl, hspec, by grind⟩
  | @acceptStart f dep cont hface hid hspec hops hjobs hlicense hcont =>
    refine h.first (.map rfl) (by rw [hops]; rfl) rfl hjobs ?_ ?_ ?_ ?_
    · rintro dep' generation hwork
      cases hwork
      exact ⟨le_rfl, hid, by grind⟩
    · rcases hcont with rfl | ⟨o, rfl⟩ | rfl | rfl <;> exact fun hc ↦ nomatch hc
    · exact fun _ _ ↦ rfl
    · rcases hcont with rfl | ⟨o, rfl⟩ | rfl | rfl <;> trivial
  | failed | crashed | offline =>
    exact h.behind (.map rfl (Nat.le_succ _)) ⟨rfl, .inl rfl⟩ (by simp) rfl rfl
  | watchLost | watchReady | drained | drain =>
    exact h.keep (.map rfl)
  | caught excluded hops => exact h.keep (.map rfl) (by rw [hops]; rfl)
  | settleError error hops hclear | teardownDone hops hwork hclear => exact h.settle hops hclear _
  | stopDone hops hwork hrows hclear =>
    exact (h.keep (w := v.halt) (.map rfl)).settle
      hops hclear _
  | @ready o rest dep endpoint hops hwork hstand hrunning hclear =>
    exact (h.keep (w := v.setReady endpoint) (.map rfl)).settle
      hops hclear _
  | popJob => exact h.keep .same rfl (List.eraseIdx_sublist ..)
  | late => exact h.keep (.map rfl) rfl (List.eraseIdx_sublist ..)
  | removed i sent excluded hj =>
    have hbehind := h.grave _ (List.mem_of_getElem? hj) trivial
    exact h.keep ⟨le_rfl, by simp, .inl fun o ho ↦ (hbehind o ho).work⟩ rfl
      (List.eraseIdx_sublist ..)
  | pushLate why hops =>
    exact { h with
      fitsJobs := by simp
      one := by simp [Job.isSettled]
      grave := fun _ _ _ ↦ hops
      late := by simp }
  | pushRefused origin error hops =>
    exact { h with
      fitsJobs := by
        rintro cont result sent excluded hj
        cases List.mem_singleton.mp hj
        trivial
      one := by simp [Job.isSettled]
      grave := by simp [hops]
      late := by simp }
  | applySpec spec hface hname hold hnew hops =>
    exact h.keep ⟨le_rfl, by grind, .inl hops⟩

/-! ## The intent -/

/-- What the stored intent says of the queue and of the state. -/
structure View.IntentGood (v : View) : Prop where
  lonely : v.running = false → ∀ o, v.ops = [o] → o.work.isStart = false
  refused : ∀ origin error sent excluded,
    .settled (.move origin) (.error error) sent excluded ∈ v.jobs → v.running = true ∨ v.ops ≠ []
  removing : ∀ result sent excluded, .settled .remove result sent excluded ∈ v.jobs →
    v.running = false
  stopping : ∀ o ∈ v.ops, o.work = .stop → v.running = false
  stopped : ∀ f, v.face = some f → f.state = .stopped → v.running = false
  serving : ∀ f, v.face = some f → f.state = .ready → v.running = true ∧ v.reconnecting = false
  reconnect : v.reconnecting = true → v.running = true
  current : ∀ o ∈ v.ops, ∀ dep, o.work = .start dep v.generation →
    v.running = true ∧ v.reconnecting = false

namespace View.IntentGood

theorem keep (h : v.IntentGood)
    (hstopped : ∀ g, w.face = some g → g.state = .stopped → v.running = false)
    (hserving : ∀ g, w.face = some g → g.state = .ready → v.running = true ∧ v.reconnecting = false)
    (hreconnect : w.reconnecting = true → v.reconnecting = true := by exact id)
    (hops : w.ops.map OpView.task = v.ops.map OpView.task := by rfl)
    (hjobs : w.jobs ⊆ v.jobs := by exact List.Subset.refl _)
    (hrunning : w.running = v.running := by rfl)
    (hgeneration : w.generation = v.generation := by rfl) : w.IntentGood := by
  have hfalse : v.reconnecting = false → w.reconnecting = false := by
    intro hv
    by_contra hw
    rw [hreconnect (by simpa using hw)] at hv
    cases hv
  constructor
  · intro hrun p hp
    rw [hp, List.map_singleton, eq_comm, List.map_eq_singleton_iff] at hops
    obtain ⟨q, hq, hqp⟩ := hops
    have := h.lonely (hrunning ▸ hrun) q hq
    rwa [show q.work = p.work from congrArg Prod.fst hqp] at this
  · intro origin error sent excluded hj
    refine (h.refused origin error sent excluded (hjobs hj)).imp (hrunning ▸ ·) fun hne hw ↦ hne ?_
    simpa [hw] using hops.symm
  · exact fun result sent excluded hj ↦ hrunning ▸ h.removing result sent excluded (hjobs hj)
  · intro p hp hwork
    obtain ⟨q, hq, hw, -⟩ := exists_of_task_eq hops hp
    exact hrunning ▸ h.stopping q hq (hw.trans hwork)
  · rw [hrunning]
    exact hstopped
  · rw [hrunning]
    exact fun g hg hs ↦ (hserving g hg hs).imp_right hfalse
  · rw [hrunning]
    exact fun hr ↦ h.reconnect (hreconnect hr)
  · intro p hp dep hwork
    obtain ⟨q, hq, hw, -⟩ := exists_of_task_eq hops hp
    rw [hrunning]
    exact (h.current q hq dep (by rw [hw, hwork, hgeneration])).imp_right hfalse

theorem behind (h : v.IntentGood) (hq : v.QueueGood d) (ho : o.work.isStart = false)
    (hops : w.ops = v.ops ++ [o]) (hjobs : w.jobs = v.jobs)
    (hgeneration : w.generation = v.generation + 1)
    (hrunning : w.running = false ∨ w.running = v.running ∧ o.work ≠ .stop)
    (hstate : ∀ g, w.face = some g → g.state ≠ .stopped ∧ g.state ≠ .ready)
    (hreconnect : w.reconnecting = true → w.running = true) : w.IntentGood := by
  have hmem : ∀ p, p ∈ w.ops → p ∈ v.ops ∨ p = o := by simp [hops]
  refine ⟨?_, ?_, ?_, ?_, fun g hg hs ↦ absurd hs (hstate g hg).1,
    fun g hg hs ↦ absurd hs (hstate g hg).2, hreconnect, ?_⟩
  · intro _ p hp
    rw [hops, List.append_eq_singleton_iff] at hp
    rcases hp with ⟨-, hp⟩ | ⟨-, hp⟩
    · cases hp
      exact ho
    · cases hp
  · exact fun _ _ _ _ _ ↦ .inr (by simp [hops])
  · intro result sent excluded hj
    have := h.removing result sent excluded (hjobs ▸ hj)
    rcases hrunning with hrunning | ⟨hrunning, -⟩ <;> rw [hrunning]
    exact this
  · intro p hp hwork
    rcases hrunning with hrunning | ⟨hrunning, hstop⟩
    · exact hrunning
    · rcases hmem p hp with hp | rfl
      · rw [hrunning]
        exact h.stopping p hp hwork
      · exact absurd hwork hstop
  · intro p hp dep hwork
    rcases hmem p hp with hp | rfl
    · have := (hq.snapshot p hp dep _ hwork).1
      omega
    · rw [hwork] at ho
      cases ho

theorem settle (h : v.IntentGood) (hq : v.QueueGood d)
    (hops : v.ops = o :: rest) (hclear : v.Clear) (result : Except String Unit) :
    (v.settle o rest result).IntentGood := by
  have hmem : ∀ p ∈ rest, p ∈ v.ops := fun p hp ↦ hops ▸ List.mem_cons_of_mem o hp
  have hhead : o ∈ v.ops := hops ▸ List.mem_cons_self
  refine ⟨?_, ?_, ?_, fun p hp ↦ h.stopping p (hmem p hp), h.stopped, h.serving, h.reconnect,
    fun p hp ↦ h.current p (hmem p hp)⟩
  · intro _ p hp
    refine (hq.tail p ?_).work
    rw [hops, show rest = [p] from hp]
    exact List.mem_singleton_self p
  · intro origin error sent excluded hj
    have hcont := hclear.cont_of_settle hj
    by_contra! hno
    obtain ⟨hrunning, rfl⟩ : v.running ≠ true ∧ rest = [] := hno
    have := h.lonely (by simpa using hrunning) o hops
    rw [hq.moves o hhead origin hcont] at this
    cases this
  · intro result' sent excluded hj
    exact h.stopping o hhead (hq.removes o hhead (hclear.cont_of_settle hj))

end View.IntentGood

theorem not_of_mem_eraseIdx {α : Type*} {p : α → Bool} {l : List α} (h : l.countP p ≤ 1)
    {i : ℕ} {a : α} (hi : l[i]? = some a) (ha : p a = true) :
    ∀ b ∈ l.eraseIdx i, p b = false := by
  induction l generalizing i with
  | nil => simp
  | cons b l ih =>
    cases i with
    | zero =>
      obtain rfl : b = a := by simpa using hi
      rw [List.countP_cons_of_pos ha] at h
      have : l.countP p = 0 := by omega
      simpa using List.countP_eq_zero.mp this
    | succ =>
      have hmem : a ∈ l := List.mem_of_getElem? (by simpa using hi)
      have hpos : 0 < l.countP p := List.countP_pos_iff.mpr ⟨a, hmem, ha⟩
      by_cases hb : p b = true
      · rw [List.countP_cons_of_pos hb] at h
        omega
      · rw [List.countP_cons_of_neg hb] at h
        intro x hx
        rcases List.mem_cons.mp hx with rfl | hx
        · simpa using hb
        · exact ih h (by simpa using hi) x hx

theorem Move.intentGood
    (hq : v.QueueGood d) (h : v.IntentGood) (hm : Move k T c d v w) : w.IntentGood := by
  cases hm with
  | book => exact h
  | respec spec hface =>
    refine h.keep ?_ ?_
    · rintro g ⟨⟩ hstate
      exact h.stopped _ hface hstate
    · rintro g ⟨⟩ hstate
      exact h.serving _ hface hstate
  | expire | traffic | rowState => exact h.keep h.stopped h.serving
  | heard => exact h.keep h.stopped h.serving id v.task_hear
  | acceptStop => exact h.behind hq rfl rfl rfl rfl (.inl rfl) (by grind) (by simp)
  | acceptStart dep cont hface hid hspec hops hjobs =>
    refine ⟨by simp, fun _ _ _ _ _ ↦ .inl rfl, ?_, ?_, by grind, by grind, fun _ ↦ rfl,
      fun _ _ _ _ ↦ ⟨rfl, rfl⟩⟩
    · exact fun _ _ _ hj ↦ absurd trivial (hjobs _ hj)
    intro o ho hwork
    rw [hops, List.nil_append, List.mem_singleton] at ho
    rw [ho] at hwork
    cases hwork
  | failed | crashed => exact h.behind hq rfl rfl rfl rfl (.inr ⟨rfl, by simp⟩) (by grind) (by simp)
  | offline hface hrunning =>
    exact h.behind hq rfl rfl rfl rfl (.inr ⟨rfl, by simp⟩) (by grind) (fun _ ↦ hrunning)
  | watchLost | drain => exact h.keep (by grind) (by grind)
  | watchReady endpoint hface hkind hrunning hreconnecting =>
    exact h.keep (by grind) fun _ _ _ ↦ ⟨hrunning, hreconnecting⟩
  | drained hrunning => exact h.keep (fun _ _ _ ↦ hrunning) (by grind)
  | caught excluded hops => exact h.keep (by grind) (by grind) (by simp) (by rw [hops]; rfl)
  | settleError error hops hclear | teardownDone hops hwork hclear =>
    exact h.settle hq hops hclear _
  | @stopDone o rest hops hwork hrows hclear =>
    have hstop := h.stopping o (hops ▸ List.mem_cons_self) hwork
    exact (h.keep (w := v.halt) (fun _ _ _ ↦ hstop) (by grind)).settle (hq.keep (.map rfl))
      hops hclear _
  | @ready o rest dep endpoint hops hwork hstand hrunning hclear =>
    have hcurrent := h.current o (hops ▸ List.mem_cons_self) dep hwork
    exact (h.keep (w := v.setReady endpoint) (by grind) fun _ _ _ ↦ hcurrent).settle
      (hq.keep (.map rfl)) hops hclear _
  | popJob => exact h.keep h.stopped h.serving id rfl (List.eraseIdx_subset ..)
  | late => exact h.keep (by grind) (by grind) (by simp) rfl (List.eraseIdx_subset ..)
  | removed i sent excluded hj =>
    have hmem := List.mem_of_getElem? hj
    have hpopped := not_of_mem_eraseIdx hq.one hj rfl
    refine ⟨?_, ?_, fun _ _ _ _ ↦ rfl, fun _ _ _ ↦ rfl, by simp, by simp, ?_, ?_⟩
    · exact fun _ o ho ↦ (hq.grave _ hmem trivial o (by simp [show v.ops = [o] from ho])).work
    · exact fun _ _ _ _ hs ↦ nomatch hpopped _ hs
    · intro hr
      cases (h.removing _ _ _ hmem).symm.trans (h.reconnect hr)
    · intro o ho dep hwork
      cases (h.removing _ _ _ hmem).symm.trans (h.current o ho dep hwork).1
  | pushLate => exact { h with refused := by simp, removing := by simp }
  | pushRefused origin error hops hjobs hrunning =>
    exact { h with refused := fun _ _ _ _ _ ↦ .inl hrunning, removing := by simp }
  | applySpec =>
    refine h.keep ?_ ?_
    · rintro g ⟨⟩ ⟨⟩
    · rintro g ⟨⟩ ⟨⟩

/-! ## The start under way -/

def Face.Rising (f : Face) : Prop :=
  f.state = .placing ∨ f.state = .loading ∨ f.state = .ready ∧ f.spec.kind = .external

/-- What holds of one operation. A start that is not cancelled keeps its deployment rising until it
fails, and while it waits for workers their plan is the stored one and has no block on it. -/
structure View.StartGood (v : View) (o : OpView) : Prop where
  idle : o.stand = .idle → o.sent = [] ∧ o.excluded = []
  rising : ∀ dep, o.work = .start dep v.generation → o.stand ≠ .cleaning →
    ∃ f, v.face = some f ∧ f.Rising
  waiting : ∀ dep, o.work = .start dep v.generation → ∀ plan coord workers pending,
    o.stand = .awaiting (.workers plan coord workers) pending →
      (∀ n ∈ planNodes plan, n ∉ o.excluded) ∧ dep.spec.kind = .split ∧
      coord.id = plan.coordinatorNodeId ∧ plan.nativeExecution = none ∧
      v.blocked (planFingerprint plan) = none ∧ ∃ f, v.face = some f ∧ f.plan = some plan

namespace View.StartGood

theorem of_old (h : v.StartGood o) (hwork : ∀ dep, o.work ≠ .start dep w.generation) :
    w.StartGood o :=
  ⟨h.idle, fun dep hw ↦ absurd hw (hwork dep), fun dep hw ↦ absurd hw (hwork dep)⟩

theorem of_notStart (h : v.StartGood o) (hwork : o.work.isStart = false) : w.StartGood o :=
  h.of_old fun dep hw ↦ by simp [hw, Work.isStart] at hwork

theorem keep (h : v.StartGood o)
    (hface : ∀ f, v.face = some f → ∃ g, w.face = some g ∧ g.plan = f.plan ∧ (f.Rising → g.Rising))
    (hblocked : ∀ fp, v.blocked fp = none → w.blocked fp = none := by exact fun _ h ↦ h)
    (hgeneration : w.generation = v.generation := by rfl) : w.StartGood o where
  idle := h.idle
  rising dep hwork hstand := by
    obtain ⟨f, hf, hr⟩ := h.rising dep (hgeneration ▸ hwork) hstand
    obtain ⟨g, hg, -, hfg⟩ := hface f hf
    exact ⟨g, hg, hfg hr⟩
  waiting dep hwork plan coord workers pending hstand := by
    obtain ⟨hex, hsplit, hid, hnative, hb, f, hf, hplan⟩ :=
      h.waiting dep (hgeneration ▸ hwork) plan coord workers pending hstand
    obtain ⟨g, hg, hfg, -⟩ := hface f hf
    exact ⟨hex, hsplit, hid, hnative, hblocked _ hb, g, hg, hfg.trans hplan⟩

theorem hear (h : v.StartGood o) (id : AssignmentId) (state : AssignmentState) :
    v.StartGood (o.hear id state) := by
  unfold OpView.hear
  split
  · rename_i target pending hstand
    split_ifs with hs
    · refine ⟨fun hi ↦ (nomatch hi), fun dep hwork _ ↦ h.rising dep hwork (by simp [hstand]), ?_⟩
      rintro dep hwork plan coord workers pending' ⟨⟩
      exact h.waiting dep hwork plan coord workers pending hstand
    · exact h
  · exact h

end View.StartGood

theorem Move.startGood (hq : v.QueueGood d) (hi : v.IntentGood) (h : ∀ o ∈ v.ops, v.StartGood o)
    (hm : Move k T c d v w) : ∀ o ∈ w.ops, w.StartGood o := by
  have hbehind : ∀ {o rest}, v.ops = o :: rest → ∀ p ∈ rest, p.work.isStart = false :=
    fun hops p hp ↦ (hq.tail p (by rw [hops]; exact hp)).work
  have hrest : ∀ {o rest}, v.ops = o :: rest → ∀ p ∈ rest, v.StartGood p :=
    fun hops p hp ↦ h p (hops ▸ List.mem_cons_of_mem _ hp)
  cases hm with
  | book => exact h
  | respec spec hface hops | pushRefused origin error hops => simp [hops]
  | expire fingerprint =>
    refine fun o ho ↦ (h o ho).keep (fun f hf ↦ ⟨f, hf, rfl, id⟩) fun fp hfp ↦ ?_
    by_cases heq : fp = fingerprint
    · subst heq
      simp [View.expire, hfp]
    · simp [View.expire, heq, hfp]
  | heard id state =>
    intro o ho
    obtain ⟨p, hp, rfl⟩ := List.mem_map.mp ho
    exact ((h p hp).hear id state).keep fun f hf ↦ ⟨f, hf, rfl, fun hr ↦ hr⟩
  | acceptStop | failed | crashed | offline =>
    -- Cancelling leaves no current start.
    refine List.forall_mem_append.mpr ⟨fun p hp ↦ (h p hp).of_old fun dep hwork ↦ ?_,
      List.forall_mem_singleton.mpr
        ⟨fun _ ↦ ⟨rfl, rfl⟩, fun _ hw ↦ (nomatch hw), fun _ hw ↦ (nomatch hw)⟩⟩
    exact absurd (hq.snapshot p hp dep _ hwork).1 (Nat.not_succ_le_self _)
  | @acceptStart f dep cont hface hid hspec hops =>
    intro o ho
    rw [hops, List.nil_append, List.mem_singleton] at ho
    subst ho
    refine ⟨fun _ ↦ ⟨rfl, rfl⟩, fun _ _ _ ↦ ?_, fun _ _ _ _ _ _ hstand ↦ nomatch hstand⟩
    exact ⟨{ f with state := .placing, endpoint := none }, by simp [View.setState, hface], .inl rfl⟩
  | watchLost =>
    refine fun o ho ↦ (h o ho).keep fun f hf ↦ ?_
    exact ⟨{ f with state := .loading, endpoint := none }, by simp [View.setState, hf], rfl,
      fun _ ↦ .inr (.inl rfl)⟩
  | @watchReady f endpoint hface hkind =>
    refine fun o ho ↦ (h o ho).keep fun g hg ↦ ?_
    obtain rfl : f = g := by simpa [hface] using hg
    exact ⟨{ f with state := .ready, endpoint := some endpoint }, by simp [View.setReady, hg], rfl,
      fun _ ↦ .inr (.inr ⟨rfl, hkind⟩)⟩
  | drained hrunning =>
    refine fun o ho ↦ (h o ho).of_old fun dep hwork ↦ ?_
    cases hrunning.symm.trans (hi.current o ho dep hwork).1
  | caught excluded hops =>
    intro p hp
    rcases List.mem_cons.mp hp with rfl | hp
    · exact ⟨fun hidle ↦ (nomatch hidle), fun _ _ hne ↦ absurd rfl hne,
        fun _ _ _ _ _ _ hstand ↦ (nomatch hstand)⟩
    · exact (hrest hops p hp).of_notStart (hbehind hops p hp)
  | settleError error hops | teardownDone hops | stopDone hops | ready hops =>
    exact fun p hp ↦ (hrest hops p hp).of_notStart (hbehind hops p hp)
  | popJob | traffic | rowState => exact fun o ho ↦ (h o ho).keep fun f hf ↦ ⟨f, hf, rfl, id⟩
  | late i why hj | removed i sent excluded hj =>
    have hgrave := hq.grave _ (List.mem_of_getElem? hj) trivial
    exact fun o ho ↦ (h o ho).of_notStart (hgrave o ho).work
  | pushLate why hops => exact fun o ho ↦ (h o ho).of_notStart (hops o ho).work
  | applySpec spec hface hname hold hnew hops => exact fun o ho ↦ (h o ho).of_notStart (hops o ho)
  | drain hname hops => simp [View.setState, hops]

/-! ## What is released -/

def View.Cleared (v : View) : Prop :=
  ∀ sent excluded, .settled .remove (.ok ()) sent excluded ∈ v.jobs → ∀ r ∈ v.rows, r.live = false

def View.Acked (heard : List Heard) (v : View) : Prop :=
  ∀ r ∈ v.rows, r.live = false → ⟨r.nodeId, r.id, .stopped⟩ ∈ heard

theorem RowView.live_eq_false {r : RowView} : r.live = false ↔ r.state = .reported .stopped := by
  simp [RowView.live]

theorem Move.acked (h : v.Acked c.heard) (hm : Move k T c d v w) :
    w.Acked c.heard := by
  cases hm with
  | rowState id state hjobs hacked =>
    intro r hr hlive
    obtain ⟨q, hq, rfl⟩ := List.mem_map.mp hr
    split_ifs at hlive ⊢ with hid
    · exact hid ▸ hacked (RowView.live_eq_false.mp hlive) q hq hid
    · exact h q hq hlive
  | removed => simp [View.Acked]
  | _ => exact h

theorem Move.cleared (hq : v.QueueGood d) (h : v.Cleared) (hm : Move k T c d v w) :
    w.Cleared := by
  have hsettle : ∀ {o rest result} {u : View}, v.ops = o :: rest → u.rows = v.rows → v.Clear →
      u.jobs = v.jobs → (result = .ok () → o.cont = .remove → ∀ r ∈ v.rows, r.live = false) →
      (u.settle o rest result).Cleared := by
    intro o rest result u hops hrows hclear hjobs hall sent excluded hj
    rcases List.mem_append.mp hj with hj | hj
    · cases hclear _ (hjobs ▸ hj)
    · split_ifs at hj
      · cases hj
      · obtain ⟨hcont, hresult, -⟩ := Job.settled.inj (List.mem_singleton.mp hj)
        exact hrows ▸ hall hresult.symm hcont.symm
  cases hm with
  | rowState id state hjobs =>
    intro sent excluded hj
    rw [show (v.setRowState id state).jobs = [] from hjobs] at hj
    cases hj
  | settleError error hops hclear => exact hsettle hops rfl hclear rfl (fun he ↦ nomatch he)
  | @teardownDone o rest hops hwork hclear
  | @ready o rest dep endpoint hops hwork hstand hrunning hclear =>
    refine hsettle hops rfl hclear rfl fun _ hcont ↦ ?_
    cases hwork.symm.trans (hq.removes o (hops ▸ List.mem_cons_self) hcont)
  | stopDone hops hwork hrows hclear => exact hsettle hops rfl hclear rfl fun _ _ ↦ hrows
  | popJob | late i why hj =>
    exact fun sent excluded hj ↦ h sent excluded (List.mem_of_mem_eraseIdx hj)
  | removed | pushLate | pushRefused => simp [View.Cleared]
  | _ => exact h

/-! ## The invariant of every deployment -/

structure View.Good (d : DeploymentId) (v : View) : Prop where
  rows : v.RowsGood d
  queue : v.QueueGood d
  intent : v.IntentGood
  start : ∀ o ∈ v.ops, v.StartGood o
  cleared : v.Cleared

theorem Move.good (h : v.Good d) (hm : Move k T c d v w) :
    w.Good d :=
  ⟨hm.rowsGood h.rows, hm.queueGood h.queue, hm.intentGood h.queue h.intent,
    hm.startGood h.queue h.intent h.start, hm.cleared h.queue h.cleared⟩

private theorem View.Good.dispatch (h : v.Good d) {f g : Face} {p : OpView}
    {rows : List RowView} {dep : Deployment} (hface : v.face = some f) (hops : v.ops = o :: rest)
    (hwork : o.work = .start dep v.generation)
    (hw : w = { v with face := some g, rows := v.rows ++ rows, ops := p :: rest })
    (htask : p.task = o.task) (hspec : g.spec = f.spec)
    (hstopped : g.state = .stopped → f.state = .stopped)
    (hready : g.state = .ready → f.state = .ready)
    (hids : ((v.rows ++ rows).map (·.id)).Nodup) (hown : ∀ r ∈ rows, r.deploymentId = d)
    (hwatch : ∀ r ∈ rows, r.watch = true ↔ dep.spec.kind = .external)
    (hstart : w.StartGood p) : w.Good d := by
  subst hw
  have hhead : o ∈ v.ops := hops ▸ List.mem_cons_self
  obtain ⟨-, -, f', hf', hkind⟩ := h.queue.snapshot o hhead dep _ hwork
  obtain rfl : f = f' := by simpa [hface] using hf'
  have htasks : (p :: rest).map OpView.task = v.ops.map OpView.task := by
    rw [hops, List.map_cons, List.map_cons, htask]
  refine ⟨⟨hids, ?_, fun _ ↦ rfl, ?_⟩, ?_, ?_, ?_, ?_⟩
  · exact fun r hr ↦ (List.mem_append.mp hr).elim (h.rows.own r) (hown r)
  · rintro _ ⟨⟩ r hr
    rw [hspec]
    exact (List.mem_append.mp hr).elim (h.rows.watch f hface r) (hkind ▸ hwatch r)
  · exact h.queue.keep ⟨le_rfl, by grind, .inr (by grind)⟩ htasks
  · refine h.intent.keep ?_ ?_ id htasks
    · rintro _ ⟨⟩ hs
      exact h.intent.stopped f hface (hstopped hs)
    · rintro _ ⟨⟩ hs
      exact h.intent.serving f hface (hready hs)
  · intro q hq
    rcases List.mem_cons.mp hq with rfl | hq
    · exact hstart
    · have hmem : q ∈ v.ops := hops ▸ List.mem_cons_of_mem _ hq
      exact (h.start q hmem).of_notStart (h.queue.tail q (by rwa [hops])).work
  · -- A removal that is due leaves no start in the queue.
    intro sent excluded hj
    have := (h.queue.grave _ hj trivial o hhead).work
    simp [hwork, Work.isStart] at this

theorem Dispatch.good {e : Surroundings} (h : v.Good d) (hl : Dispatch d e v w) :
    w.Good d := by
  cases hl with
  | @planned f o rest dep plan state rows stand excluded hface hops hwork hstand hrunning hkind
      hblocked hstate hgone hplaced hexcluded hids hfresh hrows hfits hfree hafter =>
    have ho := h.start o (hops ▸ List.mem_cons_self)
    obtain ⟨g, hg, hrising⟩ := ho.rising dep hwork (by simp [hstand])
    obtain rfl : f = g := by simpa [hface] using hg
    refine h.dispatch hface hops hwork rfl rfl rfl ?_ ?_ hids (fun r hr ↦ (hrows r hr).own) ?_ ?_
    · rcases hstate with rfl | rfl <;> simp
    · rcases hstate with rfl | rfl <;> simp
    · intro r hr
      simp [(hrows r hr).watch, hkind]
    · refine ⟨?_, fun _ _ _ ↦ ⟨_, rfl, ?_⟩, ?_⟩
      · rcases hafter with rfl | ⟨target, rfl, -⟩ <;> exact fun hi ↦ nomatch hi
      · rcases hstate with rfl | rfl
        · exact hrising
        · exact .inr (.inl rfl)
      · intro dep' hwork' plan' coord workers pending hstand'
        obtain rfl : dep = dep' := (Work.start.inj (hwork.symm.trans hwork')).1
        obtain rfl | ⟨target, rfl, -, hworkers⟩ := hafter
        · cases hstand'
        · obtain ⟨rfl, -⟩ := Stand.awaiting.inj hstand'
          obtain ⟨rfl, hsplit, hcoord, hnative, -⟩ := hworkers _ _ _ rfl
          refine ⟨?_, hsplit, hcoord, hnative, hblocked (by rw [hsplit]; rfl), _, rfl, rfl⟩
          simpa [OpView.dispatched, (ho.idle hstand).2] using hexcluded
  | @coordinator f o rest dep plan coord workers rows stand hface hops hwork hstand hrunning
      hids hfresh hrows hfree hafter =>
    have ho := h.start o (hops ▸ List.mem_cons_self)
    obtain ⟨-, hsplit, -⟩ := ho.waiting dep hwork plan coord workers [] hstand
    refine h.dispatch hface hops hwork rfl rfl rfl (by simp) (by simp) hids
      (fun r hr ↦ (hrows r hr).own) ?_ ?_
    · intro r hr
      simp [(hrows r hr).watch, hsplit]
    · refine ⟨?_, fun _ _ _ ↦ ⟨_, rfl, .inr (.inl rfl)⟩, ?_⟩
      · rcases hafter with rfl | ⟨target, rfl, -⟩ <;> exact fun hi ↦ nomatch hi
      · intro dep' hwork' plan' coord workers pending hstand'
        obtain rfl | ⟨target, rfl, ⟨endpoint, rfl⟩, -⟩ := hafter <;> cases hstand'
  | @watch f o rest dep rows stand excluded hface hops hwork hstand hrunning hkind hids hfresh
      hrows hplaced hafter =>
    refine h.dispatch hface hops hwork rfl rfl rfl (by simp) (by simp) hids
      (fun r hr ↦ (hrows r hr).1) ?_ ?_
    · intro r hr
      simp [(hrows r hr).2.2, hkind]
    · refine ⟨?_, fun _ _ _ ↦ ⟨_, rfl, .inr (.inl rfl)⟩, ?_⟩
      · rcases hafter with rfl | ⟨target, rfl, -⟩ <;> exact fun hi ↦ nomatch hi
      · intro dep' hwork' plan' coord workers pending hstand'
        obtain rfl | ⟨target, rfl, ⟨endpoint, rfl⟩, -⟩ := hafter <;> cases hstand'

theorem Dispatch.acked {e : Surroundings} {heard : List Heard} (h : v.Acked heard)
    (hl : Dispatch d e v w) : w.Acked heard := by
  have hlive : ∀ {rows : List RowView}, (∀ r ∈ rows, r.live = true) →
      ∀ r ∈ v.rows ++ rows, r.live = false → ⟨r.nodeId, r.id, .stopped⟩ ∈ heard := by
    intro rows hrows r hr hdead
    rcases List.mem_append.mp hr with hr | hr
    · exact h r hr hdead
    · cases (hrows r hr).symm.trans hdead
  cases hl with
  | planned plan state rows stand excluded hface hops hwork hstand hrunning hkind hblocked hstate
      hgone hplaced hexcluded hids hfresh hrows
  | coordinator rows stand hface hops hwork hstand hrunning hids hfresh hrows =>
    exact hlive fun r hr ↦ (hrows r hr).live
  | watch rows stand excluded hface hops hwork hstand hrunning hkind hids hfresh hrows =>
    exact hlive fun r hr ↦ (hrows r hr).2.1

end Swarmlet
