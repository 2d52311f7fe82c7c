import Swarmlet.Control.Fleet
import Swarmlet.Control.Starters

/-!
# The state of the deployment manager

The manager keeps a table of nodes, a row and several maps for each deployment, and the promises
that are under way. Everything that is kept under one deployment id is one `Slot` here: its row, the
stored intent, its assignment rows, the promise queue of its operations, and what the manager
remembers about it in memory.

## Operations

An operation is a promise of the queue `operations`. The head of the queue is under way, and its
`Phase` says which `await` it stands at; what runs when it settles is its `Cont`. Between two awaits
the code runs without interruption.

Continuations run as promise jobs: after the code that settled the promise and before the next
message, timer or request. The `jobs` of a slot are the continuations that are due.

Three fields are history, which no function of the control plane reads: the plan a row was sent for
(`AssignmentRow.origin`), the rows an operation has sent (`Op.sent`, `Op.excluded`), and what nodes
have said of assignments (`Control.heard`).
-/

namespace Swarmlet

open Js

/-! ## What is remembered for one deployment -/

/-- What the owner asked for, and the budget of the automatic recovery. -/
structure Intent where
  running : Bool := false
  attempts : ℕ := 0
  retryAt : ℕ := 0
deriving DecidableEq

structure Reconnect where
  deadline : ℕ
  cleanupDeadline : Option ℕ := none
  nodes : List NodeId
  reason : String
deriving DecidableEq

structure Block where
  «until» : ℕ
  cooldownMs : ℕ
  why : String
deriving DecidableEq

structure Exclusion where
  nodes : List NodeId
  recordedAt : ℕ
deriving DecidableEq

/-! ## Operations -/

/-- Who awaits a re-placement: the reconnect whose grace ran out, with what it reports when the
move fails, or somebody who only logs. -/
inductive Origin
  | expired (why : String)
  | other
deriving DecidableEq

/-- What runs when an operation settles. -/
inductive Cont
  | none
  /-- `redistribute`, at the start it awaits. -/
  | move (origin : Origin)
  /-- `applyDistribution`, at the stop it awaits. -/
  | distribution (spec : DeploymentSpec) (generation : ℕ)
  /-- `applyDistribution`, at the start it awaits. -/
  | applied
  | remove
  /-- `performAllocation`, at one of the stops it awaits. -/
  | fleetStop
  /-- One of the workers of `performAllocation`, at the start it awaits. -/
  | fleetStart
deriving DecidableEq

/-- The body of an operation. A start keeps the row it was admitted with. -/
inductive Work
  | start (dep : Deployment) (generation : ℕ)
  | stop
  | teardown
deriving DecidableEq

def Work.isStart : Work → Bool
  | start _ _ => true
  | _ => false

structure Wait where
  id : AssignmentId
  deadline : ℕ
deriving DecidableEq

/-- What a start waits for: the workers of a split, after which its coordinator is sent, or the
engine that serves the route. -/
inductive Target
  | workers (plan : Plan) (coord : NodeRow) (workers : List (PlanWorker × NodeRow))
  | route (endpoint : RouteEndpoint)
deriving DecidableEq

def Target.state : Target → AssignmentState
  | workers _ _ _ => .listening
  | route _ => .ready

inductive Phase
  | queued
  /-- In `teardown`: the acknowledgement it waits for, and the rows it has not come to. -/
  | tearing (wait : Option Wait) (rest : List AssignmentRow)
  /-- In a start: the assignments that have not answered, and the first that failed. -/
  | awaiting (target : Target) (pending : List AssignmentId) (rejected : Option String)
      (deadline : ℕ)
  | cleaning (error : String) (wait : Option Wait) (rest : List AssignmentRow)
deriving DecidableEq

structure Op where
  work : Work
  cont : Cont
  phase : Phase := .queued
  sent : List AssignmentId := []
  excluded : List NodeId := []
deriving DecidableEq

inductive Job
  | settled (cont : Cont) (result : Except String Unit) (sent : List AssignmentId)
      (excluded : List NodeId)
  | lateFailure (why : String)

def Job.isSettled : Job → Bool
  | settled _ _ _ _ => true
  | lateFailure _ => false

/-! ## Slots -/

structure Slot where
  dep : Option Deployment := none
  intent : Intent := {}
  rows : List AssignmentRow := []
  ops : List Op := []
  jobs : List Job := []
  generation : ℕ := 0
  reconnecting : Option Reconnect := none
  lastMove : ℕ := 0
  blocked : String → Option Block := fun _ ↦ none
  moveExcluded : Option Exclusion := none
  /-- `distributionApplications.has(id)`. -/
  distributing : Bool := false
  inflight : ℕ := 0
  crashes : String → ℕ := fun _ ↦ 0

/-! ## Fleet applies -/

inductive RunStatus
  | preview | applying | interrupted | succeeded | partially
deriving DecidableEq

structure FleetRun where
  id : String
  entries : List FleetEntry
  canApply : Bool
  revision : String
  status : RunStatus
  createdAt : ℕ

/-- Where `performAllocation` stands: at its stops, or with its workers at their starts. `due`
counts the workers that are about to take the next entry. -/
inductive FleetStage
  | stopping (pending : List DeploymentId) (failures : List (DeploymentId × String))
  | starting (next : ℕ) (active : List DeploymentId) (due : ℕ)

structure FleetTask where
  run : FleetRun
  stage : FleetStage
  ready : List DeploymentId := []

def FleetTask.due (t : FleetTask) : Bool :=
  match t.stage with
  | .stopping pending _ => pending = []
  | .starting _ active due => 0 < due || active = []

/-! ## The control plane -/

structure NodeTable where
  rows : List NodeRow
  distinct : (rows.map (·.id)).Nodup

structure UpdateLease where
  nodeId : NodeId
  token : String
  expiresAt : ℕ

structure Heard where
  nodeId : NodeId
  id : AssignmentId
  state : AssignmentState
deriving DecidableEq

structure Control where
  now : ℕ
  nodes : NodeTable
  /-- The channel's connections; a kept socket may be marked unresponsive. -/
  conns : NodeId → Option Bool
  slots : DeploymentId → Slot
  known : List DeploymentId
  distinctKnown : known.Nodup
  updateLease : Option UpdateLease
  updateRecovery : List DeploymentId
  fleet : Option FleetTask
  runs : List FleetRun
  /-- History: what nodes have said of assignments; one that is left out of a hello is stopped. -/
  heard : List Heard

/-- What the manager is built with. The topology search and the hash of a fleet are host functions;
nothing is assumed of them. -/
structure Deps where
  rt : Runtime
  profiles : List ModelProfile
  nativeQualifications : List Qwen35NativeQualification
  recoveryDelayMs : ℕ := 5000
  stopTimeoutMs : ℕ := 120000
  reconnectGraceMs : ℕ := 30000
  moveIntervalMs : ℕ := 600000
  crashCooldownMs : ℕ := 3600000
  moveSettleMs : ℕ := 60000
  wedgedLoadMs : ℕ := 300000
  serverPortBase : ℕ := 8100
  reverseDial : Bool := false
  chooseTopology : DeploymentSpec → FleetInput → Except String DeploymentSpec
  fleetRevision : FleetInput → String

def WORKER_TIMEOUT_MS : ℕ := 300000
def COORDINATOR_TIMEOUT_MS : ℕ := 3600000
def MAX_RECOVERY_ATTEMPTS : ℕ := 5
def CRASH_COOLDOWN_MAX_MS : ℕ := 86400000

/-! ## Reading the registry and the channel -/

theorem nodup_map_modify {α κ : Type*} {key : α → κ} {f : α → α} (hf : ∀ a, key (f a) = key a)
    {l : List α} (h : (l.map key).Nodup) : ((l.map f).map key).Nodup := by
  have hkey : key ∘ f = key := funext hf
  rwa [List.map_map, hkey]

namespace NodeTable

def get (t : NodeTable) (id : NodeId) : Option NodeRow := t.rows.find? (·.id = id)

def modify (t : NodeTable) (id : NodeId) (f : NodeRow → NodeRow) : NodeTable where
  rows := t.rows.map fun n ↦ if n.id = id then { f n with id := n.id } else n
  distinct := nodup_map_modify (by intro n; split_ifs <;> rfl) t.distinct

def upsert (t : NodeTable) (n : NodeRow) : NodeTable :=
  if h : n.id ∈ t.rows.map (·.id) then
    t.modify n.id fun m ↦
      { m with certFp := n.certFp, hostname := n.hostname, os := n.os,
               caps := n.caps.orElse fun _ ↦ m.caps }
  else
    { rows := t.rows ++ [{ n with online := false, offer := none, models := [], metrics := none }]
      distinct := by
        rw [List.map_append]
        exact t.distinct.append (by simp) (by simpa using h) }

end NodeTable

def byUpdate (a b : AssignmentRow) : Ordering := compare a.updatedAt b.updatedAt

def Slot.listAssignments (x : Slot) : List AssignmentRow := sortBy byUpdate x.rows

namespace Control

section

variable (s : Control)

def getDeployment (d : DeploymentId) : Option Deployment :=
  (s.slots d).dep.map fun dep ↦ { dep with id := d }

def listDeployments : List Deployment := s.known.filterMap s.getDeployment

def allRows : List AssignmentRow := s.known.flatMap fun d ↦ (s.slots d).rows

def listAssignments : List AssignmentRow := sortBy byUpdate s.allRows

def getAssignment (id : AssignmentId) : Option AssignmentRow :=
  s.allRows.find? (·.id = id)

def listNodes : List NodeRow :=
  sortBy (fun a b ↦ compareText a.hostname b.hostname) s.nodes.rows

/-- `channel.isOnline`: connected, and the connection is answering. -/
def isOnline (n : NodeId) : Bool := s.conns n = some false

/-- `channel.isOnline(n) && reg.getNode(n)?.online`. -/
def present (n : NodeId) : Bool := s.isOnline n && (s.nodes.get n).any (·.online)

def updatingNode : Option NodeId :=
  (s.updateLease.filter fun lease ↦ s.now < lease.expiresAt).map (·.nodeId)

def operating (d : DeploymentId) : Bool := (s.slots d).ops ≠ []

theorem map_id_listDeployments : (s.listDeployments.map (·.id)).Sublist s.known := by
  unfold listDeployments
  induction s.known with
  | nil => exact .slnil
  | cons d known ih =>
    rw [List.filterMap_cons]
    cases hdep : s.getDeployment d with
    | none => exact ih.cons d
    | some dep =>
      obtain ⟨r, -, rfl⟩ := Option.map_eq_some_iff.mp hdep
      exact ih.cons_cons d

/-- A node as a placement may see it: online only when answering and not being updated. -/
def placementNode (n : NodeRow) : NodeRow :=
  { n with online := n.online && s.isOnline n.id && s.updatingNode ≠ some n.id }

def fleetInput (k : Deps) (s : Control) : FleetInput where
  nodes := s.listNodes.map s.placementNode
  deployments := s.listDeployments
  assignments := s.listAssignments
  profiles := k.profiles
  now := s.now
  distinctNodes := by
    refine nodup_map_modify ?_ (((sortBy_perm _ _).map _).nodup_iff.mpr s.nodes.distinct)
    exact fun _ ↦ rfl
  distinctDeployments := s.map_id_listDeployments.nodup s.distinctKnown

def usedPorts (nodeId : NodeId) : List ℕ :=
  (s.listAssignments.filter fun r ↦ r.live && r.nodeId = nodeId).flatMap (·.body.ports)

end

end Control

/-! ## Planning -/

def Slot.freshExclusions (x : Slot) (now : ℕ) : List NodeId :=
  match x.moveExcluded with
  | some e => if now ≤ e.recordedAt + 600000 then e.nodes else []
  | none => []

def Slot.expireExclusions (x : Slot) (now : ℕ) : Slot :=
  { x with moveExcluded := x.moveExcluded.filter fun e ↦ now ≤ e.recordedAt + 600000 }

/-- `plan`: the spec on the nodes that are here now, beside what the other deployments hold. -/
def Control.plan (k : Deps) (s : Control) (spec : DeploymentSpec) (replacing : Option DeploymentId)
    (exclude : List NodeId) : Except String Plan :=
  match k.profiles.find? (·.id = spec.profile) with
  | none => .error s!"unknown profile {spec.profile}"
  | some profile =>
    let input := s.fleetInput k
    let remembered := (replacing.map fun d ↦ (s.slots d).freshExclusions s.now).getD []
    let nodes := input.nodes.filter fun n ↦ n.id ∉ exclude ++ remembered
    let reserved :=
      reservedResources input.deployments input.assignments input.nodes replacing.toList
    (planWithResources k.rt
      ⟨spec, profile, nodes, reserved, s.usedPorts, k.nativeQualifications⟩).mapError fun
        | .plan headline reasons => "no plan: " ++ (PlanFailure.plan headline reasons).message
        | .error message => message

end Swarmlet
