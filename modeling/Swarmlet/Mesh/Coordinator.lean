import Swarmlet.Lib.Cursor
import Swarmlet.Lib.JsMap
import Swarmlet.Lib.JsString
import Swarmlet.Lib.Machine
import Swarmlet.Mesh.Protocol

/-!
# The certification coordinator

The coordinator executes a suite on a mesh of nodes. Four workers take work items from one queue
through a shared index, send each to a node and put it back when the node fails. When all of them
have returned, the copies of each redundant instance are compared, with up to two more rounds where
they have no majority, and a certificate says how it went.

## Steps

A worker is at the head of its loop, at the request it awaits, at the return of that request, or
done. One iteration of the loop up to its await is one step, the end of `executeOn` is one, and what
the worker does with the outcome is one. A worker at the head of its loop goes on before anything
else happens (`State.running`), so all four start in order and a worker that resumes takes its next
turn at once: the runs here are the interleavings at the awaits of the source. The comparison is
sequential, and its steps are cut the same way.

What a node answers is free: any response, or any error of the request. Three fields are history,
which no function reads: the requests that were sent (`dispatched`), the executions that were
recorded (`executions`), the items that were given up (`failed`); so is the position of an item in
the first queue (`WorkItem.key`). `signed` is what the nodes have signed.
-/

namespace Swarmlet.Mesh

open Js

/-! ## What a run is given -/

structure Certification where
  instances : List EvalInstance
  distinct : (instances.map (·.id)).Nodup
  nodeCount : ℕ
  chaos : Option ℕ := none
  chaosAtStart : Bool := false

structure NodeHandle where
  nodeId : String
  alive : Bool := true
deriving DecidableEq

structure WorkItem where
  inst : EvalInstance
  extraCopy : Bool
  attempts : ℕ := 0
  /-- History: the position in the first queue. -/
  key : ℕ
deriving DecidableEq

def WorkItem.origin (item : WorkItem) : WorkItem := { item with attempts := 0 }

inductive Outcome
  | ok | dead | bad
deriving DecidableEq

inductive Answer
  | response (r : ExecuteResponse)
  | threw (message : String)

structure Pending where
  nodeId : String
  item : WorkItem
  salt : ℕ
deriving DecidableEq

inductive Worker
  | looping
  | executing (p : Pending)
  | returned (p : Pending) (outcome : Outcome)
  | finished
deriving DecidableEq

structure Copy (A : Type) where
  nodeId : String
  result : ComparableResult A
deriving DecidableEq

structure NodeStats where
  executed : ℕ := 0
  passed : ℕ := 0
deriving DecidableEq

structure Execution where
  request : Pending
  response : ExecuteResponse
  result : EvalResult
deriving DecidableEq

structure Signed (A : Type) where
  salt : ℕ
  nodeId : String
  payload : Projection A

/-- Where the comparison stands: at the head of a round, before a copy, or at a copy it awaits. -/
inductive Reconciler
  | judging (round : ℕ)
  | copying (round copies : ℕ)
  | waiting (round copies : ℕ) (p : Pending)

structure Certificate where
  instanceCount : ℕ
  redundantEvery : ℕ
  crossChecked : ℕ
  crossCheckCopiesMin : ℕ
  degradedCrossChecks : ℕ
  reconciled : ℕ
  disagreementCount : ℕ
  requeues : ℕ
  failedInstances : ℕ
  killedNodes : List String
  accepted : Bool

inductive Stage
  | dispatching
  /-- The ids whose copies are still to be compared, the first of them under way. -/
  | reconciling (todo : List String) (position : Reconciler)
  | certified (cert : Certificate)

structure State (A : Type) where
  nodes : List NodeHandle
  work : Cursor WorkItem
  workers : Fin 4 → Worker := fun _ ↦ .looping
  rr : ℕ := 0
  singleResults : JsMap String (ComparableResult A) := .empty
  multiResults : JsMap String (List (Copy A)) := .empty
  perNode : String → NodeStats := fun _ ↦ {}
  requeues : ℕ := 0
  failedInstances : ℕ := 0
  killedNodes : List String := []
  chaosFired : Bool := false
  attemptsSalt : ℕ := 0
  stage : Stage := .dispatching
  copiesMin : ℕ := 0
  degradedCrossChecks : ℕ := 0
  reconciled : ℕ := 0
  disagreements : List String := []
  dispatched : List (String × Pending) := []
  executions : List Execution := []
  failed : List WorkItem := []
  signed : List (Signed A) := []

/-! ## The first queue -/

def isRedundant (i : ℕ) : Bool := i % REDUNDANT_EVERY = 0

def itemsOf (i : ℕ) (inst : EvalInstance) (key : ℕ) : List WorkItem :=
  { inst, extraCopy := false, key } ::
    if isRedundant i then
      (List.range (REDUNDANT_COPIES - 1)).map fun c ↦
        { inst, extraCopy := true, key := key + 1 + c }
    else []

def queueFrom : ℕ → ℕ → List EvalInstance → List WorkItem
  | _, _, [] => []
  | i, key, inst :: rest =>
    itemsOf i inst key ++ queueFrom (i + 1) (key + (itemsOf i inst key).length) rest

namespace Certification

variable (c : Certification)

def queue : List WorkItem := queueFrom 0 0 c.instances

def redundantIds : List String :=
  ((c.instances.zipIdx).filter fun p ↦ isRedundant p.2).map (·.1.id)

def MAX_ATTEMPTS : ℕ := 6 * max 1 c.nodeCount

def nodes : List NodeHandle :=
  (List.range c.nodeCount).map fun i ↦ { nodeId := s!"n{i + 1}" }

end Certification

namespace State

variable {A : Type}

/-! ## Nodes -/

def aliveNodes (s : State A) : List NodeHandle := s.nodes.filter (·.alive)

/-- The next node in turn, one outside `exclude` where there is one. -/
def pickNode (s : State A) (exclude : List String) : Option (String × State A) :=
  let pool := s.aliveNodes
  let preferred := pool.filter fun n ↦ n.nodeId ∉ exclude
  let list := if preferred = [] then pool else preferred
  (list[s.rr % list.length]?).map fun n ↦ (n.nodeId, { s with rr := s.rr + 1 })

def kill (s : State A) (nodeId : String) : State A :=
  { s with killedNodes := if nodeId ∈ s.killedNodes then s.killedNodes
             else s.killedNodes ++ [nodeId] }

/-- The churn drill: once, the victim is killed behind the coordinator's back. -/
def killChaosTarget (s : State A) (c : Certification) : State A :=
  match c.chaos.bind fun i ↦ s.nodes[i]? with
  | some victim =>
    if s.chaosFired || !victim.alive then s
    else { s.kill victim.nodeId with chaosFired := true }
  | none => s

def eject (s : State A) (nodeId : String) : State A :=
  if s.nodes.any (fun n ↦ n.nodeId = nodeId && n.alive) then
    { s.kill nodeId with nodes := s.nodes.map fun n ↦
        if n.nodeId = nodeId then { n with alive := false } else n }
  else s

/-! ## Requests -/

def requestId (item : WorkItem) (salt : ℕ) : String :=
  s!"req-{item.inst.id}-{item.attempts}-{salt}"

def dispatch (s : State A) (nodeId : String) (item : WorkItem) : Pending × State A :=
  let p : Pending := { nodeId, item, salt := s.attemptsSalt }
  (p, { s with
    attemptsSalt := s.attemptsSalt + 1
    dispatched := s.dispatched ++ [(requestId item s.attemptsSalt, p)] })

def copiesOf (s : State A) (id : String) : List (Copy A) := (s.multiResults.get id).getD []

section

variable (h : Host A) (c : Certification)

def record (s : State A) (p : Pending) (r : EvalResult) : State A :=
  let id := p.item.inst.id
  let stats := s.perNode p.nodeId
  let counted : NodeStats := ⟨stats.executed + 1, stats.passed + if r.passed then 1 else 0⟩
  let s := { s with perNode := Function.update s.perNode p.nodeId counted }
  if id ∈ c.redundantIds then
    { s with multiResults :=
        s.multiResults.set id (s.copiesOf id ++ [⟨p.nodeId, comparableOf h r⟩]) }
  else { s with singleResults := s.singleResults.set id (comparableOf h r) }

/-- `/timed out|timeout|abort/i`. -/
def isTimeout (message : String) : Bool :=
  ["timed out", "timeout", "abort"].any (containsIgnoringCase · message)

def thrown (message : String) : Outcome := if isTimeout message then .bad else .dead

/-- What `executeOn` accepts: an answer of the right node, with a result, that verifies. -/
def check (p : Pending) : Answer → Except Outcome (ExecuteResponse × EvalResult)
  | .threw message => .error (thrown message)
  | .response r =>
    if r.nodeId ≠ p.nodeId then .error .bad
    else match r.results with
    | [] => .error .bad
    | result :: _ =>
      match verifyExecuteResponse h p.nodeId r with
      | .error message => .error (thrown message)
      | .ok false => .error .bad
      | .ok true => .ok (r, result)

def executeOn (s : State A) (p : Pending) (a : Answer) : State A × Outcome :=
  match check h p a with
  | .error outcome => (s, outcome)
  | .ok (r, result) =>
    ({ record h c s p result with executions := s.executions ++ [⟨p, r, result⟩] }, .ok)

/-! ## Workers -/

def setWorker (s : State A) (w : Fin 4) (x : Worker) : State A :=
  { s with workers := Function.update s.workers w x }

def again (s : State A) (item : WorkItem) : State A :=
  if c.MAX_ATTEMPTS < item.attempts + 1 then
    { s with failedInstances := s.failedInstances + 1, failed := s.failed ++ [item] }
  else { s with work := s.work.push { item with attempts := item.attempts + 1 } }

/-- One iteration of a worker's loop, up to its await. -/
def turn (s : State A) (w : Fin 4) : State A :=
  let read := s.work.take
  let s := { s with work := read.2 }
  match read.1 with
  | none => s.setWorker w .finished
  | some item =>
    -- Extra copies prefer nodes that hold no copy yet.
    let exclude := if item.extraCopy then (s.copiesOf item.inst.id).map (·.nodeId) else []
    match s.pickNode exclude with
    | none => s.again c item
    | some (nodeId, s) =>
      let sent := s.dispatch nodeId item
      sent.2.setWorker w (.executing sent.1)

def resume (s : State A) (p : Pending) : Outcome → State A
  | .ok => if c.chaosAtStart then s else s.killChaosTarget c
  | .dead => let s := s.eject p.nodeId
    { s with requeues := s.requeues + 1 }.again c p.item
  | .bad => { s with requeues := s.requeues + 1 }.again c p.item

/-! ## The comparison -/

def tally (copies : List (Copy A)) : List (String × ℕ) :=
  let texts := copies.map fun v ↦ h.canonicalize v.result
  (distinct texts).map fun k ↦ (k, texts.count k)

def mostFrequent (copies : List (Copy A)) : ℕ :=
  ((tally h copies).map (·.2)).foldr max 0

def distinctNodes (copies : List (Copy A)) : ℕ := (distinct (copies.map (·.nodeId))).length

/-- The coverage of the first round, before the comparison adds copies. -/
def snapshot (s : State A) : State A :=
  let sizes := s.multiResults.entries.map fun e ↦ distinctNodes e.2
  { s with
    copiesMin := sizes.min?.getD 0
    degradedCrossChecks := (sizes.filter (· < REDUNDANT_COPIES)).length
    stage := .reconciling s.multiResults.keys (.judging 0) }

def verdict (s : State A) (id : String) (rest : List String) : State A :=
  let copies := s.copiesOf id
  let most := mostFrequent h copies
  let s := { s with stage := .reconciling rest (.judging 0) }
  if most * 2 ≤ copies.length then { s with disagreements := s.disagreements ++ [id] }
  else if most < copies.length then { s with reconciled := s.reconciled + 1 }
  else s

def certificate (s : State A) : Certificate where
  instanceCount := c.instances.length
  redundantEvery := REDUNDANT_EVERY
  crossChecked := s.multiResults.size
  crossCheckCopiesMin := s.copiesMin
  degradedCrossChecks := s.degradedCrossChecks
  reconciled := s.reconciled
  disagreementCount := s.disagreements.length
  requeues := s.requeues
  failedInstances := s.failedInstances
  killedNodes := s.killedNodes
  accepted := s.failedInstances = 0 && s.disagreements = [] &&
    s.singleResults.size + s.multiResults.size = c.instances.length && s.aliveNodes ≠ []

def compare (s : State A) : Option (State A) :=
  match s.stage with
  | .reconciling [] _ => some { s with stage := .certified (s.certificate c) }
  | .reconciling (id :: rest) (.judging round) =>
    let copies := s.copiesOf id
    let most := mostFrequent h copies
    if 2 ≤ round ∨ most = copies.length ∨ copies.length < most * 2 then some (s.verdict h id rest)
    else some { s with stage := .reconciling (id :: rest) (.copying round 0) }
  | .reconciling (id :: rest) (.copying round copies) =>
    let next := some { s with stage := .reconciling (id :: rest) (.judging (round + 1)) }
    if REDUNDANT_COPIES ≤ copies then next
    else
      let all := s.copiesOf id
      let exclude := (all.drop (all.length - REDUNDANT_COPIES)).map (·.nodeId)
      match s.pickNode exclude, c.instances.find? (·.id = id) with
      | some (nodeId, s), some inst =>
        -- The copies of the comparison are no items of the queue: their key is past its end.
        let sent := s.dispatch nodeId { inst, extraCopy := true, key := c.queue.length }
        some { sent.2 with stage := .reconciling (id :: rest) (.waiting round copies sent.1) }
      | _, _ => next
  | _ => none

end

/-! ## The machine -/

end State

inductive Event
  | turn (w : Fin 4)
  | answer (w : Fin 4) (a : Answer)
  | resume (w : Fin 4)
  | joined
  | compare
  | reply (a : Answer)
  | sign (salt : ℕ) (results : List EvalResult)

namespace State

variable {A : Type}

def sign (h : Host A) (s : State A) (salt : ℕ) (results : List EvalResult) : Option (State A) :=
  (s.dispatched[salt]?).map fun (id, p) ↦ { s with signed := s.signed ++
    [⟨salt, p.nodeId, ⟨p.nodeId, id, results.map (comparableOf h)⟩⟩] }

/-- The worker whose turn is under way: until its next await nothing else of the coordinator runs.
-/
def running (s : State A) : Option (Fin 4) :=
  (List.finRange 4).find? fun w ↦ s.workers w = .looping

def step (h : Host A) (c : Certification) (s : State A) : Event → Option (State A)
  | .turn w => if s.running = some w then some (s.turn c w) else none
  | .answer w a =>
    match s.running, s.workers w with
    | none, .executing p => let done := executeOn h c s p a
      some (done.1.setWorker w (.returned p done.2))
    | _, _ => none
  | .resume w =>
    match s.running, s.workers w with
    | none, .returned p outcome => some ((s.resume c p outcome).setWorker w .looping)
    | _, _ => none
  | .joined =>
    match s.stage with
    | .dispatching => if ∀ w, s.workers w = .finished then some s.snapshot else none
    | _ => none
  | .compare => s.compare h c
  | .reply a =>
    match s.stage with
    | .reconciling todo (.waiting round copies p) =>
      some { (executeOn h c s p a).1 with
        stage := .reconciling todo (.copying round (copies + 1)) }
    | _ => none
  | .sign salt results => s.sign h salt results

def init (c : Certification) : State A :=
  let s : State A := { nodes := c.nodes, work := ⟨c.queue, 0⟩ }
  if c.chaosAtStart then s.killChaosTarget c else s

end State

end Swarmlet.Mesh
