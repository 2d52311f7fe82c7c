import Swarmlet.NodeAgent.Admission

/-!
# The start task of an assignment

The agent keeps one record for every assignment it runs. Starting it is a task of its own, which
waits for files, ports, connections, an external service to stop and the engine to load, and which
is overtaken at each of these points by stops, exits of the engine and clean-up.

The start functions of the four kinds are *programs*, lists of the operations that the source
performs one after the other. A turn of the task runs them up to the next one that waits, and an
answer to that one may throw, or put further operations in front: the loops around the maintenance
script are such insertions.

What may fail besides is given with each turn: `fault` is the error that a call into the file system
throws, if it does. Calls that only return or throw are all `wait`.
-/

namespace Swarmlet.Agent

/-- The states a record can have. `stopped` is not among them: it is reported of an assignment that
is gone. -/
inductive LiveState
  | starting | listening | loading | ready | failed
deriving DecidableEq

def LiveState.state : LiveState → AssignmentState
  | starting => .starting
  | listening => .listening
  | loading => .loading
  | ready => .ready
  | failed => .failed

theorem LiveState.state_ne_stopped (s : LiveState) : s.state ≠ .stopped := by
  cases s <;> decide

inductive Engine
  | none
  | running
  /-- Gone, but the exit callback has not run. -/
  | exited
  | noticed
deriving DecidableEq

inductive Op
  | check
  | replicaLimits
  | spawnLimits
  | mkdir
  | set (state : LiveState) (detail : Option String)
  | watch
  | wait
  | enforce
  | probe
  | fit (fitMiB : ℕ) (stopExternal : Option String) (requireKnown : Bool)
  | ask (ext : String) (fitMiB : ℕ)
  | pause (ext : String) (fitMiB : ℕ)
  | free (ext : String) (fitMiB : ℕ)
  | nap (ext : String) (fitMiB free : ℕ)
deriving DecidableEq

/-- How a process starts: not at all, without its identity being found, or as it should. -/
inductive Launch
  | ok
  | notSpawned (why : String)
  | unidentified (why : String)
deriving DecidableEq

inductive Answer
  | done
  | threw (why : String)
  | enforced (summary : String) (launch : Launch)
  | healthy (ok : Bool)
  /-- Free memory in MiB, if known, and whether the service to stop is registered. -/
  | memory (mib : Option ℕ) (registered : Bool)
  /-- The exit code and last lines of the maintenance script, whether the deadline has passed, and
  whether a script that failed has left the service stopped. -/
  | script (code : ℤ) (text : String) (late down : Bool)
  | broken (why : String) (down : Bool)
  | slept (late : Bool)
deriving DecidableEq

inductive Start
  /-- The task was never made: the first report of the assignment threw. -/
  | absent
  | due
  | awaiting (op : Op) (rest : List Op)
  /-- Rejected; the handler that fails the assignment has not run. -/
  | threw (why : String)
  | settled
deriving DecidableEq

def Start.isSettled : Start → Bool
  | absent | settled => true
  | _ => false

inductive Cleanup
  | proc
  | start
  | external
  | resolved
  | rejected (why : String)
deriving DecidableEq

inductive StopTask
  | cleanup (why : String)
  /-- The clean-up has settled and the task has not gone on. -/
  | due (why : String) (failure : Option String)
  | resolved
  | rejected (why : String)
deriving DecidableEq

structure Active where
  a : Assignment
  state : LiveState := .starting
  detail : Option String := none
  proc : Engine := .none
  limits : Option Limits := none
  stoppedExternal : Option String := none
  watching : Bool := false
  stopping : Bool := false
  start : Start := .absent
  cleanup : Option Cleanup := none
  stopTask : Option StopTask := none
  waiting : ℕ := 0
  /-- Rejections of stop tasks that a caller of `handle` has yet to report. -/
  failing : List String := []
  /-- History: the maintenance script has stopped the external service for this assignment, and has
  not started it again. -/
  down : Bool := false
deriving DecidableEq

structure Report where
  state : AssignmentState
  detail : Option String
deriving DecidableEq

/-! ## The programs -/

def fitGate (fitMiB : Option ℕ) (stopExternal : Option String) (requireKnown : Bool) : List Op :=
  match fitMiB with
  | none | some 0 => []
  | some n => [.fit n stopExternal requireKnown]

def spawn : List Op := [.spawnLimits, .enforce]

def openPeers {α : Type} (peers : List α) : List Op := peers.flatMap fun _ ↦ [.check, .wait, .check]

def startStage (a : StageAssignment) : List Op :=
  [.wait, .check] ++ fitGate a.fitMiB none true ++ [.check, .wait, .check, .mkdir] ++ spawn ++
    [.set .loading none, .wait, .check, .wait, .check, .set .ready none]

def startWorker (a : WorkerAssignment) : List Op :=
  openPeers (a.peers.getD []) ++ spawn ++ [.wait, .set .listening none]

def startCoordinator (a : CoordinatorAssignment) : List Op :=
  fitGate a.fitMiB a.stopExternal false ++ [.check] ++ openPeers a.rpc ++ spawn ++
    [.set .loading none, .wait, .set .ready none]

def startReplica (a : ReplicaAssignment) : List Op :=
  if a.external.isSome then [.probe, .check, .watch]
  else [.replicaLimits] ++ fitGate a.fitMiB a.stopExternal false ++ spawn ++
    [.set .loading none, .wait, .set .ready none]

def startTask : Assignment → List Op
  | .worker a => .check :: startWorker a
  | .coordinator a => .check :: startCoordinator a
  | .replica a => .check :: startReplica a
  | .stage a => .check :: startStage a
  | .stop _ _ => []

/-! ## Running them -/

namespace Active

section

variable (here : Bool) (offer : Offer) (fault : Option String) (x : Active)

/-- `this.assertStarting(x)`; `here` is `this.active.get(x.a.id) === x`. -/
def assertStarting : Except String Unit :=
  if x.stopping || !here then .error "assignment cancelled" else assertOwnerAllows x.a offer

/-- `this.set(x, state, detail)` up to `this.persist()`, which runs if there is a report. -/
def set (state : LiveState) (detail : Option String) (x : Active) : Active × Option Report :=
  if x.stopping || !here then (x, none)
  else
    let x := { x with state, detail := detail.orElse fun _ ↦ x.detail }
    (x, some ⟨state.state, x.detail⟩)

inductive Ending
  | next
  | await
  | threw (why : String)

/-- `this.set(x, …)` with the error its `this.persist()` throws, if it does. -/
def setAndPersist (state : LiveState) (detail : Option String)
    (fault : Option String) (x : Active) : Active × List Report × Option String :=
  match x.set here state detail with
  | (x, none) => (x, [], none)
  | (x, some report) => (x, [report], fault)

def endWith : Option String → Ending
  | none => .next
  | some why => .threw why

def endOf : Except String Unit → Ending
  | .ok () => .next
  | .error why => .threw why

def exec : Op → Active × List Report × Ending
  | .check => (x, [], endOf (x.assertStarting here offer))
  | .replicaLimits =>
    let limits := x.a.limits offer
    ({ x with limits := some limits }, [], endOf (checkReplica offer limits))
  | .spawnLimits => (x, [], endOf (checkSpawn offer (x.limits.getD (x.a.limits offer))))
  | .mkdir => (x, [], endWith fault)
  | .set state detail =>
    let (x, reports, failure) := x.setAndPersist here state detail fault
    (x, reports, endWith failure)
  | .watch => ({ x with watching := true }, [], .next)
  | .ask ext _ =>
    -- The script may change the service and then fail, so the record names it before the call.
    ({ x with stoppedExternal := some ext }, [], match fault with
      | none => .await
      | some why => .threw why)
  | _ => (x, [], .await)

def advance (here : Bool) (offer : Offer) : List Op → List (Option String) → Active →
    Active × List Report
  | [], _, x => ({ x with start := .settled }, [])
  | op :: ops, faults, x =>
    match x.exec here offer faults.head?.join op with
    | (x, reports, .next) =>
      let (x, more) := advance here offer ops faults.tail x
      (x, reports ++ more)
    | (x, reports, .await) => ({ x with start := .awaiting op ops }, reports)
    | (x, reports, .threw why) => ({ x with start := .threw why }, reports)

def observe (ok : Bool) (x : Active) : Active × List Report × Option String :=
  let next : LiveState := if ok then .ready else .failed
  let url := match x.a with
    | .replica a => (a.external.map ExternalWatch.url).getD ""
    | _ => ""
  if x.state = next then (x, [], none)
  else
    x.setAndPersist here next
      (some (if ok then s!"external {url}" else s!"external {url} unhealthy")) fault

/-- `x.proc = proc; proc.start(…); this.persist()`. -/
def launch (summary : String) (x : Active) : Launch → Active × Option String
  | .notSpawned why => ({ x with detail := some summary }, some why)
  | .unidentified why => ({ x with detail := some summary, proc := .running }, some why)
  | .ok => ({ x with detail := some summary, proc := .running }, fault)

def askAgain (ext : String) (fitMiB : ℕ) : List Op :=
  [.check, .set .starting (some s!"stopping external {ext} via maintenance script"),
    .ask ext fitMiB]

def fits (fitMiB : ℕ) (stopExternal : Option String) (requireKnown : Bool) (mib : Option ℕ)
    (registered : Bool) (x : Active) : Active × Except String (List Op) :=
  match mib with
  | none =>
    (x, if requireKnown then .error "native fit gate: free RAM unknown" else .ok [])
  | some free =>
    if fitMiB ≤ free then
      ({ x with detail := some s!"fit ok: {free} MiB free >= {fitMiB}" }, .ok [])
    else match stopExternal with
      | none =>
        (x, .error s!"does not fit: {free} MiB free, need {fitMiB}; no external service to stop")
      | some ext =>
        (x, if registered then .ok (askAgain ext fitMiB)
          else .error s!"does not fit and external service '{ext}' is not registered on this node")

/-- The answer of the maintenance script to a request to stop. Code 65 is its refusal while clients
are connected: the service runs. -/
def asked (ext : String) (fitMiB : ℕ)
    (code : ℤ) (text : String) (late down : Bool) (x : Active) : Active × Except String (List Op) :=
  if code = 0 then
    let x := { x with down := true }
    (x, (x.assertStarting here offer).map fun _ ↦ [.check, .free ext fitMiB])
  else if code = 65 then
    ({ x with stoppedExternal := none, down := false }, match fault with
      | some why => .error why
      | none =>
        if late then .error s!"maintenance stop refused ({code}): {text}"
        else .ok [.set .starting (some s!"waiting for {ext} clients to disconnect ({text})"),
          .pause ext fitMiB])
  else ({ x with down := x.down || down }, .error s!"maintenance stop refused ({code}): {text}")

/-- An operation goes on with its answer: it throws, or leaves operations to do before the rest. An
answer of another operation's form is not enabled. -/
def resume : Op → Answer → Option (Active × List Report × Except String (List Op))
  | .ask _ _, .threw _ => none
  | .pause _ _, .threw _ | .nap _ _ _, .threw _ | .probe, .threw _ => none
  | _, .threw why => some (x, [], .error why)
  | .wait, .done => some (x, [], .ok [])
  | .enforce, .enforced summary how =>
    match x.assertStarting here offer with
    | .error why => some (x, [], .error why)
    | .ok () =>
      let (x, failure) := x.launch fault summary how
      some (x, [], match failure with
        | none => .ok []
        | some why => .error why)
  | .probe, .healthy ok =>
    let (x, reports, failure) := x.observe here fault ok
    some (x, reports, match failure with
      | none => .ok []
      | some why => .error why)
  | .fit fitMiB stopExternal requireKnown, .memory mib registered =>
    match x.assertStarting here offer with
    | .error why => some (x, [], .error why)
    | .ok () =>
      let (x, result) := x.fits fitMiB stopExternal requireKnown mib registered
      some (x, [], result)
  | .ask ext fitMiB, .script code text late down =>
    let (x, result) := x.asked here offer fault ext fitMiB code text late down
    some (x, [], result)
  | .ask _ _, .broken why down => some ({ x with down := x.down || down }, [], .error why)
  | .pause ext fitMiB, .slept _ =>
    some (x, [], if x.stopping then .error "stopped while waiting for the external service"
      else .ok (askAgain ext fitMiB))
  | .free ext fitMiB, .memory mib _ =>
    match x.assertStarting here offer with
    | .error why => some (x, [], .error why)
    | .ok () =>
      let free := mib.getD 0
      if mib.any (fitMiB ≤ ·) then
        some ({ x with detail := some s!"fit ok after stopping {ext}: {free} MiB free" },
          [], .ok [])
      else some (x, [], .ok [.nap ext fitMiB free])
  | .nap ext fitMiB free, .slept late =>
    some (x, [], if late then
        .error s!"does not fit even after stopping {ext}: {free} MiB free, need {fitMiB}"
      else .ok [.check, .free ext fitMiB])
  | _, _ => none

def answered (faults : List (Option String)) (answer : Answer)
    (x : Active) : Option (Active × List Report) :=
  match x.start with
  | .awaiting op rest =>
    (x.resume here offer faults.head?.join op answer).map fun
      | (x, reports, .ok ops) =>
        let (x, more) := x.advance here offer (ops ++ rest) faults.tail
        (x, reports ++ more)
      | (x, reports, .error why) => ({ x with start := .threw why }, reports)
  | _ => none

end

end Active

end Swarmlet.Agent
