import Swarmlet.Lib.JsMap
import Swarmlet.Lib.Machine
import Swarmlet.NodeAgent.StartTask

/-!
# The assignment runner

`AssignmentRunner` as an event machine. The records of all assignments it was ever given stand in a
list, in the order they were made, and `active` says which of them is the one under an id. A record
has up to three tasks, its start, its clean-up and its stop, and each continuation of one of them is
an event, as are the exit of the engine, its exit callback and the messages of control.

Promise reactions run before the next message is handled. Of this the machine keeps what matters:
a message waits until every caller of a stop that was rejected has made its report. Otherwise the
events come in any order.

`log` is the history of what was assigned and reported.
-/

namespace Swarmlet.Agent

namespace Active

/-! ## The clean-up -/

def settleCleanup (failure : Option String) (x : Active) : Active :=
  { x with
    cleanup := some (match failure with
      | none => .resolved
      | some why => .rejected why)
    stopTask := match x.stopTask with
      | some (.cleanup why) => some (.due why failure)
      | task => task }

/-- `this.cleanup(x)`: nothing if there is one, else its part before the first `await`. -/
def beginCleanup (fault : Option String) (x : Active) : Active :=
  match x.cleanup with
  | some _ => x
  | none =>
    let x := { x with stopping := true }
    match fault with
    | some why => x.settleCleanup (some why)
    | none => { x with cleanup := some .proc }

def fail (fault : Option String) (why : String) (x : Active) : Active × List Report :=
  if x.stopping then (x, [])
  else (beginCleanup fault { x with state := .failed, detail := some why }, [⟨.failed, some why⟩])

/-- The stop task rejects: every caller of `handle` that waits for it has a report to make. -/
def rejectStop (why : String) (x : Active) : Active :=
  { x with
    stopTask := some (.rejected why)
    failing := x.failing ++ List.replicate x.waiting why
    waiting := 0 }

/-- `x.stopTask = …` for a record that has none: the clean-up begins, or is under way, or has
settled. -/
def beginStop (fault : Option String) (why : String) (x : Active) : Active :=
  let x := x.beginCleanup fault
  { x with
    stopTask := some (match x.cleanup with
      | some .resolved => .due why none
      | some (.rejected failure) => .due why (some failure)
      | _ => .cleanup why) }

/-- One more caller waits for the stop task; `caught` if it reports a failure, as `handle` does. -/
def await (caught : Bool) (x : Active) : Active :=
  if caught then
    match x.stopTask with
    | some (.rejected why) => { x with failing := x.failing ++ [why] }
    | _ => { x with waiting := x.waiting + 1 }
  else x

end Active

inductive Happening
  | begins (offer : Offer) (faults : List (Option String))
  | answered (answer : Answer) (offer : Offer) (faults : List (Option String))
  | startFailed (fault : Option String)
  | engineExits
  | exitNoticed (code : String) (fault : Option String)
  | procStopped (fault : Option String)
  /-- `await x.startTask` returned; the fault is of removing the stage directory or of closing. -/
  | startAwaited (fault : Option String)
  /-- The maintenance script has tried to start the service. -/
  | restored (code : ℤ) (text : String) (fault : Option String)
  | restoreBroken (why : String)
  | cleanupCleared
  | stopCleared
  | stopReported
  | health (ok : Bool) (fault : Option String)
deriving DecidableEq

namespace Active

/-- A record and what is reported of it, after something that can happen to it. -/
def react (here : Bool) (x : Active) : Happening → Option (Active × List Report)
  | .begins offer faults =>
    if x.start = .due then some (x.advance here offer (startTask x.a) faults) else none
  | .answered answer offer faults => x.answered here offer faults answer
  | .startFailed fault =>
    match x.start with
    | .threw why => some (({ x with start := .settled }).fail fault why)
    | _ => none
  | .engineExits => if x.proc = .running then some ({ x with proc := .exited }, []) else none
  | .exitNoticed code fault =>
    if x.proc = .exited then
      let x := { x with proc := .noticed }
      some (if x.state = .failed then (x, []) else x.fail fault s!"engine exited (code {code})")
    else none
  | .procStopped fault =>
    if x.cleanup = some .proc then
      match fault with
      | some why => some (x.settleCleanup (some why), [])
      | none => if x.proc = .running then none else some ({ x with cleanup := some .start }, [])
    else none
  | .startAwaited fault =>
    if x.cleanup = some .start ∧ x.start.isSettled then
      some (match fault with
        | some why => x.settleCleanup (some why)
        | none =>
          if x.stoppedExternal = none then x.settleCleanup none
          else { x with cleanup := some .external }, [])
    else none
  | .restored code text fault =>
    if x.cleanup = some .external then
      let ext := x.stoppedExternal.getD ""
      some (if code = 0 then settleCleanup fault { x with stoppedExternal := none, down := false }
        else x.settleCleanup (some s!"external restore FAILED ({ext}): {text}"), [])
    else none
  | .restoreBroken why =>
    if x.cleanup = some .external then some (x.settleCleanup (some why), []) else none
  | .cleanupCleared =>
    match x.cleanup with
    | some (.rejected _) => some ({ x with cleanup := none }, [])
    | _ => none
  | .stopCleared =>
    match x.stopTask with
    | some (.rejected _) => some ({ x with stopTask := none }, [])
    | _ => none
  | .stopReported =>
    match x.failing with
    | why :: failing =>
      some ({ x with failing }, [⟨.failed, some s!"cleanup incomplete: {why}"⟩])
    | [] => none
  | .health ok fault =>
    if x.watching then
      let (x, reports, _) := x.observe here fault ok
      some (x, reports)
    else none

end Active

/-! ## The runner -/

inductive Entry
  | assigned (id : AssignmentId)
  | reported (id : AssignmentId) (report : Report)
deriving DecidableEq

structure Runner where
  records : List Active
  active : JsMap AssignmentId ℕ
  log : List Entry

namespace Runner

def init : Runner := ⟨[], JsMap.empty, []⟩

section

variable (s : Runner)

/-- `this.active.get(x.a.id) === x` for the record at an index. -/
def here (i : ℕ) (x : Active) : Bool := s.active.get x.a.id = some i

def put (i : ℕ) (x : Active) (reports : List Report) : Runner :=
  { s with records := s.records.set i x, log := s.log ++ reports.map (.reported x.a.id) }

def report (id : AssignmentId) (r : Report) : Runner :=
  { s with log := s.log ++ [.reported id r] }

def quiet : Bool := s.records.all fun x ↦ x.failing.isEmpty

def stop (id : AssignmentId) (why : String) (caught : Bool) (fault : Option String) :
    Option Runner :=
  match s.active.get id with
  | none => some (s.report id ⟨.stopped, some "not running"⟩)
  | some i => do
    let x ← s.records[i]?
    let x := if x.stopTask.isSome then x else x.beginStop fault why
    some (s.put i (x.await caught) [])

/-- `handle(a)` for an assignment that is no stop; the fault is of writing `assignments.json`. -/
def assign (a : Assignment) (fault : Option String) : Option Runner :=
  match s.active.get a.id with
  | some i => do
    let x ← s.records[i]?
    some (s.report a.id ⟨x.state.state, some "already running"⟩)
  | none =>
    let x : Active := { a, start := if fault.isNone then .due else .absent }
    some
      { records := s.records ++ [x]
        active := s.active.set a.id s.records.length
        log := s.log ++ [.assigned a.id, .reported a.id ⟨.starting, none⟩] }

def handle (a : Assignment) (fault : Option String) : Option Runner :=
  match a with
  | .stop id _ => s.stop id "stopped by control" true fault
  | a => s.assign a fault

def finishStop (i : ℕ) (fault : Option String) : Option Runner := do
  let x ← s.records[i]?
  match x.stopTask with
  | some (.due _ (some failure)) => some (s.put i (x.rejectStop failure) [])
  | some (.due why none) =>
    let s := if s.here i x then { s with active := s.active.erase x.a.id } else s
    let x := match fault with
      | none => { x with stopTask := some .resolved, waiting := 0 }
      | some failure => x.rejectStop failure
    some (s.put i x [⟨.stopped, some why⟩])
  | _ => none

def states : List Entry :=
  s.active.entries.filterMap fun e ↦
    s.records[e.2]?.map fun x ↦ .reported x.a.id ⟨x.state.state, x.detail⟩

end

inductive Event
  | message (a : Assignment) (fault : Option String)
  | shutdown (id : AssignmentId) (fault : Option String)
  | record (i : ℕ) (happening : Happening)
  | stopDone (i : ℕ) (fault : Option String)
  | hello
deriving DecidableEq

def step (s : Runner) : Event → Option Runner
  | .message a fault => if s.quiet then s.handle a fault else none
  | .shutdown id fault => if s.quiet then s.stop id "agent shutting down" false fault else none
  | .record i happening => do
    let x ← s.records[i]?
    let (x, reports) ← x.react (s.here i x) happening
    some (s.put i x reports)
  | .stopDone i fault => s.finishStop i fault
  | .hello => some { s with log := s.log ++ s.states }

end Runner

end Swarmlet.Agent
