import Swarmlet.Lib.Machine
import Swarmlet.NodeAgent.UpdateState

/-!
# The update supervisor

`supervise` as an event machine. Its program counter `Pc` has one value for every `await` of the
main loop and of the functions it calls, and a turn runs from one `await` to the next. A crash can
come at any of them, and in the middle of a write before or after the file is renamed; the next
process starts from what is on disk.

What the turn depends on besides comes with it (`Env`): what the awaited call answers, the time
conditions, whether a process can be spawned, and the controller binding that the configuration
holds at the moment it is read. Where the source goes on without an `await` to the head of its loop
or to the check for updates, the machine pauses.

The rest of `World` is history: `recorded` has the trials that were about to be persisted, each with
the controller binding that was read then and the sequence accepted before, `tried` the sequences of
all trials that were begun, and `passed` the releases whose trial passed its health check, each with
the binding that was read after it.
-/

namespace Swarmlet.Agent

/-- A staged release: `basename(candidate.directory)` and the sequence of the manifest. -/
structure Candidate where
  manifest : ReleaseManifest
  release : InstalledRelease
  binding : String
deriving DecidableEq

inductive Child
  | running
  | exited
  | noticed (zero : Bool)
deriving DecidableEq

inductive Spawned
  | start
  | restart
  | afterTrial
deriving DecidableEq

inductive Written
  | boot
  | launch (k : Spawned)
  | crash
  | begin (authority : String) (next : InstalledRelease) (manifest : ReleaseManifest)
  | unbind
  | activate
  | reject
deriving DecidableEq

inductive Resumed
  | sleep
  | ending
deriving DecidableEq

inductive Pc
  | loadIdentity
  | top
  | check
  | crashSleep
  | fetching (authority : String)
  | staging (authority : String) (manifest : ReleaseManifest)
  | verifying (authority : String)
  | checking (authority : String)
  | probing (authority : String)
  | leasing (authority : String)
  | draining (authority : String)
  | stoppingOld (authority : String) (next : InstalledRelease) (manifest : ReleaseManifest)
  | trying (authority : String) (next : InstalledRelease) (manifest : ReleaseManifest)
  | stoppingTrial
  | pruning
  | writing (k : Written)
  /-- `await ipc("resume")` and the release of the lease. -/
  | resuming (k : Resumed)
  | sleeping
  | ending
deriving DecidableEq

structure Supervisor where
  state : UpdateState
  child : Option Child := none
  others : ℕ := 0
  candidate : Option Candidate := none
  stopping : Bool := false
  pc : Pc
deriving DecidableEq

structure Env where
  ok : Bool := true
  /-- A write that threw had renamed the file before. -/
  renamed : Bool := false
  due : Bool := true
  configured : Bool := true
  expired : Bool := false
  inTime : Bool := true
  spawns : Bool := true
  /-- The controller binding at the first and at the second reading; `none` where it threw. -/
  binding : Option String := none
  binding' : Option String := none
  manifest : Option ReleaseManifest := none
  rawBytes : ℕ := 0
  now : ℤ := 0
  uuid : String := ""
  /-- The directories a clean-up comes to before it ends or fails. -/
  removed : String → Bool := fun _ ↦ true

structure Platform where
  platform : String
  arch : String
  signed : String → ReleaseManifest → Bool

structure World where
  disk : Option UpdateState := none
  releases : List String := []
  proc : Option Supervisor := none
  recorded : List (InstalledRelease × ReleaseManifest × Option String × ℕ) := []
  tried : List ℕ := []
  passed : List (InstalledRelease × ReleaseManifest × Option String) := []

namespace Supervisor

def verify (h : Platform) (e : Env) (authority : String) (m : ReleaseManifest) (v : Supervisor) :
    Except ReleaseError Unit :=
  verifyRelease e.rawBytes (h.signed authority m) m
    ⟨h.platform, h.arch, v.state.acceptedSequence, e.now⟩

/-- `assertBinding(expected)` at a reading of the configuration: whether it returns. -/
def assertBinding (expected : String) (reading : Option String) (v : Supervisor) :
    Supervisor × Bool :=
  match reading with
  | none => (v, false)
  | some binding => if binding = expected then (v, true) else ({ v with candidate := none }, false)

section

variable (e : Env) (v : Supervisor) (s : UpdateState)

def spawn : Supervisor :=
  { v with
    child := some .running
    others := v.others + if v.child = some .running then 1 else 0 }

def alive : ℕ := v.others + if v.child = some .running then 1 else 0

/-- `{ ...state, active: state.previous, previous: null, pending: null }`. -/
def rollback : UpdateState :=
  { s with active := s.previous, previous := none, pending := none }

/-- An update attempt that throws ends the process if the switch has begun. -/
def throwing (k : Spawned) : Pc :=
  match k with
  | .start | .restart => .ending
  | .afterTrial => .resuming .ending

def afterSpawn : Spawned → Pc
  | .start => .top
  | .restart => .check
  | .afterTrial => .pruning

def spawnActive (k : Spawned) (e : Env) (v : Supervisor) : Supervisor :=
  if v.stopping then { v with pc := afterSpawn k }
  else if e.spawns then { v.spawn with pc := afterSpawn k }
  else match v.state.active with
    | none => { v with pc := throwing k }
    | some _ => { v with state := rollback v.state, pc := .writing (.launch k) }

/-- A staged candidate, from the check that the agent runs to the verification of its manifest. -/
def attempt (authority : String) (reading : Option String) (e : Env) (v : Supervisor) :
    Supervisor :=
  match v.candidate with
  | none => { v with pc := .sleeping }
  | some c =>
    if (v.child = some .running ∨ v.child = some .exited) ∧ !v.stopping then
      let (v, bound) := v.assertBinding c.binding reading
      if !bound then { v with pc := .sleeping }
      else if e.expired then { v with candidate := none, pc := .top }
      else { v with pc := .verifying authority }
    else { v with pc := .sleeping }

def checkUpdates : Supervisor :=
  if !e.due then { v with pc := .sleeping }
  else match e.binding with
    | none => { v with pc := .sleeping }
    | some authority =>
      let v := if v.candidate.any (·.binding ≠ authority) then { v with candidate := none } else v
      if !e.configured then { v with pc := .sleeping }
      else match v.candidate with
        | none => { v with pc := .fetching authority }
        | some _ => v.attempt authority e.binding' e

def head : Supervisor :=
  if v.stopping then { v with pc := .ending }
  else match v.child with
    | some (.noticed true) => { v with pc := .ending }
    | none | some (.noticed false) =>
      if v.state.active.isSome then { v with state := rollback v.state, pc := .writing .crash }
      else { v with pc := .crashSleep }
    | _ => { v with pc := .check }

/-- The state that a trial begins with, persisted before the old agent is stopped. -/
def begun (next : InstalledRelease) : UpdateState :=
  { s with acceptedSequence := next.sequence, pending := some next }

def settled : UpdateState := { s with pending := none }

def activated (next : InstalledRelease) : UpdateState :=
  { s with previous := s.active, active := some next, pending := none }

def afterThrow : Written → Pc
  | .boot | .crash => .ending
  | .launch k => throwing k
  | .begin _ _ _ | .unbind | .activate | .reject => .resuming .ending

def afterWrite : Written → Supervisor
  | .boot => { v with pc := .loadIdentity }
  | .launch k => v.spawnActive k e
  | .crash => { v with pc := .crashSleep }
  | .begin authority next manifest =>
    let (v, bound) := v.assertBinding authority e.binding
    if bound then { v with candidate := none, pc := .stoppingOld authority next manifest }
    else { v with state := settled v.state, pc := .writing .unbind }
  | .unbind => { v with pc := .resuming .sleep }
  | .activate => { v with pc := .pruning }
  | .reject => if v.stopping then { v with pc := .pruning } else v.spawnActive .afterTrial e

end

end Supervisor

namespace World

def persisted (w : World) : UpdateState := w.disk.getD .initial

def running (w : World) (v : Supervisor) : World := { w with proc := some v }

def ended (w : World) : World := { w with proc := none }

def turn (h : Platform) (e : Env) (w : World) (v : Supervisor) : Option World :=
  match v.pc with
  | .loadIdentity => some (if e.ok then w.running (v.spawnActive .start e) else w.ended)
  | .top => some (w.running v.head)
  | .check => some (w.running (v.checkUpdates e))
  | .crashSleep =>
    some (w.running (if v.stopping then { v with pc := .ending } else v.spawnActive .restart e))
  | .fetching authority =>
    match e.ok, e.manifest with
    | true, some m =>
      match v.verify h e authority m with
      | .ok () => some (w.running { v with pc := .staging authority m })
      | .error _ => some (w.running { v with pc := .sleeping })
    | _, _ => some (w.running { v with pc := .sleeping })
  | .staging authority m =>
    if e.ok then
      if isUuid e.uuid.toList then
        let directory := releaseDirectory m.sequence.toNat e.uuid
        let w := { w with releases := w.releases ++ [directory] }
        let (v, bound) := v.assertBinding authority e.binding
        if bound then
          let v := { v with candidate := some ⟨m, ⟨directory, m.sequence.toNat⟩, authority⟩ }
          some (w.running (v.attempt authority e.binding' e))
        else some (w.running { v with pc := .sleeping })
      else none
    else some (w.running { v with pc := .sleeping })
  | .verifying authority =>
    match v.candidate with
    | none => none
    | some c =>
      match v.verify h e authority c.manifest with
      | .ok () => some (w.running { v with pc := .checking authority })
      | .error _ => some (w.running { v with candidate := none, pc := .sleeping })
  | .checking authority =>
    if e.ok then
      let (v, bound) := v.assertBinding authority e.binding
      some (w.running { v with pc := if bound then .probing authority else .sleeping })
    else some (w.running { v with pc := if e.configured then .top else .sleeping })
  | .probing authority => some (w.running { v with pc := .leasing authority })
  | .leasing authority =>
    if e.ok then
      let (v, bound) := v.assertBinding authority e.binding
      some (w.running { v with pc := if bound then .draining authority else .resuming .sleep })
    else some (w.running { v with pc := .sleeping })
  | .draining authority =>
    if e.ok && e.inTime && !v.stopping then
      let (v, bound) := v.assertBinding authority e.binding
      match bound, v.candidate with
      | true, some c =>
        let w := { w with recorded :=
          w.recorded ++ [(c.release, c.manifest, e.binding, v.state.acceptedSequence)] }
        some (w.running { v with
          state := Supervisor.begun v.state c.release
          pc := .writing (.begin authority c.release c.manifest) })
      | _, _ => some (w.running { v with pc := .resuming .sleep })
    else some (w.running { v with pc := .resuming .sleep })
  | .stoppingOld authority next m =>
    if e.ok then
      if v.child = some .running then none
      else if v.stopping then some (w.running { v with pc := .resuming .ending })
      else
        let (v, bound) := v.assertBinding authority e.binding
        if bound && e.spawns then
          some ({ w with tried := w.tried ++ [next.sequence] }.running
            { v.spawn with pc := .trying authority next m })
        else some (w.running { v with pc := .stoppingTrial })
    else some (w.running { v with pc := .resuming .ending })
  | .trying authority next m =>
    -- The binding is asserted, which can only log, and then compared.
    let w := if e.ok then { w with passed := w.passed ++ [(next, m, e.binding')] } else w
    let v := (v.assertBinding authority e.binding).1
    match e.ok, e.binding' with
    | false, _ => some (w.running { v with pc := .stoppingTrial })
    | true, none => some (w.running { v with pc := .resuming .ending })
    | true, some binding =>
      if binding = authority then
        some (w.running { v with
          state := Supervisor.activated v.state next, pc := .writing .activate })
      else some (w.running { v with pc := .stoppingTrial })
  | .stoppingTrial =>
    if e.ok then
      if v.child = some .running then none
      else some (w.running { v with
        state := Supervisor.settled v.state, pc := .writing .reject })
    else some (w.running { v with pc := .resuming .ending })
  | .pruning =>
    some ({ w with releases := pruneReleases v.state e.removed w.releases }.running
      { v with pc := .resuming .sleep })
  | .writing k =>
    if e.ok then some ({ w with disk := some v.state }.running (v.afterWrite e k))
    else
      let w := if e.renamed then { w with disk := some v.state } else w
      some (w.running { v with pc := Supervisor.afterThrow k })
  | .resuming .sleep => some (w.running { v with pc := .sleeping })
  | .resuming .ending => some (w.running { v with pc := .ending })
  | .sleeping => some (w.running { v with pc := .top })
  | .ending => some w.ended

/-- A process starts: it reads the state, and forgets a trial that was not confirmed. -/
def boot (w : World) : World :=
  match readUpdateState (w.disk.map UpdateState.encode) with
  | .error _ => w
  | .ok state =>
    if state.pending.isSome then
      w.running { state := Supervisor.settled state, pc := .writing .boot }
    else w.running { state, pc := .loadIdentity }

inductive Event
  | boot
  /-- The process dies; a write it was in may have renamed the file. -/
  | crash (renamed : Bool)
  | turn (e : Env)
  | signal
  | childExits
  | childNoticed (zero : Bool)

def step (h : Platform) (w : World) : Event → Option World
  | .boot => if w.proc.isNone then some w.boot else none
  | .crash renamed => w.proc.map fun v ↦
    match v.pc, renamed with
    | .writing _, true => { w with disk := some v.state, proc := none }
    | _, _ => w.ended
  | .turn e => w.proc.bind (w.turn h e)
  | .signal => w.proc.map fun v ↦ w.running { v with stopping := true }
  | .childExits => w.proc.bind fun v ↦
    if v.child = some .running then some (w.running { v with child := some .exited }) else none
  | .childNoticed zero => w.proc.bind fun v ↦
    if v.child = some .exited then
      some (w.running { v with child := some (.noticed zero) }) else none

end World

end Swarmlet.Agent
