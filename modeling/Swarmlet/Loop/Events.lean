import Mathlib.Algebra.Group.Nat.Defs
import Swarmlet.Lib.JsMap
import Swarmlet.Lib.Machine
import Swarmlet.Loop.Pii

/-!
# The event store and its curation

A node captures what happens in its sessions into an append-only table and flags payloads that hold
personal data. From time to time a pass curates the unprocessed events: a judge decides which carry
a signal, the signals of a session become one candidate, and the candidate's summary quotes an
excerpt of the first five payloads.

The pass waits for the judge, so events are captured and imported, and other passes begin and end,
between the moment it reads its batch and the moment it writes its summaries. A pass is two events
here; all its uses of the detector come after the last answer of the judge.

The state also remembers what the process has given out: the records that `capture` returned and the
candidates that passes returned.
-/

namespace Swarmlet.Loop

open Js

/-! ## Records -/

inductive EventKind
  | correction
  | retry
  | toolFailure
  | outcome
  | observation
deriving DecidableEq, Repr

def EventKind.name : EventKind → String
  | correction => "correction"
  | retry => "retry"
  | toolFailure => "tool_failure"
  | outcome => "outcome"
  | observation => "observation"

structure EventRecord where
  id : String
  ts : String
  nodeId : Option String
  session : String
  kind : String
  payload : Text
  piiFlagged : Bool
  processed : Bool
deriving DecidableEq

structure CaptureInput where
  session : String
  kind : EventKind
  payload : Text
  nodeId : Option String := none
  ts : Option String := none

structure RawRow where
  id : String
  ts : Option String
  nodeId : Option String
  session : String
  kind : String
  payload : Option Text
  piiFlagged : Bool
  processed : Bool

/-! ## Ids -/

section

variable (rows : List EventRecord) (text : Text)

def fnv1a : ℕ :=
  text.foldl (fun h u ↦ ((h ^^^ u) * 0x01000193) % 2 ^ 32) 0x811c9dc5

/-- `n.toString(36)` for a number below `36 ^ fuel`. -/
def digits36 : ℕ → ℕ → List Char → List Char
  | 0, _, acc => acc
  | fuel + 1, n, acc =>
    let acc := Char.ofNat (if n % 36 < 10 then 48 + n % 36 else 87 + n % 36) :: acc
    if n / 36 = 0 then acc else digits36 fuel (n / 36) acc

def hashText : String := String.ofList (digits36 7 (fnv1a text) [])

def eventId (input : CaptureInput) : String :=
  "evt-" ++ hashText (units input.session ++ units "|" ++ units input.kind.name ++ units "|" ++
    input.payload ++ units "|" ++ units (input.ts.getD ""))

/-! ## The table -/

/-- `INSERT OR IGNORE`: the id is the primary key. -/
def insertOrIgnore (r : EventRecord) : List EventRecord :=
  if rows.any (·.id = r.id) then rows else rows ++ [r]

/-- The order of texts in the table: by code point. -/
def compareColumn (a b : String) : Ordering :=
  compareUnits (a.toList.map Char.toNat) (b.toList.map Char.toNat)

/-- `ORDER BY ts, id`. -/
def compareRows (a b : EventRecord) : Ordering :=
  (compareColumn a.ts b.ts).then (compareColumn a.id b.id)

def unprocessed (limit : ℕ) : List EventRecord :=
  (sortBy compareRows (rows.filter (!·.processed))).take limit

/-- The row of an imported event; one without an id, a kind, a session or a payload is skipped, and
one without a time violates a constraint and is ignored. -/
def RawRow.record (r : RawRow) : Option EventRecord :=
  if r.id = "" ∨ r.kind = "" ∨ r.session = "" then none
  else r.payload.bind fun payload ↦ r.ts.map fun ts ↦
    { id := r.id, ts, nodeId := r.nodeId, session := r.session, kind := r.kind, payload,
      piiFlagged := r.piiFlagged, processed := r.processed }

def importRaw (raw : List RawRow) : List EventRecord :=
  (raw.filterMap RawRow.record).foldl insertOrIgnore rows

def markProcessed (ids : List String) : List EventRecord :=
  rows.map fun r ↦ if r.id ∈ ids then { r with processed := true } else r

/-! ## Judging -/

structure JudgeVerdict where
  signal : Bool
  skillCandidate : Bool
  reason : Text
  judged : Bool

structure Reply where
  signal : Option Bool
  skillCandidate : Option Bool
  reason : Option Text

def mentions (word : String) : Bool := text.tails.any (units word).isPrefixOf

end

def failureShaped (lower : Text) : Bool :=
  ["error", "fail", "wrong", "incorrect", "broken", "crash", "timeout", "fix", "should have"].any
    (mentions lower)

def fallbackVerdict (toLowerCase : Text → Text) (ev : EventRecord) : JudgeVerdict :=
  let shaped := failureShaped (toLowerCase ev.payload)
  let signalByKind := decide (ev.kind = EventKind.correction.name) ||
    decide (ev.kind = EventKind.retry.name) || decide (ev.kind = EventKind.toolFailure.name)
  let signal := signalByKind || (decide (ev.kind = EventKind.observation.name) && shaped)
  { signal
    skillCandidate := signal && decide (ev.kind ≠ EventKind.observation.name)
    reason := units "fallback(" ++ units ev.kind ++
    units (if shaped then "+failure-shaped" else "") ++
      units ")"
    judged := false }

/-- The judge may refine the deterministic verdict but not silence it. -/
def judgeEvent (toLowerCase : Text → Text) (ev : EventRecord) (reply : Option Reply) :
    JudgeVerdict :=
  match reply with
  | some ⟨some signal, some skillCandidate, reason⟩ =>
    let text := (reason.map (·.take 200)).getD (units "judged")
    let fallback := fallbackVerdict toLowerCase ev
    if fallback.signal && !signal then { fallback with reason := units "override:" ++ text }
    else { signal, skillCandidate, reason := text, judged := true }
  | _ => fallbackVerdict toLowerCase ev

/-! ## Excerpts -/

/-- `s.replace(/\s+/g, " ")`; the flag says that the unit before was folded away. -/
def foldBlanks : Bool → Text → Text
  | _, [] => []
  | inRun, u :: l =>
    if isBlank u then (if inRun then foldBlanks true l else 32 :: foldBlanks true l)
    else u :: foldBlanks false l

def trim (l : Text) : Text := ((l.dropWhile isBlank).reverse.dropWhile isBlank).reverse

/-- One line of at most 140 units, the last an ellipsis where the text was longer. -/
def excerpt (s : Text) : Text :=
  let oneLine := trim (foldBlanks false s)
  if oneLine.length ≤ 140 then oneLine else oneLine.take 139 ++ units "…"

/-- A line of a summary. The detector is asked only about events that are not flagged. -/
def excerptLine (lastIndex : LastIndex) (e : EventRecord) : Text × LastIndex :=
  let d := if e.piiFlagged then (true, lastIndex) else detectPii lastIndex e.payload
  let src := if d.1 then redactPii e.payload else e.payload
  (units "- [" ++ units e.kind ++ units "] " ++ excerpt src, d.2)

def excerptLines (lastIndex : LastIndex) : List EventRecord → List Text × LastIndex
  | [] => ([], lastIndex)
  | e :: es =>
    let line := excerptLine lastIndex e
    let rest := excerptLines line.2 es
    (line.1 :: rest.1, rest.2)

/-! ## Candidates -/

inductive CandidateKind
  | skill
  | memory
deriving DecidableEq

structure SkillCandidate where
  id : String
  eventIds : List String
  summary : Text
  kind : CandidateKind

structure Curated where
  session : String
  events : List EventRecord
  lines : List Text

def Curated.candidate (c : Curated) : SkillCandidate where
  id := "cand-" ++ hashText (units (c.session ++ "|" ++ ",".intercalate (c.events.map (·.id))))
  eventIds := c.events.map (·.id)
  summary := units ("[session:" ++ c.session ++ "] Recurring " ++
      "+".intercalate (distinct (c.events.map (·.kind))) ++ " pattern in session(s); lessons:\n") ++
    (units "\n").intercalate c.lines
  kind := if c.events.length ≥ 2 then .skill else .memory

def bySession (events : List EventRecord) : JsMap String (List EventRecord) :=
  events.foldl (fun m e ↦ m.set e.session ((m.get e.session).getD [] ++ [e])) JsMap.empty

def summarizeAll (lastIndex : LastIndex) :
    List (String × List EventRecord) → List Curated × LastIndex
  | [] => ([], lastIndex)
  | (session, events) :: rest =>
    let lines := excerptLines lastIndex (events.take 5)
    let others := summarizeAll lines.2 rest
    (⟨session, events, lines.1⟩ :: others.1, others.2)

/-- The end of a pass: the sessions with a signal, sorted, each summarized. -/
def curateBatch (toLowerCase : Text → Text) (lastIndex : LastIndex) (batch : List EventRecord)
    (reply : EventRecord → Option Reply) : List Curated × LastIndex :=
  let signals := batch.filter fun e ↦ (judgeEvent toLowerCase e (reply e)).signal
  summarizeAll lastIndex (sortBy (fun a b ↦ compareText a.1 b.1) (bySession signals).entries)

/-! ## The process -/

structure State where
  rows : List EventRecord
  lastIndex : LastIndex
  passes : List (List EventRecord)
  captured : List EventRecord
  curated : List Curated

def State.init : State := ⟨[], fun _ ↦ 0, [], [], []⟩

inductive Event
  | capture (input : CaptureInput) (now : String)
  | importRaw (raw : List RawRow)
  | curateBegin (batchSize : ℕ)
  /-- The `i`-th pass has its last answer; each event of its batch was judged by a reply. -/
  | curateEnd (i : ℕ) (reply : EventRecord → Option Reply)

/-- The record of a new event, and where the detector resumes afterwards. -/
def captureRecord (lastIndex : LastIndex) (input : CaptureInput) (now : String) :
    EventRecord × LastIndex :=
  let d := detectPii lastIndex input.payload
  ({ id := eventId input, ts := input.ts.getD now, nodeId := input.nodeId,
     session := input.session, kind := input.kind.name, payload := input.payload,
     piiFlagged := d.1, processed := false }, d.2)

/-- An event with a known id is ignored, and the row that has it is returned. -/
def State.capture (s : State) (input : CaptureInput) (now : String) : State :=
  let r := captureRecord s.lastIndex input now
  let rows := insertOrIgnore s.rows r.1
  { s with
    rows
    lastIndex := r.2
    captured := s.captured ++ [(rows.find? (·.id = r.1.id)).getD r.1] }

def State.step (toLowerCase : Text → Text) (s : State) : Event → Option State
  | .capture input now => some (s.capture input now)
  | .importRaw raw => some { s with rows := Loop.importRaw s.rows raw }
  | .curateBegin batchSize => some { s with passes := s.passes ++ [unprocessed s.rows batchSize] }
  | .curateEnd i reply => s.passes[i]?.map fun batch ↦
    let r := curateBatch toLowerCase s.lastIndex batch reply
    { s with
      rows := markProcessed s.rows (batch.map (·.id))
      lastIndex := r.2
      passes := s.passes.eraseIdx i
      curated := s.curated ++ r.1 }

end Swarmlet.Loop
