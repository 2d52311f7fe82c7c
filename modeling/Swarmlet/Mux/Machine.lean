import Swarmlet.Lib.JsMap
import Swarmlet.Lib.Machine
import Swarmlet.Mux.Frame

/-!
# The stream multiplexer

A mux keeps one object a stream and a map from ids to the streams that are open. It calls out in
four places: the sender of frames, the handler of new streams, and the data and end handlers of a
stream. Each of them may throw, and may call back into the mux before it returns.

## Callbacks

A call out leaves an operation under way. What is left of it is a `Resume` on the `stack`, the
innermost first, and whoever was called is in control: the next event is another call into the mux,
or the callback returns or throws, which resumes the top of the stack. So a run is a list of events,
whatever the callbacks do, and what holds in every state holds inside callbacks too.

Streams are never forgotten by the model: a `Handle` is the position of a stream among all that were
made, so a handle that is stale, because its id was used again, is still a handle.

## History

`arrived`, `handed` and `wrote` of a stream, and the `calls` of the mux, are history that no
function reads: the chunks that came in, those that were given to a data handler, those that were
written, and everything the mux has called.
-/

namespace Swarmlet.Mux

open Js

/-- The position of a stream among all that were made. -/
abbrev Handle := ℕ

abbrev Handler := ℕ

/-- `JSON.stringify` with `TextEncoder`, and `TextDecoder` with `JSON.parse`, which may throw. -/
structure Codec where
  stringify : Json → Bytes
  parse : Bytes → Option Json

structure MuxStream where
  id : ℕ
  header : Json
  dataCb : Option Handler := none
  endCb : Option Handler := none
  pending : List Bytes := []
  pendingBytes : ℕ := 0
  ended : Bool := false
  endedReason : Option Json := none
  closedLocally : Bool := false
  arrived : List Bytes := []
  handed : List Bytes := []
  wrote : List Bytes := []

namespace MuxStream

def isClosed (x : MuxStream) : Bool := x.closedLocally || x.ended

def cleared (x : MuxStream) : MuxStream := { x with pendingBytes := 0, pending := [] }

end MuxStream

inductive Call
  | send (frame : Bytes)
  | opened (h : Handle)
  | data (h : Handle) (cb : Handler) (chunk : Bytes)
  | ended (h : Handle) (cb : Handler) (reason : Option Json)

/-- What is left of an operation that has called out. -/
inductive Resume
  | done
  /-- `onData`, in its loop over the chunks that were buffered. -/
  | flush (h : Handle) (cb : Handler) (rest : List Bytes)
  /-- `open`, which has sent its frame. -/
  | opening (h : Handle)
  /-- `handleFrame`, which has announced a stream. -/
  | opened (h : Handle)
  /-- `handleFrame`, which closes a stream that was not accepted. -/
  | rejecting (h : Handle)
  /-- `close` in a `try`, with `_end` in its `finally`. -/
  | ending (h : Handle) (reason : String)
  /-- `closeAll`, in its loop. -/
  | closing (rest : List Handle) (reason : String)

structure StreamMux where
  nextId : ℕ
  streams : JsMap ℕ Handle := .empty
  pendingBytes : ℤ := 0
  objs : List MuxStream := []
  stack : List Resume := []
  calls : List Call := []

namespace StreamMux

def new (odd : Bool) : StreamMux := { nextId := if odd then 1 else 2 }

section

variable (m : StreamMux) (h : Handle)

def call (c : Call) (k : Resume) : StreamMux :=
  { m with calls := m.calls ++ [c], stack := k :: m.stack }

def invoke (c : Option Call) (k : Resume) : StreamMux :=
  match c with
  | some c => m.call c k
  | none => m

def put (x : MuxStream) : StreamMux := { m with objs := m.objs.set h x }

def forget (id : ℕ) : StreamMux := { m with streams := m.streams.erase id }

def reservePending (bytes : ℕ) : Option StreamMux :=
  if MAX_PENDING_MUX_BYTES < m.pendingBytes + bytes then none
  else some { m with pendingBytes := m.pendingBytes + bytes }

def releasePending (bytes : ℕ) : StreamMux :=
  { m with pendingBytes := m.pendingBytes - bytes }

def ended (m : StreamMux) (h : Handle) (x : MuxStream) (reason : Option Json) : StreamMux :=
  (m.releasePending x.pendingBytes).put h { x.cleared with ended := true, endedReason := reason }

def endStream (reason : Option Json) : StreamMux × Option Call :=
  match m.objs[h]? with
  | none => (m, none)
  | some x =>
    if x.ended then (m, none) else (m.ended h x reason, x.endCb.map (.ended h · reason))

def closed (x : MuxStream) : StreamMux :=
  ((m.releasePending x.pendingBytes).put h { x.cleared with closedLocally := true }).forget x.id

end

variable (codec : Codec)

section

variable (m : StreamMux) (h : Handle) (reason : String)

def reasonBytes : Bytes :=
  if reason = "" then [] else codec.stringify (.obj [("reason", .str reason)])

def closeStream : StreamMux × Option Call :=
  match m.objs[h]? with
  | none => (m, none)
  | some x =>
    if x.closedLocally then (m, none)
    else (m.closed h x, some (.send (encodeFrame x.id .close (reasonBytes codec reason))))

def closeThenEnd : StreamMux :=
  match m.closeStream codec h reason with
  | (m, some c) => m.call c (.ending h reason)
  | (m, none) =>
    let (m, c) := m.endStream h (some (.str reason))
    m.invoke c .done

def write (x : MuxStream) (chunk : Bytes) : StreamMux :=
  let m := m.put h { x with wrote := x.wrote ++ [chunk] }
  if x.isClosed then m else m.call (.send (encodeFrame x.id .data chunk)) .done

def flushLoop (cb : Handler) : List Bytes → StreamMux
  | [] => m
  | c :: rest =>
    match m.objs[h]? with
    | none => m
    | some x =>
      if x.isClosed then m
      else (m.put h { x with handed := x.handed ++ [c] }).call (.data h cb c) (.flush h cb rest)

def onData (x : MuxStream) (cb : Handler) : StreamMux :=
  ((m.releasePending x.pendingBytes).put h { x.cleared with dataCb := some cb }).flushLoop h cb
    x.pending

def onEnd (x : MuxStream) (cb : Handler) : StreamMux :=
  let m := m.put h { x with endCb := some cb }
  if x.ended then m.call (.ended h cb x.endedReason) .done else m

def deliver (x : MuxStream) (chunk : Bytes) : StreamMux :=
  if x.isClosed then m
  else match x.dataCb with
    | some cb =>
      (m.put h { x with arrived := x.arrived ++ [chunk], handed := x.handed ++ [chunk] }).call
        (.data h cb chunk) .done
    | none =>
      if chunk = [] then m
      else if MAX_PENDING_STREAM_BYTES < x.pendingBytes + chunk.length then
        m.closeThenEnd codec h "pending data limit exceeded"
      else match m.reservePending chunk.length with
        | none => m.closeThenEnd codec h "pending data limit exceeded"
        | some m => m.put h { x with
            pendingBytes := x.pendingBytes + chunk.length
            pending := x.pending ++ [chunk]
            arrived := x.arrived ++ [chunk] }

def create (id : ℕ) (header : Json) : StreamMux :=
  { m with
    objs := m.objs ++ [{ id, header }]
    streams := m.streams.set id m.objs.length }

def «open» (header : Json) : Except String StreamMux :=
  if headerShape header = false then .error "invalid stream header"
  else if MAX_OPEN_STREAMS ≤ m.streams.size then .error "open stream limit exceeded"
  else
    let m' := { m.create m.nextId header with nextId := m.nextId + 2 }
    .ok (m'.call (.send (encodeFrame m.nextId .open (codec.stringify header)))
      (.opening m.objs.length))

end

/-- The reason a CLOSE frame gives; one that cannot be read is none. -/
def closeReason (payload : Bytes) : Option Json :=
  if payload = [] then none
  else match codec.parse payload with
    | some (.obj members) => Json.get members "reason"
    | _ => none

def handleFrame (m : StreamMux) (buf : Bytes) : Except String StreamMux := do
  let f ← decodeFrame buf
  match f.op with
  | .open =>
    if (m.streams.get f.streamId).isSome then .error s!"stream {f.streamId} already open"
    else if MAX_HEADER_BYTES < f.payload.length then .error "stream header too large"
    else match codec.parse f.payload with
      | none => .error "JSON Parse error"
      | some header =>
        if headerShape header = false then .error "invalid stream header"
        else if MAX_OPEN_STREAMS ≤ m.streams.size then
          .ok (m.call (.send (encodeFrame f.streamId .close
            (reasonBytes codec "open stream limit exceeded"))) .done)
        else
          .ok ((m.create f.streamId header).call (.opened m.objs.length) (.opened m.objs.length))
  | .data =>
    match m.streams.get f.streamId with
    | none => .ok m
    | some h => .ok ((m.objs[h]?.map fun x ↦ m.deliver codec h x f.payload).getD m)
  | .close =>
    match m.streams.get f.streamId with
    | none => .ok m
    | some h =>
      let (m, c) := (m.forget f.streamId).endStream h (closeReason codec f.payload)
      .ok (m.invoke c .done)

def closeLoop (reason : String) : List Handle → StreamMux → StreamMux
  | [], m => m
  | h :: rest, m =>
    match m.endStream h (some (.str reason)) with
    | (m, some c) => m.call c (.closing rest reason)
    | (m, none) => closeLoop reason rest m

def closeAll (m : StreamMux) (reason : String) : StreamMux :=
  closeLoop reason m.streams.values { m with streams := .empty }

/-- A callback has returned, with what it returned, or has thrown. -/
def resume (m : StreamMux) (outcome : Option Bool) : Resume → StreamMux
  | .done => m
  | .flush h cb rest => if outcome.isSome then m.flushLoop h cb rest else m
  | .opening h =>
    if outcome.isSome then m
    else match m.objs[h]? with
      | none => m
      | some x =>
        let (m, c) := (m.forget x.id).endStream h (some (.str "open failed"))
        m.invoke c .done
  | .opened h =>
    match outcome with
    | some true => m
    | some false =>
      let (m, c) := m.closeStream codec h "rejected"
      m.invoke c (.rejecting h)
    | none => m.closeThenEnd codec h "open failed"
  | .rejecting h => if outcome.isSome then m else m.closeThenEnd codec h "open failed"
  | .ending h reason =>
    let (m, c) := m.endStream h (some (.str reason))
    m.invoke c .done
  | .closing rest reason => m.closeLoop reason rest

end StreamMux

/-! ## Events -/

inductive Event
  | «open» (header : Json)
  | write (h : Handle) (chunk : Bytes)
  | close (h : Handle) (reason : String)
  | onData (h : Handle) (cb : Handler)
  | onEnd (h : Handle) (cb : Handler)
  | handleFrame (buf : Bytes)
  | closeAll (reason : String)
  | returns (accepted : Bool)
  | throws

/-- What an event does; an exception that comes before any change leaves the mux as it is. -/
def step (codec : Codec) (m : StreamMux) : Event → Option StreamMux
  | .open header => some ((m.open codec header).toOption.getD m)
  | .write h chunk => m.objs[h]?.map fun x ↦ m.write h x chunk
  | .close h reason => m.objs[h]?.map fun _ ↦
      (m.closeStream codec h reason).1.invoke (m.closeStream codec h reason).2 .done
  | .onData h cb => m.objs[h]?.map fun x ↦ m.onData h x cb
  | .onEnd h cb => m.objs[h]?.map fun x ↦ m.onEnd h x cb
  | .handleFrame buf => some ((m.handleFrame codec buf).toOption.getD m)
  | .closeAll reason => some (m.closeAll reason)
  | .returns accepted =>
    match m.stack with
    | [] => none
    | k :: stack => some ({ m with stack }.resume codec (some accepted) k)
  | .throws =>
    match m.stack with
    | [] => none
    | k :: stack => some ({ m with stack }.resume codec none k)

end Swarmlet.Mux
