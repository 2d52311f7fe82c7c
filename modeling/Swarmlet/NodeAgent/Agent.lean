import Swarmlet.Protocol.Wire

/-!
# The agent's message handler

What the agent does with a text frame of its control channel. A frame that
`parseControlMessage` refuses is logged and dropped; every other frame runs the handler of its
kind with the members of the frame.
-/

namespace Swarmlet

open Js Js.Json

inductive AgentAction
  | authenticate (nonce : String)
  | hello (inferenceKey : Option String)
  | onAssign (assignment : Option Json)
  | onFetch (profile : Option Json)
  | pong (ts : String) (link : Option Json)
  | controlError (message : String)

def textOf : Option Json → String
  | some (.str s) => s
  | _ => ""

def linkOk (dateOk : String → Bool) : Option Json → Bool :=
  objThat fun link ↦ numThat (0 ≤ ·) (Json.get link "rttMs") &&
    strThat dateOk (Json.get link "measuredAt")

/-- `onMessage` for a text frame; `dateOk s` is `Number.isFinite(Date.parse(s))`. -/
def onMessage (dateOk : String → Bool) (data : Option Json) : Option AgentAction :=
  match parseControlMessage data with
  | .ok (.obj m) =>
    let t := textOf (Json.get m "t")
    if t = "challenge" then some (.authenticate (textOf (Json.get m "nonce")))
    else if t = "welcome" then
      some (.hello ((Json.get m "inferenceKey").map fun key ↦ textOf (some key)))
    else if t = "assign" then some (.onAssign (Json.get m "assignment"))
    else if t = "fetch" then some (.onFetch (Json.get m "profile"))
    else if t = "ping" then
      let link := Json.get m "link"
      some (.pong (textOf (Json.get m "ts")) (if linkOk dateOk link then link else none))
    else if t = "error" then some (.controlError (textOf (Json.get m "message")))
    else none
  | _ => none

def ControlToAgent.action (dateOk : String → Bool) : ControlToAgent → AgentAction
  | .challenge nonce => .authenticate nonce
  | .welcome _ _ inferenceKey => .hello inferenceKey
  | .assign a => .onAssign (some a.encode)
  | .fetch profile => .onFetch (some (.str profile))
  | .error message => .controlError message
  | .ping ts link => .pong ts <| link.bind fun (rttMs, measuredAt) ↦
      if 0 ≤ rttMs ∧ dateOk measuredAt then
        some (object [("rttMs", some (.num rttMs)), ("measuredAt", some (.str measuredAt))])
      else none

/-- **The handler of a message runs exactly when the parser accepts it.** -/
theorem onMessage_encode (dateOk : String → Bool) (msg : ControlToAgent) :
    onMessage dateOk (some msg.encode) = some (msg.action dateOk) ↔ msg.Accepted := by
  by_cases hok : msg.Accepted
  · refine iff_of_true ?_ hok
    rw [onMessage, (parseControlMessage_encode msg).mpr hok]
    simp only [ControlToAgent.encode, object, msg.get_members]
    cases msg with
    | challenge | assign | error => rfl
    | welcome nodeId serverTime inferenceKey => cases inferenceKey <;> rfl
    | fetch => exact absurd hok id
    | ping ts link =>
      cases link with
      | none => rfl
      | some =>
        simp [ControlToAgent.members, ControlToAgent.action, textOf, linkOk, object, get_defined]
  · refine iff_of_false ?_ hok
    have hparse : ∀ v, parseControlMessage (some msg.encode) ≠ .ok v := by
      intro v hv
      obtain rfl := parseControlMessage_ok hv
      exact hok ((parseControlMessage_encode msg).mp hv)
    rw [onMessage]
    split
    · rename_i m hm
      exact absurd hm (hparse _)
    · simp

end Swarmlet
