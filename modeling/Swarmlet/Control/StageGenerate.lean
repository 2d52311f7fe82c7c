import Swarmlet.Lib.TextDecoder
import Swarmlet.Control.StageTransfer

/-!
# Generation over native endpoints

`generate` of the stage executor, from the moment it holds the lease of its deployment. Its body
prepares the endpoints, evaluates the prompt in batches, moves the state where the prompt is
evaluated on one endpoint and the continuation on another, and then evaluates one token at a time.
Whatever the body comes to, the clean-up follows: if an endpoint may have changed, every capsule
file is deleted and every endpoint reset, and each of these steps that is not acknowledged is a
failure.
-/

namespace Swarmlet.Stage

open Js Json

def BATCH : ℕ := 64

def EMBEDDING : ℕ := 2048

def VOCAB : ℕ := 248320

/-! ## Plans and requests -/

abbrev Plan := StageExecutionPlan

structure Request where
  prompt : Option String
  messages : Option (List (String × String))
  maxTokens : ℕ
  temperature : Option ℚ := none

def validateRequest (h : StageHost) (q : Request) : Except String Unit :=
  if !(1 ≤ q.maxTokens && q.maxTokens ≤ 128) || q.temperature.any (· ≠ 0) then
    .error "only greedy generation of 1..128 tokens is supported"
  else if q.prompt.isNone = q.messages.isNone then .error "provide exactly one prompt or messages"
  else if q.prompt.any fun text ↦ text = "" || 65536 < text.utf8ByteSize then
    .error "prompt must be nonempty and at most 65536 bytes"
  else if q.messages.any fun messages ↦ messages = [] || 64 < messages.length ||
      messages.any (fun m ↦ m.1 ∉ ["system", "user", "assistant"]) ||
      65536 < h.messageBytes messages then
    .error "invalid text-only chat messages"
  else .ok ()

/-! ## The parts of a generation -/

/-- `status` of an endpoint, and what it must be before a generation begins. -/
def prepareEndpoint (index : ℕ) (target : NativeStageEndpoint) : Exec Prepared := do
  let _ ← Routine.call (.localPort index)
  let status ← command ⟨index, target, []⟩ .status
  Routine.lift (assertIdentity (get status "identity") target.identity)
  Routine.check (isNumber EMBEDDING (get status "n_embd") && isNumber VOCAB
    (get status "n_vocab") && isText target.binarySha256 (get status "binary_sha256"))
    "unexpected native model dimensions or binary identity"
  Routine.check (isText "" (get status "session") && isNumber 0 (get status "position"))
    "native endpoint is busy or has uncleared state"
  pure ⟨index, target, status⟩

def prepareFrom (index : ℕ) : List NativeStageEndpoint → Exec (List Prepared)
  | [] => pure []
  | target :: rest => do
    let e ← prepareEndpoint index target
    let prepared ← prepareFrom (index + 1) rest
    pure (e :: prepared)

def prepare (plan : Plan) : Exec (List Prepared) := do
  let prepared ← prepareFrom 0 plan.endpoints
  let binary (i : ℕ) (sha256 : String) : Bool :=
    prepared[i]?.any fun e ↦ isText sha256 (get e.status "binary_sha256")
  Routine.check (plan.mode = .stages || plan.stateTransferQualification.any fun q ↦
    binary 0 q.sourceBinarySha256 && binary 1 q.targetBinarySha256)
    "native binary pair differs from state-transfer qualification"
  pure prepared

structure NativeToken where
  token : ℕ
  isEog : Bool
  pieceBytes : List ℕ
deriving DecidableEq

def numbersOf : Option Json → Option (List ℚ)
  | some (.arr l) => l.mapM fun v ↦ match v with
    | .num q => some q
    | _ => none
  | _ => none

def tokenOf (out : ObjectValue) : Option NativeToken :=
  match integerOf 0 (VOCAB - 1) (get out "token"), get out "isEog",
      integersOf 255 (get out "pieceBytes"), get out "logits" with
  | some token, some (.bool isEog), some pieceBytes, none =>
    if pieceBytes.length ≤ 65536 then some ⟨token, isEog, pieceBytes⟩ else none
  | _, _, _, _ => none

section

variable (e : Prepared) (session : String) (position : ℕ) (input : EvalInput) (count : ℕ)

def evalCommand : Exec ObjectValue := do
  let out ← command e (.eval session position input)
  Routine.check (isNumber ((position + count : ℕ) : ℚ) (get out "position"))
    "native position acknowledgement mismatch"
  pure out

def evalMiddle : Exec (List ℚ) := do
  let out ← evalCommand e session position input count
  match numbersOf (get out "activations") with
  | some activations =>
    if activations.length = count * EMBEDDING then pure activations
    else throw "invalid native activation batch"
  | none => throw "invalid native activation batch"

def evalLast : Exec NativeToken := do
  let out ← evalCommand e session position input count
  match tokenOf out with
  | some token => pure token
  | none => throw "invalid compact native token response"

end

def evalThrough (session : String) (position count : ℕ) :
    List Prepared → EvalInput → Option NativeToken → Exec (Option NativeToken)
  | [], _, output => pure output
  | [e], input, _ => some <$> evalLast e session position input count
  | e :: e' :: rest, input, output => do
    let activations ← evalMiddle e session position input count
    evalThrough session position count (e' :: rest) (.activations activations) output

def prefill (session : String) (endpoints : List Prepared) (position : ℕ) (prompt : List ℕ)
    (output : Option NativeToken) : Exec (Option NativeToken) :=
  if _hprompt : prompt = [] then pure output
  else do
    let tokens := prompt.take BATCH
    let output ← evalThrough session position tokens.length endpoints (.tokens tokens) output
    prefill session endpoints (position + tokens.length) (prompt.drop BATCH) output
termination_by prompt.length
decreasing_by
  have := List.length_pos_iff.mpr _hprompt
  rw [List.length_drop, BATCH]
  omega

def emit (onToken : Bool) (chunk : StageTokenChunk) : Exec Unit := do
  if onToken then
    let _ ← Routine.call (.emit chunk)

inductive FinishReason
  | stop | length
deriving DecidableEq

structure Decoded where
  decoder : TextDecoder := {}
  tokenIds : List ℕ := []
  text : String := ""
  finishReason : FinishReason := .length
deriving DecidableEq

/-- The loop over the tokens, with what is left of `maxTokens`. -/
def decodeTokens (session : String) (endpoints : List Prepared) (onToken : Bool) :
    ℕ → ℕ → NativeToken → Decoded → Exec Decoded
  | 0, _, _, d => pure d
  | left + 1, position, output, d => do
    let _ ← Routine.call .throwIfAborted
    if output.isEog then pure { d with finishReason := .stop }
    else do
      let (decoder, chars) := d.decoder.decode output.pieceBytes
      let piece := String.ofList chars
      let d := { d with decoder, tokenIds := d.tokenIds ++ [output.token], text := d.text ++ piece }
      emit onToken ⟨some output.token, piece⟩
      let _ ← Routine.call .throwIfAborted
      if left = 0 then pure d
      else do
        match ← evalThrough session position 1 endpoints (.tokens [output.token]) (some output) with
        | some output => decodeTokens session endpoints onToken left (position + 1) output d
        | none => throw "undefined is not an object"

structure Result where
  text : String
  tokenIds : List ℕ
  finishReason : FinishReason
  promptTokens : ℕ
  completionTokens : ℕ
deriving DecidableEq

/-- The endpoints that evaluate the continuation; the state of the prompt is theirs. -/
def continuation (h : StageHost) (mode : NativeMode) (session : String) (position : ℕ)
    (endpoints : List Prepared) : Exec (List Prepared) :=
  match mode, endpoints with
  | .stages, _ => pure endpoints
  | .prefillDecode, first :: second :: _ => do
    transfer h first second session (session ++ ".state")
    let imported ← command second (.importState session (session ++ ".state"))
    Routine.check (isNumber position (get imported "position") &&
      isNumber 0 (get imported "evaluated_tokens"))
      "state import did not acknowledge zero-replay continuation"
    pure [second]
  | .prefillDecode, _ => throw "undefined is not an object"

def promptTokens (first : Prepared) (request : Request) : Exec (List ℕ) := do
  let tokenized ← command first (match request.prompt with
    | some text => .tokenize text
    | none => .chatTokens (request.messages.getD []))
  match integersOf (VOCAB - 1) (get tokenized "tokens") with
  | some prompt =>
    if prompt ≠ [] ∧ numThat (fun ctx ↦ ((prompt.length + request.maxTokens : ℕ) : ℚ) ≤ ctx)
        (get first.target.identity "ctx") then pure prompt
    else throw "invalid prompt tokens or context capacity exceeded"
  | none => throw "invalid prompt tokens or context capacity exceeded"

def evaluate (h : StageHost) (mode : NativeMode) (session : String) (onToken : Bool)
    (maxTokens : ℕ) (endpoints : List Prepared) (prompt : List ℕ) : Exec Result := do
  let output ← prefill session (if mode = .stages then endpoints else endpoints.take 1) 0
    prompt none
  let decodeEndpoints ← continuation h mode session prompt.length endpoints
  match output with
  | none => throw "undefined is not an object"
  | some output => do
    let d ← decodeTokens session decodeEndpoints onToken maxTokens prompt.length output {}
    let tail := String.ofList d.decoder.finish
    if tail ≠ "" then emit onToken ⟨none, tail⟩
    pure ⟨d.text ++ tail, d.tokenIds, d.finishReason, prompt.length, d.tokenIds.length⟩

def body (h : StageHost) (plan : Plan) (request : Request) (session : String) (onToken : Bool) :
    Exec Result := do
  let endpoints ← prepare plan
  modify fun s ↦ { s with endpoints }
  match endpoints with
  | [] => throw "undefined is not an object"
  | first :: _ => do
    let prompt ← promptTokens first request
    modify fun s ↦ { s with mutated := true }
    evaluate h plan.mode session onToken request.maxTokens endpoints prompt

/-! ## The clean-up -/

def cleaning (e : Prepared) (operation : String) (step : Exec Unit) :
    Exec (List StageCleanupFailure) := do
  match ← Routine.attempt step with
  | .ok () => pure []
  | .error error => pure [⟨e.target.nodeId, e.target.port, operation, error⟩]

def deleteFile (session : String) (e : Prepared) (file : String) : Exec Unit := do
  let deleted ← command e (.stateDelete session file)
  Routine.check (strictEq (get deleted "deleted") (some (.bool true)))
    "capsule deletion was not acknowledged"

def resetEndpoint (session : String) (e : Prepared) : Exec Unit := do
  let _ ← command e (.reset session)
  let status ← command e .status
  Routine.check (isText "" (get status "session") && isNumber 0 (get status "position"))
    "reset did not clear native state"

def deleteFiles (session : String) (e : Prepared) : List String → Exec (List StageCleanupFailure)
  | [] => pure []
  | file :: files => do
    let failures ← cleaning e "state_delete" (deleteFile session e file)
    let rest ← deleteFiles session e files
    pure (failures ++ rest)

def cleanUp (session : String) : List Prepared → Exec (List StageCleanupFailure)
  | [] => pure []
  | e :: rest => do
    let s ← get
    let deletions ← deleteFiles session e (s.capsuleFiles e.index)
    let resets ← cleaning e "reset" (resetEndpoint session e)
    let failures ← cleanUp session rest
    pure (deletions ++ resets ++ failures)

structure StageExecutionError where
  message : String
  cleanupFailures : List StageCleanupFailure
deriving DecidableEq

def withdraw (failures : List StageCleanupFailure) : Exec (List StageCleanupFailure) := do
  Routine.tell .markUnsafe
  match ← Routine.attempt (Routine.call (.onUnsafeCleanup failures)) with
  | .ok _ => pure failures
  | .error error => pure (failures ++ [⟨"control", 0, "withdraw", error⟩])

def report (outcome : Except String Result) (failures : List StageCleanupFailure) :
    Except StageExecutionError Result :=
  match outcome with
  | .error message => .error ⟨message, failures⟩
  | .ok result => if failures = [] then .ok result
    else .error ⟨"native cleanup failed; deployment withdrawn", failures⟩

def settle (outcome : Except String Result) (failures : List StageCleanupFailure) :
    Exec (Except StageExecutionError Result) := do
  let failures ← if failures = [] then pure [] else withdraw failures
  pure (report outcome failures)

/-- `generate`, from the moment the deployment is active to the moment it is not. -/
def generate (h : StageHost) (plan : Plan) (request : Request) (session : String) (onToken : Bool) :
    Exec (Except StageExecutionError Result) := do
  let outcome ← Routine.attempt (body h plan request session onToken)
  let s ← get
  let failures ← if s.mutated then cleanUp session s.endpoints else pure []
  settle outcome failures

/-! ## The model in two halves -/

def halfIdentity (start stop : String) : ObjectValue :=
  let sha256 := Json.str (String.ofList (List.replicate 64 'a'))
  [("schema", nat 1), ("engine", sha256), ("model_sha256", sha256), ("source_sha256", sha256),
    ("ctx", nat 64), ("cache_k", .str "f32"), ("cache_v", .str "f32"), ("ubatch", nat 1),
    ("flash_attn", .str "disabled"), ("stage_start", .str start), ("stage_end", .str stop),
    ("stage_total", .str "24")]

def halves (deploymentId : DeploymentId) : Plan where
  deploymentId
  profile := "qwen35-2b-q8"
  mode := .stages
  endpoints :=
    [⟨"n", 1024, halfIdentity "0" "12", String.ofList (List.replicate 64 'b')⟩,
      ⟨"m", 1024, halfIdentity "12" "24", String.ofList (List.replicate 64 'b')⟩]
  stateTransferQualification := none

def idle (identity : ObjectValue) : ObjectValue :=
  [("identity", .obj identity), ("n_embd", nat EMBEDDING), ("n_vocab", nat VOCAB),
    ("binary_sha256", .str (String.ofList (List.replicate 64 'b'))), ("session", .str ""),
    ("position", nat 0)]

end Swarmlet.Stage
