import Swarmlet.Lib.Checked
import Swarmlet.Lib.Json
import Swarmlet.Lib.JsString
import Swarmlet.Protocol.Types

/-!
# Profile files

`validateProfile` reads one JSON file of the profiles directory. It accepts exactly the known keys,
integers in range and patterns that compile, and stops at the first problem. What it returns is a
`ModelProfile` with the display name and the downloads, so the bounds the planner relies on (at
least one layer, of at least one MiB, and no envelope row that takes all of them) are established
here and carried by the type.

Numbers are exact: a JSON number is a rational, and an integer one becomes a natural number.
-/

namespace Swarmlet

open Js Js.Json

/-- The pattern engine: `new RegExp(pattern)`, or the message it throws. -/
abbrev RegExpHost := String → Except String (String → Bool)

structure ProfileFile extends ModelProfile where
  name : String
  download : Option (List ModelDownloadFile) := none

def PROFILE_KEYS : List String :=
  ["id", "name", "modelName", "ggufPattern", "mtpPattern", "layers", "layerMiB",
    "coordinatorHostMiB", "boundaryBytes", "envelope", "extraArgs", "workerMarginMiB", "download",
    "rank"]

def ROW_KEYS : List String := ["workerLayers", "maxCtx", "maxParallel", "maxChain", "maxFit"]

def DOWNLOAD_FILE_KEYS : List String := ["name", "kind", "url", "sha256", "bytes"]

namespace Profile

/-! ## Fields -/

abbrev Raw := List (String × Json)

def checkKeys (obj : Raw) (allowed : List String) (loc : String) : Except String Unit :=
  match (keys obj).find? (· ∉ allowed) with
  | some k => .error s!"{loc}: unknown key \"{k}\""
  | none => .ok ()

def str (obj : Raw) (key loc : String) : Except String String :=
  match get obj key with
  | some (.str s) =>
    if s = "" then .error s!"{loc}: \"{key}\" must be a non-empty string" else .ok s
  | _ => .error s!"{loc}: \"{key}\" must be a non-empty string"

theorem le_toNat {min : ℕ} {q : ℚ} (h : q.den = 1 ∧ (min : ℤ) ≤ q.num) : min ≤ q.num.toNat := by
  omega

def int (obj : Raw) (key loc : String) (min : ℕ) : Except String { n : ℕ // min ≤ n } :=
  match get obj key with
  | some (.num q) =>
    if h : q.den = 1 ∧ (min : ℤ) ≤ q.num then .ok ⟨q.num.toNat, le_toNat h⟩
    else .error s!"{loc}: \"{key}\" must be an integer >= {min}"
  | _ => .error s!"{loc}: \"{key}\" must be an integer >= {min}"

def pattern (host : RegExpHost) (obj : Raw) (key loc : String) :
    Except String (String × (String → Bool)) := do
  let v ← str obj key loc
  let test ← (host v).mapError fun message ↦ s!"{loc}: \"{key}\" is not a valid RegExp ({message})"
  .ok (v, test)

/-! ## Downloads -/

def downloadFile (gguf : String × (String → Bool)) (mtp : Option (String × (String → Bool)))
    (names : List String) (f : Json) (fw : String) : Except String ModelDownloadFile :=
  match f with
  | .obj f => do
    checkKeys f DOWNLOAD_FILE_KEYS fw
    let name ← str f "name" fw
    if !plainFileName name then throw s!"{fw}: \"name\" must be a plain file name"
    if name ∈ names then throw s!"{fw}: duplicate download name \"{name}\""
    let kind ← str f "kind" fw
    if kind ≠ "gguf" ∧ kind ≠ "mtp" then throw s!"{fw}: \"kind\" must be \"gguf\" or \"mtp\""
    if kind = "gguf" ∧ gguf.2 name = false then
      throw s!"{fw}: name \"{name}\" does not match ggufPattern {gguf.1}"
    if kind = "mtp" ∧ mtp.all (fun m ↦ m.2 name = false) then
      throw s!"{fw}: mtp \"{name}\" does not match the profile's mtpPattern"
    let url ← str f "url" fw
    if !downloadUrl url || 2048 < Js.length url then
      throw s!"{fw}: \"url\" must be https (loopback http is allowed for a local mirror)"
    let sha256 ← str f "sha256" fw
    if !isSha256 sha256 then throw s!"{fw}: \"sha256\" must be 64 lowercase hex characters"
    let bytes ← int f "bytes" fw 1
    .ok ⟨name, if kind = "gguf" then .gguf else .mtp, url, sha256, bytes⟩
  | _ => .error s!"{fw} must be an object"

def downloadFiles (gguf : String × (String → Bool)) (mtp : Option (String × (String → Bool)))
    (loc : String) : ℕ → List String → List Json → Except String (List ModelDownloadFile)
  | _, _, [] => .ok []
  | i, names, f :: rest => do
    let file ← downloadFile gguf mtp names f s!"{loc}: download.files[{i}]"
    let files ← downloadFiles gguf mtp loc (i + 1) (file.name :: names) rest
    .ok (file :: files)

def downloadBlock (raw : Raw) (loc : String) (gguf : String × (String → Bool))
    (mtp : Option (String × (String → Bool))) : Except String (Option (List ModelDownloadFile)) :=
  match get raw "download" with
  | none => .ok none
  | some (.obj value) => do
    checkKeys value ["files"] s!"{loc}: download"
    match get value "files" with
    | some (.arr (f :: rest)) =>
      if 8 < rest.length + 1 then throw s!"{loc}: download declares more than 8 files"
      let files ← downloadFiles gguf mtp loc 0 [] (f :: rest)
      let ggufFiles := (files.filter (·.kind = .gguf)).length
      if ggufFiles ≠ 1 then
        throw s!"{loc}: download must declare exactly one \"gguf\" file, found {ggufFiles}"
      .ok (some files)
    | _ => .error s!"{loc}: download \"files\" must be a non-empty array"
  | some _ => .error s!"{loc}: \"download\" must be an object"

/-! ## Profiles -/

def envelopeRow (r : Json) (rw : String) :
    Except String { row : EnvelopeRow // 1 ≤ row.workerLayers } :=
  match r with
  | .obj r => do
    checkKeys r ROW_KEYS rw
    if (get r "maxFit").isSome && !isBool (get r "maxFit") then
      throw s!"{rw}: \"maxFit\" must be a boolean"
    let workerLayers ← int r "workerLayers" rw 1
    let maxCtx ← int r "maxCtx" rw 1
    let maxParallel ← int r "maxParallel" rw 1
    let maxChain ← int r "maxChain" rw 0
    .ok ⟨⟨workerLayers, maxCtx, maxParallel, maxChain, truthy (get r "maxFit")⟩, workerLayers.2⟩
  | _ => .error s!"{rw} must be an object"

def optional {α : Type} (obj : Raw) (key : String) (read : Except String α) :
    Except String (Option α) :=
  match get obj key with
  | none => .ok none
  | some _ => some <$> read

def extraArgs (raw : Raw) (loc : String) : Except String (List String) :=
  match get raw "extraArgs" with
  | some (.arr l) =>
    if l.all (fun a ↦ isStr (some a)) then .ok (l.filterMap fun | .str s => some s | _ => none)
    else .error s!"{loc}: \"extraArgs\" must be an array of strings"
  | _ => .error s!"{loc}: \"extraArgs\" must be an array of strings"

def envelope (raw : Raw) (loc : String) :
    Except String (List { row : EnvelopeRow // 1 ≤ row.workerLayers }) :=
  match get raw "envelope" with
  | some (.arr (r :: rest)) =>
    (r :: rest).zipIdx.mapM fun (row, i) ↦ envelopeRow row s!"{loc}: envelope[{i}]"
  | _ => .error s!"{loc}: \"envelope\" must be a non-empty array"

end Profile

open Profile in
def validateProfile (host : RegExpHost) (raw : Json) (loc : String) : Except String ProfileFile :=
  match raw with
  | .obj raw => do
    checkKeys raw PROFILE_KEYS loc
    let rows ← envelope raw loc
    let rank ← optional raw "rank" (int raw "rank" loc 0)
    let extra ← extraArgs raw loc
    let id ← str raw "id" loc
    let name ← str raw "name" loc
    let modelName ← str raw "modelName" loc
    let gguf ← pattern host raw "ggufPattern" loc
    let layers ← int raw "layers" loc 1
    let layerMiB ← int raw "layerMiB" loc 1
    let coordinatorHostMiB ← int raw "coordinatorHostMiB" loc 0
    let boundaryBytes ← int raw "boundaryBytes" loc 0
    let workerMarginMiB ← int raw "workerMarginMiB" loc 0
    let mtp ← optional raw "mtpPattern" (pattern host raw "mtpPattern" loc)
    let download ← downloadBlock raw loc gguf mtp
    match h : rows.find? fun row ↦ layers.1 ≤ row.1.workerLayers with
    | some row =>
      .error s!"{loc}: envelope workerLayers {row.1.workerLayers} must be below layers {layers.1}"
    | none => .ok {
        id, name, modelName
        rank := rank.map (·.1)
        ggufPattern := gguf.1
        mtpPattern := mtp.map (·.1)
        layers := layers
        layerMiB := layerMiB
        coordinatorHostMiB := coordinatorHostMiB
        boundaryBytes := boundaryBytes
        envelope := rows.map (·.1)
        extraArgs := extra
        workerMarginMiB := workerMarginMiB
        download
        layers_pos := layers.2
        layerMiB_pos := layerMiB.2
        envelope_lt := by
          intro row hrow
          obtain ⟨r, hr, rfl⟩ := List.mem_map.mp hrow
          have hlt := List.find?_eq_none.mp h r hr
          exact ⟨r.2, by simpa using hlt⟩ }
  | _ => .error s!"{loc}: must be a JSON object"

end Swarmlet
