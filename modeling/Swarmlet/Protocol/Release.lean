import Mathlib.Algebra.Group.Int.Defs
import Swarmlet.Lib.Checked
import Swarmlet.Lib.JsString

/-!
# Signed release manifests

`verifyRelease` decides whether a node takes a manifest that its control plane offers. It checks the
signature with the pinned key, then the sequence against the one the node has accepted, the
platform, the validity window and the inventory, in the order of the source. Whether the signature
verifies is the host's answer and an argument here.
-/

namespace Swarmlet

open Js

structure ReleaseFile where
  path : String
  bytes : ℤ
  sha256 : String
deriving DecidableEq

structure ReleaseManifest where
  kind : String
  schema : ℤ
  sequence : ℤ
  version : String
  platform : String
  arch : String
  issuedAt : ℤ
  expiresAt : ℤ
  files : List ReleaseFile
  signature : String
deriving DecidableEq

def MAX_MANIFEST_BYTES : ℕ := 128 * 1024

def MAX_RELEASE_BYTES : ℤ := 4 * 1024 ^ 3

/-- `ReleaseNotNewError` is a class of its own: the caller takes it for "nothing to do". -/
inductive ReleaseError
  | notNew
  | invalid (why : String)
deriving DecidableEq

def isSafeInteger (n : ℤ) : Bool := -(2 ^ 53 - 1) ≤ n && n ≤ 2 ^ 53 - 1

/-! ## Names -/

def isAlphanumeric (c : Char) : Bool :=
  ('A' ≤ c && c ≤ 'Z') || ('a' ≤ c && c ≤ 'z') || ('0' ≤ c && c ≤ '9')

def isNameChar (c : Char) : Bool := isAlphanumeric c || c ∈ ['.', '_', '-']

/-- `/^[A-Za-z0-9][A-Za-z0-9._-]*$/.test(s)`. -/
def isName : List Char → Bool
  | [] => false
  | c :: cs => isAlphanumeric c && cs.all isNameChar

/-- `/^(?:con|prn|aux|nul|com[0-9]|lpt[0-9])(?:\.|$)/i.test(name)`: up to its first dot, the name is
one that Windows reserves. -/
def isReserved (name : List Char) : Bool :=
  match (name.map foldCase).takeWhile (· ≠ '.') with
  | ['c', 'o', 'n'] | ['p', 'r', 'n'] | ['a', 'u', 'x'] | ['n', 'u', 'l'] => true
  | ['c', 'o', 'm', d] | ['l', 'p', 't', d] => '0' ≤ d && d ≤ '9'
  | _ => false

def engineDirectory : List Char := "engine/".toList

def validReleasePath (path : String) : Bool :=
  let text := path.toList
  let name := if startsWith engineDirectory text then text.drop engineDirectory.length else text
  Js.length path ≤ 180 && isName name && name.getLast? ≠ some '.' && !isReserved name

/-- `/^[A-Za-z0-9][A-Za-z0-9._-]{0,79}$/.test(version)`. -/
def isVersion (version : String) : Bool := isName version.toList && version.toList.length ≤ 80

/-! ## Verification -/

structure ReleaseTarget where
  platform : String
  arch : String
  acceptedSequence : ℕ
  now : ℤ
deriving DecidableEq

/-- A file of the inventory; `paths` are those before it, folded, and `bytes` their sum. -/
def checkReleaseFile (paths : List (List Char)) (bytes : ℤ) (f : ReleaseFile) :
    Except ReleaseError (List (List Char) × ℤ) :=
  if !(validReleasePath f.path && (startsWith engineDirectory f.path.toList ||
      f.path = "swarmlet-node" || f.path = "swarmlet-node.exe") && isSha256 f.sha256 &&
      isSafeInteger f.bytes && 1 ≤ f.bytes && f.bytes ≤ MAX_RELEASE_BYTES) then
    .error (.invalid "invalid release file")
  else
    let folded := f.path.toList.map foldCase
    if folded ∈ paths then .error (.invalid "duplicate release file")
    else if MAX_RELEASE_BYTES < bytes + f.bytes then .error (.invalid "release too large")
    else .ok (folded :: paths, bytes + f.bytes)

def checkReleaseFiles : List (List Char) → ℤ → List ReleaseFile → Except ReleaseError Unit
  | _, _, [] => .ok ()
  | paths, bytes, f :: fs => do
    let (paths, bytes) ← checkReleaseFile paths bytes f
    checkReleaseFiles paths bytes fs

def expect (condition : Bool) (error : ReleaseError) : Except ReleaseError Unit :=
  if condition then .ok () else .error error

/-- `verifyRelease(raw, pinnedKey, target)` for the text of a manifest; `rawBytes` is the size of
the text and `signed` whether `verifyObject` accepts it with the pinned key. -/
def verifyRelease (rawBytes : ℕ) (signed : Bool) (m : ReleaseManifest) (target : ReleaseTarget) :
    Except ReleaseError Unit := do
  expect (rawBytes ≤ MAX_MANIFEST_BYTES) (.invalid "release manifest too large")
  expect (Js.length m.signature = 88 && signed) (.invalid "invalid release signature")
  expect (m.kind = "swarmlet-release" && m.schema = 1 && isSafeInteger m.sequence && 1 ≤
    m.sequence && isSafeInteger target.acceptedSequence) (.invalid "invalid release sequence")
  expect (target.acceptedSequence < m.sequence) .notNew
  expect (m.platform ∈ ["darwin", "linux", "win32"] && m.arch ∈ ["arm64", "x64"] &&
    m.platform = target.platform && m.arch = target.arch) (.invalid "release target mismatch")
  expect (isVersion m.version) (.invalid "invalid release version")
  expect (isSafeInteger m.issuedAt && isSafeInteger m.expiresAt && 0 ≤ m.issuedAt &&
    m.issuedAt ≤ target.now + 60000 && target.now < m.expiresAt && m.issuedAt < m.expiresAt)
    (.invalid "release outside validity window")
  expect (1 ≤ m.files.length && m.files.length ≤ 256) (.invalid "invalid release files")
  checkReleaseFiles [] 0 m.files
  let agent := if m.platform = "win32" then "swarmlet-node.exe" else "swarmlet-node"
  expect (m.files.any (·.path = agent)) (.invalid "release missing agent")

theorem expect_ok {condition : Bool} {error : ReleaseError} (h : expect condition error = .ok ()) :
    condition = true := by
  rw [expect] at h
  split_ifs at h with hcondition
  exact hcondition

theorem sequence_of_verifyRelease {rawBytes : ℕ} {signed : Bool} {m : ReleaseManifest}
    {target : ReleaseTarget} (h : verifyRelease rawBytes signed m target = .ok ()) :
    isSafeInteger m.sequence = true ∧ 1 ≤ m.sequence ∧ target.acceptedSequence < m.sequence := by
  obtain ⟨_, -, h⟩ := Checked.bind_ok h
  obtain ⟨_, -, h⟩ := Checked.bind_ok h
  obtain ⟨_, hsequence, h⟩ := Checked.bind_ok h
  obtain ⟨_, hnew, -⟩ := Checked.bind_ok h
  have hsequence := expect_ok hsequence
  simp only [Bool.and_eq_true, decide_eq_true_eq] at hsequence
  exact ⟨hsequence.1.1.2, hsequence.1.2, of_decide_eq_true (expect_ok hnew)⟩

end Swarmlet
