import Swarmlet.Lib.Checked
import Swarmlet.Lib.Json
import Swarmlet.Protocol.Release

/-!
# The durable state of the update supervisor

`updates.json` names the releases that are installed and the highest sequence a trial was begun
for. The reader refuses anything else, so that a state it refuses would keep the supervisor from
starting. `Valid` is what the states that are written have in common, and `readUpdateState_encode`
says that it is enough for the reader.
-/

namespace Swarmlet.Agent

open Js Js.Json

structure InstalledRelease where
  directory : String
  sequence : ℕ
deriving DecidableEq

structure UpdateState where
  acceptedSequence : ℕ
  active : Option InstalledRelease
  previous : Option InstalledRelease
  pending : Option InstalledRelease
deriving DecidableEq

namespace UpdateState

def initial : UpdateState := ⟨0, none, none, none⟩

def refs (s : UpdateState) : List InstalledRelease := [s.active, s.previous, s.pending].filterMap id

end UpdateState

/-! ## Directory names -/

def isUuidChar (c : Char) : Bool := ('a' ≤ c && c ≤ 'f') || ('0' ≤ c && c ≤ '9') || c = '-'

/-- `/^[a-f0-9-]{36}$/.test(s)`. -/
def isUuid (s : List Char) : Bool := s.length = 36 && s.all isUuidChar

/-- `${sequence}-${uuid}`. -/
def releaseDirectory (sequence : ℕ) (uuid : String) : String := toString sequence ++ "-" ++ uuid

/-- ``new RegExp(`^${sequence}-[a-f0-9-]{36}$`).test(directory)``. -/
def isDirectoryOf (sequence : ℕ) (directory : String) : Bool :=
  let head := (toString sequence).toList ++ ['-']
  startsWith head directory.toList && isUuid (directory.toList.drop head.length)

/-- `/^[1-9][0-9]*-[a-f0-9-]{36}$/.test(name)`: the last 36 characters, the dash before them and the
number in front. -/
def isReleaseName (name : String) : Bool :=
  let text := name.toList
  let front := text.take (text.length - 37)
  front.all Char.isDigit && (front.head?.any (· ≠ '0')) &&
    (text.drop (text.length - 37)).head? = some '-' && isUuid (text.drop (text.length - 36))

theorem startsWith_append (a b : List Char) : startsWith a (a ++ b) = true := by
  induction a with
  | nil => rfl
  | cons c a ih => simp [startsWith, ih]

/-! ## Reading and writing -/

def InstalledRelease.encode (r : InstalledRelease) : Json :=
  object [("directory", some (.str r.directory)), ("sequence", some (.num r.sequence))]

def encodeRef : Option InstalledRelease → Json
  | none => .null
  | some r => r.encode

def UpdateState.members (s : UpdateState) : List (String × Option Json) :=
  [("acceptedSequence", some (.num s.acceptedSequence)), ("active", some (encodeRef s.active)),
    ("previous", some (encodeRef s.previous)), ("pending", some (encodeRef s.pending))]

def UpdateState.encode (s : UpdateState) : Json := object s.members

def safeFrom (least : ℕ) : Option Json → Option ℕ
  | some (.num q) =>
    if q.den = 1 ∧ isSafeInteger q.num ∧ (least : ℤ) ≤ q.num then some q.num.toNat else none
  | _ => none

def readRef (acceptedSequence : ℕ) : Option Json → Except String (Option InstalledRelease)
  | some .null => .ok none
  | some (.obj ref) =>
    match safeFrom 1 (Json.get ref "sequence"), Json.get ref "directory" with
    | some sequence, some (.str directory) =>
      if sequence ≤ acceptedSequence ∧ isDirectoryOf sequence directory then
        .ok (some ⟨directory, sequence⟩)
      else .error "invalid installed release reference"
    | _, _ => .error "invalid installed release reference"
  | _ => .error "invalid installed release reference"

/-- `readUpdateState(path)` for what the file holds; `none` is no file. -/
def readUpdateState : Option Json → Except String UpdateState
  | none => .ok .initial
  | some (.obj value) =>
    match safeFrom 0 (Json.get value "acceptedSequence") with
    | none => .error "invalid update state"
    | some acceptedSequence => do
      let active ← readRef acceptedSequence (Json.get value "active")
      let previous ← readRef acceptedSequence (Json.get value "previous")
      let pending ← readRef acceptedSequence (Json.get value "pending")
      .ok ⟨acceptedSequence, active, previous, pending⟩
  | some _ => .error "invalid update state"

structure InstalledRelease.Valid (acceptedSequence : ℕ) (r : InstalledRelease) : Prop where
  positive : 1 ≤ r.sequence
  accepted : r.sequence ≤ acceptedSequence
  directory : isDirectoryOf r.sequence r.directory = true

structure UpdateState.Valid (s : UpdateState) : Prop where
  safe : s.acceptedSequence ≤ 2 ^ 53 - 1
  refs : ∀ r ∈ s.refs, r.Valid s.acceptedSequence

theorem safeFrom_natCast {least n : ℕ} (hleast : least ≤ n) (hsafe : n ≤ 2 ^ 53 - 1) :
    safeFrom least (some (.num n)) = some n := by
  have hnum : isSafeInteger ((n : ℚ).num) = true := by
    rw [Rat.num_natCast, isSafeInteger, Bool.and_eq_true]
    exact ⟨decide_eq_true (by omega), decide_eq_true (by omega)⟩
  rw [safeFrom, if_pos ⟨Rat.den_natCast n, hnum, by simpa using hleast⟩]
  simp

theorem readRef_encodeRef {acceptedSequence : ℕ} (hsafe : acceptedSequence ≤ 2 ^ 53 - 1)
    {ref : Option InstalledRelease} (h : ∀ r ∈ ref, r.Valid acceptedSequence) :
    readRef acceptedSequence (some (encodeRef ref)) = .ok ref := by
  cases ref with
  | none => rfl
  | some r =>
    have hr := h r rfl
    have hsequence := safeFrom_natCast hr.positive (hr.accepted.trans hsafe)
    have hget : Json.get (defined [("directory", some (.str r.directory)),
        ("sequence", some (.num r.sequence))]) "sequence" = some (.num r.sequence) := rfl
    have hget' : Json.get (defined [("directory", some (.str r.directory)),
        ("sequence", some (.num r.sequence))]) "directory" = some (.str r.directory) := rfl
    simp only [encodeRef, InstalledRelease.encode, object, readRef, hget, hget', hsequence]
    rw [if_pos ⟨hr.accepted, hr.directory⟩]

/-- **A valid state is read back.** -/
theorem readUpdateState_encode {s : UpdateState} (h : s.Valid) :
    readUpdateState (some s.encode) = .ok s := by
  have hrefs : ∀ ref ∈ [s.active, s.previous, s.pending], ∀ r ∈ ref, r.Valid s.acceptedSequence :=
    fun ref href r hr ↦ h.refs r (List.mem_filterMap.mpr ⟨ref, href, hr⟩)
  have haccepted := safeFrom_natCast (Nat.zero_le s.acceptedSequence) h.safe
  have hactive := readRef_encodeRef h.safe (hrefs s.active (by simp))
  have hprevious := readRef_encodeRef h.safe (hrefs s.previous (by simp))
  have hpending := readRef_encodeRef h.safe (hrefs s.pending (by simp))
  have hget : Json.get (defined s.members) "acceptedSequence" = some (.num s.acceptedSequence) ∧
      Json.get (defined s.members) "active" = some (encodeRef s.active) ∧
      Json.get (defined s.members) "previous" = some (encodeRef s.previous) ∧
      Json.get (defined s.members) "pending" = some (encodeRef s.pending) := ⟨rfl, rfl, rfl, rfl⟩
  simp only [UpdateState.encode, object, readUpdateState, hget, haccepted, hactive, hprevious,
    hpending]
  rfl

/-! ## Pruning -/

/-- `pruneReleases(root, state)` on the directories of a root; `removed` are those it came to. -/
def pruneReleases (s : UpdateState) (removed : String → Bool) (releases : List String) :
    List String :=
  releases.filter fun name ↦
    !(isReleaseName name && name ∉ s.refs.map (·.directory) && removed name)

end Swarmlet.Agent
