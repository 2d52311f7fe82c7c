import Swarmlet.Lib.Script
import Swarmlet.Control.StageExecution

/-!
# Copying a capsule between native endpoints

`transfer` moves the exported state of one native context to another, chunk by chunk, with the
controller in the middle. It trusts neither side: every offset, size, end flag and acknowledgement
that comes back is compared with what was asked for.

The executor is a routine whose questions are the calls it awaits, and an answer is any JSON object
or an error, so a conversation covers every behaviour of the endpoints, and cancellation at any of
them. The loop `copyFile` ends because each chunk it accepts is not empty and stays within the size
that the first one reported; `Chunk` carries that. What a copy that succeeds has said is `Copied`.
-/

namespace Swarmlet

open Js Json Routine

/-! ## The conversation with the endpoints -/

/-- What an endpoint evaluates: tokens, or the activations of the stage before. -/
inductive EvalInput
  | tokens (tokens : List ℕ)
  | activations (activations : List ℚ)
deriving DecidableEq

inductive Body
  | status
  | tokenize (text : String)
  | chatTokens (messages : List (String × String))
  | eval (session : String) (position : ℕ) (input : EvalInput)
  | exportState (session file : String)
  | stateRead (session file : String) (offset maxBytes : ℕ)
  | stateWrite (session file : String) (offset : ℕ) (data : List ℕ)
  | importState (session file : String)
  | stateDelete (session file : String)
  | reset (session : String)
deriving DecidableEq

structure StageTokenChunk where
  tokenId : Option ℕ
  text : String
deriving DecidableEq

structure StageCleanupFailure where
  nodeId : NodeId
  port : ℕ
  operation : String
  error : String
deriving DecidableEq

/-- What the executor waits for. An endpoint is named by its place in the plan; only the answer to a
command is looked at. -/
inductive Question
  | localPort (endpoint : ℕ)
  | command (endpoint : ℕ) (body : Body)
  | throwIfAborted
  | emit (chunk : StageTokenChunk)
  /-- `this.unsafe.add(plan.deploymentId)`, which is answered at once. -/
  | markUnsafe
  | onUnsafeCleanup (failures : List StageCleanupFailure)
deriving DecidableEq

structure Prepared where
  index : ℕ
  target : NativeStageEndpoint
  status : ObjectValue

/-- The variables of `generate` that its clean-up reads. -/
structure Locals where
  endpoints : List Prepared := []
  mutated : Bool := false
  /-- The capsule files of each endpoint, a set in the order of insertion. -/
  capsuleFiles : ℕ → List String := fun _ ↦ []

abbrev Exec := Routine Question ObjectValue Locals String

abbrev Said := Question × Except String ObjectValue

def command (e : Prepared) (body : Body) : Exec ObjectValue := Routine.call (.command e.index body)

structure StageHost where
  sha256 : List ℕ → String
  parse : List ℕ → Except String Json
  string : Json → String
  messageBytes : List (String × String) → ℕ

def CHUNK : ℕ := 262144

def MAX_STATE : ℕ := 512 * 1024 * 1024

def MAX_MANIFEST : ℕ := 16 * 1024 * 1024

def StageHost.shaTest (h : StageHost) : Option Json → Bool
  | none => false
  | some (.str s) => isSha256 s
  | some v => isSha256 (h.string v)

def integerOf (low high : ℕ) : Option Json → Option ℕ
  | some (.num q) => if integer low high (some (.num q)) then some q.num.toNat else none
  | _ => none

/-- `Array.isArray(v) && v.every(x => integer(x, 0, high))`. -/
def integersOf (high : ℕ) : Option Json → Option (List ℕ)
  | some (.arr l) => l.mapM fun v ↦ integerOf 0 high (some v)
  | _ => none

def assertIdentity (actual : Option Json) (expected : ObjectValue) : Except String Unit :=
  match actual with
  | some (.obj a) => expected.forM fun (field, value) ↦
    if strictEq (get a field) (some value) then .ok ()
    else .error s!"native identity mismatch: {field}"
  | _ => .error "expected native object response"

/-! ## The transfer -/

structure Chunk (max : ℕ) where
  data : List ℕ
  total : ℕ
  nonempty : data ≠ []
  total_le : total ≤ max

theorem integerOf_le {low high n : ℕ} {v : Option Json} (h : integerOf low high v = some n) :
    low ≤ n ∧ n ≤ high := by
  unfold integerOf at h
  split at h
  case h_1 q =>
    split_ifs at h with hq
    cases h
    simp only [integer, numThat_num, decide_eq_true_eq] at hq
    obtain ⟨hden, -, hlow, hhigh⟩ := hq
    rw [← Rat.coe_int_num_of_den_eq_one hden] at hlow hhigh
    have hlow : (low : ℤ) ≤ q.num := by exact_mod_cast hlow
    have hhigh : q.num ≤ (high : ℤ) := by exact_mod_cast hhigh
    omega
  case h_2 => cases h

def Chunk.ofRead (max : ℕ) (read : ObjectValue) : Option (Chunk max) :=
  match integersOf 255 (get read "data"), htotal : integerOf 1 max (get read "total_bytes") with
  | some data, some total =>
    if hdata : data ≠ [] ∧ data.length ≤ CHUNK then
      some ⟨data, total, hdata.1, (integerOf_le htotal).2⟩
    else none
  | _, _ => none

def Locals.track (e : Prepared) (name : String) (s : Locals) : Locals :=
  { s with capsuleFiles := fun i ↦
    if i = e.index ∧ name ∉ s.capsuleFiles i then s.capsuleFiles i ++ [name] else s.capsuleFiles i }

def track (e : Prepared) (name : String) : Exec Unit := modify (Locals.track e name)

/-- The loop over the chunks of a file: `bytes` are those it has copied, `size` is the total once
one chunk has reported it, and `expected` the size that a state file must have. -/
def copyFile (source destination : Prepared) (session name : String) (max : ℕ)
    (expected : Option ℕ) (offset : ℕ) (size : Option ℕ) (bytes : List ℕ) : Exec (List ℕ) :=
  if size.all (offset < ·) then do
    let read ← command source (.stateRead session name offset CHUNK)
    match Chunk.ofRead max read with
    | none => throw "invalid bounded capsule chunk"
    | some chunk =>
      let total := size.getD chunk.total
      if _hfits : chunk.total = total ∧
          strictEq (get read "next_offset") (some (nat (offset + chunk.data.length))) ∧
          offset + chunk.data.length ≤ total ∧
          strictEq (get read "eof") (some (.bool (offset + chunk.data.length = total))) then do
        Routine.check (expected.all (· = total)) "capsule size differs from export"
        track destination name
        let ack ← command destination (.stateWrite session name offset chunk.data)
        Routine.check (strictEq (get ack "next_offset") (some (nat (offset + chunk.data.length))) &&
          strictEq (get ack "total_bytes") (some (nat (offset + chunk.data.length))))
          "capsule write acknowledgement mismatch"
        copyFile source destination session name max expected (offset + chunk.data.length)
          (some total) (bytes ++ chunk.data)
      else throw "capsule read offset or size changed"
  else pure bytes
termination_by size.elim (max + 1) (· - offset)
decreasing_by
  have hlength := List.length_pos_iff.mpr chunk.nonempty
  have hle := chunk.total_le
  obtain ⟨htotal, -, hfits, -⟩ := _hfits
  cases size with
  | none =>
    simp only [Option.elim]
    omega
  | some n =>
    have hn : (some n).getD chunk.total = n := rfl
    simp only [Option.elim]
    omega

def transfer (h : StageHost) (source destination : Prepared) (session file : String) :
    Exec Unit := do
  track source file
  track source (file ++ ".json")
  let exported ← command source (.exportState session file)
  match integerOf 1 MAX_STATE (get exported "bytes") with
  | none => throw "invalid native capsule descriptor"
  | some bytes =>
    Routine.check (h.shaTest (get exported "sha256") && h.shaTest (get exported "envelope_sha256"))
      "invalid native capsule descriptor"
    let state ← copyFile source destination session file MAX_STATE (some bytes) 0 none []
    Routine.check (strictEq (some (.str (h.sha256 state))) (get exported "sha256"))
      "capsule transport checksum mismatch"
    let manifest ← copyFile source destination session (file ++ ".json") MAX_MANIFEST none 0 none []
    match ← Routine.lift (h.parse manifest) with
    | .obj named =>
      Routine.check (strictEq (get named "envelope_sha256") (get exported "envelope_sha256") &&
        strictEq (get named "sha256") (get exported "sha256") &&
        strictEq (get named "bytes") (get exported "bytes") &&
        strictEq (get named "session") (some (.str session)) &&
        strictEq (get named "position") (get exported "position"))
        "capsule manifest differs from export"
      Routine.lift (assertIdentity (get named "identity") source.target.identity)
    | _ => throw "expected native object response"

/-! ## One chunk -/

section Copy

variable {source destination : Prepared} {session name : String} {max : ℕ} {expected : Option ℕ}
  {offset : ℕ} {size : Option ℕ} {bytes : List ℕ} {s s' : Locals} {t : List Said}
  {x : Except String (List ℕ)} {a b : Except String ObjectValue}

def readAt (source : Prepared) (session name : String) (offset : ℕ) : Question :=
  .command source.index (.stateRead session name offset CHUNK)

structure Acknowledged (source destination : Prepared) (session name : String) (total offset : ℕ)
    (data : List ℕ) (read write : Said) : Prop where
  data_ne : data ≠ []
  within : offset + data.length ≤ total
  read_eq : ∃ answer, read = (readAt source session name offset, .ok answer) ∧
    integersOf 255 (get answer "data") = some data ∧
    strictEq (get answer "next_offset") (some (nat (offset + data.length))) = true
  write_eq : ∃ ack, write = (.command destination.index (.stateWrite session name offset data),
      .ok ack) ∧
    strictEq (get ack "next_offset") (some (nat (offset + data.length))) = true ∧
    strictEq (get ack "total_bytes") (some (nat (offset + data.length))) = true

def reported (max : ℕ) : Except String ObjectValue → Option ℕ
  | .ok read => integerOf 1 max (get read "total_bytes")
  | .error _ => none

theorem reported_le {answer : Except String ObjectValue} {n : ℕ}
    (h : reported max answer = some n) : 1 ≤ n ∧ n ≤ max := by
  cases answer with
  | error => cases h
  | ok => exact integerOf_le h

theorem Chunk.of_ofRead {read : ObjectValue} {chunk : Chunk max}
    (h : Chunk.ofRead max read = some chunk) :
    integersOf 255 (get read "data") = some chunk.data ∧
      reported max (.ok read) = some chunk.total := by
  unfold Chunk.ofRead at h
  split at h
  case h_1 data total hdata htotal =>
    split_ifs at h
    cases h
    exact ⟨hdata, htotal⟩
  case h_2 => cases h

/-- **What the loop does with a chunk**: it asks for the one at its offset, and goes on behind it
when both sides have acknowledged it; otherwise it throws. -/
theorem runs_copyFile (h : (copyFile source destination session name max expected offset size
    bytes).Runs s t x s') (hsize : size.all (offset < ·) = true) :
    ∃ answer rest, t = (readAt source session name offset, answer) :: rest ∧
      ((∃ e, x = .error e) ∧ (rest = [] ∧ s' = s ∨ ∃ data a,
          rest = [(.command destination.index (.stateWrite session name offset data), a)] ∧
          s' = s.track destination name) ∨
        ∃ data total write rest', rest = write :: rest' ∧
          Acknowledged source destination session name total offset data
            (readAt source session name offset, answer) write ∧
          reported max answer = some total ∧ (∀ n ∈ size, n = total) ∧
          (∀ n ∈ expected, n = total) ∧
          (copyFile source destination session name max expected (offset + data.length)
            (some total) (bytes ++ data)).Runs (s.track destination name) rest' x s') := by
  rw [copyFile, if_pos hsize] at h
  rcases runs_call_bind h with ⟨e, rfl, rfl, rfl⟩ | ⟨read, t₁, rfl, hread⟩
  · exact ⟨_, [], rfl, .inl ⟨⟨e, rfl⟩, .inl ⟨rfl, rfl⟩⟩⟩
  refine ⟨.ok read, t₁, rfl, ?_⟩
  cases hchunk : Chunk.ofRead max read with
  | none =>
    simp only [hchunk] at hread
    obtain ⟨rfl, rfl, rfl⟩ := runs_throw hread
    exact .inl ⟨⟨_, rfl⟩, .inl ⟨rfl, rfl⟩⟩
  | some chunk =>
    simp only [hchunk] at hread
    obtain ⟨hdata, htotal⟩ := Chunk.of_ofRead hchunk
    split_ifs at hread with hfits
    swap
    · obtain ⟨rfl, rfl, rfl⟩ := runs_throw hread
      exact .inl ⟨⟨_, rfl⟩, .inl ⟨rfl, rfl⟩⟩
    obtain ⟨hsame, hnext, hwithin, -⟩ := hfits
    rcases runs_check_bind hread with ⟨-, rfl, rfl, rfl⟩ | ⟨hexpected, hwrite⟩
    · exact .inl ⟨⟨_, rfl⟩, .inl ⟨rfl, rfl⟩⟩
    rw [track, runs_modify_bind] at hwrite
    rcases runs_call_bind hwrite with ⟨e, rfl, rfl, rfl⟩ | ⟨ack, t₂, rfl, hacked⟩
    · exact .inl ⟨⟨_, rfl⟩, .inr ⟨_, _, rfl, rfl⟩⟩
    rcases runs_check_bind hacked with ⟨-, rfl, rfl, rfl⟩ | ⟨hack, hrest⟩
    · exact .inl ⟨⟨_, rfl⟩, .inr ⟨_, _, rfl, rfl⟩⟩
    rw [Bool.and_eq_true] at hack
    rw [← hsame] at hexpected hwithin hrest
    refine .inr ⟨chunk.data, chunk.total, _, t₂, rfl, ⟨chunk.nonempty, hwithin,
      ⟨read, rfl, hdata, hnext⟩, ⟨ack, rfl, hack⟩⟩, htotal, ?_, ?_, hrest⟩
    · rintro n hn
      rw [hn, Option.getD_some] at hsame
      exact hsame.symm
    · rintro n hn
      rw [hn] at hexpected
      simpa using hexpected

/-! ## Whole files -/

def isRead (name : String) : Said → Bool
  | (.command _ (.stateRead _ file _ _), _) => file = name
  | _ => false

def firstSize (max : ℕ) (name : String) (t : List Said) : Option ℕ :=
  (t.find? (isRead name)).bind fun said ↦ reported max said.2

/-- At most as many read steps for a file as the size its first read reported; a read that reports
no size is the only one. -/
def Bounded (max : ℕ) (name : String) (t : List Said) : Prop :=
  t.countP (isRead name) ≤ (firstSize max name t).getD 1

/-- A conversation about one file: besides its reads, there is at most one write for each. -/
structure About (name : String) (t : List Said) : Prop where
  only : ∀ said ∈ t, ∀ other, isRead other said = true → name = other
  length : t.length ≤ 2 * t.countP (isRead name)

theorem isRead_readAt : isRead name (readAt source session name offset, a) = true := by
  simp [isRead, readAt]

theorem isRead_stateWrite {other : String} {data : List ℕ} :
    isRead other (.command destination.index (.stateWrite session name offset data), a) =
    false := rfl

theorem About.nil : About name [] := ⟨by simp, le_rfl⟩

theorem About.read_only : About name [(readAt source session name offset, a)] :=
  ⟨by simp [isRead, readAt], by simp [isRead_readAt]⟩

theorem About.chunk {data : List ℕ} (h : About name t) :
    About name ((readAt source session name offset, a) ::
      (.command destination.index (.stateWrite session name offset data), b) :: t) := by
  refine ⟨?_, ?_⟩
  · simpa [isRead, readAt] using h.only
  · have := h.length
    simp only [List.countP_cons, isRead_readAt, isRead_stateWrite, List.length_cons, if_true,
      Bool.false_eq_true, if_false]
    omega

theorem Bounded.frame {t₁ t₂ t₃ : List Said} (h : Bounded max name t₂)
    (h₁ : ∀ said ∈ t₁, isRead name said = false) (h₃ : ∀ said ∈ t₃, isRead name said = false) :
    Bounded max name (t₁ ++ (t₂ ++ t₃)) := by
  have hnone {l : List Said} (hl : ∀ said ∈ l, isRead name said = false) :
      l.find? (isRead name) = none ∧ l.countP (isRead name) = 0 :=
    ⟨List.find?_eq_none.mpr fun said hs ↦ by simp [hl said hs],
      List.countP_eq_zero.mpr fun said hs ↦ by simp [hl said hs]⟩
  unfold Bounded firstSize at *
  rw [List.find?_append, List.find?_append, (hnone h₁).1, (hnone h₃).1, List.countP_append,
    List.countP_append, (hnone h₁).2, (hnone h₃).2]
  simpa using h

theorem Bounded.of_append {t' : List Said} (h : Bounded max name (t ++ t')) :
    Bounded max name t := by
  unfold Bounded firstSize at *
  cases hfirst : t.find? (isRead name) with
  | none =>
    rw [List.countP_eq_zero.mpr fun said hs ↦ List.find?_eq_none.mp hfirst said hs]
    exact Nat.zero_le _
  | some =>
    rw [List.find?_append, hfirst, List.countP_append] at h
    exact le_trans (Nat.le_add_right _ _) h

theorem Bounded.count_le (h : Bounded max name t) (hmax : 1 ≤ max) :
    t.countP (isRead name) ≤ max := by
  refine le_trans h ?_
  unfold firstSize
  cases t.find? (isRead name) with
  | none => exact hmax
  | some said =>
    cases hreported : reported max said.2 with
    | none => simpa [hreported] using hmax
    | some => simpa [hreported] using (reported_le hreported).2

theorem reads_copyFile {n : ℕ} (h : (copyFile source destination session name max expected offset
    (some n) bytes).Runs s t x s') :
    t.countP (isRead name) ≤ n - offset ∧ About name t := by
  induction hk : n - offset using Nat.strong_induction_on generalizing offset bytes s t with
  | _ k ih =>
  by_cases hsize : offset < n
  swap
  · rw [copyFile, if_neg (by simpa using hsize)] at h
    obtain ⟨rfl, -, -⟩ := runs_pure h
    exact ⟨Nat.zero_le _, .nil⟩
  obtain ⟨answer, rest, rfl, ⟨-, ⟨rfl, -⟩ | ⟨data, a, rfl, -⟩⟩ | ⟨data, total, write, rest',
    rfl, hack, -, hn, -, hrest⟩⟩ := runs_copyFile h (by simpa using hsize)
  · exact ⟨by simp [isRead_readAt]; omega, .read_only⟩
  · exact ⟨by simp [isRead_readAt, isRead_stateWrite]; omega, .chunk .nil⟩
  · obtain rfl := hn n rfl
    have hlength := List.length_pos_iff.mpr hack.data_ne
    obtain ⟨hcount, habout⟩ := ih (n - (offset + data.length)) (by omega) hrest rfl
    obtain ⟨ack, rfl, -⟩ := hack.write_eq
    refine ⟨?_, .chunk habout⟩
    rw [List.countP_cons_of_pos isRead_readAt, List.countP_cons_of_neg (by simp [isRead])]
    omega

theorem reads_copyFile_none (h : (copyFile source destination session name max expected 0 none
    bytes).Runs s t x s') : Bounded max name t ∧ About name t := by
  obtain ⟨answer, rest, rfl, hrest⟩ := runs_copyFile h rfl
  have hfirst : firstSize max name ((readAt source session name 0, answer) :: rest) =
      reported max answer := by
    simp [firstSize, isRead_readAt]
  have hpositive : 1 ≤ (reported max answer).getD 1 := by
    cases hreported : reported max answer with
    | none => exact le_rfl
    | some => exact (reported_le hreported).1
  unfold Bounded
  rw [hfirst, List.countP_cons_of_pos isRead_readAt]
  rcases hrest with ⟨-, ⟨rfl, -⟩ | ⟨data, a, rfl, -⟩⟩ | ⟨data, total, write, rest', rfl, hack,
    htotal, -, -, hrest⟩
  · exact ⟨by simpa using hpositive, .read_only⟩
  · exact ⟨by simpa [isRead_stateWrite] using hpositive, .chunk .nil⟩
  · have hlength := List.length_pos_iff.mpr hack.data_ne
    have hwithin := hack.within
    obtain ⟨ack, rfl, -⟩ := hack.write_eq
    obtain ⟨hcount, habout⟩ := reads_copyFile hrest
    refine ⟨?_, .chunk habout⟩
    rw [htotal, Option.getD_some, List.countP_cons_of_neg (by simp [isRead])]
    omega

/-- **An exact copy**: the chunks of a file, from an offset on, in the order of their offsets and
without a gap, each of them read from the source and acknowledged by the destination. -/
inductive Copied (source destination : Prepared) (session name : String) (total : ℕ) :
    ℕ → List ℕ → List Said → Prop
  | nil : Copied source destination session name total total [] []
  | cons {offset : ℕ} {data rest : List ℕ} {read write : Said} {t : List Said}
      (hchunk : Acknowledged source destination session name total offset data read write)
      (hrest : Copied source destination session name total (offset + data.length) rest t) :
      Copied source destination session name total offset (data ++ rest) (read :: write :: t)

theorem Copied.length {total : ℕ} {rest : List ℕ}
    (h : Copied source destination session name total offset rest t) :
    offset + rest.length = total := by
  induction h with
  | nil => rfl
  | cons _ _ ih => rw [List.length_append, ← Nat.add_assoc, ih]

theorem copied_copyFile {n : ℕ} {out : List ℕ} (hoffset : offset ≤ n)
    (h : (copyFile source destination session name max expected offset (some n) bytes).Runs s t
      (.ok out) s') :
    ∃ rest, out = bytes ++ rest ∧ Copied source destination session name n offset rest t := by
  induction hk : n - offset using Nat.strong_induction_on generalizing offset bytes s t with
  | _ k ih =>
  by_cases hsize : offset < n
  swap
  · rw [copyFile, if_neg (by simpa using hsize)] at h
    obtain ⟨rfl, hout, -⟩ := runs_pure h
    cases hout
    obtain rfl : offset = n := by omega
    exact ⟨[], by simp, .nil⟩
  obtain ⟨answer, rest, rfl, ⟨⟨_, hout⟩, -⟩ | ⟨data, total, write, rest', rfl, hack, -, hn, -,
    hrest⟩⟩ := runs_copyFile h (by simpa using hsize)
  · cases hout
  · obtain rfl := hn n rfl
    have hlength := List.length_pos_iff.mpr hack.data_ne
    have hwithin := hack.within
    obtain ⟨tail, rfl, hcopied⟩ := ih (n - (offset + data.length)) (by omega) hwithin hrest rfl
    exact ⟨data ++ tail, by rw [List.append_assoc], .cons hack hcopied⟩

theorem copied_copyFile_none {out : List ℕ}
    (h : (copyFile source destination session name max expected 0 none []).Runs s t (.ok out) s') :
    Copied source destination session name out.length 0 out t ∧ ∀ n ∈ expected, n = out.length := by
  obtain ⟨answer, rest, rfl, ⟨⟨_, hout⟩, -⟩ | ⟨data, total, write, rest', rfl, hack, -, -,
    hexpected, hrest⟩⟩ := runs_copyFile h rfl
  · cases hout
  · obtain ⟨tail, rfl, hcopied⟩ := copied_copyFile hack.within hrest
    have hall : Copied source destination session name total 0 (data ++ tail) _ :=
      .cons hack hcopied
    have htotal : (data ++ tail).length = total := by simpa using hall.length
    rw [List.nil_append, htotal]
    exact ⟨hall, hexpected⟩

end Copy

/-! ## The transfer as a whole -/

theorem eq_of_strictEq {a b : Option Json} (h : strictEq a b = true) : a = b := by
  unfold strictEq at h
  split at h <;> simp_all

theorem integerOf_eq {low high n : ℕ} {v : Option Json} (h : integerOf low high v = some n) :
    v = some (nat n) := by
  unfold integerOf at h
  split at h
  case h_1 q =>
    split_ifs at h with hq
    simp only [integer, numThat_num, decide_eq_true_eq] at hq
    obtain ⟨hden, -, hlow, -⟩ := hq
    have hnum : (q.num : ℚ) = q := Rat.coe_int_num_of_den_eq_one hden
    have hnonneg : 0 ≤ q.num := Rat.num_nonneg.mpr (le_trans (Nat.cast_nonneg low) hlow)
    cases h
    rw [nat, ← Int.cast_natCast, Int.toNat_of_nonneg hnonneg, hnum]
  case h_2 => cases h

theorem assertIdentity_ok {actual : Option Json} {expected : ObjectValue}
    (h : assertIdentity actual expected = .ok ()) :
    ∃ a, actual = some (.obj a) ∧ ∀ field ∈ expected, get a field.1 = some field.2 := by
  unfold assertIdentity at h
  split at h
  case h_1 a =>
    refine ⟨a, rfl, fun field hfield ↦ eq_of_strictEq ?_⟩
    have hone := Checked.forM_ok h field hfield
    simp only at hone
    split_ifs at hone with hsame
    exact hsame
  case h_2 => cases h

structure Transferred (h : StageHost) (source destination : Prepared) (session file : String)
    (t : List Said) (exported named : ObjectValue) (state manifest : List ℕ) : Prop where
  /-- After the export, both files were copied, and nothing else was said. -/
  copied : ∃ t₁ t₂, t = (.command source.index (.exportState session file), .ok exported) ::
      (t₁ ++ t₂) ∧
    Copied source destination session file state.length 0 state t₁ ∧
    Copied source destination session (file ++ ".json") manifest.length 0 manifest t₂
  exported_bytes : get exported "bytes" = some (nat state.length)
  exported_sha256 : get exported "sha256" = some (.str (h.sha256 state))
  parsed : h.parse manifest = .ok (.obj named)
  sha256 : get named "sha256" = some (.str (h.sha256 state))
  bytes : get named "bytes" = some (nat state.length)
  session : get named "session" = some (.str session)
  position : get named "position" = get exported "position"
  identity : ∃ a, get named "identity" = some (.obj a) ∧
    ∀ field ∈ source.target.identity, get a field.1 = some field.2

section Transfer

variable {h : StageHost} {source destination : Prepared} {session file : String} {s s' : Locals}
  {t : List Said}

/-- A conversation of a transfer: the export, and then one about each file; and what it has
established when it succeeds. -/
theorem runs_transfer {x : Except String Unit}
    (hrun : (transfer h source destination session file).Runs s t x s') :
    ∃ a t₁ t₂, t = (.command source.index (.exportState session file), a) :: (t₁ ++ t₂) ∧
      (Bounded MAX_STATE file t₁ ∧ About file t₁) ∧
      (Bounded MAX_MANIFEST (file ++ ".json") t₂ ∧ About (file ++ ".json") t₂) ∧
      (x = .ok () → ∃ exported named state manifest,
        Transferred h source destination session file t exported named state manifest) := by
  have hnil {max : ℕ} {name : String} : Bounded max name [] ∧ About name [] :=
    ⟨Nat.zero_le _, .nil⟩
  rw [transfer, track, track, runs_modify_bind, runs_modify_bind] at hrun
  rcases runs_call_bind hrun with ⟨_, rfl, rfl, -⟩ | ⟨exported, t₁, rfl, hexport⟩
  · exact ⟨_, [], [], rfl, hnil, hnil, nofun⟩
  refine ⟨.ok exported, ?_⟩
  cases hbytes : integerOf 1 MAX_STATE (get exported "bytes") with
  | none =>
    simp only [hbytes] at hexport
    obtain ⟨rfl, rfl, -⟩ := runs_throw hexport
    exact ⟨[], [], rfl, hnil, hnil, nofun⟩
  | some n =>
    simp only [hbytes] at hexport
    rcases runs_check_bind hexport with ⟨-, rfl, rfl, -⟩ | ⟨-, hfiles⟩
    · exact ⟨[], [], rfl, hnil, hnil, nofun⟩
    rcases runs_bind hfiles with ⟨e, rfl, hstate⟩ | ⟨state, s₁, t₁, t₂, rfl, hstate, hchecked⟩
    · exact ⟨t₁, [], by simp, reads_copyFile_none hstate, hnil, nofun⟩
    rcases runs_check_bind hchecked with ⟨-, rfl, rfl, -⟩ | ⟨hsha, hmanifest⟩
    · exact ⟨t₁, [], rfl, reads_copyFile_none hstate, hnil, nofun⟩
    rcases runs_bind hmanifest with ⟨e, rfl, hcopy⟩ | ⟨manifest, s₂, t₂, t₃, rfl, hcopy, hparse⟩
    · exact ⟨t₁, t₂, rfl, reads_copyFile_none hstate, reads_copyFile_none hcopy, nofun⟩
    -- Nothing is said after the manifest was copied.
    suffices t₃ = [] ∧ (x = .ok () → _) from
      ⟨t₁, t₂, by rw [this.1, List.append_nil], reads_copyFile_none hstate,
      reads_copyFile_none hcopy,
        this.2⟩
    rcases runs_lift_bind hparse with ⟨_, -, rfl, rfl, -⟩ | ⟨document, hdocument, hnamed⟩
    · exact ⟨rfl, nofun⟩
    cases document with
    | obj named =>
      rcases runs_check_bind hnamed with ⟨-, rfl, rfl, -⟩ | ⟨hsame, hidentity⟩
      · exact ⟨rfl, nofun⟩
      obtain ⟨rfl, hidentity, -⟩ := runs_lift hidentity
      refine ⟨rfl, fun hx ↦ ?_⟩
      simp only [Bool.and_eq_true] at hsame
      obtain ⟨⟨⟨⟨-, hsha'⟩, hbytes'⟩, hsession⟩, hposition⟩ := hsame
      obtain ⟨hcopied, hlength⟩ := copied_copyFile_none hstate
      obtain rfl := hlength n rfl
      have hsha := eq_of_strictEq hsha
      exact ⟨exported, named, state, manifest, ⟨_, _, by rw [List.append_nil], hcopied,
        (copied_copyFile_none hcopy).1⟩, integerOf_eq hbytes, hsha.symm, hdocument,
        (eq_of_strictEq hsha').trans hsha.symm,
        (eq_of_strictEq hbytes').trans (integerOf_eq hbytes), eq_of_strictEq hsession,
        eq_of_strictEq hposition, assertIdentity_ok (hidentity.symm.trans hx)⟩
    | _ =>
      obtain ⟨rfl, rfl, -⟩ := runs_throw hnamed
      exact ⟨rfl, nofun⟩

theorem manifest_ne (file : String) : file ≠ file ++ ".json" := by
  intro heq
  have hlength := congrArg String.length heq
  rw [String.length_append] at hlength
  have : String.length ".json" = 5 := rfl
  omega

/-- **A transfer is exact, and it ends.** Whatever the endpoints answer, at any point of it each
file has been read at most as many times as the size its first read reported; and when it has
succeeded, the destination has acknowledged the bytes of a contiguous read of the exported length
and digest, and a manifest that names them. -/
theorem transfer_exact {p : Script Question (Except String ObjectValue)
    (Except String Unit × Locals)}
    (hreach : ((transfer h source destination session file).start s).Reaches t p) :
    Bounded MAX_STATE file t ∧ Bounded MAX_MANIFEST (file ++ ".json") t ∧
      t.length ≤ 1 + 2 * (MAX_STATE + MAX_MANIFEST) ∧
      ∀ s', p = .done (.ok (), s') → ∃ exported named state manifest,
        Transferred h source destination session file t exported named state manifest := by
  obtain ⟨t', r, hrun⟩ := hreach.extends
  obtain ⟨a, t₁, t₂, ht, ⟨hstate, hstate'⟩, ⟨hmanifest, hmanifest'⟩, -⟩ := runs_transfer hrun
  refine ⟨?_, ?_, ?_, ?_⟩
  · have hall : Bounded MAX_STATE file (t ++ t') := by
      rw [ht, ← List.singleton_append]
      refine hstate.frame (fun said hs ↦ ?_) fun said hs ↦ Bool.eq_false_iff.mpr fun hread ↦ ?_
      · rw [List.mem_singleton.mp hs]
        rfl
      · exact manifest_ne file (hmanifest'.only said hs file hread).symm
    exact hall.of_append
  · have hall : Bounded MAX_MANIFEST (file ++ ".json") (t ++ t') := by
      rw [ht, ← List.append_nil t₂, ← List.cons_append]
      refine hmanifest.frame (fun said hs ↦ Bool.eq_false_iff.mpr fun hread ↦ ?_) (by simp)
      rcases List.mem_cons.mp hs with rfl | hs
      · cases hread
      · exact manifest_ne file (hstate'.only said hs _ hread)
    exact hall.of_append
  · have hlength := congrArg List.length ht
    rw [List.length_append, List.length_cons, List.length_append] at hlength
    have hle := hstate.count_le (by decide)
    have hle' := hmanifest.count_le (by decide)
    have := hstate'.length
    have := hmanifest'.length
    omega
  · rintro s' rfl
    obtain ⟨_, _, _, -, -, -, hexact⟩ := runs_transfer hreach.runs
    exact hexact rfl

end Transfer

/-- A host that knows the digest of one file, and whose manifests all are one object. -/
def oneFile (named : ObjectValue) : StageHost where
  sha256 bytes := String.ofList (List.replicate 64 (if bytes = [7, 8, 9] then 'a' else 'c'))
  parse _ := .ok (.obj named)
  string _ := ""
  messageBytes _ := 0

def endpointAt (index : ℕ) : Prepared := ⟨index, ⟨"n", 1024, [("schema", nat 1)], ""⟩, []⟩

def threeBytes (members : ObjectValue) : ObjectValue :=
  [("bytes", nat 3), ("sha256", .str (String.ofList (List.replicate 64 'a'))),
    ("envelope_sha256", .str (String.ofList (List.replicate 64 'b'))),
    ("position", nat 3)] ++ members

/-- The state comes in two chunks, the manifest in one. -/
def twoChunkAnswers : List (Except String ObjectValue) :=
  let read (data : List ℕ) (total next : ℕ) (eof : Bool) : ObjectValue :=
    [("data", .arr (data.map nat)), ("total_bytes", nat total), ("next_offset", nat next),
      ("eof", .bool eof)]
  let ack (written : ℕ) : ObjectValue :=
    [("next_offset", nat written), ("total_bytes", nat written)]
  [.ok (threeBytes []), .ok (read [7, 8] 3 2 false), .ok (ack 2), .ok (read [9] 3 3 true),
    .ok (ack 3), .ok (read [1] 1 1 true), .ok (ack 1)]

def twoChunkTransfer : Exec Unit :=
  transfer (oneFile (threeBytes [("session", .str "s"), ("identity", .obj [("schema", nat 1)])]))
    (endpointAt 0) (endpointAt 1) "s" "f"

theorem transfer_exact_twoChunks :
    ∃ t s', (twoChunkTransfer.start {}).Reaches t (.done (.ok (), s')) ∧
    Bounded MAX_STATE "f" t ∧ ∃ exported named state manifest, Transferred
      (oneFile (threeBytes [("session", .str "s"), ("identity", .obj [("schema", nat 1)])]))
      (endpointAt 0) (endpointAt 1) "s" "f" t exported named state manifest := by
  obtain ⟨t, ht⟩ := Script.exists_reaches_exec (Script.recite (.error ""))
    (twoChunkTransfer.start {}) twoChunkAnswers
  have hok : ((twoChunkTransfer.start {}).exec (Script.recite (.error ""))
      twoChunkAnswers).1.1.isOk = true := by decide +kernel
  generalize ((twoChunkTransfer.start {}).exec (Script.recite (.error "")) twoChunkAnswers).1 = r
    at *
  obtain ⟨⟨⟩ | ⟨⟩, s'⟩ := r
  · cases hok
  · obtain ⟨hbounded, -, -, hexact⟩ := transfer_exact ht
    exact ⟨t, s', ht, hbounded, hexact s' rfl⟩

end Swarmlet
