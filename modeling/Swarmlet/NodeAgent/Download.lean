import Mathlib.Algebra.Order.Ring.Unbundled.Rat
import Mathlib.Data.Nat.Cast.Order.Basic
import Swarmlet.Lib.JsNumber
import Swarmlet.Protocol.Types
import Swarmlet.Lib.Machine

/-!
# Fetching a model's weights

A call of `fetch` is admitted, and then downloads the declared files one after another: each into a
`.part` file, which is hashed and renamed into place. At every `await` other calls may run, so a
fetcher is a machine whose state has the calls that have not returned.

## What the guard does not guard

Every refusal goes through `fail`, which writes the status and clears `running`: those of the
download that is under way. And a file that is there with the declared size is taken as it is.
-/

def Swarmlet.ModelDownloadFile.partPath (f : ModelDownloadFile) : String := f.name ++ ".part"

namespace Swarmlet.Agent

open EventMachine

structure FetchableModel where
  id : String
  files : Option (List ModelDownloadFile)

inductive FetchStateName
  | idle | running | verifying | done | failed | cancelled
deriving DecidableEq

structure FetchStatus where
  model : Option String := none
  state : FetchStateName := .idle
  file : Option String := none
  fileIndex : ℕ := 0
  fileCount : ℕ := 0
  receivedBytes : ℕ := 0
  totalBytes : ℕ := 0
  progress : ℚ := 0
  error : Option String := none
deriving DecidableEq

inductive After
  | cancelled
  | threw (message : String)
  | complete

inductive Await
  | response (resumeFrom : ℕ)
  | read (written : ℕ)
  | drain (written : ℕ)
  | close (after : After)
  | digest
  | report

/-- A call of `fetch` that downloads, with the files from the current one on. -/
structure Loop where
  model : String
  totalBytes : ℕ
  index : ℕ
  completedBytes : ℕ
  files : List ModelDownloadFile
  await : Await

structure FetchHost where
  sha256 : List UInt8 → String
  modelsDir : String
  modelsReserveMiB : ℕ
  toFixed : ℚ → String

abbrev Disk := String → Option (List UInt8)

def Disk.sizeOf (disk : Disk) (path : String) : Option ℕ := (disk path).map List.length

structure ModelFetcher where
  running : Bool := false
  cancelled : Bool := false
  status : FetchStatus := {}
  disk : Disk
  loops : List Loop := []

namespace ModelFetcher

section

variable (h : FetchHost) (m : ModelFetcher) (l : Loop)

def put (path : String) (content : Option (List UInt8)) : ModelFetcher :=
  { m with disk := Function.update m.disk path content }

def received (bytes : ℕ) (progress : ℚ) : ModelFetcher :=
  { m with status := { m.status with receivedBytes := bytes, progress } }

def fail (model error : String) : ModelFetcher :=
  { m with
    running := false
    status := { m.status with model := some model, state := .failed, error := some error } }

def failCancelled (receivedBytes : ℕ) : ModelFetcher :=
  { m with running := false, status := { m.status with state := .cancelled, receivedBytes } }

def nextFile (model : String) (totalBytes : ℕ) :
    ModelFetcher → ℕ → ℕ → List ModelDownloadFile → ModelFetcher × Loop
  | m, index, completedBytes, [] => (m, ⟨model, totalBytes, index, completedBytes, [], .report⟩)
  | m, index, completedBytes, file :: rest =>
    let m := { m with status := { m.status with file := some file.name, fileIndex := index } }
    if m.disk.sizeOf file.name = some file.bytes then
      let completedBytes := completedBytes + file.bytes
      nextFile model totalBytes (m.received completedBytes (completedBytes / totalBytes))
        (index + 1) completedBytes rest
    else
      let found := (m.disk.sizeOf file.partPath).getD 0
      let m := if file.bytes ≤ found then m.put file.partPath none else m
      let resumeFrom := if file.bytes ≤ found then 0 else found
      (m.received (completedBytes + resumeFrom) ((completedBytes + resumeFrom) / totalBytes),
        ⟨model, totalBytes, index, completedBytes, file :: rest, .response resumeFrom⟩)

def refusal (model : FetchableModel) (made : Except String Unit)
    (free : Option ℕ) : Option String :=
  let declared := model.files.getD []
  let totalBytes := (declared.map (·.bytes)).sum
  let reserve := h.modelsReserveMiB * 1024 * 1024
  let need := Js.timesUp totalBytes Js.double_1_05 1 + reserve
  let gb (n : ℕ) := h.toFixed (n / 1000000000)
  if m.running then some "another download is already running"
  else if declared.isEmpty then
    some "this model does not declare where its weights can be fetched from"
  else match declared.find? (!validCatalogDownload ·), made with
    | some f, _ => some s!"control offered an unusable download entry for {f.name}"
    | none, .error e => some s!"models directory is not usable: {e}"
    | none, .ok () => free.bind fun free ↦ if free < need then
        some (s!"needs {gb need} GB free ({gb totalBytes} GB payload + " ++
          s!"{gb reserve} GB kept free), {gb free} GB available in {h.modelsDir}")
      else none

def fetch (model : FetchableModel) (made : Except String Unit) (free : Option ℕ) : ModelFetcher :=
  match m.refusal h model made free with
  | some error => m.fail model.id error
  | none =>
    let declared := model.files.getD []
    let totalBytes := (declared.map (·.bytes)).sum
    let begun := nextFile model.id totalBytes { m with
      running := true, cancelled := false
      status := { model := some model.id, state := .running, fileCount := declared.length
                  totalBytes } }
      0 0 declared
    { begun.1 with loops := m.loops ++ [begun.2] }

def leave (written : ℕ) : ModelFetcher × Option Loop :=
  if m.cancelled then
    (m.failCancelled (l.completedBytes + written), some { l with await := .close .cancelled })
  else (m, some { l with await := .close .complete })

def readMore (written : ℕ) : ModelFetcher × Option Loop :=
  if m.cancelled then m.leave l written else (m, some { l with await := .read written })

inductive Answer
  | threw (message : String)
  | response (status : ℕ) (body : Bool)
  | chunk (value : List UInt8) (full : Bool)
  | ended
  | drained
  | closed
  | digested
  | reported

def short (sha256 : String) : String := .ofList (sha256.toList.take 12)

def resume (a : Answer) : Option (ModelFetcher × Option Loop) :=
  match l.await, l.files, a with
  | .response resumeFrom, file :: _, .response status body => some <|
    if ¬(200 ≤ status ∧ status < 300) ∧ status ≠ 206 then
      (m.fail l.model s!"{file.name}: HTTP {status} from the declared URL", none)
    else if body = false then (m.fail l.model s!"{file.name}: empty response body", none)
    else if 0 < resumeFrom ∧ status = 206 then m.readMore l resumeFrom
    else
      let m := if 0 < resumeFrom then m.received l.completedBytes m.status.progress else m
      (m.put file.partPath (some [])).readMore l 0
  | .read written, file :: _, .chunk value full => some <|
    if value = [] then m.readMore l written
    else
      let written := written + value.length
      let m := (m.put file.partPath (some ((m.disk file.partPath).getD [] ++ value))).received
        (l.completedBytes + written) (min 1 ((l.completedBytes + written) / l.totalBytes))
      if full then (m, some { l with await := .drain written }) else m.readMore l written
  | .read written, _, .ended => some (m.leave l written)
  | .drain written, _, .drained => some (m.readMore l written)
  | .close .cancelled, _, .closed => some ({ m with running := false }, none)
  | .close (.threw message), _, .closed => some (m.fail l.model message, none)
  | .close .complete, file :: _, .closed => some <|
    let got := (m.disk.sizeOf file.partPath).getD 0
    if got ≠ file.bytes then
      (m.fail l.model s!"{file.name}: got {got} bytes, expected {file.bytes}", none)
    else
      ({ m with status := { m.status with state := .verifying } }, some { l with await := .digest })
  | .digest, file :: rest, .digested => (m.disk file.partPath).map fun content ↦
    let digest := h.sha256 content
    if digest ≠ file.sha256 then
      ((m.put file.partPath none).fail l.model (s!"{file.name}: sha256 mismatch (expected " ++
        s!"{short file.sha256}…, got {short digest}…). Deleted the bad download."), none)
    else
      let completedBytes := l.completedBytes + file.bytes
      let m := ((m.put file.partPath none).put file.name (some content)).received completedBytes
        (completedBytes / l.totalBytes)
      let next := nextFile l.model l.totalBytes
        { m with status := { m.status with state := .running } } (l.index + 1) completedBytes rest
      (next.1, some next.2)
  | .report, _, .reported =>
    some ({ m with
      running := false, status := { m.status with state := .done, progress := 1 } }, none)
  | .read _, _, .threw message | .drain _, _, .threw message =>
    some (m, some { l with await := .close (.threw message) })
  | .response _, _, .threw message | .digest, _, .threw message | .report, _, .threw message =>
    some (m.fail l.model message, none)
  | _, _, _ => none

inductive Event
  | fetch (model : FetchableModel) (made : Except String Unit) (free : Option ℕ)
  | cancel
  | resume (i : ℕ) (a : Answer)

def Event.isFetch : Event → Bool
  | .fetch .. => true
  | _ => false

def step : Event → Option ModelFetcher
  | .fetch model made free => some (m.fetch h model made free)
  | .cancel => some (if m.running then { m with cancelled := true } else m)
  | .resume i a => m.loops[i]?.bind fun l ↦ (m.resume h l a).map fun r ↦
      { r.1 with loops := r.2.elim (m.loops.eraseIdx i) (m.loops.set i) }

/-! ## What a call does when it goes on -/

/-- The directory changes at the `.part` files of the call only. -/
def SameBut (m' : ModelFetcher) : Prop :=
  ∀ path, (∀ x ∈ l.files, path ≠ x.partPath) → m'.disk path = m.disk path

end

/-- **What one turn of a call may do**: it waits again, or installs the current file and goes on to
the next, or ends. -/
inductive Turn (h : FetchHost) (m : ModelFetcher) (l : Loop) : ModelFetcher → Option Loop → Prop
  | wait {m' : ModelFetcher} {await : Await} (hdisk : m.SameBut l m')
      (hstate : m'.status.state = m.status.state ∨ m'.status.state = .cancelled ∨
        m'.status.state = .verifying) (hreport : await ≠ .report)
      (hdigest : await = .digest → ∀ x ∈ l.files.head?,
        (m'.disk.sizeOf x.partPath).getD 0 = x.bytes) : Turn h m l m' (some { l with await })
  | install {m₁ : ModelFetcher} {x : ModelDownloadFile} {rest : List ModelDownloadFile}
      {content : List UInt8} (index completedBytes : ℕ) (hfiles : l.files = x :: rest)
      (hawait : l.await = .digest) (hcontent : m.disk x.partPath = some content)
      (hsha : h.sha256 content = x.sha256) (hstate : m₁.status.state = .running)
      (hdisk : m₁.disk = ((m.put x.partPath none).put x.name (some content)).disk) :
      Turn h m l (nextFile l.model l.totalBytes m₁ index completedBytes rest).1
        (some (nextFile l.model l.totalBytes m₁ index completedBytes rest).2)
  | ends {m' : ModelFetcher} (hdisk : m.SameBut l m')
      (hstate : m'.status.state = .failed ∨ m'.status.state = m.status.state) : Turn h m l m' none
  | done {m' : ModelFetcher} (hreport : l.await = .report) (hdisk : m'.disk = m.disk) :
      Turn h m l m' none

variable {h : FetchHost} {m m' m₁ : ModelFetcher} {l : Loop} {l' : Option Loop} {a : Answer}

theorem SameBut.put (hdisk : m.SameBut l m₁) {file : ModelDownloadFile} (hfile : file ∈ l.files)
    (content : Option (List UInt8)) : m.SameBut l (m₁.put file.partPath content) := by
  intro path hpath
  exact (Function.update_of_ne (hpath file hfile) ..).trans (hdisk path hpath)

theorem turn_readMore (hdisk : m.SameBut l m₁) (hstate : m₁.status.state = m.status.state)
    (written : ℕ) : Turn h m l (m₁.readMore l written).1 (m₁.readMore l written).2 := by
  unfold readMore leave
  split_ifs
  · exact .wait hdisk (.inr (.inl rfl)) nofun nofun
  · exact .wait hdisk (.inl hstate) nofun nofun

theorem resume_turn {r : ModelFetcher × Option Loop} (hm : m.resume h l a = some r) :
    Turn h m l r.1 r.2 := by
  have hrefl : m.SameBut l m := fun _ _ ↦ rfl
  unfold resume at hm
  split at hm
  case h_1 resumeFrom file _ status body _ hfiles =>
    have hput := fun content ↦ hrefl.put (hfiles ▸ List.mem_cons_self : file ∈ l.files) content
    simp only [Option.some.injEq] at hm
    split_ifs at hm <;> subst hm
    · exact .ends hrefl (.inl rfl)
    · exact .ends hrefl (.inl rfl)
    · exact turn_readMore hrefl rfl _
    · refine turn_readMore ?_ ?_ _
      · exact hput (some [])
      · rfl
    · exact turn_readMore (hput (some [])) rfl _
  case h_2 written file _ value full _ hfiles =>
    have hput := fun content ↦ hrefl.put (hfiles ▸ List.mem_cons_self : file ∈ l.files) content
    simp only [Option.some.injEq] at hm
    split_ifs at hm <;> subst hm
    · exact turn_readMore hrefl rfl _
    · exact .wait (hput _) (.inl rfl) nofun nofun
    · refine turn_readMore ?_ ?_ _
      · exact hput _
      · rfl
  case h_3 =>
    cases hm
    unfold leave
    split_ifs
    · exact .wait hrefl (.inr (.inl rfl)) nofun nofun
    · exact .wait hrefl (.inl rfl) nofun nofun
  case h_4 =>
    cases hm
    exact turn_readMore hrefl rfl _
  case h_5 =>
    cases hm
    exact .ends hrefl (.inr rfl)
  case h_7 file _ _ hfiles =>
    simp only [Option.some.injEq] at hm
    split_ifs at hm with hsize <;> subst hm
    · exact .ends hrefl (.inl rfl)
    · refine .wait hrefl (.inr (.inr rfl)) nofun fun _ x hx ↦ ?_
      obtain rfl : file = x := by simpa [hfiles] using hx
      exact not_ne_iff.mp hsize
  case h_8 file rest hawait hfiles =>
    obtain ⟨content, hcontent, rfl⟩ := Option.map_eq_some_iff.mp hm
    dsimp only
    split_ifs with hsha
    · exact .ends (hrefl.put (hfiles ▸ List.mem_cons_self) none) (.inl rfl)
    · exact .install _ _ hfiles hawait hcontent (not_ne_iff.mp hsha) rfl rfl
  case h_9 hawait =>
    cases hm
    exact .done hawait rfl
  case h_10 | h_11 =>
    cases hm
    exact .wait hrefl (.inl rfl) nofun nofun
  case h_6 | h_12 | h_13 | h_14 =>
    cases hm
    exact .ends hrefl (.inl rfl)
  case h_15 => cases hm

theorem step_resume {i : ℕ} (hone : m.loops = [l]) (hstep : step h m (.resume i a) = some m') :
    ∃ m₁ l₁, Turn h m l m₁ l₁ ∧ m' = { m₁ with loops := l₁.toList } := by
  obtain ⟨l₀, hl, hstep⟩ := Option.bind_eq_some_iff.mp hstep
  obtain ⟨⟨m₁, l₁⟩, hr, rfl⟩ := Option.map_eq_some_iff.mp hstep
  rw [hone, List.getElem?_singleton] at hl
  split_ifs at hl with hi
  cases hl
  subst hi
  refine ⟨m₁, l₁, resume_turn hr, ?_⟩
  cases l₁ <;> simp [hone]

theorem state_nextFile (model : String) (totalBytes : ℕ) (m : ModelFetcher)
    (index completedBytes : ℕ) (files : List ModelDownloadFile) :
    (nextFile model totalBytes m index completedBytes files).1.status.state = m.status.state := by
  induction files generalizing m index completedBytes with
  | nil => rfl
  | cons file rest ih =>
    simp only [nextFile]
    split_ifs
    · exact ih ..
    all_goals rfl

theorem Turn.state {l₁ : Loop} (ht : Turn h m l m₁ (some l₁)) {state : FetchStateName}
    (hm : m.status.state ≠ state) (hstate : state = .failed ∨ state = .done) :
    m₁.status.state ≠ state := by
  cases ht with
  | wait _ hkept =>
    rcases hkept with hkept | hkept | hkept
    · rwa [hkept]
    all_goals rcases hstate with rfl | rfl <;> simp [hkept]
  | install _ _ _ _ _ _ hrunning =>
    rw [state_nextFile, hrunning]
    rcases hstate with rfl | rfl <;> simp

/-! ## One download at a time -/

/-- No call of `fetch` while another has not returned. -/
def Alone (m : ModelFetcher) (e : Event) : Prop := e.isFetch = true → m.loops = []

/-- After the event one call downloads at most, and a call that is refused has left the status of a
download as it was. -/
def Exclusive (h : FetchHost) (m : ModelFetcher) (e : Event) : Prop :=
  ∀ m', step h m e = some m' → m'.loops.length ≤ 1 ∧
    (e.isFetch = true → m.loops ≠ [] → m'.loops = m.loops → m'.status = m.status)

def Single (m : ModelFetcher) : Prop :=
  m.loops = [] ∨ ∃ l, m.loops = [l] ∧ m.status.state ≠ .failed

theorem Single.step {e : Event} (hm : m.Single) (halone : m.Alone e)
    (hstep : step h m e = some m') : m'.Single := by
  cases e with
  | fetch model made free =>
    cases hstep
    have hidle := halone rfl
    unfold ModelFetcher.fetch
    split
    · exact .inl hidle
    · refine .inr ⟨_, by rw [hidle]; rfl, ?_⟩
      simp [state_nextFile]
  | cancel =>
    cases hstep
    split_ifs <;> exact hm
  | resume i a =>
    obtain hidle | ⟨l, hone, hstate⟩ := hm
    · simp [ModelFetcher.step, hidle] at hstep
    · obtain ⟨m₁, l₁, hturn, rfl⟩ := step_resume hone hstep
      cases l₁ with
      | none => exact .inl rfl
      | some l₁ => exact .inr ⟨l₁, rfl, hturn.state hstate (.inl rfl)⟩

theorem Single.exclusive_iff (hm : m.Single) (e : Event) : m.Exclusive h e ↔ m.Alone e := by
  constructor
  · intro hexclusive hfetch
    cases e with
    | fetch model made free =>
      obtain ⟨hlength, hstatus⟩ := hexclusive _ rfl
      refine hm.resolve_right fun ⟨l, hone, hstate⟩ ↦ ?_
      -- The call is refused and fails the status, or a second one downloads.
      unfold ModelFetcher.fetch at hlength hstatus
      split at hlength <;> rename_i hrefusal
      · simp only [hrefusal] at hstatus
        exact hstate (congrArg FetchStatus.state (hstatus rfl (by simp [hone]) rfl)).symm
      · simp [hone] at hlength
    | _ => cases hfetch
  · intro halone m' hstep
    refine ⟨?_, fun hfetch hbusy ↦ absurd (halone hfetch) hbusy⟩
    obtain hidle | ⟨l, hone, -⟩ := hm.step halone hstep
    · simp [hidle]
    · simp [hone]

/-- **One download runs at a time, and no refused call replaces its status, exactly in the runs in
which `fetch` is not called before the call before it has returned.** -/
theorem one_download_iff (h : FetchHost) (disk : Disk) (es : List Event) :
    Always (step h) (Exclusive h) { disk } es ↔ Always (step h) Alone { disk } es :=
  always_congr (I := Single) (.inl rfl) (fun _ e hm ↦ hm.exclusive_iff e)
    fun _ _ _ hm halone hstep ↦ hm.step halone hstep

def oneDigest : FetchHost where
  sha256 content := if content = [7] then String.ofList (List.replicate 64 '0') else ""
  modelsDir := "models"
  modelsReserveMiB := 0
  toFixed _ := "0.0"

def oneByte (id : String) : FetchableModel where
  id
  files := some [⟨id, .gguf, "https://h/" ++ id, String.ofList (List.replicate 64 '0'), 1⟩]

/-- The second call is refused and fails the download of the first; the third call downloads beside
it. -/
theorem refused_call_replaces : ∃ m₁ m₂ m₃,
    run (step oneDigest) { disk := fun _ ↦ none } [.fetch (oneByte "a") (.ok ()) none] = some m₁ ∧
    step oneDigest m₁ (.fetch (oneByte "b") (.ok ()) none) = some m₂ ∧
    step oneDigest m₂ (.fetch (oneByte "c") (.ok ()) none) = some m₃ ∧
    m₁.status.state = .running ∧ m₂.loops.length = 1 ∧
    m₂.status.model = some "b" ∧ m₂.status.state = .failed ∧ m₃.loops.length = 2 :=
  ⟨_, _, _, rfl, rfl, rfl, by decide +kernel⟩

/-! ## Done means verified -/

def Found (disk : Disk) (x : ModelDownloadFile) : Prop := disk.sizeOf x.name = some x.bytes

def Verified (h : FetchHost) (disk : Disk) (x : ModelDownloadFile) : Prop :=
  (disk x.name).map h.sha256 = some x.sha256

instance (h : FetchHost) (disk : Disk) (x : ModelDownloadFile) : Decidable (Verified h disk x) :=
  inferInstanceAs (Decidable (_ = _))

/-- Declarations of one name agree, and no name is that of another's `.part` file. -/
structure Apart (files : List ModelDownloadFile) : Prop where
  same : ∀ x ∈ files, ∀ y ∈ files, x.name = y.name → x.bytes = y.bytes ∧ x.sha256 = y.sha256
  parts : ∀ x ∈ files, ∀ y ∈ files, x.name ≠ y.partPath

/-- Where a call stands among its files: those it is done with are there, the current one is not. -/
structure Onto (files : List ModelDownloadFile) (disk : Disk) (l : Loop) : Prop where
  sub : l.files ⊆ files
  passed : ∀ x ∈ files, x ∈ l.files ∨ Found disk x
  missing : ∀ x ∈ l.files.head?, ¬Found disk x
  report : l.await = .report → l.files = []
  digest : l.await = .digest → ∀ x ∈ l.files.head?, (disk.sizeOf x.partPath).getD 0 = x.bytes

/-- A declared file is as it was before, or was not there with its size and has been installed. -/
def Kept (h : FetchHost) (before disk : Disk) (x : ModelDownloadFile) : Prop :=
  disk x.name = before x.name ∨ ¬Found before x ∧ Found disk x ∧ Verified h disk x

/-- The state of a call for the files, since the directory was as it was before. -/
structure Fetching (h : FetchHost) (files : List ModelDownloadFile) (before : Disk)
    (m : ModelFetcher) : Prop where
  kept : ∀ x ∈ files, Kept h before m.disk x
  stands : m.loops = [] ∧ (m.status.state = .done → ∀ x ∈ files, Found m.disk x) ∨
    ∃ l, m.loops = [l] ∧ m.status.state ≠ .done ∧ Onto files m.disk l

variable {files : List ModelDownloadFile} {before disk disk' : Disk} {x : ModelDownloadFile}

theorem found_congr (hdisk : disk' x.name = disk x.name) : Found disk' x ↔ Found disk x := by
  rw [Found, Found, Disk.sizeOf, Disk.sizeOf, hdisk]

theorem Kept.congr (hkept : Kept h before disk x) (hdisk : disk' x.name = disk x.name) :
    Kept h before disk' x := by
  rwa [Kept, found_congr hdisk, Verified, hdisk]

theorem nextFile_onto (hapart : Apart files) (model : String) (totalBytes index completedBytes : ℕ)
    {rest : List ModelDownloadFile} (hsub : rest ⊆ files)
    (hpassed : ∀ x ∈ files, x ∈ rest ∨ Found m.disk x) :
    let r := nextFile model totalBytes m index completedBytes rest
    Onto files r.1.disk r.2 ∧ ∀ x ∈ files, r.1.disk x.name = m.disk x.name := by
  induction rest generalizing m index completedBytes with
  | nil => exact ⟨⟨hsub, hpassed, nofun, fun _ ↦ rfl, nofun⟩, fun _ _ ↦ rfl⟩
  | cons file rest ih =>
    obtain ⟨hfile, hrest⟩ := List.cons_subset.mp hsub
    have hstop : ¬Found m.disk file → ∀ disk : Disk, (∀ x ∈ files, disk x.name = m.disk x.name) →
        ∀ resumeFrom, Onto files disk
          ⟨model, totalBytes, index, completedBytes, file :: rest, .response resumeFrom⟩ ∧
        ∀ x ∈ files, disk x.name = m.disk x.name := by
      refine fun hmissing disk hdisk _ ↦ ⟨⟨hsub, fun x hx ↦ ?_, fun x hx ↦ ?_, nofun, nofun⟩, hdisk⟩
      · exact (hpassed x hx).imp_right (found_congr (hdisk x hx)).mpr
      · obtain rfl : file = x := by simpa using hx
        rwa [found_congr (hdisk file hfile)]
    simp only [nextFile]
    split_ifs with hfound hpart
    · refine ih _ _ hrest fun x hx ↦ ?_
      rcases hpassed x hx with hx | hx
      · exact (List.mem_cons.mp hx).symm.imp_right fun heq ↦ by rw [heq]; exact hfound
      · exact .inr hx
    · exact hstop hfound _ (fun x hx ↦ Function.update_of_ne (hapart.parts x hx file hfile) ..) _
    · exact hstop hfound _ (fun _ _ ↦ rfl) _

theorem Fetching.step (hapart : Apart files) (hm : Fetching h files before m) {e : Event}
    (he : e.isFetch = false) (hstep : step h m e = some m') : Fetching h files before m' := by
  cases e with
  | fetch => cases he
  | cancel =>
    cases hstep
    split_ifs
    · exact ⟨hm.kept, hm.stands⟩
    · exact hm
  | resume i a =>
    obtain ⟨hidle, -⟩ | ⟨l, hone, hstate, honto⟩ := hm.stands
    · simp [ModelFetcher.step, hidle] at hstep
    obtain ⟨m₁, l₁, hturn, rfl⟩ := step_resume hone hstep
    -- Most turns leave the declared names alone.
    have hnames : m.SameBut l m₁ → ∀ x ∈ files, m₁.disk x.name = m.disk x.name := fun hsame x hx ↦
      hsame _ fun y hy ↦ hapart.parts x hx y (honto.sub hy)
    cases hturn with
    | wait hsame hnext hreport hdigest =>
      have hdisk := hnames hsame
      refine ⟨fun x hx ↦ (hm.kept x hx).congr (hdisk x hx), .inr ⟨_, rfl, ?_, honto.sub,
        fun x hx ↦ ?_, fun x hx ↦ ?_, fun h ↦ absurd h hreport, hdigest⟩⟩
      · exact (Turn.wait (h := h) hsame hnext hreport hdigest).state hstate (.inr rfl)
      · exact (honto.passed x hx).imp_right (found_congr (hdisk x hx)).mpr
      · rw [found_congr (hdisk x (honto.sub (List.mem_of_mem_head? hx)))]
        exact honto.missing x hx
    | ends hsame hends =>
      refine ⟨fun x hx ↦ (hm.kept x hx).congr (hnames hsame x hx), .inl ⟨rfl, fun hdone ↦ ?_⟩⟩
      rcases hends with hends | hends
      · cases hends.symm.trans hdone
      · exact absurd (hends.symm.trans hdone) hstate
    | done hreport hsame =>
      refine ⟨fun x hx ↦ (hm.kept x hx).congr (by rw [hsame]), .inl ⟨rfl, fun _ x hx ↦ ?_⟩⟩
      rw [hsame]
      exact (honto.passed x hx).resolve_left (by simp [honto.report hreport])
    | @install m₂ x rest content index completedBytes hfiles hawait hcontent hsha hrunning hdisk =>
      have hx : x ∈ files := honto.sub (hfiles ▸ List.mem_cons_self)
      have hhead : x ∈ l.files.head? := by simp [hfiles]
      have hlength : content.length = x.bytes := by
        simpa [Disk.sizeOf, hcontent] using honto.digest hawait x hhead
      -- What is declared under the name of the file is installed, the rest is left alone.
      have hnew : ∀ y ∈ files, y.name = x.name → Found m₂.disk y ∧ Verified h m₂.disk y := by
        intro y hy hname
        obtain ⟨hbytes, hsum⟩ := hapart.same y hy x hx hname
        simp [Found, Disk.sizeOf, Verified, hdisk, put, hname, hlength, hbytes, hsha, hsum]
      have hold : ∀ y ∈ files, y.name ≠ x.name → m₂.disk y.name = m.disk y.name := by
        intro y hy hname
        simp [hdisk, put, hname, hapart.parts y hy x hx]
      obtain ⟨honto', hsame⟩ := nextFile_onto (m := m₂) hapart l.model l.totalBytes index
        completedBytes (fun y hy ↦ honto.sub (hfiles ▸ List.mem_cons_of_mem x hy)) fun y hy ↦ by
          by_cases hname : y.name = x.name
          · exact .inr (hnew y hy hname).1
          · rw [found_congr (hold y hy hname)]
            refine (honto.passed y hy).imp_left fun hmem ↦ ?_
            exact (List.mem_cons.mp (hfiles ▸ hmem)).resolve_left fun heq ↦ hname (heq ▸ rfl)
      refine ⟨fun y hy ↦ Kept.congr ?_ (hsame y hy), .inr ⟨_, rfl, ?_, honto'⟩⟩
      · by_cases hname : y.name = x.name
        · refine .inr ⟨fun hfound ↦ honto.missing x hhead ?_, hnew y hy hname⟩
          have hfound : Found m.disk y := by
            rcases hm.kept y hy with heq | ⟨hmissing, -⟩
            · exact (found_congr heq).mpr hfound
            · exact absurd hfound hmissing
          rwa [Found, hname, (hapart.same y hy x hx hname).1] at hfound
        · exact (hm.kept y hy).congr (hold y hy hname)
      · simp [state_nextFile, hrunning]

/-- **A fetch that ends well has verified every file exactly if those that were there with the
declared size before had the declared content.** -/
theorem done_verified_iff {model : FetchableModel} {made : Except String Unit} {free : Option ℕ}
    {es : List Event} {t : ModelFetcher} (hidle : m.loops = [])
    (hapart : Apart (model.files.getD [])) (hpath : Path (step h) (fun _ e ↦ e.isFetch = false)
    (m.fetch h model made free) es t) (hdone : t.status.state = .done) :
    (∀ x ∈ model.files.getD [], Verified h t.disk x) ↔
      ∀ x ∈ model.files.getD [], Found m.disk x → Verified h m.disk x := by
  have hbegun : Fetching h (model.files.getD []) m.disk (m.fetch h model made free) := by
    unfold ModelFetcher.fetch
    split
    · exact ⟨fun _ _ ↦ .inl rfl, .inl ⟨hidle, nofun⟩⟩
    · obtain ⟨honto, hsame⟩ := nextFile_onto hapart model.id
        ((model.files.getD []).map (·.bytes)).sum 0 0 (List.Subset.refl _) fun x hx ↦ .inl hx
      exact ⟨fun x hx ↦ .inl (hsame x hx),
        .inr ⟨_, by rw [hidle]; rfl, by simp [state_nextFile], honto⟩⟩
  have hm := hpath.invariant hbegun fun _ _ _ hm he hstep ↦ hm.step hapart he hstep
  refine forall₂_congr fun x hx ↦ ?_
  obtain ⟨-, hfound⟩ | ⟨l, -, hstate, -⟩ := hm.stands
  swap
  · exact absurd hdone hstate
  rcases hm.kept x hx with heq | ⟨hmissing, -, hverified⟩
  · rw [Verified, Verified, heq]
    exact (imp_iff_right ((found_congr heq).mp (hfound hdone x hx))).symm
  · exact iff_of_true hverified fun hfound ↦ absurd hfound hmissing

def fetchOne (disk : Disk) : ModelFetcher :=
  ModelFetcher.fetch oneDigest { disk } (oneByte "a") (.ok ()) none

def sendsOne : List Event :=
  [.resume 0 (.response 200 true), .resume 0 (.chunk [7] false), .resume 0 .ended,
    .resume 0 .closed, .resume 0 .digested, .resume 0 .reported]

theorem done_verified_iff_oneByte : ∃ t,
    run (step oneDigest) (fetchOne fun _ ↦ none) sendsOne = some t ∧
    t.status.state = .done ∧ ∀ x ∈ (oneByte "a").files.getD [], Verified oneDigest t.disk x := by
  obtain ⟨t, hrun, hdone⟩ := exists_run (step oneDigest) (fetchOne fun _ ↦ none) sendsOne
    (·.status.state = .done) (by decide +kernel)
  have hapart : Apart ((oneByte "a").files.getD []) := by
    constructor <;> simp [oneByte, ModelDownloadFile.partPath]
  refine ⟨t, hrun, hdone, (done_verified_iff rfl hapart (path_of_run hrun ?_) hdone).mpr ?_⟩
  · decide +kernel
  · exact fun _ _ ↦ nofun

/-- A file that is there with the declared size is not looked at. -/
theorem found_file_unverified : ∃ t,
    run (step oneDigest) (fetchOne fun _ ↦ some [8]) [.resume 0 .reported] = some t ∧
    t.status.state = .done ∧ ∃ x ∈ (oneByte "a").files.getD [], ¬Verified oneDigest t.disk x :=
  exists_run _ _ _ (fun t : ModelFetcher ↦ t.status.state = .done ∧
    ∃ x ∈ (oneByte "a").files.getD [], ¬Verified oneDigest t.disk x) (by decide +kernel)

end ModelFetcher

end Swarmlet.Agent
