import Swarmlet.Core.Sign
import Swarmlet.Lib.Machine
import Swarmlet.Protocol.Validate

/-!
# Enrollment

A node presents a join code with its public key and the fingerprint of its certificate, signed with
its own key. Control imports the key, derives the node id from it and verifies the signature, each
of which is awaited; after the last of them it consumes the code and stores the identity in one go.

## Interleaving

Any number of requests may be between two awaits. A request keeps what `handleEnroll` has computed
so far (`Stage`), and an event is a request that arrives, the end of what a request waits for, a
join code that is created, or the clock that is read as something else.

Requests are never forgotten, and `admitted` is history that no function reads: which code has let
which node id in.
-/

namespace Swarmlet.Enroll

open Js Js.Json EventMachine

/-! ## Identities -/

structure Crypto (Key : Type) where
  numerals : Numerals ℚ
  /-- SHA-256 of the UTF-8 text. -/
  digest : String → Vector (Fin 256) 32
  /-- `crypto.subtle.importKey` of an Ed25519 public JWK, which may be rejected. -/
  importPublicJwk : Json → Option Key
  /-- Control has the private key of no node. -/
  signing : Signing Empty Key ByteArray

variable {Key : Type}

def sha256Hex (crypto : Crypto Key) (data : String) : List Char :=
  (crypto.digest data).toList.flatMap hexByte

def nodeIdFromJwk (crypto : Crypto Key) (pubJwk : Json) : String :=
  let text := String.ofList (canonicalize crypto.numerals (ofJson pubJwk))
  String.ofList ((sha256Hex crypto text).take 16)

def isHexDigit (c : Char) : Bool :=
  ('0' ≤ c && c ≤ '9') || ('a' ≤ c && c ≤ 'f') || ('A' ≤ c && c ≤ 'F')

def normalizeFingerprint (fp : String) : Except String String :=
  let hex := (fp.toList.filter isHexDigit).map foldCase
  if hex.length ≠ 64 then .error s!"fingerprint is not SHA-256 ({hex.length} hex chars)"
  else .ok (String.ofList hex)

def verifyObject (crypto : Crypto Key) (signed : List (String × Json)) (pub : Key) : Bool :=
  (SignedObject.ofJson signed).verifyObject crypto.numerals crypto.signing pub

theorem length_sha256Hex (crypto : Crypto Key) (data : String) :
    (sha256Hex crypto data).length = 64 := by
  rw [sha256Hex, List.length_flatMap]
  simp [hexByte]

/-! ## Tables -/

structure JoinCode where
  expiresAt : ℕ
  usedBy : Option String := none

structure Identity where
  pubJwk : Json
  certFp : String
  hostname : String
  os : String
  arch : String
  enrolledAt : ℕ
  caps : Json

/-- A body that has the fields of an `EnrollRequest`, with the fingerprint normalized. -/
structure EnrollRequest where
  body : List (String × Json)
  code : String
  nodeId : String
  pubJwk : Json
  certFp : String
  hostname : String
  caps : List (String × Json)

inductive EnrollOutcome
  | ok (nodeId : String)
  | failed (status : ℕ) (error : String)
deriving DecidableEq

inductive Stage (Key : Type)
  | importing
  | derivingId (pub : Key)
  | verifying (pub : Key)
  | answered (outcome : EnrollOutcome)

structure Request (Key : Type) where
  req : EnrollRequest
  allowLanAutoEnroll : Bool
  stage : Stage Key

structure State (Key : Type) where
  now : ℕ := 0
  codes : JsMap String JoinCode := .empty
  nodes : JsMap String Identity := .empty
  requests : List (Request Key) := []
  admitted : List (String × String) := []

namespace State

/-- `(x % 36).toString(36)`, in upper case. -/
def codeChar (x : UInt8) : Char :=
  let n := x.toNat % 36
  if n < 10 then Char.ofNat ('0'.toNat + n) else Char.ofNat ('A'.toNat + (n - 10))

/-- `createJoinCode`; an insertion that conflicts throws. -/
def createJoinCode (s : State Key) (random : Vector UInt8 6) (ttlMs : ℕ) : Option (State Key) :=
  let code := String.ofList (random.toList.map codeChar)
  if (s.codes.get code).isSome then none
  else some { s with codes := s.codes.set code { expiresAt := s.now + ttlMs } }

/-- `consumeJoinCode`, and the reason it gives when the code is refused. -/
def consumeJoinCode (toUpperCase : String → String) (s : State Key) (code nodeId : String) :
    State Key × Option String :=
  match s.codes.get (toUpperCase code) with
  | none => (s, some "unknown join code")
  | some row =>
    if row.usedBy.any (fun used ↦ used ≠ "" && used ≠ nodeId) then
      (s, some "join code already used")
    else if row.expiresAt < s.now then (s, some "join code expired")
    else ({ s with codes := s.codes.set (toUpperCase code) { row with usedBy := some nodeId } },
      none)

def textOr (members : List (String × Json)) (key fallback : String) : String :=
  match get members key with
  | some (.str s) => s
  | _ => fallback

/-- The columns that a request writes; a row that is there keeps the time of its enrollment. -/
def identity (s : State Key) (req : EnrollRequest) : Identity where
  pubJwk := req.pubJwk
  certFp := req.certFp
  hostname := req.hostname
  os := textOr req.caps "os" "linux"
  arch := textOr req.caps "arch" "x64"
  enrolledAt := ((s.nodes.get req.nodeId).map (·.enrolledAt)).getD s.now
  caps := .obj req.caps

def upsertNode (s : State Key) (req : EnrollRequest) : State Key :=
  { s with nodes := s.nodes.set req.nodeId (s.identity req) }

def conclude (toUpperCase : String → String) (s : State Key) (r : Request Key) :
    State Key × EnrollOutcome :=
  let req := r.req
  let existing := s.nodes.get req.nodeId
  if r.allowLanAutoEnroll && req.code = "" then (s.upsertNode req, .ok req.nodeId)
  else match s.consumeJoinCode toUpperCase req.code req.nodeId with
    | (s, some refused) =>
      if existing.any (·.certFp = req.certFp) then (s.upsertNode req, .ok req.nodeId)
      else (s, .failed 403 refused)
    | (s, none) =>
      let s := { s with admitted := s.admitted ++ [(toUpperCase req.code, req.nodeId)] }
      (s.upsertNode req, .ok req.nodeId)

end State

def parseBody : Json → Except (ℕ × String) EnrollRequest
  | .obj body =>
    match get body "code", get body "nodeId", get body "pubJwk", get body "certFp",
      get body "hostname", get body "caps" with
    | some (.str code), some (.str nodeId), some pubJwk, some (.str certFp), some (.str hostname),
      some (.obj caps) =>
      if truthy (some pubJwk) && capabilitiesShape (some (.obj caps)) then
        match normalizeFingerprint certFp with
        | .error e => .error (400, e)
        | .ok certFp => .ok { body, code, nodeId, pubJwk, certFp, hostname, caps }
      else .error (400, "needs code, nodeId, pubJwk, certFp, hostname, caps")
    | _, _, _, _, _, _ => .error (400, "needs code, nodeId, pubJwk, certFp, hostname, caps")
  | .arr _ => .error (400, "needs code, nodeId, pubJwk, certFp, hostname, caps")
  | _ => .error (400, "body must be an object")

/-! ## The machine -/

inductive Event
  | clock (now : ℕ)
  | createJoinCode (random : Vector UInt8 6) (ttlMs : ℕ)
  | receive (body : Json) (allowLanAutoEnroll : Bool)
  | settles (i : ℕ)

section

variable (crypto : Crypto Key) (toUpperCase : String → String)

def proceed (s : State Key) (r : Request Key) : State Key × Stage Key :=
  match r.stage with
  | .importing =>
    match crypto.importPublicJwk r.req.pubJwk with
    | none => (s, .answered (.failed 400 "pubJwk is not an Ed25519 public JWK"))
    | some pub => (s, .derivingId pub)
  | .derivingId pub =>
    if nodeIdFromJwk crypto r.req.pubJwk ≠ r.req.nodeId then
      (s, .answered (.failed 400 "nodeId does not match pubJwk"))
    else (s, .verifying pub)
  | .verifying pub =>
    if verifyObject crypto r.req.body pub = false then
      (s, .answered (.failed 401 "bad signature"))
    else
      let (s, outcome) := s.conclude toUpperCase r
      (s, .answered outcome)
  | .answered outcome => (s, .answered outcome)

/-- A body that is refused at once is answered and changes nothing. -/
def step (s : State Key) : Event → Option (State Key)
  | .clock now => some { s with now }
  | .createJoinCode random ttlMs => s.createJoinCode random ttlMs
  | .receive body allowLanAutoEnroll =>
    match parseBody body with
    | .error _ => some s
    | .ok req =>
      some { s with requests := s.requests ++ [{ req, allowLanAutoEnroll, stage := .importing }] }
  | .settles i =>
    s.requests[i]?.map fun r ↦
      let next := proceed crypto toUpperCase s r
      { next.1 with requests := next.1.requests.set i { r with stage := next.2 } }

end

/-! ## How a request is admitted -/

section

variable {crypto : Crypto Key} {toUpperCase : String → String} {s s' : State Key}

section

variable (toUpperCase : String → String) (s : State Key) (crypto : Crypto Key) (r : Request Key)

/-- The code lets the node in: it exists, has not expired, and no other node has consumed it. -/
def State.LetsIn (req : EnrollRequest) (row : JoinCode) : Prop :=
  s.codes.get (toUpperCase req.code) = some row ∧ s.now ≤ row.expiresAt ∧
    ∀ used, row.usedBy = some used → used ≠ "" → used = req.nodeId

inductive Admission (toUpperCase : String → String) (s : State Key) (r : Request Key) :
    State Key → Prop
  | refused : Admission toUpperCase s r s
  | lan (hallowed : r.allowLanAutoEnroll = true) (hcode : r.req.code = "") :
      Admission toUpperCase s r (s.upsertNode r.req)
  | known (hknown : (s.nodes.get r.req.nodeId).isSome) :
      Admission toUpperCase s r (s.upsertNode r.req)
  | code {row : JoinCode} (hrow : s.LetsIn toUpperCase r.req row) :
      Admission toUpperCase s r (State.upsertNode { s with
        codes := s.codes.set (toUpperCase r.req.code) { row with usedBy := some r.req.nodeId }
        admitted := s.admitted ++ [(toUpperCase r.req.code, r.req.nodeId)] } r.req)

theorem conclude_admission : Admission toUpperCase s r (s.conclude toUpperCase r).1 := by
  have hrefused : ∀ refused : String, Admission toUpperCase s r
      (if (s.nodes.get r.req.nodeId).any (·.certFp = r.req.certFp) then
        (s.upsertNode r.req, EnrollOutcome.ok r.req.nodeId) else (s, .failed 403 refused)).1 := by
    intro refused
    split_ifs with hknown
    · exact .known (Option.isSome_of_any hknown)
    · exact .refused
  unfold State.conclude State.consumeJoinCode
  by_cases hlan : (r.allowLanAutoEnroll && r.req.code = "") = true
  · rw [if_pos hlan]
    rw [Bool.and_eq_true, decide_eq_true_eq] at hlan
    exact .lan hlan.1 hlan.2
  rw [if_neg hlan]
  cases hrow : s.codes.get (toUpperCase r.req.code) with
  | none => exact hrefused _
  | some row =>
    dsimp only
    by_cases hused : row.usedBy.any (fun used ↦ used ≠ "" && used ≠ r.req.nodeId) = true
    · rw [if_pos hused]
      exact hrefused _
    rw [if_neg hused]
    by_cases hexpired : row.expiresAt < s.now
    · rw [if_pos hexpired]
      exact hrefused _
    rw [if_neg hexpired]
    refine .code ⟨hrow, not_lt.mp hexpired, fun used hsome hne ↦ ?_⟩
    by_contra hother
    exact hused (by simp [hsome, hne, hother])

/-! ## What holds in every state -/

def Request.Passed : Prop :=
  parseBody (.obj r.req.body) = .ok r.req ∧ match r.stage with
    | .importing | .answered _ => True
    | .derivingId pub => crypto.importPublicJwk r.req.pubJwk = some pub
    | .verifying pub => crypto.importPublicJwk r.req.pubJwk = some pub ∧
        nodeIdFromJwk crypto r.req.pubJwk = r.req.nodeId

/-- The body is signed with the key it presents, and names the id of that key. -/
structure EnrollRequest.Proves (req : EnrollRequest) : Prop where
  fields : parseBody (.obj req.body) = .ok req
  id : nodeIdFromJwk crypto req.pubJwk = req.nodeId
  signed : ∃ pub, crypto.importPublicJwk req.pubJwk = some pub ∧ verifyObject crypto req.body
    pub = true

structure State.Sound (crypto : Crypto Key) (s : State Key) : Prop where
  passed : ∀ r ∈ s.requests, r.Passed crypto
  rows : ∀ id row, s.nodes.get id = some row → nodeIdFromJwk crypto row.pubJwk = id
  used : ∀ code row, s.codes.get code = some row → row.usedBy ≠ some ""
  admitted : ∀ code id, (code, id) ∈ s.admitted →
    ∃ row, s.codes.get code = some row ∧ row.usedBy = some id

theorem new_sound : State.Sound crypto {} where
  passed _ hr := nomatch hr
  rows _ _ hrow := nomatch hrow
  used _ _ hrow := nomatch hrow
  admitted _ _ hmem := nomatch hmem

end

theorem State.Sound.upsertNode (hs : s.Sound crypto) {req : EnrollRequest}
    (hproves : req.Proves crypto) : (s.upsertNode req).Sound crypto where
  passed := hs.passed
  rows id row hrow := by
    obtain ⟨rfl, rfl⟩ | ⟨-, hrow⟩ := JsMap.get_of_set hrow
    · exact hproves.id
    · exact hs.rows id row hrow
  used := hs.used
  admitted := hs.admitted

theorem State.Sound.consume (hs : s.Sound crypto) {req : EnrollRequest} {row : JoinCode}
    (hrow : s.LetsIn toUpperCase req row) (hid : req.nodeId ≠ "") : State.Sound crypto { s with
      codes := s.codes.set (toUpperCase req.code) { row with usedBy := some req.nodeId }
      admitted := s.admitted ++ [(toUpperCase req.code, req.nodeId)] } where
  passed := hs.passed
  rows := hs.rows
  used code row' hrow' := by
    obtain ⟨rfl, rfl⟩ | ⟨-, hrow'⟩ := JsMap.get_of_set hrow'
    · simpa using hid
    · exact hs.used code row' hrow'
  admitted code id hmem := by
    by_cases hsame : code = toUpperCase req.code
    · subst hsame
      refine ⟨_, JsMap.get_set_self .., ?_⟩
      rcases List.mem_append.mp hmem with hold | hnew
      · -- Who was let in before has consumed the code, so it is the same node.
        obtain ⟨row', hrow', hused⟩ := hs.admitted _ _ hold
        obtain rfl := Option.mem_unique hrow.1 hrow'
        have hne : id ≠ "" := by
          rintro rfl
          exact hs.used _ _ hrow' hused
        rw [hrow.2.2 id hused hne]
      · cases List.mem_singleton.mp hnew
        rfl
    · rw [JsMap.get_set_of_ne _ hsame]
      refine hs.admitted code id ?_
      rcases List.mem_append.mp hmem with hold | hnew
      · exact hold
      · exact absurd (congrArg Prod.fst (List.mem_singleton.mp hnew)) hsame

theorem Admission.sound {r : Request Key} (ha : Admission toUpperCase s r s') (hs : s.Sound crypto)
    (hproves : r.req.Proves crypto) : s'.Sound crypto := by
  cases ha with
  | refused => exact hs
  | lan | known => exact hs.upsertNode hproves
  | code hrow =>
    have hne : r.req.nodeId ≠ "" := by
      intro hempty
      have hlength : (nodeIdFromJwk crypto r.req.pubJwk).length = 16 := by
        rw [nodeIdFromJwk, String.length_ofList, List.length_take, length_sha256Hex]
        rfl
      rw [hproves.id, hempty] at hlength
      cases hlength
    exact (hs.consume hrow hne).upsertNode hproves

theorem Admission.writes {r : Request Key} (ha : Admission toUpperCase s r s') (hs : s.Sound crypto)
    {id : String} {row : Identity} (hrow : s'.nodes.get id = some row)
    (hchanged : s.nodes.get id ≠ some row) :
    r.req.nodeId = id ∧ row = s.identity r.req ∧ (s.nodes.get id = none →
      r.allowLanAutoEnroll = true ∧ r.req.code = "" ∨
        ∃ code, s.LetsIn toUpperCase r.req code ∧ code.usedBy ≠ some "") := by
  have hset : ∀ {s₁ : State Key}, s₁.nodes = s.nodes →
      (s₁.nodes.set r.req.nodeId (s.identity r.req)).get id = some row →
      r.req.nodeId = id ∧ row = s.identity r.req := by
    intro s₁ hnodes hget
    obtain ⟨rfl, rfl⟩ | ⟨-, hget⟩ := JsMap.get_of_set hget
    · exact ⟨rfl, rfl⟩
    · exact absurd (hnodes ▸ hget) hchanged
  cases ha with
  | refused => exact absurd hrow hchanged
  | lan hallowed hcode =>
    obtain ⟨hid, hwritten⟩ := hset rfl hrow
    exact ⟨hid, hwritten, fun _ ↦ .inl ⟨hallowed, hcode⟩⟩
  | known hknown =>
    obtain ⟨rfl, hwritten⟩ := hset rfl hrow
    refine ⟨rfl, hwritten, fun hnone ↦ ?_⟩
    rw [hnone] at hknown
    cases hknown
  | code hcode =>
    obtain ⟨hid, hwritten⟩ := hset rfl hrow
    exact ⟨hid, hwritten, fun _ ↦ .inr ⟨_, hcode, hs.used _ _ hcode.1⟩⟩

/-- What one request does when it goes on: it is admitted only after all its checks. -/
theorem proceed_cases (toUpperCase : String → String) (s : State Key) (r : Request Key)
    (hpassed : r.Passed crypto) :
    ((proceed crypto toUpperCase s r).1 = s ∨ r.req.Proves crypto ∧
      Admission toUpperCase s r (proceed crypto toUpperCase s r).1) ∧
    Request.Passed crypto { r with stage := (proceed crypto toUpperCase s r).2 } := by
  unfold proceed
  obtain ⟨hfields, hpassed⟩ := hpassed
  cases hstage : r.stage with
  | importing =>
    cases hkey : crypto.importPublicJwk r.req.pubJwk with
    | none => exact ⟨.inl rfl, hfields, trivial⟩
    | some => exact ⟨.inl rfl, hfields, hkey⟩
  | derivingId =>
    rw [hstage] at hpassed
    split_ifs with hid
    · exact ⟨.inl rfl, hfields, trivial⟩
    · exact ⟨.inl rfl, hfields, hpassed, not_not.mp hid⟩
  | verifying pub =>
    rw [hstage] at hpassed
    dsimp only at hpassed ⊢
    split_ifs with hverified
    · exact ⟨.inl rfl, hfields, trivial⟩
    · have hproves : r.req.Proves crypto :=
        ⟨hfields, hpassed.2, pub, hpassed.1, by simpa using hverified⟩
      exact ⟨.inr ⟨hproves, conclude_admission toUpperCase s r⟩, hfields, trivial⟩
  | answered => exact ⟨.inl rfl, hfields, trivial⟩

theorem parseBody_ok {body : Json} {req : EnrollRequest} (h : parseBody body = .ok req) :
    body = .obj req.body := by
  unfold parseBody at h
  split at h
  · split at h
    · split_ifs at h
      split at h
      · cases h
      · cases h
        rfl
    · cases h
  · cases h
  · cases h

theorem step_sound {e : Event} (hs : s.Sound crypto) (h : step crypto toUpperCase s e = some s') :
    s'.Sound crypto := by
  cases e with
  | clock =>
    cases h
    exact ⟨hs.passed, hs.rows, hs.used, hs.admitted⟩
  | createJoinCode random ttlMs =>
    simp only [step, State.createJoinCode] at h
    split_ifs at h with hnew
    cases h
    refine ⟨hs.passed, hs.rows, fun code row hrow ↦ ?_, fun code id hmem ↦ ?_⟩
    · obtain ⟨-, rfl⟩ | ⟨-, hrow⟩ := JsMap.get_of_set hrow
      · simp
      · exact hs.used code row hrow
    · obtain ⟨row, hrow, hused⟩ := hs.admitted code id hmem
      exact ⟨row, JsMap.get_set_of_get (by simpa using hnew) hrow, hused⟩
  | receive =>
    simp only [step] at h
    split at h
    · cases h
      exact hs
    · cases h
      refine ⟨fun r hr ↦ ?_, hs.rows, hs.used, hs.admitted⟩
      rcases List.mem_append.mp hr with hold | hnew
      · exact hs.passed r hold
      · rename_i hparsed
        rw [List.mem_singleton.mp hnew]
        exact ⟨parseBody_ok hparsed ▸ hparsed, trivial⟩
  | settles i =>
    obtain ⟨r, hr, rfl⟩ := Option.map_eq_some_iff.mp h
    obtain ⟨hstate, hpassed⟩ :=
      proceed_cases toUpperCase s r (hs.passed r (List.mem_of_getElem? hr))
    have hs' : (proceed crypto toUpperCase s r).1.Sound crypto := by
      rcases hstate with hsame | ⟨hproves, hadmission⟩
      · rw [hsame]
        exact hs
      · exact hadmission.sound hs hproves
    refine ⟨fun x hx ↦ ?_, hs'.rows, hs'.used, hs'.admitted⟩
    rcases List.mem_or_eq_of_mem_set hx with hold | rfl
    · exact hs'.passed x hold
    · exact hpassed

/-- The step that changes a row **settles a request that proves its identity**, and writes what that
request says. -/
theorem step_writes {e : Event} (hs : s.Sound crypto) (h : step crypto toUpperCase s e = some s')
    {id : String} {row : Identity} (hrow : s'.nodes.get id = some row)
    (hchanged : s.nodes.get id ≠ some row) :
    ∃ i r, e = .settles i ∧ s.requests[i]? = some r ∧ r.req.Proves crypto ∧
      r.req.nodeId = id ∧ row = s.identity r.req ∧ (s.nodes.get id = none →
        r.allowLanAutoEnroll = true ∧ r.req.code = "" ∨
          ∃ code, s.LetsIn toUpperCase r.req code ∧ code.usedBy ≠ some "") := by
  have hsame : s'.nodes = s.nodes → False := fun heq ↦ hchanged (heq ▸ hrow)
  cases e with
  | clock =>
    cases h
    exact (hsame rfl).elim
  | createJoinCode =>
    simp only [step, State.createJoinCode] at h
    split_ifs at h
    cases h
    exact (hsame rfl).elim
  | receive =>
    simp only [step] at h
    split at h <;> cases h <;> exact (hsame rfl).elim
  | settles i =>
    obtain ⟨r, hr, rfl⟩ := Option.map_eq_some_iff.mp h
    have hpassed := hs.passed r (List.mem_of_getElem? hr)
    rcases (proceed_cases toUpperCase s r hpassed).1 with heq | ⟨hproves, hadmission⟩
    · have hnodes : (proceed crypto toUpperCase s r).1.nodes = s.nodes := congrArg State.nodes heq
      exact (hsame hnodes).elim
    · exact ⟨i, r, rfl, hr, hproves, hadmission.writes hs hrow hchanged⟩

/-- **Enrollment is sound**, however requests interleave. Every stored node has the id of its stored
key. A row is written only by a request that is signed with that key, and has the fields of its
signed body; one for an id that was not known only through a code that lets it in, or through
permitted LAN auto-enrollment. And no code lets two ids in. -/
theorem enrollment_sound (Signed : Key → List (String × Json) → Prop)
    (hforge : ∀ pub body, verifyObject crypto body pub = true → Signed pub body) {es : List Event}
    (hrun : run (step crypto toUpperCase) {} es = some s) :
    (∀ id row, s.nodes.get id = some row → nodeIdFromJwk crypto row.pubJwk = id) ∧
    (∀ e s' id row, step crypto toUpperCase s e = some s' → s'.nodes.get id = some row →
      s.nodes.get id ≠ some row → ∃ i r pub, e = .settles i ∧ s.requests[i]? = some r ∧
        crypto.importPublicJwk row.pubJwk = some pub ∧ Signed pub r.req.body ∧
        parseBody (.obj r.req.body) = .ok r.req ∧ r.req.nodeId = id ∧ row = s.identity r.req ∧
        (s.nodes.get id = none → r.allowLanAutoEnroll = true ∧ r.req.code = "" ∨
          ∃ code, s.codes.get (toUpperCase r.req.code) = some code ∧ s.now ≤ code.expiresAt ∧
            ∀ used, code.usedBy = some used → used = id)) ∧
    ∀ code id id', (code, id) ∈ s.admitted → (code, id') ∈ s.admitted → id = id' := by
  have hs : s.Sound crypto := run_invariant hrun (new_sound crypto) fun _ _ _ hs h ↦ step_sound hs h
  refine ⟨hs.rows, fun e s' id row h hrow hchanged ↦ ?_, fun code id id' hid hid' ↦ ?_⟩
  · obtain ⟨i, r, he, hr, hproves, rfl, rfl, hway⟩ := step_writes hs h hrow hchanged
    obtain ⟨pub, hpub, hverified⟩ := hproves.signed
    refine ⟨i, r, pub, he, hr, hpub, hforge pub _ hverified, hproves.fields, rfl, rfl,
      fun hunknown ↦ (hway hunknown).imp_right ?_⟩
    rintro ⟨code, ⟨hcode, hnow, hother⟩, hempty⟩
    refine ⟨code, hcode, hnow, fun used hused ↦ hother used hused ?_⟩
    rintro rfl
    exact hempty hused
  · obtain ⟨row, hrow, hused⟩ := hs.admitted code id hid
    obtain ⟨row', hrow', hused'⟩ := hs.admitted code id' hid'
    obtain rfl := Option.mem_unique hrow hrow'
    exact Option.mem_unique hused hused'

end

/-! ## A node enrolls -/

/-- A runtime whose digests are zero and that accepts every signature under every key. -/
def plainCrypto : Crypto Unit where
  numerals := zeros 0
  digest _ := Vector.replicate 32 0
  importPublicJwk _ := some ()
  signing :=
    { sign := nofun
      verify _ _ _ := some true
      toBase64 _ := []
      fromBase64 _ := some .empty }

def plainCaps : Json :=
  .obj [("os", .str "linux"), ("arch", .str "x64"), ("hostname", .str "n"), ("ramMiB", .num 1),
    ("ramReserveMiB", .num 0), ("cpuCores", .num 1), ("diskFreeMiB", .num 1),
    ("privateIps", .arr []), ("measuredAt", .str ""), ("gpus", .arr [])]

/-- The code that six zero bytes make, and the id of a digest of zeros. -/
def plainBody : Json :=
  .obj [("code", .str "000000"), ("nodeId", .str "0000000000000000"), ("pubJwk", .bool true),
    ("certFp", .str (String.ofList (List.replicate 64 'a'))), ("hostname", .str "n"),
    ("caps", plainCaps), ("signature", .str "")]

/-- A code is created, and two requests of a node stand before the end of their last await. -/
def enrolls : List Event :=
  [.createJoinCode (Vector.replicate 6 0) 600000, .receive plainBody false,
    .receive plainBody false, .settles 0, .settles 1, .settles 0, .settles 1]

/-- The first of them to settle writes the row, with a code that was free. -/
theorem enrollment_sound_enrolls : ∃ s s' : State Unit,
    run (step plainCrypto id) {} enrolls = some s ∧ step plainCrypto id s (.settles 1) = some s' ∧
    s.nodes.get "0000000000000000" = none ∧
    ∃ row r, s'.nodes.get "0000000000000000" = some row ∧ s.requests[1]? = some r ∧
      row = s.identity r.req ∧ ∃ code, s.codes.get r.req.code = some code ∧
        ∀ used, code.usedBy = some used → used = "0000000000000000" := by
  obtain ⟨s, hrun, hunknown, hstep⟩ := exists_run (step plainCrypto id) {} enrolls
    (fun s ↦ (s.nodes.get "0000000000000000").isNone = true ∧
      (∃ s' ∈ step plainCrypto id s (.settles 1), (s'.nodes.get "0000000000000000").isSome = true) ∧
      s.requests[1]?.any (·.allowLanAutoEnroll) = false) (by decide +kernel)
  obtain ⟨⟨s', hs', hstored⟩, hlan⟩ := hstep
  obtain ⟨row, hrow⟩ := Option.isSome_iff_exists.mp hstored
  rw [Option.isNone_iff_eq_none] at hunknown
  obtain ⟨i, r, -, he, hr, -, -, -, -, hwritten, hway⟩ :=
    (enrollment_sound (fun _ _ ↦ True) (fun _ _ _ ↦ trivial) hrun).2.1 _ s' _ row hs' hrow
      (by simp [hunknown])
  cases he
  rcases hway hunknown with ⟨hallowed, -⟩ | ⟨code, hcode, -, hused⟩
  · simp [hr, hallowed] at hlan
  · exact ⟨s, s', hrun, hs', hunknown, row, r, hrow, hr, hwritten, code, hcode, hused⟩

end Swarmlet.Enroll
