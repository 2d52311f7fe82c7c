import Mathlib.Data.List.Flatten
import Swarmlet.Lib.Json
import Swarmlet.Protocol.Types

/-!
# What a peer reaches on a node

A node runs engines for several assignments, and each assignment lists the certificates that may
connect for it. A peer comes in on one of two ways. The data listener of the agent takes TLS
connections: it asks whether some assignment lists the certificate and whether some assignment owns
the port. The relay of the control plane asks both questions of one row.

So the relay carries bytes only where one assignment says both, and the listener does so exactly
when the assignments agree (`Joint`): who is listed for one of them may reach the ports of all of
them.

## The connection

`receive` is the handler of one chunk. Until the header line is complete it collects text; the line
decides, and from then on what the peer sends goes to the engine.
-/

namespace Swarmlet.Agent

open Js Json

/-! ## Assignments as the policies read them -/

inductive LiveAssignment
  | worker (port : ℕ) (peerPort : Option ℕ) (allow : List String)
  /-- The fingerprint and the port of each rpc endpoint, and whether there is a dialer. -/
  | coordinator (port : ℕ) (rpc : List (String × ℕ)) (dialer : Bool) (allow : List String)
  | replica (port : ℕ) (allow : List String)
  /-- A replica that watches an external server: control writes the port of its URL into `port`. -/
  | external (port : ℕ) (allow : List String)
  | stage (port : ℕ) (allow : List String)
deriving DecidableEq

namespace LiveAssignment

def port : LiveAssignment → ℕ
  | worker port _ _ => port
  | coordinator port _ _ _ => port
  | replica port _ => port
  | external port _ => port
  | stage port _ => port

def peerPort : LiveAssignment → Option ℕ
  | worker _ peerPort _ => peerPort
  | _ => none

def allow : LiveAssignment → List String
  | worker _ _ allow => allow
  | coordinator _ _ _ allow => allow
  | replica _ allow => allow
  | external _ allow => allow
  | stage _ allow => allow

def Owns (a : LiveAssignment) (port : ℕ) : Prop := a.port = port ∨ a.peerPort = some port

instance (a : LiveAssignment) (port : ℕ) : Decidable (a.Owns port) :=
  inferInstanceAs (Decidable (_ ∨ _))

end LiveAssignment

section

variable (live : List LiveAssignment) (fp : String)

/-- One assignment owns the port and lists the certificate. -/
def Authorised (port : ℕ) : Prop :=
  ∃ a ∈ live, a.Owns port ∧ fp ∈ a.allow

instance (live : List LiveAssignment) (fp : String) (port : ℕ) :
    Decidable (Authorised live fp port) := inferInstanceAs (Decidable (∃ a ∈ live, _))

def allowedPorts : List ℕ :=
  live.flatMap fun a ↦ a.port :: (a.peerPort.filter (· ≠ 0)).toList

def allowedServePorts : List ℕ :=
  live.flatMap fun
    | .coordinator _ rpc _ _ => rpc.map (·.2)
    | _ => []

/-- Whether a coordinator waits for the port of this peer; its dialer takes the stream. -/
def acceptServed (port : ℕ) : Bool :=
  live.any fun
    | .coordinator _ rpc dialer _ => dialer && (fp, port) ∈ rpc
    | _ => false

def allowedFingerprints : List String := live.flatMap (·.allow)

end

/-! ## The data listener -/

structure ListenerHost where
  parse : List Char → Except String Json
  number : Option Json → Option ℚ
  header : ∀ port : ℕ, ∃ line v, '\n' ∉ line ∧ parse line = .ok (.obj [("port", v)]) ∧
    number (some v) = some (port : ℚ)

section

variable (host : ListenerHost) (live : List LiveAssignment) (fp : String)

inductive Socket
  | reading (head : List Char)
  | piping (port : ℕ)
  | served
  | destroyed

def isNull : Json → Bool
  | .null => true
  | _ => false

def field (header : Json) (key : String) : Option Json :=
  match header with
  | .obj members => get members key
  | _ => none

def portIn (ports : List ℕ) (x : Option ℚ) : Option ℕ := ports.find? fun port ↦ x = some (port : ℚ)

/-- The header of a line; a bad one is an empty object. -/
def headerOf (line : List Char) : Json :=
  match host.parse line with
  | .ok header => header
  | .error _ => .obj []

def serve (v : Option Json) : Socket :=
  match portIn (allowedServePorts live) (host.number v) with
  | none => .destroyed
  | some port => if acceptServed live fp port then .served else .destroyed

def forward (v : Option Json) (rest : List Char) : Socket × Option (ℕ × List Char) :=
  if fp ∉ allowedFingerprints live then (.destroyed, none)
  else match portIn (allowedPorts live) (host.number v) with
    | none => (.destroyed, none)
    | some port => (.piping port, if rest = [] then none else some (port, rest))

def decideHeader (header : Json) (rest : List Char) : Socket × Option (ℕ × List Char) :=
  -- Reading a member of `null` throws; the handler stays, with an empty head.
  if isNull header then (.reading [], none)
  else if (field header "serve").isSome then (serve host live fp (field header "serve"), none)
  else forward host live fp (field header "port") rest

/-- The handler of a chunk: the next state, and what is written to a local port. -/
def receive (s : Socket) (chunk : List Char) : Socket × Option (ℕ × List Char) :=
  match s with
  | .piping port => (.piping port, some (port, chunk))
  | .reading head =>
    let head := head ++ chunk
    if '\n' ∈ head then
      decideHeader host live fp (headerOf host (head.takeWhile (· ≠ '\n')))
        ((head.dropWhile (· ≠ '\n')).drop 1)
    else (if 512 < head.length then .destroyed else .reading head, none)
  | .served => (.served, none)
  | .destroyed => (.destroyed, none)

end

structure Delivery where
  fp : String
  port : ℕ
  bytes : List Char
deriving DecidableEq

def deliveries (host : ListenerHost) (live : List LiveAssignment) (fp : String) :
    Socket → List (List Char) → List Delivery
  | _, [] => []
  | s, chunk :: chunks =>
    let r := receive host live fp s chunk
    (r.2.map fun (port, bytes) ↦ ⟨fp, port, bytes⟩).toList ++ deliveries host live fp r.1 chunks

/-- A connection: the fingerprint of its certificate, if it has one, and what it sends. -/
structure Connection where
  fp : Option String
  chunks : List (List Char)

def listened (host : ListenerHost) (live : List LiveAssignment) (connections : List Connection) :
    List Delivery :=
  connections.flatMap fun c ↦ match c.fp with
    | none => []
    | some fp => deliveries host live fp (.reading []) c.chunks

/-! ## The relay -/

/-- A row of the control plane; `none` is the body of a `stop`. -/
structure RelayRow where
  nodeId : NodeId
  body : Option LiveAssignment
  retired : Bool
  state : AssignmentState

def RelayRow.lives (row : RelayRow) (node : NodeId) : Bool :=
  row.nodeId = node && !row.retired && row.state ≠ .stopped && row.state ≠ .failed

/-- The assignments that live on a node, as the control plane knows them. -/
def liveOn (rows : List RelayRow) (node : NodeId) : List LiveAssignment :=
  rows.filterMap fun row ↦ if row.lives node then row.body else none

structure RelayStream where
  fromNodeId : NodeId
  isRelay : Bool
  sender : NodeId
  target : NodeId
  port : ℕ
  chunks : List (List Char)

structure RelayHost where
  rows : List RelayRow
  certFp : NodeId → Option String
  online : NodeId → Bool

/-- `onAgentStream`: the certificate that the stream is opened for, if it is. -/
def onAgentStream (control : RelayHost) (stream : RelayStream) : Option String :=
  if !stream.isRelay || stream.sender ≠ stream.fromNodeId || !control.online stream.target then none
  else (control.certFp stream.fromNodeId).filter fun fp ↦
    control.rows.any fun row ↦ row.lives stream.target && row.body.any fun a ↦
      (a.port = stream.port || a.peerPort = some stream.port) && fp ∈ a.allow

def relayed (control : RelayHost) (node : NodeId) (live : List LiveAssignment)
    (streams : List RelayStream) : List Delivery :=
  streams.flatMap fun stream ↦
    match onAgentStream control stream with
    | some fp =>
      -- `onIncomingStream` of the target asks for the port once more.
      if stream.target = node ∧ stream.port ∈ allowedPorts live then
        stream.chunks.map fun bytes ↦ ⟨fp, stream.port, bytes⟩
      else []
    | none => []

/-! ## What is delivered -/

variable {host : ListenerHost} {live : List LiveAssignment} {fp : String}

/-- The assignments agree: who is listed for one may reach the ports of all. -/
def Joint (live : List LiveAssignment) : Prop :=
  ∀ fp ∈ allowedFingerprints live, ∀ port ∈ allowedPorts live, Authorised live fp port

/-- A connection that has come to a port has asked for an allowed one with a listed certificate. -/
def Socket.Admitted (live : List LiveAssignment) (fp : String) : Socket → Prop
  | .piping port => fp ∈ allowedFingerprints live ∧ port ∈ allowedPorts live
  | _ => True

theorem portIn_mem {ports : List ℕ} {x : Option ℚ} {port : ℕ} (h : portIn ports x = some port) :
    port ∈ ports := List.mem_of_find?_eq_some h

theorem portIn_cast {ports : List ℕ} {port : ℕ} (h : port ∈ ports) :
    portIn ports (some (port : ℚ)) = some port := by
  cases hfound : portIn ports (some (port : ℚ)) with
  | none => simpa using List.find?_eq_none.mp hfound port h
  | some port' =>
    have heq : some (port : ℚ) = some (port' : ℚ) := by
      simpa only [decide_eq_true_eq] using List.find?_some hfound
    rw [Nat.cast_inj.mp (Option.some.inj heq)]

/-- A write to a port that is allowed, for a certificate that is listed. -/
def Writes (live : List LiveAssignment) (fp : String) (write : Option (ℕ × List Char)) : Prop :=
  ∀ port bytes, write = some (port, bytes) → fp ∈ allowedFingerprints live ∧
    port ∈ allowedPorts live

theorem writes_none : Writes live fp none := nofun

theorem admitted_forward (v : Option Json) (rest : List Char) :
    (forward host live fp v rest).1.Admitted live fp ∧
    Writes live fp (forward host live fp v rest).2 := by
  unfold forward
  by_cases hfp : fp ∈ allowedFingerprints live
  · rw [if_neg (not_not.mpr hfp)]
    cases hport : portIn (allowedPorts live) (host.number v) with
    | none => exact ⟨trivial, writes_none⟩
    | some port =>
      refine ⟨⟨hfp, portIn_mem hport⟩, fun port' bytes heq ↦ ?_⟩
      split_ifs at heq
      cases heq
      exact ⟨hfp, portIn_mem hport⟩
  · rw [if_pos hfp]
    exact ⟨trivial, writes_none⟩

theorem admitted_serve (v : Option Json) : (serve host live fp v).Admitted live fp := by
  unfold serve
  split
  · trivial
  · split_ifs
    · trivial
    · trivial

/-- **One chunk**: a connection that was admitted stays so, and writes only what it may. -/
theorem admitted_receive {s : Socket} (hs : s.Admitted live fp) (chunk : List Char) :
    (receive host live fp s chunk).1.Admitted live fp ∧
      Writes live fp (receive host live fp s chunk).2 := by
  cases s with
  | piping port =>
    refine ⟨hs, fun port' bytes heq ↦ ?_⟩
    cases heq
    exact hs
  | reading head =>
    unfold receive
    dsimp only
    split_ifs
    · unfold decideHeader
      split_ifs
      · exact ⟨trivial, writes_none⟩
      · exact ⟨admitted_serve _, writes_none⟩
      · exact admitted_forward _ _
    · exact ⟨trivial, writes_none⟩
    · exact ⟨trivial, writes_none⟩
  | served | destroyed => exact ⟨trivial, writes_none⟩

theorem admitted_deliveries {s : Socket} (hs : s.Admitted live fp) (chunks : List (List Char)) :
    ∀ d ∈ deliveries host live fp s chunks, d.fp = fp ∧
      fp ∈ allowedFingerprints live ∧ d.port ∈ allowedPorts live := by
  induction chunks generalizing s with
  | nil => exact fun d hd ↦ (List.not_mem_nil hd).elim
  | cons chunk chunks ih =>
    obtain ⟨hnext, hwrite⟩ := admitted_receive hs chunk
    intro d hd
    rcases List.mem_append.mp hd with hd | hd
    · obtain ⟨⟨port, bytes⟩, hsome, rfl⟩ := Option.map_eq_some_iff.mp (Option.mem_toList.mp hd)
      exact ⟨rfl, hwrite port bytes hsome⟩
    · exact ih hnext d hd

theorem admitted_listened {connections : List Connection} {d : Delivery}
    (hd : d ∈ listened host live connections) :
    d.fp ∈ allowedFingerprints live ∧ d.port ∈ allowedPorts live := by
  obtain ⟨c, -, hd⟩ := List.mem_flatMap.mp hd
  cases hfp : c.fp with
  | none =>
    rw [hfp] at hd
    exact (List.not_mem_nil hd).elim
  | some fp =>
    rw [hfp] at hd
    have hstart : (Socket.reading []).Admitted live fp := trivial
    obtain ⟨rfl, hadmitted⟩ := admitted_deliveries hstart c.chunks d hd
    exact hadmitted

theorem exists_delivery {port : ℕ} (hfp : fp ∈ allowedFingerprints live)
    (hport : port ∈ allowedPorts live) :
    ∃ connection, ∃ d ∈ listened host live [connection], d.fp = fp ∧ d.port = port := by
  obtain ⟨line, v, hline, hparse, hnumber⟩ := host.header port
  refine ⟨⟨some fp, [line ++ ['\n', 'x']]⟩, ⟨fp, port, ['x']⟩, ?_, rfl, rfl⟩
  have hforward : decideHeader host live fp (headerOf host line) ['x'] =
      (.piping port, some (port, ['x'])) := by
    rw [headerOf, hparse]
    show forward host live fp (some v) ['x'] = _
    rw [forward, if_neg (not_not.mpr hfp), hnumber, portIn_cast hport]
    rfl
  have hall : ∀ c ∈ line, decide (c ≠ '\n') = true :=
    fun c hc ↦ decide_eq_true fun heq ↦ hline (heq ▸ hc)
  have hreceive : receive host live fp (.reading []) (line ++ ['\n', 'x']) =
      (.piping port, some (port, ['x'])) := by
    rw [receive, List.nil_append, if_pos (by simp), List.takeWhile_append_of_pos hall,
      List.dropWhile_append_of_pos hall]
    simpa using hforward
  simp [listened, deliveries, hreceive]

/-! ## Who reaches what -/

theorem authorised_relayed {control : RelayHost} {node : NodeId} {streams : List RelayStream}
    {d : Delivery} (hd : d ∈ relayed control node live streams) :
    Authorised (liveOn control.rows node) d.fp d.port := by
  obtain ⟨stream, -, hd⟩ := List.mem_flatMap.mp hd
  cases hopen : onAgentStream control stream with
  | none =>
    rw [hopen] at hd
    exact (List.not_mem_nil hd).elim
  | some fp =>
    rw [hopen] at hd
    split_ifs at hd with htarget
    · obtain ⟨bytes, -, rfl⟩ := List.mem_map.mp hd
      unfold onAgentStream at hopen
      split_ifs at hopen
      obtain ⟨-, hrow⟩ := Option.filter_eq_some_iff.mp hopen
      obtain ⟨row, hrow, hlives⟩ := List.any_eq_true.mp hrow
      obtain ⟨hlives, hbody⟩ := Bool.and_eq_true_iff.mp hlives
      cases hsome : row.body with
      | none => simp [hsome] at hbody
      | some a =>
        rw [hsome] at hbody
        obtain ⟨howns, hlisted⟩ := Bool.and_eq_true_iff.mp hbody
        refine ⟨a, List.mem_filterMap.mpr ⟨row, hrow, ?_⟩, ?_, of_decide_eq_true hlisted⟩
        · rw [if_pos (htarget.1 ▸ hlives), hsome]
        · exact (Bool.or_eq_true_iff.mp howns).imp of_decide_eq_true of_decide_eq_true
    · exact (List.not_mem_nil hd).elim

/-- **A peer reaches a port only through the assignment that names it exactly when the assignments
of the node agree.** The relay never carries anything else. -/
theorem peers_reach_named_ports_iff (host : ListenerHost) (live : List LiveAssignment)
    (control : RelayHost) (node : NodeId) :
    ((∀ connections, ∀ d ∈ listened host live connections, Authorised live d.fp d.port) ∧
      ∀ streams, ∀ d ∈ relayed control node live streams,
        Authorised (liveOn control.rows node) d.fp d.port) ↔ Joint live := by
  constructor
  · rintro ⟨hlistened, -⟩ fp hfp port hport
    obtain ⟨connection, d, hd, rfl, rfl⟩ := exists_delivery hfp hport
    exact hlistened [connection] d hd
  · intro hjoint
    refine ⟨fun connections d hd ↦ ?_, fun streams d hd ↦ authorised_relayed hd⟩
    obtain ⟨hfp, hport⟩ := admitted_listened hd
    exact hjoint d.fp hfp d.port hport

/-! ## Two assignments -/

def plainListener : ListenerHost where
  parse line :=
    let head := "\x7b\"port\":".toList
    .ok (.obj [("port", .num (Nat.ofDigitChars 10 ((line.drop head.length).dropLast) 0))])
  number
    | some (.num q) => some q
    | _ => none
  header port := by
    refine ⟨"\x7b\"port\":".toList ++ (Nat.toDigits 10 port ++ ['\x7d']), .num port, ?_, ?_, rfl⟩
    · intro hmem
      rcases List.mem_append.mp hmem with hmem | hmem
      · revert hmem
        decide
      · rcases List.mem_append.mp hmem with hmem | hmem
        · have hdigit := Nat.isDigit_of_mem_toDigits (by decide) (by decide) hmem
          revert hdigit
          decide
        · revert hmem
          decide
    · dsimp only
      rw [List.drop_left, List.dropLast_concat, Nat.ofDigitChars_ten_toDigits]

def twoWorkers : List LiveAssignment := [.worker 5000 none ["a"], .worker 6000 none ["b"]]

/-- The peer of the first worker reaches the port of the second. -/
theorem foreign_port_reached :
    (⟨"a", 6000, "hello".toList⟩ : Delivery) ∈ listened plainListener twoWorkers
      [⟨some "a", ["\x7b\"port\":6000\x7d\nhello".toList]⟩] ∧
    ¬ Authorised twoWorkers "a" 6000 := by
  refine ⟨by decide +kernel, by decide⟩

end Swarmlet.Agent
