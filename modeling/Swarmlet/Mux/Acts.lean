import Mathlib.Logic.Relation
import Swarmlet.Lib.Entries
import Swarmlet.Mux.Machine

/-!
# What the multiplexer does, act by act

Every event of the mux is a sequence of `Act`s: the smallest changes of its state, each with the
guard under which the code makes it. An invariant of the mux is proved once for each act.

An act belongs to the frame that is handled, if one is, and to whether an exception leaves the loop
of `onData`. A frame is handled by at most one act (`handleFrame_act`).
-/

namespace Swarmlet.Mux

open Js

/-- Nothing of a loop is left to do; the loop of `onData` is also left by an exception. -/
def Resume.Over (aborts : Prop) (m : StreamMux) : Resume → Prop
  | .flush h _ rest => rest = [] ∨ (∀ x, m.objs[h]? = some x → x.isClosed = true) ∨ aborts
  | .closing rest _ => rest = []
  | _ => True

def Resume.isFlush : Resume → Bool
  | .flush _ _ _ => true
  | _ => false

def Resume.AfterClose (h : Handle) : Resume → Prop
  | .done => True
  | .rejecting h' | .ending h' _ => h' = h
  | _ => False

section

variable (f : Option Frame) (aborts : Prop)

inductive Act (m : StreamMux) : StreamMux → Prop
  | pop {k : Resume} {stack : List Resume} (hstack : m.stack = k :: stack)
      (hover : k.Over aborts m) : Act m { m with stack }
  /-- A data handler is registered; what was buffered is about to be handed over. -/
  | register {h : Handle} {x : MuxStream} (cb : Handler) (hx : m.objs[h]? = some x) :
      Act m { (m.releasePending x.pendingBytes).put h { x.cleared with dataCb := some cb } with
        stack := .flush h cb x.pending :: m.stack }
  | hand {h : Handle} {x : MuxStream} {cb : Handler} {c : Bytes} {rest : List Bytes}
      {stack : List Resume} (hstack : m.stack = .flush h cb (c :: rest) :: stack)
      (hx : m.objs[h]? = some x) (hlive : x.isClosed = false) :
      Act m { m.put h { x with handed := x.handed ++ [c] } with
        calls := m.calls ++ [.data h cb c], stack := .flush h cb rest :: stack }
  | registerEnd {h : Handle} {x : MuxStream} (cb : Handler) (hx : m.objs[h]? = some x) :
      Act m (m.put h { x with endCb := some cb })
  | tell {h : Handle} {x : MuxStream} (cb : Handler) (hx : m.objs[h]? = some x)
      (hended : x.ended = true) : Act m (m.call (.ended h cb x.endedReason) .done)
  | writeLate {h : Handle} {x : MuxStream} (chunk : Bytes) (hx : m.objs[h]? = some x)
      (hclosed : x.isClosed = true) : Act m (m.put h { x with wrote := x.wrote ++ [chunk] })
  | write {h : Handle} {x : MuxStream} (chunk : Bytes) (hx : m.objs[h]? = some x)
      (hlive : x.isClosed = false) :
      Act m ((m.put h { x with wrote := x.wrote ++ [chunk] }).call
        (.send (encodeFrame x.id .data chunk)) .done)
  | close {h : Handle} {x : MuxStream} (payload : Bytes) (k : Resume) (hx : m.objs[h]? = some x)
      (hopen : x.closedLocally = false) (hk : k.AfterClose h) :
      Act m ((m.closed h x).call (.send (encodeFrame x.id .close payload)) k)
  | finish {h : Handle} {x : MuxStream} (reason : Option Json) (hx : m.objs[h]? = some x)
      (hclosed : x.closedLocally = true) (hended : x.ended = false) :
      Act m ((m.ended h x reason).invoke (x.endCb.map (.ended h · reason)) .done)
  | closedByPeer {h : Handle} {x : MuxStream} {id : ℕ} {payload : Bytes} (reason : Option Json)
      (hf : f = some ⟨id, .close, payload⟩) (hget : m.streams.get id = some h)
      (hx : m.objs[h]? = some x) (hended : x.ended = false) :
      Act m (((m.forget id).ended h x reason).invoke (x.endCb.map (.ended h · reason)) .done)
  | openFailed {h : Handle} {x : MuxStream} (reason : Option Json) (hx : m.objs[h]? = some x)
      (hended : x.ended = false) :
      Act m (((m.forget x.id).ended h x reason).invoke (x.endCb.map (.ended h · reason)) .done)
  | forget {h : Handle} {id : ℕ} (hended : ∀ x, m.objs[h]? = some x → x.ended = true)
      (hid : m.streams.get id = some h ∨ ∃ x, m.objs[h]? = some x ∧ x.id = id) :
      Act m (m.forget id)
  | deliver {h : Handle} {x : MuxStream} {id : ℕ} {cb : Handler} {chunk : Bytes}
      (hf : f = some ⟨id, .data, chunk⟩) (hget : m.streams.get id = some h)
      (hx : m.objs[h]? = some x) (hlive : x.isClosed = false) (hcb : x.dataCb = some cb) :
      Act m ((m.put h
        { x with arrived := x.arrived ++ [chunk], handed := x.handed ++ [chunk] }).call
        (.data h cb chunk) .done)
  | buffer {h : Handle} {x : MuxStream} {id : ℕ} {chunk : Bytes}
      (hf : f = some ⟨id, .data, chunk⟩) (hget : m.streams.get id = some h)
      (hx : m.objs[h]? = some x) (hlive : x.isClosed = false) (hcb : x.dataCb = none)
      (hstream : x.pendingBytes + chunk.length ≤ MAX_PENDING_STREAM_BYTES)
      (hmux : m.pendingBytes + chunk.length ≤ MAX_PENDING_MUX_BYTES) :
      Act m ({ m with pendingBytes := m.pendingBytes + chunk.length }.put h { x with
        pendingBytes := x.pendingBytes + chunk.length
        pending := x.pending ++ [chunk]
        arrived := x.arrived ++ [chunk] })
  | «open» (header : Json) (payload : Bytes) (hsize : m.streams.size < MAX_OPEN_STREAMS) :
      Act m ({ m.create m.nextId header with nextId := m.nextId + 2 }.call
        (.send (encodeFrame m.nextId .open payload)) (.opening m.objs.length))
  | accept {id : ℕ} {payload : Bytes} (header : Json) (hf : f = some ⟨id, .open, payload⟩)
      (hget : m.streams.get id = none) (hsize : m.streams.size < MAX_OPEN_STREAMS) :
      Act m ((m.create id header).call (.opened m.objs.length) (.opened m.objs.length))
  | refuse {id : ℕ} {payload : Bytes} (reason : Bytes) (hf : f = some ⟨id, .open, payload⟩)
      (hget : m.streams.get id = none) :
      Act m (m.call (.send (encodeFrame id .close reason)) .done)
  | closeAll (reason : String) :
      Act m { m with streams := .empty, stack := .closing m.streams.values reason :: m.stack }
  | skip {h : Handle} {rest : List Handle} {reason : String} {stack : List Resume}
      (hstack : m.stack = .closing (h :: rest) reason :: stack)
      (hended : ∀ x, m.objs[h]? = some x → x.ended = true) :
      Act m { m with stack := .closing rest reason :: stack }
  | endNext {h : Handle} {x : MuxStream} {rest : List Handle} {reason : String}
      {stack : List Resume} (hstack : m.stack = .closing (h :: rest) reason :: stack)
      (hx : m.objs[h]? = some x) (hended : x.ended = false) :
      Act m { m.ended h x (some (.str reason)) with
        calls := m.calls ++ (x.endCb.map (.ended h · (some (.str reason)))).toList
        stack := .closing rest reason :: stack }

abbrev Acts : StreamMux → StreamMux → Prop := Relation.ReflTransGen (Act f aborts)

end

section

variable {f : Option Frame} {aborts : Prop} {m m' : StreamMux} {codec : Codec}

/-! ## What stays of a stream -/

structure MuxStream.Later (x y : MuxStream) : Prop where
  id : y.id = x.id
  closed : x.closedLocally = true → y.closedLocally = true
  ended : x.ended = true → y.ended = true
  handed : x.isClosed = true → y.handed = x.handed

theorem MuxStream.Later.refl (x : MuxStream) : x.Later x :=
  ⟨rfl, fun h ↦ h, fun h ↦ h, fun _ ↦ rfl⟩

def StreamMux.Later (m m' : StreamMux) : Prop :=
  ∀ (h : Handle) (x : MuxStream), m.objs[h]? = some x → ∃ y, m'.objs[h]? = some y ∧ x.Later y

theorem StreamMux.later_set {h : Handle} {x y : MuxStream} (hobjs : m'.objs = m.objs.set h y)
    (hx : m.objs[h]? = some x) (hxy : x.Later y) : m.Later m' := by
  intro h' x' hx'
  rcases Entries.set_cases hx hobjs hx' with ⟨-, rfl, hy⟩ | ⟨-, hx'⟩
  · exact ⟨y, hy, hxy⟩
  · exact ⟨x', hx', .refl x'⟩

theorem StreamMux.later_append {y : MuxStream} (hobjs : m'.objs = m.objs ++ [y]) : m.Later m' :=
  fun _ x hx ↦ ⟨x, Entries.append_left hobjs hx, .refl x⟩

section

variable (m : StreamMux) (c : Option Call) (k : Resume)

@[simp] theorem StreamMux.objs_invoke : (m.invoke c k).objs = m.objs := by
  cases c <;> rfl

@[simp] theorem StreamMux.pendingBytes_invoke : (m.invoke c k).pendingBytes = m.pendingBytes := by
  cases c <;> rfl

@[simp] theorem StreamMux.streams_invoke : (m.invoke c k).streams = m.streams := by
  cases c <;> rfl

@[simp] theorem StreamMux.nextId_invoke : (m.invoke c k).nextId = m.nextId := by
  cases c <;> rfl

end

theorem Act.later (ha : Act f aborts m m') : m.Later m' := by
  have hsame : ∀ m' : StreamMux, m'.objs = m.objs → m.Later m' := fun m' hobjs h x hx ↦
    ⟨x, by rw [hobjs, hx], .refl x⟩
  cases ha with
  | pop | tell | forget | refuse | closeAll | skip => exact hsame _ rfl
  | register cb hx | registerEnd cb hx | writeLate chunk hx | write chunk hx | buffer hf hget hx =>
    exact StreamMux.later_set rfl hx ⟨rfl, id, id, fun _ ↦ rfl⟩
  | hand hstack hx hlive | deliver hf hget hx hlive =>
    exact StreamMux.later_set rfl hx ⟨rfl, id, id, fun hc ↦ nomatch hlive.symm.trans hc⟩
  | close payload k hx => exact StreamMux.later_set rfl hx ⟨rfl, fun _ ↦ rfl, id, fun _ ↦ rfl⟩
  | finish reason hx | closedByPeer reason hf hget hx | openFailed reason hx =>
    exact StreamMux.later_set (StreamMux.objs_invoke ..) hx ⟨rfl, id, fun _ ↦ rfl, fun _ ↦ rfl⟩
  | «open» | accept => exact StreamMux.later_append rfl
  | endNext hstack hx => exact StreamMux.later_set rfl hx ⟨rfl, id, fun _ ↦ rfl, fun _ ↦ rfl⟩

/-! ## Operations under way -/

def Resume.Settled (m : StreamMux) : Resume → Prop
  | .rejecting h | .ending h _ => ∃ x : MuxStream, m.objs[h]? = some x ∧ x.closedLocally = true
  | _ => True

def StreamMux.Wf (m : StreamMux) : Prop := ∀ k ∈ m.stack, k.Settled m

theorem Resume.Settled.mono {k : Resume} (h : k.Settled m) (hm : m.Later m') : k.Settled m' := by
  have hstay : ∀ {h : Handle}, (∃ x : MuxStream, m.objs[h]? = some x ∧ x.closedLocally = true) →
      ∃ x, m'.objs[h]? = some x ∧ x.closedLocally = true := by
    rintro h ⟨x, hx, hclosed⟩
    obtain ⟨y, hy, hxy⟩ := hm h x hx
    exact ⟨y, hy, hxy.closed hclosed⟩
  cases k with
  | rejecting | ending => exact hstay h
  | _ => trivial

theorem Act.wf (h : m.Wf) (ha : Act f aborts m m') : m'.Wf := by
  intro k hk
  refine Or.elim (?_ : k ∈ m.stack ∨ k.Settled m') (fun hold ↦ (h k hold).mono ha.later) id
  -- Whatever is pushed settles nothing, except after a `close`.
  have hinvoke : ∀ {m₁ : StreamMux} {c : Option Call}, k ∈ (m₁.invoke c .done).stack →
      k ∈ m₁.stack ∨ k = .done := by
    intro m₁ c hk
    cases c with
    | none => exact .inl hk
    | some => exact (List.mem_cons.mp hk).symm
  have hpush : ∀ {k' : Resume} {stack : List Resume}, k ∈ k' :: stack → stack ⊆ m.stack →
      k'.Settled m' → k ∈ m.stack ∨ k.Settled m' := by
    intro k' stack hk hsub hk'
    rcases List.mem_cons.mp hk with rfl | hk
    · exact .inr hk'
    · exact .inl (hsub hk)
  have hrefl := List.Subset.refl m.stack
  cases ha with
  | pop hstack => exact .inl (hstack ▸ List.mem_cons_of_mem _ hk)
  | register | tell | write | deliver | «open» | accept | refuse | closeAll =>
    exact hpush hk hrefl trivial
  | hand hstack | skip hstack | endNext hstack =>
    exact hpush hk (hstack ▸ List.subset_cons_self ..) trivial
  | registerEnd | writeLate | forget | buffer => exact .inl hk
  | @close h x payload k' hx hopen hk' =>
    refine hpush hk hrefl ?_
    have hlt := Entries.lt_length hx
    have hself : ∃ y, ((m.closed h x).call (.send (encodeFrame x.id .close payload)) k').objs[h]? =
        some y ∧ y.closedLocally = true :=
      ⟨{ x.cleared with closedLocally := true }, by simp [StreamMux.call, StreamMux.closed,
        StreamMux.forget, StreamMux.put, StreamMux.releasePending, hlt], rfl⟩
    cases k' with
    | rejecting | ending => exact hk' ▸ hself
    | _ => trivial
  | finish | closedByPeer | openFailed => exact (hinvoke hk).imp_right fun hd ↦ by rw [hd]; trivial

theorem Acts.invariant {I : StreamMux → Prop} (h : Acts f aborts m m') (hI : I m)
    (hact : ∀ m m', I m → Act f aborts m m' → I m') : I m' := by
  induction h with
  | refl => exact hI
  | tail _ hm ih => exact hact _ _ ih hm

theorem Acts.wf (h : m.Wf) (ha : Acts f aborts m m') : m'.Wf := ha.invariant h fun _ _ ↦ Act.wf

/-! ## Every event is a sequence of acts -/

namespace StreamMux

theorem flushLoop_acts (m : StreamMux) (h : Handle) (cb : Handler) (rest : List Bytes) :
    Acts f aborts { m with stack := .flush h cb rest :: m.stack } (m.flushLoop h cb rest) := by
  have hpop : Resume.Over aborts { m with stack := .flush h cb rest :: m.stack }
    (.flush h cb rest) →
      Acts f aborts { m with stack := .flush h cb rest :: m.stack } m := fun hover ↦
    .single (.pop rfl hover)
  cases rest with
  | nil => exact hpop (.inl rfl)
  | cons c rest =>
    rw [flushLoop]
    cases hx : m.objs[h]? with
    | none => exact hpop (.inr (.inl (by simp [hx])))
    | some =>
      dsimp only
      split_ifs with hclosed
      · exact hpop (.inr (.inl (by simp [hx, hclosed])))
      · exact .single (.hand rfl hx (by simpa using hclosed))

theorem closeLoop_acts (reason : String) (rest : List Handle) (m : StreamMux) :
    Acts f aborts { m with stack := .closing rest reason :: m.stack }
    (m.closeLoop reason rest) := by
  induction rest generalizing m with
  | nil => exact .single (.pop rfl rfl)
  | cons h rest ih =>
    have hskip : (∀ x, m.objs[h]? = some x → x.ended = true) →
        Acts f aborts { m with stack := .closing (h :: rest) reason :: m.stack }
          { m with stack := .closing rest reason :: m.stack } := fun hended ↦
      .single (.skip rfl hended)
    rw [closeLoop, endStream]
    cases hx : m.objs[h]? with
    | none => exact (hskip (by simp [hx])).trans (ih m)
    | some x =>
      dsimp only
      split_ifs with hended
      · exact (hskip (by simp [hx, hended])).trans (ih m)
      · have hnext : Act f aborts { m with stack := .closing (h :: rest) reason :: m.stack } _ :=
          .endNext rfl hx (by simpa using hended)
        cases hcb : x.endCb with
        | some =>
          rw [hcb] at hnext
          exact .single hnext
        | none =>
          rw [hcb, Option.map_none, Option.toList_none, List.append_nil] at hnext
          exact .head hnext (ih (m.ended h x (some (.str reason))))

theorem closeStream_acts (m : StreamMux) (h : Handle) (reason : String) {k : Resume}
    (hk : k.AfterClose h) : Acts f aborts m
      ((m.closeStream codec h reason).1.invoke (m.closeStream codec h reason).2 k) := by
  unfold closeStream
  cases hx : m.objs[h]? with
  | none => exact .refl
  | some =>
    dsimp only
    split_ifs with hclosed
    · exact .refl
    · exact .single (.close _ k hx (by simpa using hclosed) hk)

theorem endStream_acts (m : StreamMux) (h : Handle) (reason : Option Json)
    (hclosed : ∀ x, m.objs[h]? = some x → x.closedLocally = true) : Acts f aborts m
      ((m.endStream h reason).1.invoke (m.endStream h reason).2 .done) := by
  unfold endStream
  cases hx : m.objs[h]? with
  | none => exact .refl
  | some x =>
    dsimp only
    split_ifs with hended
    · exact .refl
    · exact .single (.finish reason hx (hclosed x hx) (by simpa using hended))

variable {h : Handle} {x : MuxStream}

theorem closeThenEnd_act (m : StreamMux) (reason : String) (hx : m.objs[h]? = some x)
    (hopen : x.closedLocally = false) :
    Act f aborts m (m.closeThenEnd codec h reason) := by
  rw [closeThenEnd, closeStream, hx]
  simp only [hopen, Bool.false_eq_true, if_false]
  exact .close _ _ hx hopen rfl

theorem closeThenEnd_acts (m : StreamMux) (h : Handle) (reason : String) :
    Acts f aborts m (m.closeThenEnd codec h reason) := by
  cases hx : m.objs[h]? with
  | none =>
    rw [closeThenEnd, closeStream, hx]
    simp only [endStream, hx]
    exact .refl
  | some x =>
    by_cases hclosed : x.closedLocally = true
    · rw [closeThenEnd, closeStream, hx]
      simp only [hclosed, if_true]
      exact m.endStream_acts h _ (by simp [hx, hclosed])
    · exact .single (m.closeThenEnd_act reason hx (by simpa using hclosed))

theorem open_acts (m : StreamMux) (header : Json) :
    Acts f aborts m ((m.open codec header).toOption.getD m) := by
  unfold StreamMux.open
  split_ifs with hshape hsize
  · exact .refl
  · exact .refl
  · exact .single (.open header _ (not_le.mp hsize))

theorem onData_acts (hx : m.objs[h]? = some x) (cb : Handler) :
    Acts f aborts m (m.onData h x cb) :=
  .head (.register cb hx) (flushLoop_acts _ h cb x.pending)

theorem onEnd_acts (hx : m.objs[h]? = some x) (cb : Handler) :
    Acts f aborts m (m.onEnd h x cb) := by
  have hregister : Acts f aborts m (m.put h { x with endCb := some cb }) :=
    .single (.registerEnd cb hx)
  unfold onEnd
  split_ifs with hended
  · have hlt := Entries.lt_length hx
    have hx' : (m.put h { x with endCb := some cb }).objs[h]? =
      some { x with endCb := some cb } := by
      simp [put, hlt]
    exact hregister.tail (.tell (x := { x with endCb := some cb }) cb hx' hended)
  · exact hregister

theorem write_acts (hx : m.objs[h]? = some x) (chunk : Bytes) :
    Acts f aborts m (m.write h x chunk) := by
  unfold write
  split_ifs with hclosed
  · exact .single (.writeLate chunk hx hclosed)
  · exact .single (.write chunk hx (by simpa using hclosed))

theorem resume_acts (hwf : m.Wf) {k : Resume} {stack : List Resume} (hstack : m.stack = k :: stack)
    (outcome : Option Bool) (haborts : outcome = none → k.isFlush = true → aborts) :
    Acts f aborts m ({ m with stack }.resume codec outcome k) := by
  have hpop : k.Over aborts m → Act f aborts m { m with stack } := Act.pop hstack
  have hsettled : k.Settled m := hwf k (hstack ▸ List.mem_cons_self)
  cases k with
  | done => exact .single (hpop trivial)
  | flush h cb rest =>
    rw [resume]
    split_ifs with hreturned
    · have hloop : Acts f aborts { m with stack := .flush h cb rest :: stack } _ :=
        flushLoop_acts { m with stack } h cb rest
      rwa [← hstack] at hloop
    · exact .single (hpop (.inr (.inr (haborts (by simpa using hreturned) rfl))))
  | opening h =>
    refine .head (hpop trivial) ?_
    rw [resume]
    split_ifs with hreturned
    · exact .refl
    · cases hx : m.objs[h]? with
      | none => exact .refl
      | some x =>
        simp only [endStream, forget, hx]
        split_ifs with hended
        · exact .single (.forget (by simp [hx, hended]) (.inr ⟨x, hx, rfl⟩))
        · exact .single (.openFailed _ hx (by simpa using hended))
  | opened h =>
    refine .head (hpop trivial) ?_
    cases outcome with
    | none => exact closeThenEnd_acts _ h _
    | some accepted =>
      cases accepted with
      | false => exact closeStream_acts _ h _ rfl
      | true => exact .refl
  | rejecting h =>
    refine .head (hpop trivial) ?_
    rw [resume]
    split_ifs
    · exact .refl
    · exact closeThenEnd_acts _ h _
  | ending h =>
    refine .head (hpop trivial) ?_
    obtain ⟨x, hx, hclosed⟩ := hsettled
    exact endStream_acts _ h _ (by simp [hx, hclosed])
  | closing rest reason =>
    have hloop : Acts f aborts { m with stack := .closing rest reason :: stack } _ :=
      closeLoop_acts reason rest { m with stack }
    rwa [← hstack] at hloop

theorem deliver_act (codec : Codec) {id : ℕ} {chunk : Bytes} (hf : f = some ⟨id, .data, chunk⟩)
    (hget : m.streams.get id = some h) (hx : m.objs[h]? = some x) :
    Act f aborts m (m.deliver codec h x chunk) ∨
      m.deliver codec h x chunk = m ∧ (x.isClosed = true ∨ chunk = []) := by
  unfold deliver
  by_cases hclosed : x.isClosed = true
  · exact .inr ⟨if_pos hclosed, .inl hclosed⟩
  rw [if_neg hclosed]
  have hlive : x.isClosed = false := by simpa using hclosed
  have hopen : x.closedLocally = false := by
    rw [MuxStream.isClosed, Bool.or_eq_false_iff] at hlive
    exact hlive.1
  split
  · exact .inl (.deliver hf hget hx hlive ‹_›)
  · rename_i hcb
    unfold reservePending
    split_ifs with hempty hstream hmux
    · exact .inr ⟨rfl, .inr hempty⟩
    · exact .inl (m.closeThenEnd_act _ hx hopen)
    · exact .inl (m.closeThenEnd_act _ hx hopen)
    · exact .inl (.buffer hf hget hx hlive hcb (not_lt.mp hstream) (not_lt.mp hmux))

/-- If the frame carries data for a stream that is open, there is none in it. -/
def Ignores (m : StreamMux) (buf : Bytes) : Prop :=
  ∀ (id : ℕ) (chunk : Bytes) (h : Handle) (x : MuxStream), decodeFrame buf =
    .ok ⟨id, .data, chunk⟩ → m.streams.get id = some h → m.objs[h]? = some x → x.isClosed = true ∨
    chunk = []

theorem ignores_of_op {buf : Bytes} {g : Frame} (hg : decodeFrame buf = .ok g)
    (hop : g.op ≠ .data) : m.Ignores buf := by
  intro id chunk h x hf
  obtain rfl := Except.ok.inj (hg.symm.trans hf)
  exact absurd rfl hop

/-- **A frame is handled by one act**, or leaves the mux as it is. -/
theorem handleFrame_act (codec : Codec) (buf : Bytes) (m : StreamMux) :
    (∃ g, decodeFrame buf = .ok g ∧
      Act (some g) aborts m ((m.handleFrame codec buf).toOption.getD m)) ∨
    (m.handleFrame codec buf).toOption.getD m = m ∧ m.Ignores buf := by
  unfold handleFrame
  cases hdecode : decodeFrame buf with
  | error => exact .inr ⟨rfl, fun _ _ _ _ hf ↦ nomatch hdecode.symm.trans hf⟩
  | ok g =>
    obtain ⟨id, op, payload⟩ := g
    simp only [bind, Except.bind]
    cases op with
    | «open» =>
      have hignores : m.Ignores buf := ignores_of_op hdecode (by simp)
      cases codec.parse payload with
      | none =>
        dsimp only
        split_ifs <;> exact .inr ⟨rfl, hignores⟩
      | some header =>
        dsimp only
        split_ifs with hget hlarge hshape hsize
        · exact .inr ⟨rfl, hignores⟩
        · exact .inr ⟨rfl, hignores⟩
        · exact .inr ⟨rfl, hignores⟩
        · exact .inl ⟨_, rfl, .refuse _ rfl (by simpa using hget)⟩
        · exact .inl ⟨_, rfl, .accept header rfl (by simpa using hget) (not_le.mp hsize)⟩
    | data =>
      cases hget : m.streams.get id with
      | none =>
        refine .inr ⟨rfl, fun id' chunk h x hf hget' ↦ ?_⟩
        cases hdecode.symm.trans hf
        cases hget.symm.trans hget'
      | some h =>
        dsimp only
        cases hx : m.objs[h]? with
        | none =>
          refine .inr ⟨rfl, fun id' chunk h' x hf hget' hx' ↦ ?_⟩
          cases hdecode.symm.trans hf
          obtain rfl := Option.mem_unique hget hget'
          cases hx.symm.trans hx'
        | some =>
          have hdeliver : Act (some ⟨id, .data, payload⟩) aborts m _ ∨ _ :=
            deliver_act codec rfl hget hx
          rcases hdeliver with hact | ⟨hsame, hwhy⟩
          · exact .inl ⟨_, rfl, hact⟩
          · refine .inr ⟨hsame, fun id' chunk h' x' hf hget' hx' ↦ ?_⟩
            cases hdecode.symm.trans hf
            obtain rfl := Option.mem_unique hget hget'
            obtain rfl := Option.mem_unique hx hx'
            exact hwhy
    | close =>
      have hignores : m.Ignores buf := ignores_of_op hdecode (by simp)
      cases hget : m.streams.get id with
      | none => exact .inr ⟨rfl, hignores⟩
      | some h =>
        simp only [endStream, forget]
        cases hx : m.objs[h]? with
        | none => exact .inl ⟨_, rfl, .forget (by simp [hx]) (.inl hget)⟩
        | some =>
          dsimp only
          split_ifs with hended
          · exact .inl ⟨_, rfl, .forget (by simp [hx, hended]) (.inl hget)⟩
          · exact .inl ⟨_, rfl, .closedByPeer _ rfl hget hx (by simpa using hended)⟩

end StreamMux

def Event.frame : Event → Option Frame
  | .handleFrame buf => (decodeFrame buf).toOption
  | _ => none

def Event.Aborts (m : StreamMux) (e : Event) : Prop :=
  e = .throws ∧ ∃ k ∈ m.stack.head?, k.isFlush = true

/-- **Every event is a sequence of acts.** -/
theorem step_acts {e : Event} (hwf : m.Wf) (h : step codec m e = some m') :
    Acts e.frame (e.Aborts m) m m' := by
  cases e with
  | «open» header =>
    cases h
    exact m.open_acts header
  | write h' chunk =>
    obtain ⟨x, hx, rfl⟩ := Option.map_eq_some_iff.mp h
    exact StreamMux.write_acts hx chunk
  | close h' reason =>
    obtain ⟨x, hx, rfl⟩ := Option.map_eq_some_iff.mp h
    exact m.closeStream_acts h' reason trivial
  | onData h' cb =>
    obtain ⟨x, hx, rfl⟩ := Option.map_eq_some_iff.mp h
    exact StreamMux.onData_acts hx cb
  | onEnd h' cb =>
    obtain ⟨x, hx, rfl⟩ := Option.map_eq_some_iff.mp h
    exact StreamMux.onEnd_acts hx cb
  | handleFrame buf =>
    cases h
    rcases m.handleFrame_act codec buf with ⟨g, hg, hact⟩ | ⟨hsame, -⟩
    · rw [Event.frame, hg]
      exact .single hact
    · rw [hsame]
  | closeAll reason =>
    cases h
    exact .head (.closeAll reason) (StreamMux.closeLoop_acts reason _ { m with streams := .empty })
  | returns =>
    simp only [step] at h
    split at h
    · cases h
    · rename_i k stack hstack
      cases h
      exact StreamMux.resume_acts hwf hstack _ (by simp)
  | throws =>
    simp only [step] at h
    split at h
    · cases h
    · rename_i k stack hstack
      cases h
      exact StreamMux.resume_acts hwf hstack _ fun _ hk ↦ ⟨rfl, k, by rw [hstack]; rfl, hk⟩

/-! ## What every run keeps -/

theorem new_wf (odd : Bool) : (StreamMux.new odd).Wf := by
  simp [StreamMux.Wf, StreamMux.new]

/-- The rule for one event: a frame is handled by one act from the state it finds, everything else
is a sequence of acts that bring no frame. -/
theorem step_keeps {I : StreamMux → Prop} {e : Event} (hwf : m.Wf) (hI : I m)
    (h : step codec m e = some m')
    (hlocal : ∀ m₁ m₂, I m₁ → Act none (e.Aborts m) m₁ m₂ → I m₂)
    (hframe : ∀ g m', e.frame = some g → Act (some g) False m m' → I m') : I m' := by
  by_cases hbuf : ∃ buf, e = .handleFrame buf
  · obtain ⟨buf, rfl⟩ := hbuf
    cases h
    rcases m.handleFrame_act codec buf with ⟨g, hg, hact⟩ | ⟨hsame, -⟩
    · exact hframe g _ (by rw [Event.frame, hg]; rfl) hact
    · rwa [hsame]
  · have hnone : e.frame = none := by
      cases e with
      | handleFrame buf => exact absurd ⟨buf, rfl⟩ hbuf
      | _ => rfl
    exact (hnone ▸ step_acts hwf h).invariant hI hlocal

/-- **The induction rule for runs**: what every act keeps holds at the end of a run. -/
theorem run_keeps {I : StreamMux → Prop} {odd : Bool} {es : List Event}
    (h : EventMachine.run (step codec) (.new odd) es = some m) (hI : I (.new odd))
    (hact : ∀ f aborts m m', I m → Act f aborts m m' → I m') : I m := by
  refine (EventMachine.run_invariant (I := fun m ↦ m.Wf ∧ I m) h ⟨new_wf odd, hI⟩ ?_).2
  rintro m e m' ⟨hwf, hI⟩ hstep
  have hacts := step_acts hwf hstep
  exact ⟨hacts.wf hwf, hacts.invariant hI (hact _ _)⟩

end

end Swarmlet.Mux
