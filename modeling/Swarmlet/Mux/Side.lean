import Swarmlet.Mux.Delivery

/-!
# One side of a connection

A side puts a frame on its channel each time it calls its sender, so the frames it has sent are in
its `calls`. It is looked at here with the frames it has heard: what it says on an id is what was
written on the stream of that id, an OPEN frame is the first it says under its id
(`StreamMux.Speaks`), and what has arrived on a stream is what was heard under its id
(`StreamMux.Hears`).

Two things have to be known about a frame that is heard: an OPEN frame is one of the peer and the
first under its id, and data on a stream of this side comes after its OPEN. They are what the other
side's half says about the frames it sends.
-/

namespace Swarmlet.Mux

open EventMachine

/-! ## Frames -/

def Call.wire : Call → Option Bytes
  | .send frame => some frame
  | _ => none

def StreamMux.sends (m : StreamMux) : List Bytes := m.calls.filterMap Call.wire

def frames (bufs : List Bytes) : List Frame := bufs.filterMap fun buf ↦ (decodeFrame buf).toOption

def dataOf (id : ℕ) (fs : List Frame) : List Bytes :=
  fs.filterMap fun g ↦ if g.op = .data ∧ g.streamId = id then some g.payload else none

@[simp] theorem frames_append (bufs bufs' : List Bytes) :
    frames (bufs ++ bufs') = frames bufs ++ frames bufs' :=
  List.filterMap_append

@[simp] theorem dataOf_append (id : ℕ) (fs fs' : List Frame) :
    dataOf id (fs ++ fs') = dataOf id fs ++ dataOf id fs' :=
  List.filterMap_append

theorem dataOf_eq_nil {id : ℕ} {fs : List Frame} (h : ∀ g ∈ fs, g.op = .data → g.streamId ≠ id) :
    dataOf id fs = [] := by
  rw [dataOf, List.filterMap_eq_nil_iff]
  intro g hg
  rw [if_neg fun hdata ↦ h g hg hdata.1 hdata.2]

theorem dataOf_mono (id : ℕ) {fs fs' : List Frame} (h : fs <+: fs') :
    dataOf id fs <+: dataOf id fs' := by
  obtain ⟨rest, rfl⟩ := h
  rw [dataOf_append]
  exact List.prefix_append ..

theorem frames_encodeFrame {id : ℕ} (hid : id < 2 ^ 32) (op : Op) (payload : Bytes) :
    frames [encodeFrame id op payload] = [⟨id, op, payload⟩] := by
  rw [frames, List.filterMap_cons_some, List.filterMap_nil]
  rw [decodeFrame_encodeFrame, Nat.mod_eq_of_lt hid]
  rfl

/-! ## What a side says -/

structure StreamMux.Speaks (odd : Bool) (heard : List Frame) (m : StreamMux) : Prop where
  ids : ∀ x ∈ m.objs, x.id < 2 ^ 32
  wrote : ∀ (h : Handle) (x : MuxStream), m.objs[h]? = some x →
    dataOf x.id (frames m.sends) <+: x.wrote ∧
      (x.isClosed = false → dataOf x.id (frames m.sends) = x.wrote)
  data : ∀ g ∈ frames m.sends, g.op = .data → ∃ x ∈ m.objs, x.id = g.streamId
  own : ∀ g ∈ frames m.sends, ownId odd g.streamId → g.streamId < m.nextId
  opens : ∀ g ∈ frames m.sends, g.op = .open → ownId odd g.streamId
  first : (frames m.sends).Pairwise fun f g ↦ g.op = .open → f.streamId ≠ g.streamId
  opened : ∀ x ∈ m.objs, ¬ownId odd x.id → ∃ payload, ⟨x.id, .open, payload⟩ ∈ heard
  /-- What the peer says on a stream of this side comes after its OPEN. -/
  reply : ∀ g ∈ heard, g.op = .data → ownId odd g.streamId → g.streamId < m.nextId

section

variable {f : Option Frame} {aborts : Prop} {odd : Bool} {heard heard' : List Frame}
  {m m' : StreamMux}

namespace StreamMux.Speaks

private theorem dataOf_of_silent {new : List Bytes} (hsends : m'.sends = m.sends ++ new)
    (hnew : ∀ g ∈ frames new, g.op ≠ .data) (id : ℕ) :
    dataOf id (frames m'.sends) = dataOf id (frames m.sends) := by
  rw [hsends, frames_append, dataOf_append, dataOf_eq_nil fun g hg hdata ↦ absurd hdata (hnew g hg),
    List.append_nil]

variable (hm : m.Speaks odd heard) (howned : m.Owned odd) (hheard : heard ⊆ heard')
  (hreply : ∀ g ∈ heard', g.op = .data → ownId odd g.streamId → g.streamId < m.nextId)
  {new : List Bytes} (hsends : m'.sends = m.sends ++ new)

include hm howned hheard hreply hsends

private theorem extend (hnext : m.nextId ≤ m'.nextId)
    (hforth : ∀ x ∈ m.objs, ∃ y ∈ m'.objs, y.id = x.id)
    (hback : ∀ y ∈ m'.objs, (∃ x ∈ m.objs, x.id = y.id) ∨
      y.id < 2 ^ 32 ∧ (¬ownId odd y.id → ∃ payload, ⟨y.id, .open, payload⟩ ∈ heard'))
    (hnew : ∀ g ∈ frames new, (g.op = .data → ∃ y ∈ m'.objs, y.id = g.streamId) ∧
      (ownId odd g.streamId → g.streamId < m'.nextId) ∧ (g.op = .open → g.streamId = m.nextId))
    (hfirst : (frames new).Pairwise fun f g ↦ g.op = .open → f.streamId ≠ g.streamId)
    (hwrote : ∀ (h : Handle) (y : MuxStream), m'.objs[h]? = some y →
      dataOf y.id (frames m'.sends) <+: y.wrote ∧
        (y.isClosed = false → dataOf y.id (frames m'.sends) = y.wrote)) : m'.Speaks odd heard' := by
  have hcases : ∀ {g}, g ∈ frames m'.sends → g ∈ frames m.sends ∨ g ∈ frames new := by simp [hsends]
  refine ⟨fun y hy ↦ ?_, hwrote, fun g hg hop ↦ ?_, fun g hg hown ↦ ?_, fun g hg hopen ↦ ?_, ?_,
    fun y hy hown ↦ ?_, fun g hg hop hown ↦ (hreply g hg hop hown).trans_le hnext⟩
  · rcases hback y hy with ⟨x, hx, hid⟩ | ⟨hlt, -⟩
    · exact hid ▸ hm.ids x hx
    · exact hlt
  · rcases hcases hg with hg | hg
    · obtain ⟨x, hx, hid⟩ := hm.data g hg hop
      exact hid ▸ hforth x hx
    · exact (hnew g hg).1 hop
  · rcases hcases hg with hg | hg
    · exact (hm.own g hg hown).trans_le hnext
    · exact (hnew g hg).2.1 hown
  · rcases hcases hg with hg | hg
    · exact hm.opens g hg hopen
    · exact (hnew g hg).2.2 hopen ▸ howned.parity
  · rw [hsends, frames_append, List.pairwise_append]
    refine ⟨hm.first, hfirst, fun f hf g hg hopen heq ↦ ?_⟩
    have hid := heq.trans ((hnew g hg).2.2 hopen)
    exact absurd (hm.own f hf (hid ▸ howned.parity)) (hid ▸ lt_irrefl _)
  · rcases hback y hy with ⟨x, hx, hid⟩ | ⟨-, hpeer⟩
    · obtain ⟨payload, hmem⟩ := hm.opened x hx (hid ▸ hown)
      exact ⟨payload, hheard (hid ▸ hmem)⟩
    · exact hpeer hown

theorem put {h : Handle} {x y : MuxStream} (hx : m.objs[h]? = some x)
    (hobjs : m'.objs = m.objs.set h y) (hid : y.id = x.id) (hnext : m'.nextId = m.nextId)
    (hnew : ∀ g ∈ frames new, g.streamId = x.id ∧ g.op ≠ .open)
    (hwrote : dataOf x.id (frames m'.sends) <+: y.wrote ∧
      (y.isClosed = false → dataOf x.id (frames m'.sends) = y.wrote)) : m'.Speaks odd heard' := by
  have hmem := List.mem_of_getElem? hx
  have hids : m'.objs.map (·.id) = m.objs.map (·.id) := by rw [hobjs, ids_set hx hid]
  have hforth : ∀ z ∈ m.objs, ∃ z' ∈ m'.objs, z'.id = z.id := fun z hz ↦ by
    simpa using (hids ▸ List.mem_map_of_mem hz : z.id ∈ m'.objs.map (·.id))
  refine hm.extend howned hheard hreply hsends hnext.ge hforth (fun z hz ↦ .inl ?_)
    (fun g hg ↦ ⟨fun _ ↦ ?_, fun hown ↦ ?_, fun hopen ↦ absurd hopen (hnew g hg).2⟩)
    (List.pairwise_of_forall_mem_list fun g _ g' hg' hopen ↦ absurd hopen (hnew g' hg').2)
    (Entries.forall_set hobjs (hid ▸ hwrote) fun h' z hh hz ↦ ?_)
  · simpa using (hids ▸ List.mem_map_of_mem hz : z.id ∈ m.objs.map (·.id))
  · exact (hnew g hg).1 ▸ hforth x hmem
  · rw [(hnew g hg).1] at hown ⊢
    exact hnext ▸ howned.used x hmem hown
  · have hne : dataOf z.id (frames new) = [] := dataOf_eq_nil fun g hg _ hgid ↦
      hh (howned.eq_of_id hz hx (hgid.symm.trans (hnew g hg).1))
    rw [hsends, frames_append, dataOf_append, hne, List.append_nil]
    exact hm.wrote h' z hz

theorem still (hobjs : m'.objs = m.objs) (hnext : m'.nextId = m.nextId)
    (hnew : ∀ g ∈ frames new, g.op = .close ∧ ¬ownId odd g.streamId) : m'.Speaks odd heard' := by
  have hop : ∀ g ∈ frames new, ∀ op, g.op = op → op ≠ .close → False := fun g hg op heq hne ↦
    hne (heq.symm.trans (hnew g hg).1)
  refine hm.extend howned hheard hreply hsends hnext.ge (fun x hx ↦ ⟨x, hobjs ▸ hx, rfl⟩)
    (fun y hy ↦ .inl ⟨y, hobjs ▸ hy, rfl⟩) (fun g hg ↦ ⟨fun h ↦ (hop g hg _ h (by simp)).elim,
      fun hown ↦ absurd hown (hnew g hg).2, fun h ↦ (hop g hg _ h (by simp)).elim⟩)
    (List.pairwise_of_forall_mem_list fun g _ g' hg' h ↦ (hop g' hg' _ h (by simp)).elim)
    fun h x hx ↦ ?_
  rw [dataOf_of_silent hsends fun g hg h ↦ hop g hg _ h (by simp)]
  exact hm.wrote h x (hobjs ▸ hx)

theorem create {y : MuxStream} (hobjs : m'.objs = m.objs ++ [y]) (hnext : m.nextId ≤ m'.nextId)
    (hwrote : y.wrote = []) (hid : y.id < 2 ^ 32) (hfresh : ∀ x ∈ m.objs, x.id ≠ y.id)
    (hpeer : ¬ownId odd y.id → ∃ payload, ⟨y.id, .open, payload⟩ ∈ heard')
    (hnew : ∀ g ∈ frames new, g.op = .open ∧ g.streamId = m.nextId ∧ g.streamId < m'.nextId)
    (hone : (frames new).length ≤ 1) : m'.Speaks odd heard' := by
  have hop : ∀ g ∈ frames new, g.op ≠ .data := fun g hg hdata ↦ by
    cases (hnew g hg).1.symm.trans hdata
  refine hm.extend howned hheard hreply hsends hnext (fun x hx ↦ ⟨x, by simp [hobjs, hx], rfl⟩)
    (fun z hz ↦ ?_) (fun g hg ↦ ⟨fun h ↦ absurd h (hop g hg), fun _ ↦ (hnew g hg).2.2,
      fun _ ↦ (hnew g hg).2.1⟩) ?_ ?_
  · rw [hobjs, List.mem_append, List.mem_singleton] at hz
    rcases hz with hz | rfl
    · exact .inl ⟨z, hz, rfl⟩
    · exact .inr ⟨hid, hpeer⟩
  · obtain hnil | ⟨g, hg⟩ : frames new = [] ∨ ∃ g, frames new = [g] := by
      rw [← List.length_eq_zero_iff, ← List.length_eq_one_iff]
      omega
    · rw [hnil]
      exact .nil
    · rw [hg]
      exact List.pairwise_singleton ..
  · simp only [dataOf_of_silent hsends hop]
    refine Entries.forall_append hobjs ?_ hm.wrote
    -- Nothing was said under an id that no stream had.
    have hnone : dataOf y.id (frames m.sends) = [] := dataOf_eq_nil fun g hg hop hgid ↦ by
      obtain ⟨x, hx, hxid⟩ := hm.data g hg hop
      exact hfresh x hx (hxid.trans hgid)
    rw [hnone, hwrote]
    exact ⟨List.prefix_rfl, fun _ ↦ rfl⟩

end StreamMux.Speaks

theorem StreamMux.sends_quiet {new : List Call} (hcalls : m'.calls = m.calls ++ new)
    (hnew : ∀ c ∈ new, c.wire = none) : m'.sends = m.sends := by
  rw [sends, hcalls, List.filterMap_append, List.filterMap_eq_nil_iff.mpr hnew]
  exact List.append_nil _

theorem wire_ended (h : Handle) (cb : Option Handler) (reason : Option Js.Json) :
    ∀ c ∈ (cb.map (Call.ended h · reason)).toList, c.wire = none := by
  intro c hc
  obtain ⟨cb', -, rfl⟩ : ∃ cb', cb = some cb' ∧ Call.ended h cb' reason = c := by simpa using hc
  rfl

theorem StreamMux.sends_send (m : StreamMux) (frame : Bytes) (k : Resume) :
    (m.call (.send frame) k).sends = m.sends ++ [frame] := by
  rw [sends, call, List.filterMap_append]
  rfl

/-- **Every act keeps what a side says**, as long as its ids fit into a frame. -/
theorem Act.speaks (hm : m.Speaks odd heard) (howned : m.Owned odd) (hheard : heard ⊆ heard')
    (hreply : ∀ g ∈ heard', g.op = .data → ownId odd g.streamId → g.streamId < m.nextId)
    (hopen : ∀ id payload, f = some ⟨id, .open, payload⟩ → id < 2 ^ 32 ∧ ¬ownId odd id ∧
      (∀ x ∈ m.objs, x.id ≠ id) ∧ ⟨id, .open, payload⟩ ∈ heard')
    (hroom : m'.nextId ≤ 2 ^ 32 + 1) (ha : Act f aborts m m') : m'.Speaks odd heard' := by
  -- A stream is written, and nothing is sent.
  have hquiet : ∀ {m' : StreamMux} {h : Handle} {x y : MuxStream}, m.objs[h]? = some x →
      m'.objs = m.objs.set h y → y.id = x.id → m'.nextId = m.nextId → m'.sends = m.sends →
      y.wrote = x.wrote → (y.isClosed = false → x.isClosed = false) → m'.Speaks odd heard' := by
    intro m' h x y hx hobjs hid hnext hsends hwrote hclosed
    obtain ⟨hsaid, heq⟩ := hm.wrote h x hx
    refine hm.put howned hheard hreply (hsends.trans (List.append_nil _).symm) hx hobjs hid hnext
      (fun g hg ↦ nomatch hg) ?_
    rw [hsends, hwrote]
    exact ⟨hsaid, fun hopen ↦ heq (hclosed hopen)⟩
  have hstill : ∀ {m' : StreamMux}, m'.objs = m.objs → m'.nextId = m.nextId → m'.sends = m.sends →
      m'.Speaks odd heard' := fun hobjs hnext hsends ↦
    hm.still howned hheard hreply (hsends.trans (List.append_nil _).symm) hobjs hnext fun g hg ↦
      nomatch hg
  cases ha with
  | pop | forget | closeAll | skip => exact hstill rfl rfl rfl
  | register cb hx | registerEnd cb hx => exact hquiet hx rfl rfl rfl rfl rfl id
  | hand hstack hx =>
    exact hquiet hx rfl rfl rfl (StreamMux.sends_quiet rfl (by simp [Call.wire])) rfl id
  | tell => exact hstill rfl rfl (StreamMux.sends_quiet rfl (by simp [Call.wire]))
  | @writeLate h x chunk hx hclosed =>
    refine hm.put howned hheard hreply (List.append_nil _).symm hx rfl rfl rfl
      (fun g hg ↦ nomatch hg) ⟨(hm.wrote h x hx).1.trans (List.prefix_append ..), fun hopen ↦ ?_⟩
    cases hclosed.symm.trans hopen
  | @write h x chunk hx hlive =>
    have hframes := frames_encodeFrame (hm.ids x (List.mem_of_getElem? hx)) .data chunk
    refine hm.put howned hheard hreply (StreamMux.sends_send ..) hx rfl rfl rfl (fun g hg ↦ ?_) ?_
    · rw [hframes, List.mem_singleton] at hg
      rw [hg]
      exact ⟨rfl, by simp⟩
    · have hsaid : dataOf x.id (frames ((m.put h { x with wrote := x.wrote ++ [chunk] }).call
          (.send (encodeFrame x.id .data chunk)) .done).sends) = x.wrote ++ [chunk] := by
        rw [StreamMux.sends_send, frames_append, dataOf_append, hframes]
        exact congrArg₂ (· ++ ·) ((hm.wrote h x hx).2 hlive) (by simp [dataOf])
      rw [hsaid]
      exact ⟨List.prefix_rfl, fun _ ↦ rfl⟩
  | @close h x payload k hx hopen =>
    have hframes := frames_encodeFrame (hm.ids x (List.mem_of_getElem? hx)) .close payload
    refine hm.put howned hheard hreply (StreamMux.sends_send ..) hx rfl rfl rfl (fun g hg ↦ ?_)
      ⟨?_, fun hopen ↦ by simp [MuxStream.isClosed] at hopen⟩
    · rw [hframes, List.mem_singleton] at hg
      rw [hg]
      exact ⟨rfl, by simp⟩
    · have hnone : dataOf x.id [⟨x.id, .close, payload⟩] = [] := dataOf_eq_nil (by simp)
      rw [StreamMux.sends_send, frames_append, dataOf_append, hframes, hnone, List.append_nil]
      exact (hm.wrote h x hx).1
  | finish reason hx | closedByPeer reason hf hget hx | openFailed reason hx =>
    exact hquiet hx (StreamMux.objs_invoke ..) rfl (StreamMux.nextId_invoke ..)
      (StreamMux.sends_quiet (StreamMux.calls_invoke ..) (wire_ended _ _ _)) rfl
      (by simp [MuxStream.isClosed])
  | deliver hf hget hx =>
    exact hquiet hx rfl rfl rfl (StreamMux.sends_quiet rfl (by simp [Call.wire])) rfl
      fun hopen ↦ hopen
  | buffer hf hget hx => exact hquiet hx rfl rfl rfl rfl rfl fun hopen ↦ hopen
  | «open» header payload =>
    have hlt : m.nextId < 2 ^ 32 := by
      have : m.nextId + 2 ≤ 2 ^ 32 + 1 := hroom
      omega
    have hframes := frames_encodeFrame hlt .open payload
    refine hm.create howned hheard hreply (StreamMux.sends_send ..) rfl
      (Nat.le_add_right ..) rfl hlt (fun x hx hid ↦ ?_) (fun hpeer ↦ absurd howned.parity hpeer)
      (fun g hg ↦ ?_) (by rw [hframes]; rfl)
    · exact absurd (howned.used x hx (hid ▸ howned.parity)) (by rw [hid]; exact lt_irrefl _)
    · rw [hframes, List.mem_singleton] at hg
      rw [hg]
      exact ⟨rfl, rfl, Nat.lt_add_of_pos_right two_pos⟩
  | accept header hf =>
    obtain ⟨hlt, hpeer, hfresh, hmem⟩ := hopen _ _ hf
    exact hm.create howned hheard hreply
      ((StreamMux.sends_quiet rfl (by simp [Call.wire])).trans (List.append_nil _).symm) rfl
      le_rfl rfl hlt hfresh (fun _ ↦ ⟨_, hmem⟩) (fun g hg ↦ nomatch hg) (Nat.zero_le _)
  | refuse reason hf =>
    obtain ⟨hlt, hpeer, -, -⟩ := hopen _ _ hf
    refine hm.still howned hheard hreply (StreamMux.sends_send ..) rfl rfl fun g hg ↦ ?_
    rw [frames_encodeFrame hlt, List.mem_singleton] at hg
    rw [hg]
    exact ⟨rfl, hpeer⟩
  | endNext hstack hx =>
    exact hquiet hx rfl rfl rfl (StreamMux.sends_quiet rfl (wire_ended _ _ _)) rfl
      (by simp [MuxStream.isClosed])

/-! ## What a side hears -/

/-- What has arrived on a stream is what was heard under its id; after it was closed, a part of it.
-/
def StreamMux.Hears (heard : List Frame) (m : StreamMux) : Prop :=
  ∀ (h : Handle) (x : MuxStream), m.objs[h]? = some x →
    x.arrived.flatten <+: (dataOf x.id heard).flatten ∧
      (x.isClosed = false → x.arrived.flatten = (dataOf x.id heard).flatten)

/-- The stream was there, and at most the chunk of the frame has arrived on it. -/
def StreamMux.Had (f : Option Frame) (m : StreamMux) (h : Handle) (y : MuxStream) : Prop :=
  ∃ x, m.objs[h]? = some x ∧ y.id = x.id ∧ (y.isClosed = false → x.isClosed = false) ∧
    (y.arrived = x.arrived ∨ ∃ id chunk, f = some ⟨id, .data, chunk⟩ ∧
      m.streams.get id = some h ∧ x.isClosed = false ∧ y.arrived = x.arrived ++ [chunk])

theorem Act.stream (ha : Act f aborts m m') {h : Handle} {y : MuxStream}
    (hy : m'.objs[h]? = some y) : m.Had f h y ∨
      y.arrived = [] ∧ (y.id = m.nextId ∨ ∃ payload, f = some ⟨y.id, .open, payload⟩) := by
  have hsame : m.objs[h]? = some y → m.Had f h y := fun hy ↦ ⟨y, hy, rfl, id, .inl rfl⟩
  have hput : ∀ {h' : Handle} {x z : MuxStream}, (m.objs.set h' z)[h]? = some y →
      m.objs[h']? = some x → z.id = x.id → (z.isClosed = false → x.isClosed = false) →
      (z.arrived = x.arrived ∨ ∃ id chunk, f = some ⟨id, .data, chunk⟩ ∧
        m.streams.get id = some h' ∧ x.isClosed = false ∧ z.arrived = x.arrived ++ [chunk]) →
      m.Had f h y := by
    intro h' x z hy hx hid hclosed harrived
    rcases Entries.of_set rfl hy with ⟨rfl, rfl⟩ | ⟨-, hy⟩
    · exact ⟨x, hx, hid, hclosed, harrived⟩
    · exact hsame hy
  have hends : ∀ {x : MuxStream} {reason : Option Js.Json},
      { x.cleared with ended := true, endedReason := reason : MuxStream }.isClosed = false →
        x.isClosed = false := by simp [MuxStream.isClosed]
  cases ha with
  | pop | tell | forget | refuse | closeAll | skip => exact .inl (hsame hy)
  | register cb hx | hand hstack hx | registerEnd cb hx | writeLate chunk hx | write chunk hx =>
    exact .inl (hput hy hx rfl id (.inl rfl))
  | close payload k hx => exact .inl (hput hy hx rfl (by simp [MuxStream.isClosed]) (.inl rfl))
  | finish reason hx | closedByPeer reason hf hget hx | openFailed reason hx =>
    rw [StreamMux.objs_invoke] at hy
    exact .inl (hput hy hx rfl hends (.inl rfl))
  | deliver hf hget hx hlive | buffer hf hget hx hlive =>
    exact .inl (hput hy hx rfl (fun _ ↦ hlive) (.inr ⟨_, _, hf, hget, hlive, rfl⟩))
  | «open» =>
    rcases Entries.of_append rfl hy with hold | ⟨-, rfl⟩
    · exact .inl (hsame hold)
    · exact .inr ⟨rfl, .inl rfl⟩
  | accept header hf =>
    rcases Entries.of_append rfl hy with hold | ⟨-, rfl⟩
    · exact .inl (hsame hold)
    · exact .inr ⟨rfl, .inr ⟨_, hf⟩⟩
  | endNext hstack hx => exact .inl (hput hy hx rfl hends (.inl rfl))

theorem StreamMux.Speaks.unheard (hm : m.Speaks odd heard) (howned : m.Owned odd) :
    dataOf m.nextId heard = [] :=
  dataOf_eq_nil fun g hg hop hid ↦
    absurd (hm.reply g hg hop (hid ▸ howned.parity)) (by rw [hid]; exact lt_irrefl _)

theorem Act.hears (hm : m.Hears heard) (hspeaks : m.Speaks odd heard) (howned : m.Owned odd)
    (ha : Act none aborts m m') : m'.Hears heard := by
  intro h y hy
  rcases ha.stream hy with ⟨x, hx, hid, hopen, harrived | ⟨_, _, hf, -⟩⟩ | ⟨harrived, hid | ⟨_, hf⟩⟩
  · rw [hid, harrived]
    exact ⟨(hm h x hx).1, fun hy ↦ (hm h x hx).2 (hopen hy)⟩
  · cases hf
  · rw [harrived, hid, hspeaks.unheard howned]
    exact ⟨List.prefix_rfl, fun _ ↦ rfl⟩
  · cases hf

theorem StreamMux.deliver_arrived (codec : Codec) {h : Handle} {x : MuxStream} (chunk : Bytes)
    (hx : m.objs[h]? = some x) : ∃ y, (m.deliver codec h x chunk).objs[h]? = some y ∧
      (y.isClosed = true ∨ y.arrived.flatten = x.arrived.flatten ++ chunk) := by
  have hlt := Entries.lt_length hx
  unfold deliver
  by_cases hclosed : x.isClosed = true
  · exact ⟨x, by rw [if_pos hclosed, hx], .inl hclosed⟩
  have hopen : x.closedLocally = false := by
    rw [MuxStream.isClosed, Bool.or_eq_true, not_or] at hclosed
    simpa using hclosed.1
  have hlimit : ∀ reason, ∃ y, (m.closeThenEnd codec h reason).objs[h]? = some y ∧
      (y.isClosed = true ∨ y.arrived.flatten = x.arrived.flatten ++ chunk) := by
    intro reason
    rw [closeThenEnd, closeStream, hx]
    simp only [hopen, Bool.false_eq_true, if_false]
    exact ⟨_, List.getElem?_set_self hlt, .inl rfl⟩
  rw [if_neg hclosed]
  split
  · exact ⟨_, List.getElem?_set_self hlt, .inr (by simp)⟩
  · unfold reservePending
    split_ifs with hempty
    · exact ⟨x, hx, .inr (by simp [hempty])⟩
    · exact hlimit _
    · exact hlimit _
    · exact ⟨_, List.getElem?_set_self hlt, .inr (by simp)⟩

variable {codec : Codec}

theorem dataOf_heard (id : ℕ) (chunk : Bytes) (heard : List Frame) :
    (dataOf id (heard ++ [⟨id, .data, chunk⟩])).flatten = (dataOf id heard).flatten ++ chunk := by
  simp [dataOf]

/-- **A frame that is heard arrives**, if the stream of its id is in use. -/
theorem step_hears {buf : Bytes} {g : Frame} (hm : m.Hears heard) (howned : m.Owned odd)
    (hmapped : m.Mapped) (hstack : m.stack = []) (hg : decodeFrame buf = .ok g)
    (hopen : g.op = .open → ∀ g' ∈ heard, g'.streamId ≠ g.streamId)
    (hunheard : dataOf m.nextId (heard ++ [g]) = [])
    (hstep : step codec m (.handleFrame buf) = some m') : m'.Hears (heard ++ [g]) := by
  cases hstep
  have hgrow : ∀ id, (dataOf id heard).flatten <+: (dataOf id (heard ++ [g])).flatten := fun id ↦ by
    rw [dataOf_append, List.flatten_append]
    exact List.prefix_append ..
  -- A stream in use is the one its id leads to.
  have hlive : ∀ {h : Handle} {x : MuxStream}, m.objs[h]? = some x → x.isClosed = false →
      m.streams.get x.id = some h := fun hx hlive ↦
    howned.owner _ _ hx hlive fun ⟨_, _, hmem, _⟩ ↦ by rw [hstack] at hmem; cases hmem
  have hother : ∀ id, ¬(g.op = .data ∧ g.streamId = id) → dataOf id (heard ++ [g]) =
      dataOf id heard :=
    fun id hnot ↦ by
      have hnone : dataOf id [g] = [] := dataOf_eq_nil (by simpa using hnot)
      rw [dataOf_append, hnone, List.append_nil]
  intro h y hy
  have hhad : m.Had (some g) h y ∨
      y.arrived = [] ∧ (y.id = m.nextId ∨ ∃ payload, some g = some ⟨y.id, .open, payload⟩) := by
    have hframe : (∃ g', decodeFrame buf = .ok g' ∧ Act (some g') False m _) ∨ _ :=
      m.handleFrame_act codec buf
    rcases hframe with ⟨g', hg', hact⟩ | ⟨hsame, -⟩
    · obtain rfl := Except.ok.inj (hg.symm.trans hg')
      exact hact.stream hy
    · rw [hsame] at hy
      exact .inl ⟨y, hy, rfl, id, .inl rfl⟩
  rcases hhad with ⟨x, hx, hid, hopen', harrived⟩ | ⟨harrived, hid | ⟨payload, hf⟩⟩
  · rcases harrived with harrived | ⟨id, chunk, hf, hget, hxlive, harrived⟩
    · rw [hid]
      refine ⟨harrived ▸ (hm h x hx).1.trans (hgrow x.id), fun hylive ↦ ?_⟩
      have hxlive := hopen' hylive
      by_cases hdata : g.op = .data ∧ g.streamId = x.id
      · obtain ⟨id, op, chunk⟩ := g
        obtain ⟨rfl, rfl⟩ := hdata
        obtain ⟨y', hy', hy''⟩ := m.deliver_arrived codec chunk hx
        have hsame : ((m.handleFrame codec buf).toOption.getD m) = m.deliver codec h x chunk := by
          simp only [StreamMux.handleFrame, hg, bind, Except.bind, hlive hx hxlive, hx,
            Option.map_some, Option.getD_some, Except.toOption]
        rw [hsame] at hy
        obtain rfl := Option.some.inj (hy.symm.trans hy')
        rcases hy'' with hclosed | hy''
        · cases hclosed.symm.trans hylive
        · rw [hy'', dataOf_heard, (hm h x hx).2 hxlive]
      · rw [hother x.id hdata, harrived]
        exact (hm h x hx).2 hxlive
    · cases hf
      obtain rfl := (hmapped.of_get hget hx).1
      have heq : y.arrived.flatten = (dataOf x.id (heard ++ [⟨x.id, .data, chunk⟩])).flatten := by
        rw [harrived, dataOf_heard, List.flatten_append, (hm h x hx).2 hxlive]
        simp
      rw [hid, heq]
      exact ⟨List.prefix_rfl, fun _ ↦ rfl⟩
  · rw [harrived, hid, hunheard]
    exact ⟨List.prefix_rfl, fun _ ↦ rfl⟩
  · cases hf
    rw [harrived, hother y.id (by simp), dataOf_eq_nil fun g' hg' _ ↦ hopen rfl g' hg']
    exact ⟨List.prefix_rfl, fun _ ↦ rfl⟩

/-! ## One side of a connection -/

structure StreamMux.Half (odd : Bool) (heard : List Frame) (m : StreamMux) : Prop where
  kept : m.Kept
  owned : m.Owned odd
  speaks : m.Speaks odd heard
  hears : m.Hears heard

def Event.isLocal (m : StreamMux) : Event → Bool
  | .handleFrame _ => false
  | .throws => !(m.stack.head?.any Resume.isFlush)
  | _ => true

theorem Event.frame_of_isLocal {e : Event} (h : e.isLocal m = true) : e.frame = none := by
  cases e with
  | handleFrame => cases h
  | _ => rfl

theorem Event.calm_of_isLocal {e : Event} (h : e.isLocal m = true) : e.Calm m := by
  refine ⟨?_, ?_⟩
  · rintro buf rfl
    cases h
  · rintro ⟨rfl, k, hk, hflush⟩
    rw [isLocal, Option.mem_def.mp hk, Option.any_some, hflush] at h
    cases h

theorem Act.nextId_le (ha : Act f aborts m m') : m.nextId ≤ m'.nextId := by
  cases ha with
  | «open» => exact Nat.le_add_right ..
  | finish | closedByPeer | openFailed =>
    rw [StreamMux.nextId_invoke]
    exact le_rfl
  | _ => exact le_rfl

namespace StreamMux.Half

theorem step_local {e : Event} (hm : m.Half odd heard) (hlocal : e.isLocal m = true)
    (hstep : step codec m e = some m') (hroom : m'.nextId ≤ 2 ^ 32 + 1) : m'.Half odd heard := by
  have hnone := Event.frame_of_isLocal hlocal
  have hacts : Acts none (e.Aborts m) m m' := hnone ▸ step_acts hm.kept.wf hstep
  have hsides : m'.Owned odd ∧
      (m'.nextId ≤ 2 ^ 32 + 1 → m'.Speaks odd heard ∧ m'.Hears heard) := by
    refine hacts.invariant (I := fun m' ↦ m'.Owned odd ∧
      (m'.nextId ≤ 2 ^ 32 + 1 → m'.Speaks odd heard ∧ m'.Hears heard))
      ⟨hm.owned, fun _ ↦ ⟨hm.speaks, hm.hears⟩⟩ ?_
    rintro m₁ m₂ ⟨howned, hsides⟩ ha
    refine ⟨ha.owned howned fun _ _ hf ↦ (nomatch hf), fun hroom ↦ ?_⟩
    obtain ⟨hspeaks, hhears⟩ := hsides (ha.nextId_le.trans hroom)
    exact ⟨ha.speaks hspeaks howned (List.Subset.refl _) hspeaks.reply (by simp) hroom,
      ha.hears hhears hspeaks howned⟩
  obtain ⟨howned, hsides⟩ := hsides
  exact ⟨step_kept hm.kept (Event.calm_of_isLocal hlocal) hstep, howned, (hsides hroom).1,
    (hsides hroom).2⟩

/-- A frame is heard: an OPEN frame is one of the peer and the first under its id, and data on a
stream of this side comes after its OPEN. -/
theorem step_frame {buf : Bytes} (hm : m.Half odd heard) (hstack : m.stack = [])
    (hopen : ∀ g ∈ frames [buf], g.op = .open → ¬ownId odd g.streamId ∧
      ∀ g' ∈ heard, g'.streamId ≠ g.streamId)
    (hreply : ∀ g ∈ frames [buf], g.op = .data → ownId odd g.streamId → g.streamId < m.nextId)
    (hstep : step codec m (.handleFrame buf) = some m') (hroom : m'.nextId ≤ 2 ^ 32 + 1) :
    m'.Half odd (heard ++ frames [buf]) := by
  cases hg : decodeFrame buf with
  | error =>
    have hsame : m' = m := by
      cases hstep
      simp [StreamMux.handleFrame, hg, bind, Except.bind, Except.toOption]
    have hnone : frames [buf] = [] := by simp [frames, hg, Except.toOption]
    rwa [hsame, hnone, List.append_nil]
  | ok g =>
    have hframes : frames [buf] = [g] := by simp [frames, hg, Except.toOption]
    have hframe : (Event.handleFrame buf).frame = some g := by rw [Event.frame, hg]; rfl
    rw [hframes] at hopen hreply ⊢
    replace hopen := hopen g List.mem_cons_self
    have hfresh : g.op = .open → ∀ x ∈ m.objs, x.id ≠ g.streamId := by
      intro hop x hx hid
      obtain ⟨payload, hmem⟩ := hm.speaks.opened x hx (hid ▸ (hopen hop).1)
      exact (hopen hop).2 _ hmem hid
    have hpolite : (Event.handleFrame buf).Polite odd m := by
      intro id payload hf
      cases hframe.symm.trans hf
      exact ⟨(hopen rfl).1, hfresh rfl⟩
    have hreply' : ∀ g' ∈ heard ++ [g], g'.op = .data → ownId odd g'.streamId →
        g'.streamId < m.nextId := by
      intro g' hg'
      rcases List.mem_append.mp hg' with hg' | hg'
      · exact hm.speaks.reply g' hg'
      · exact hreply g' hg'
    have hunheard : dataOf m.nextId (heard ++ [g]) = [] := dataOf_eq_nil fun g' hg' hop hid ↦
      absurd (hreply' g' hg' hop (hid ▸ hm.owned.parity)) (by rw [hid]; exact lt_irrefl _)
    have hspeaks : m'.Speaks odd (heard ++ [g]) := by
      have hsub : heard ⊆ heard ++ [g] := List.subset_append_left ..
      have hcases : (∃ g', decodeFrame buf = .ok g' ∧ Act (some g') False m _) ∨ _ :=
        m.handleFrame_act codec buf
      cases hstep
      rcases hcases with ⟨g', hg', hact⟩ | ⟨hsame, -⟩
      · obtain rfl := Except.ok.inj (hg.symm.trans hg')
        refine hact.speaks hm.speaks hm.owned hsub hreply' (fun id payload hf ↦ ?_) hroom
        cases hf
        exact ⟨streamId_lt hg, (hopen rfl).1, hfresh rfl,
          List.mem_append_right _ List.mem_cons_self⟩
      · rw [hsame]
        exact hm.speaks.still hm.owned hsub hreply' (List.append_nil _).symm rfl rfl fun g hg ↦ by
          cases hg
    have hcalm : (Event.handleFrame buf).Calm m :=
      ⟨fun _ _ ↦ by rw [StreamMux.flushes, hstack]; rfl, fun h ↦ by cases h.1⟩
    exact ⟨step_kept hm.kept hcalm hstep, step_owned hm.kept.wf hm.owned hpolite hstep, hspeaks,
      step_hears hm.hears hm.owned hm.kept.mapped hstack hg (fun hop ↦ (hopen hop).2)
      hunheard hstep⟩

end StreamMux.Half

/-! ## Ids are allocated by `open` -/

namespace StreamMux

@[simp] theorem nextId_endStream (m : StreamMux) (h : Handle) (reason : Option Js.Json) :
    (m.endStream h reason).1.nextId = m.nextId := by
  unfold endStream
  split
  · rfl
  · split_ifs <;> rfl

variable (codec : Codec)

section

variable (m : StreamMux) (h : Handle) (reason : String)

@[simp] theorem nextId_closeStream : (m.closeStream codec h reason).1.nextId = m.nextId := by
  unfold closeStream
  split
  · rfl
  · split_ifs <;> rfl

@[simp] theorem nextId_closeThenEnd : (m.closeThenEnd codec h reason).nextId = m.nextId := by
  have hclose := m.nextId_closeStream codec h reason
  unfold closeThenEnd
  split
  · rename_i m' c heq
    rw [heq] at hclose
    exact hclose
  · rename_i m' heq
    rw [heq] at hclose
    rw [nextId_invoke, nextId_endStream]
    exact hclose

@[simp] theorem nextId_flushLoop (cb : Handler) (rest : List Bytes) :
    (m.flushLoop h cb rest).nextId = m.nextId := by
  cases rest with
  | nil => rfl
  | cons =>
    rw [flushLoop]
    split
    · rfl
    · split_ifs <;> rfl

@[simp] theorem nextId_closeLoop (rest : List Handle) (m : StreamMux) :
    (closeLoop reason rest m).nextId = m.nextId := by
  induction rest generalizing m with
  | nil => rfl
  | cons h rest ih =>
    have hend := m.nextId_endStream h (some (.str reason))
    unfold closeLoop
    split
    · rename_i m' c heq
      rw [heq] at hend
      exact hend
    · rename_i m' heq
      rw [heq] at hend
      exact (ih m').trans hend

@[simp] theorem nextId_deliver (x : MuxStream)
    (chunk : Bytes) : (m.deliver codec h x chunk).nextId = m.nextId := by
  unfold deliver
  split
  · rfl
  split
  · rfl
  · unfold reservePending
    split_ifs
    · rfl
    · exact nextId_closeThenEnd ..
    · exact nextId_closeThenEnd ..
    · rfl

theorem nextId_handleFrame (buf : Bytes) :
    ((m.handleFrame codec buf).toOption.getD m).nextId = m.nextId := by
  unfold handleFrame
  cases decodeFrame buf with
  | error => rfl
  | ok g =>
    simp only [bind, Except.bind]
    cases g.op with
    | «open» =>
      cases codec.parse g.payload <;> dsimp only <;> split_ifs <;> rfl
    | data =>
      cases m.streams.get g.streamId with
      | none => rfl
      | some h =>
        dsimp only [Except.toOption, Option.getD_some]
        cases m.objs[h]? with
        | none => rfl
        | some => exact nextId_deliver ..
    | close =>
      cases m.streams.get g.streamId with
      | none => rfl
      | some => simp [Except.toOption, forget]

theorem nextId_resume (outcome : Option Bool) (k : Resume) :
    (m.resume codec outcome k).nextId = m.nextId := by
  unfold resume
  split
  · rfl
  · split_ifs <;> simp
  · split_ifs
    · rfl
    · split <;> simp [forget]
  · split <;> simp
  · split_ifs <;> simp
  · simp
  · simp

end

end StreamMux

def Event.isOpen : Event → Bool
  | .open _ => true
  | _ => false

theorem step_nextId {e : Event} (h : step codec m e = some m') :
    m.nextId ≤ m'.nextId ∧ m'.nextId ≤ m.nextId + 2 * e.isOpen.toNat := by
  have hsame : m'.nextId = m.nextId →
      m.nextId ≤ m'.nextId ∧ m'.nextId ≤ m.nextId + 2 * e.isOpen.toNat :=
    fun heq ↦ ⟨heq.ge, heq.le.trans (Nat.le_add_right ..)⟩
  cases e with
  | «open» =>
    cases h
    unfold StreamMux.open
    split_ifs
    · exact ⟨le_rfl, Nat.le_add_right ..⟩
    · exact ⟨le_rfl, Nat.le_add_right ..⟩
    · exact ⟨Nat.le_add_right .., le_rfl⟩
  | write =>
    obtain ⟨x, -, rfl⟩ := Option.map_eq_some_iff.mp h
    refine hsame ?_
    unfold StreamMux.write
    split_ifs <;> rfl
  | close =>
    obtain ⟨x, -, rfl⟩ := Option.map_eq_some_iff.mp h
    exact hsame (by simp)
  | onData =>
    obtain ⟨x, -, rfl⟩ := Option.map_eq_some_iff.mp h
    exact hsame (StreamMux.nextId_flushLoop ..)
  | onEnd =>
    obtain ⟨x, -, rfl⟩ := Option.map_eq_some_iff.mp h
    refine hsame ?_
    unfold StreamMux.onEnd
    split_ifs <;> rfl
  | handleFrame =>
    cases h
    exact hsame (StreamMux.nextId_handleFrame ..)
  | closeAll =>
    cases h
    exact hsame (StreamMux.nextId_closeLoop ..)
  | returns | throws =>
    simp only [step] at h
    split at h
    · cases h
    · cases h
      exact hsame (StreamMux.nextId_resume ..)

end

end Swarmlet.Mux
