import Mathlib.Algebra.BigOperators.Group.List.Basic
import Swarmlet.Mux.Acts

/-!
# What the multiplexer buffers

The mux counts the bytes its streams buffer before a data handler is registered. The counter is
written in six places, and callbacks that throw or call back may run between any two of them; still
it is the sum over all streams in every state, also inside callbacks.

The invariant `StreamMux.Accounted` is kept by every act: a stream that is written changes the sum
by what its own count changes (`Accounted.set`), and nothing else changes it.
-/

namespace Swarmlet.Mux

/-- What a stream counts is what it buffers; one that is closed or has ended buffers nothing. -/
structure MuxStream.Accounted (x : MuxStream) : Prop where
  bytes : x.pendingBytes = (x.pending.map List.length).sum
  bound : x.pendingBytes ≤ MAX_PENDING_STREAM_BYTES
  closed : x.isClosed = true → x.pending = []

structure StreamMux.Accounted (m : StreamMux) : Prop where
  counter : m.pendingBytes = ((m.objs.map (·.pendingBytes)).sum : ℕ)
  bound : m.pendingBytes ≤ MAX_PENDING_MUX_BYTES
  size : m.streams.size ≤ MAX_OPEN_STREAMS
  stream : ∀ x ∈ m.objs, x.Accounted

theorem MuxStream.Accounted.cleared {y : MuxStream} (hpending : y.pending = [])
    (hbytes : y.pendingBytes = 0) : y.Accounted where
  bytes := by simp [hpending, hbytes]
  bound := by simp [hbytes]
  closed _ := hpending

theorem sum_set {α : Type*} {g : α → ℕ} {l : List α} {i : ℕ} {x : α} (h : l[i]? = some x) (y : α) :
    ((l.set i y).map g).sum + g x = (l.map g).sum + g y := by
  induction l generalizing i with
  | nil => simp at h
  | cons a l ih =>
    cases i with
    | zero =>
      obtain rfl : a = x := by simpa using h
      simp only [List.set_cons_zero, List.map_cons, List.sum_cons]
      omega
    | succ i =>
      have := ih (by simpa using h)
      simp only [List.set_cons_succ, List.map_cons, List.sum_cons]
      omega

section

variable {f : Option Frame} {aborts : Prop} {m m' : StreamMux}

section

variable {x y : MuxStream} {h : Handle}

theorem StreamMux.Accounted.set (hm : m.Accounted) (hobjs : m'.objs = m.objs.set h y)
    (hx : m.objs[h]? = some x) (hcount : m'.pendingBytes = m.pendingBytes - x.pendingBytes +
    y.pendingBytes) (hy : y.Accounted) (hbound : m'.pendingBytes ≤ MAX_PENDING_MUX_BYTES)
    (hsize : m'.streams.size ≤ m.streams.size) : m'.Accounted where
  counter := by
    have hsum := sum_set (g := (·.pendingBytes)) hx y
    rw [hcount, hm.counter, hobjs]
    omega
  bound := hbound
  size := hsize.trans hm.size
  stream z hz := by
    rw [hobjs] at hz
    rcases List.mem_or_eq_of_mem_set hz with hz | rfl
    · exact hm.stream z hz
    · exact hy

theorem StreamMux.Accounted.same (hm : m.Accounted) (hobjs : m'.objs = m.objs.set h y)
    (hx : m.objs[h]? = some x) (hcount : m'.pendingBytes = m.pendingBytes)
    (hstreams : m'.streams = m.streams) (hpending : y.pending = x.pending)
    (hbytes : y.pendingBytes = x.pendingBytes) (hclosed : y.isClosed = x.isClosed) :
    m'.Accounted := by
  have hxa := hm.stream x (List.mem_of_getElem? hx)
  refine hm.set hobjs hx (by rw [hcount, hbytes]; omega) ⟨?_, ?_, ?_⟩ (hcount ▸ hm.bound)
    (hstreams ▸ le_rfl)
  · rw [hbytes, hpending]
    exact hxa.bytes
  · rw [hbytes]
    exact hxa.bound
  · rw [hclosed, hpending]
    exact hxa.closed

theorem StreamMux.Accounted.release (hm : m.Accounted) (hobjs : m'.objs = m.objs.set h y)
    (hx : m.objs[h]? = some x) (hcount : m'.pendingBytes = m.pendingBytes - x.pendingBytes)
    (hsize : m'.streams.size ≤ m.streams.size) (hpending : y.pending = [])
    (hbytes : y.pendingBytes = 0) : m'.Accounted := by
  refine hm.set hobjs hx (by rw [hcount, hbytes]; simp) (.cleared hpending hbytes) ?_ hsize
  have := hm.bound
  omega

theorem StreamMux.Accounted.create (hm : m.Accounted) (hobjs : m'.objs = m.objs ++ [y])
    (hcount : m'.pendingBytes = m.pendingBytes) (hsize : m'.streams.size ≤ MAX_OPEN_STREAMS)
    (hpending : y.pending = []) (hbytes : y.pendingBytes = 0) : m'.Accounted where
  counter := by
    rw [hcount, hm.counter, hobjs]
    simp [hbytes]
  bound := hcount ▸ hm.bound
  size := hsize
  stream z hz := by
    rw [hobjs, List.mem_append, List.mem_singleton] at hz
    rcases hz with hz | rfl
    · exact hm.stream z hz
    · exact .cleared hpending hbytes

end

/-- **Every act keeps the account.** -/
theorem Act.accounted (hm : m.Accounted) (ha : Act f aborts m m') : m'.Accounted := by
  have hstill : ∀ m' : StreamMux, m'.objs = m.objs → m'.pendingBytes = m.pendingBytes →
      m'.streams.size ≤ m.streams.size → m'.Accounted := fun m' hobjs hcount hsize ↦
    ⟨by rw [hcount, hobjs, hm.counter], hcount ▸ hm.bound, hsize.trans hm.size, hobjs ▸ hm.stream⟩
  have hforget : ∀ id, (m.forget id).streams.size ≤ m.streams.size := m.streams.size_erase_le
  cases ha with
  | pop | tell | refuse | skip => exact hstill _ rfl rfl le_rfl
  | register cb hx | endNext hstack hx => exact hm.release rfl hx rfl le_rfl rfl rfl
  | hand hstack hx | registerEnd cb hx | writeLate chunk hx | write chunk hx | deliver hf hget hx =>
    exact hm.same rfl hx rfl rfl rfl rfl rfl
  | close payload k hx => exact hm.release rfl hx rfl (hforget _) rfl rfl
  | finish reason hx =>
    exact hm.release (StreamMux.objs_invoke ..) hx (StreamMux.pendingBytes_invoke ..)
      (by rw [StreamMux.streams_invoke]; exact le_rfl) rfl rfl
  | closedByPeer reason hf hget hx | openFailed reason hx =>
    exact hm.release (StreamMux.objs_invoke ..) hx (StreamMux.pendingBytes_invoke ..)
      (by rw [StreamMux.streams_invoke]; exact hforget _) rfl rfl
  | forget => exact hstill _ rfl rfl (hforget _)
  | @buffer h x id chunk hf hget hx hlive hcb hstream hmux =>
    have hxa := hm.stream x (List.mem_of_getElem? hx)
    refine hm.set rfl hx ?_ ⟨?_, hstream, ?_⟩ hmux le_rfl
    · simp only [StreamMux.put]
      omega
    · simp [hxa.bytes]
    · intro hclosed
      cases hlive.symm.trans hclosed
  | «open» header payload hsize | accept header hf hget hsize =>
    exact hm.create rfl rfl ((m.streams.size_set_le _ _).trans hsize) rfl rfl
  | closeAll => exact hstill _ rfl rfl (Nat.zero_le _)

end

/-- **Buffering is bounded and exactly accounted** in every state of every run: the counter of the
mux is the number of bytes its streams buffer, at most 64 MiB; no stream buffers more than 16 MiB;
at most 1024 streams are open; and a stream that is closed or has ended buffers nothing. -/
theorem buffering_accounted {codec : Codec} {odd : Bool} {es : List Event} {m : StreamMux}
    (h : EventMachine.run (step codec) (.new odd) es = some m) :
    m.pendingBytes = ((m.objs.map fun x ↦ (x.pending.map List.length).sum).sum : ℕ) ∧
    0 ≤ m.pendingBytes ∧ m.pendingBytes ≤ MAX_PENDING_MUX_BYTES ∧
    (∀ x ∈ m.objs, (x.pending.map List.length).sum ≤ MAX_PENDING_STREAM_BYTES) ∧
    m.streams.size ≤ MAX_OPEN_STREAMS ∧
    ∀ x ∈ m.objs, x.closedLocally = true ∨ x.ended = true → x.pending = [] := by
  have hm : m.Accounted := run_keeps h
    ⟨by simp [StreamMux.new], by simp [StreamMux.new], Nat.zero_le _, by simp [StreamMux.new]⟩
    fun _ _ _ _ hm ha ↦ ha.accounted hm
  have hbytes : (m.objs.map fun x ↦ (x.pending.map List.length).sum) =
      m.objs.map (·.pendingBytes) :=
    List.map_congr_left fun x hx ↦ (hm.stream x hx).bytes.symm
  refine ⟨by rw [hbytes, hm.counter], by rw [hm.counter]; exact Int.natCast_nonneg _, hm.bound,
    fun x hx ↦ ?_, hm.size, fun x hx hclosed ↦ (hm.stream x hx).closed ?_⟩
  · rw [← (hm.stream x hx).bytes]
    exact (hm.stream x hx).bound
  · simpa [MuxStream.isClosed] using hclosed

def plainCodec : Codec where
  stringify _ := []
  parse _ := some (.obj [("kind", .str "http"), ("port", .num 80)])

/-- The peer opens a stream and sends three bytes, which are buffered. -/
theorem buffering_accounted_three : ∃ m, EventMachine.run (step plainCodec) (.new true)
    [.handleFrame (encodeFrame 2 .open []), .returns true,
    .handleFrame (encodeFrame 2 .data [1, 2, 3])] =
      some m ∧ m.pendingBytes = 3 ∧ m.streams.size ≤ MAX_OPEN_STREAMS := by
  obtain ⟨m, hm, hbytes⟩ := EventMachine.exists_run (step plainCodec) (.new true)
    [.handleFrame (encodeFrame 2 .open []), .returns true,
    .handleFrame (encodeFrame 2 .data [1, 2, 3])] (fun m ↦ m.pendingBytes = 3) (by decide +kernel)
  obtain ⟨-, -, -, -, hsize, -⟩ := buffering_accounted hm
  exact ⟨m, hm, hbytes, hsize⟩

end Swarmlet.Mux
