import Mathlib.Algebra.Order.Ring.Nat
import Swarmlet.Lib.Machine

/-!
# The outbox of the control socket

`SocketOutbox` stands between the control plane and a WebSocket that may push back. It hands a frame
over at once when nothing is in the way, and queues it otherwise; the queue is an array with a
moving head, flushed by a timer that the drain callback sets.

## The construction

The transport is a function of everything that has happened, so that it covers every sequence of
results. `log` is that history: the frames passed to `send` while the outbox was open, the frames
handed over with what came back, and the drains, the failures and the closing.

## The invariant

While the outbox is open, the frames handed over and those still to come, which are the queue and
the frame in flight, are together those that were passed (`Open.passed`). That a timer stands for
the drain of the last `-1` is counted: `Open.drains`.
-/

namespace Swarmlet

inductive SocketFrame
  | text (s : String)
  | binary (bytes : List UInt8)
deriving DecidableEq

def SocketFrame.size : SocketFrame → ℕ
  | text s => s.utf8ByteSize
  | binary bytes => bytes.length

/-- What `sendRaw` comes to. -/
inductive SocketReply
  | result (n : ℤ)
  | thrown
deriving DecidableEq

def SocketReply.lost : SocketReply → Bool
  | result n => n = 0
  | thrown => true

def SocketReply.backpressure : SocketReply → Bool
  | result n => n < 0
  | thrown => false

namespace SocketOutbox

inductive Act
  | passed (frame : SocketFrame)
  | handed (frame : SocketFrame) (reply : SocketReply)
  | drained
  | closed
  | disconnected (reason : String)
deriving DecidableEq

namespace Act

def isHanded : Act → Bool
  | handed _ _ => true
  | _ => false

def ends : Act → Bool
  | handed _ reply => reply.lost
  | closed => true
  | disconnected _ => true
  | _ => false

def blocks : Act → Bool
  | handed _ reply => reply.backpressure
  | _ => false

def handedFrame : Act → Option SocketFrame
  | handed frame _ => some frame
  | _ => none

def passedFrame : Act → Option SocketFrame
  | passed frame => some frame
  | _ => none

end Act

end SocketOutbox

structure SocketOutbox where
  queue : List (Option SocketFrame) := []
  head : ℕ := 0
  bytes : ℤ := 0
  blocked : Bool := false
  closed : Bool := false
  resumeTimer : Bool := false
  log : List SocketOutbox.Act := []

namespace SocketOutbox

/-- The transport, given what has happened before. -/
abbrev Transport := List Act → SocketFrame → SocketReply

section

variable (sendRaw : Transport) (o : SocketOutbox) (frame : SocketFrame)

def note (a : Act) : SocketOutbox := { o with log := o.log ++ [a] }

def close : SocketOutbox :=
  { o.note .closed with
    closed := true, resumeTimer := false, queue := [], head := 0, bytes := 0 }

def fail (reason : String) : Bool × SocketOutbox :=
  (false, o.close.note (.disconnected reason))

def submit : Bool × SocketOutbox :=
  let reply := sendRaw o.log frame
  let o := o.note (.handed frame reply)
  match reply with
  | .result result =>
    if result = 0 then o.fail "WebSocket dropped an outbound frame"
    else (true, { o with blocked := result < 0 })
  | .thrown => o.fail "WebSocket send failed"

def push : SocketOutbox :=
  { o with queue := o.queue ++ [some frame], bytes := o.bytes + frame.size }

def accept (limit : ℕ) (o : SocketOutbox) (frame : SocketFrame) : Bool × SocketOutbox :=
  if (frame.size : ℤ) > limit - o.bytes then o.fail "outbound queue limit exceeded"
  else if o.blocked = false ∧ o.head = o.queue.length then o.submit sendRaw frame
  else (true, o.push frame)

def send (limit : ℕ) (o : SocketOutbox) (frame : SocketFrame) : Bool × SocketOutbox :=
  if o.closed then (false, o) else (o.note (.passed frame)).accept sendRaw limit frame

def drain : SocketOutbox :=
  let o := o.note .drained
  if o.closed || o.resumeTimer then o else { o with resumeTimer := true }

def pop : SocketOutbox :=
  { o with queue := o.queue.set o.head none, head := o.head + 1, bytes := o.bytes - frame.size }

end

variable {frame : SocketFrame} {log : List Act} {b : Act}

theorem submit_fst {sendRaw : Transport} {o : SocketOutbox}
    (h : (o.submit sendRaw frame).1 = true) : ∃ n : ℤ, n ≠ 0 ∧ sendRaw o.log frame = .result n ∧
      (o.submit sendRaw frame).2 =
        { o.note (.handed frame (.result n)) with blocked := n < 0 } := by
  unfold submit at h ⊢
  cases hreply : sendRaw o.log frame with
  | thrown => simp [hreply, fail] at h
  | result n =>
    simp only [hreply] at h ⊢
    by_cases hn : n = 0
    · simp [hn, fail] at h
    · exact ⟨n, hn, rfl, by rw [if_neg hn]⟩

def flushLoop (sendRaw : Transport) (o : SocketOutbox) : Bool × SocketOutbox :=
  if h : o.blocked = false ∧ o.head < o.queue.length then
    match o.queue[o.head] with
    -- An entry from the head on is a frame; see `Sound.frames`.
    | none => (false, o)
    | some frame =>
      if hsent : ((o.pop frame).submit sendRaw frame).1 = true then
        flushLoop sendRaw ((o.pop frame).submit sendRaw frame).2
      else ((o.pop frame).submit sendRaw frame)
  else (true, o)
termination_by o.queue.length - o.head
decreasing_by
  obtain ⟨n, -, -, heq⟩ := submit_fst hsent
  rw [heq]
  simp only [note, pop, List.length_set]
  omega

def flush (sendRaw : Transport) (o : SocketOutbox) : SocketOutbox :=
  if o.closed then o
  else
    let (ended, o) := flushLoop sendRaw { o with blocked := false }
    if !ended then o
    else if o.head = o.queue.length then { o with queue := [], head := 0 }
    else if o.head > 4096 && o.head * 2 > o.queue.length then
      { o with queue := o.queue.drop o.head, head := 0 }
    else o

inductive Event
  | send (frame : SocketFrame)
  | drain
  | resume
  | close

def step (sendRaw : Transport) (limit : ℕ) (o : SocketOutbox) : Event → Option SocketOutbox
  | .send frame => some (o.send sendRaw limit frame).2
  | .drain => some o.drain
  | .resume => if o.resumeTimer then some ({ o with resumeTimer := false }.flush sendRaw) else none
  | .close => some o.close

section

variable (o : SocketOutbox) (log : List Act)

def drains : ℕ := o.log.countP (· = .drained)

def backpressures : ℕ := o.log.countP (·.blocks)

/-- The transport signals a drain only after a `-1`, and at most once for each. -/
def Admits : Event → Prop
  | .drain => o.drains < o.backpressures
  | _ => True

instance (o : SocketOutbox) : (e : Event) → Decidable (o.Admits e)
  | .drain => inferInstanceAs (Decidable (o.drains < o.backpressures))
  | .send _ => isTrue trivial
  | .resume => isTrue trivial
  | .close => isTrue trivial

/-! ## The history of an outbox -/

def handed : List SocketFrame := o.log.filterMap (·.handedFrame)

def passed : List SocketFrame := o.log.filterMap (·.passedFrame)

def queued : List SocketFrame := (o.queue.drop o.head).filterMap id

/-- Nothing is handed over after a frame is lost, a failure or a close. -/
def Stops : Prop := log.Pairwise fun a b ↦ a.ends = true → b.isHanded = false

/-- Every backpressure so far has been followed by a drain. -/
def Released : Prop :=
  ∀ l a m, a.blocks = true → log = l ++ a :: m → .drained ∈ m

/-- Between a backpressure and the next frame that is handed over there is a drain. -/
def Waits : Prop :=
  ∀ l a m b l', a.blocks = true → b.isHanded = true → log = l ++ a :: (m ++ b :: l') → .drained ∈ m

end

private theorem snoc_eq {l m : List Act} {a : Act} (h : log ++ [b] = l ++ a :: m) :
    (m = [] ∧ a = b ∧ log = l) ∨ ∃ m', m = m' ++ [b] ∧ log = l ++ a :: m' := by
  rcases m.eq_nil_or_concat with rfl | ⟨m, c, rfl⟩
  · obtain ⟨hlog, hab⟩ := List.append_inj' h rfl
    exact .inl ⟨rfl, (List.cons.inj hab).1.symm, hlog⟩
  · rw [List.concat_eq_append, ← List.cons_append, ← List.append_assoc] at h
    obtain ⟨hlog, hbc⟩ := List.append_inj' h rfl
    exact .inr ⟨m, by rw [List.concat_eq_append, hbc], hlog⟩

theorem released_snoc (h : Released log) (hb : b.blocks = false) : Released (log ++ [b]) := by
  intro l a m ha heq
  obtain ⟨-, rfl, -⟩ | ⟨m, rfl, hlog⟩ := snoc_eq heq
  · rw [ha] at hb
    cases hb
  · exact List.mem_append_left _ (h l a m ha hlog)

theorem released_drained (log : List Act) : Released (log ++ [.drained]) := by
  intro l a m ha heq
  obtain ⟨-, rfl, -⟩ | ⟨m, rfl, -⟩ := snoc_eq heq
  · cases ha
  · simp

theorem waits_snoc (h : Waits log) (hb : b.isHanded = true → Released log) :
    Waits (log ++ [b]) := by
  intro l a m c l' ha hc heq
  rw [← List.cons_append, ← List.append_assoc] at heq
  obtain ⟨-, rfl, hlog⟩ | ⟨l', rfl, hlog⟩ := snoc_eq heq
  · exact hb hc l a m ha hlog
  · rw [List.append_assoc, List.cons_append] at hlog
    exact h l a m c l' ha hc hlog

theorem stops_snoc (h : Stops log) (hb : b.isHanded = true → ∀ a ∈ log, a.ends = false) :
    Stops (log ++ [b]) := by
  refine List.pairwise_append.mpr ⟨h, List.pairwise_singleton _ _, fun a ha c hc hends ↦ ?_⟩
  rw [List.mem_singleton.mp hc, ← Bool.not_eq_true]
  intro hhanded
  rw [hb hhanded a ha] at hends
  cases hends

/-! ## The invariant -/

variable {sendRaw : Transport} {limit : ℕ} {pending : List SocketFrame} {o : SocketOutbox}

structure Kept (limit : ℕ) (o : SocketOutbox) : Prop where
  head : o.head ≤ o.queue.length
  frames : o.queue.drop o.head = o.queued.map some
  bytes : o.bytes = (o.queued.map (·.size)).sum
  bound : o.bytes ≤ limit
  order : o.handed <+: o.passed
  stops : Stops o.log
  waits : Waits o.log

/-- What holds besides while it is open; `pending` are the frames still to come. -/
structure Open (pending : List SocketFrame) (o : SocketOutbox) : Prop where
  passed : o.handed ++ pending = o.passed
  quiet : ∀ a ∈ o.log, a.ends = false
  released : o.blocked = false ∨ o.resumeTimer = true → Released o.log
  timer : o.resumeTimer = true → o.blocked = true
  drains : o.backpressures ≤ o.drains + if o.blocked && !o.resumeTimer then 1 else 0

structure Sound (limit : ℕ) (pending : List SocketFrame) (o : SocketOutbox) : Prop
    extends Kept limit o where
  opened : o.closed = false → Open pending o

def Resting (limit : ℕ) (o : SocketOutbox) : Prop := Sound limit o.queued o

section

variable (o : SocketOutbox) (a : Act)

@[simp] theorem handed_note : (o.note a).handed = o.handed ++ a.handedFrame.toList := by
  cases a <;> simp [handed, note, Act.handedFrame]

@[simp] theorem passed_note : (o.note a).passed = o.passed ++ a.passedFrame.toList := by
  cases a <;> simp [passed, note, Act.passedFrame]

@[simp] theorem drains_note : (o.note a).drains = o.drains + if a = .drained then 1 else 0 := by
  simp [drains, note, List.countP_append, List.countP_singleton]

@[simp] theorem backpressures_note :
    (o.note a).backpressures = o.backpressures + if a.blocks then 1 else 0 := by
  simp [backpressures, note, List.countP_append, List.countP_singleton]

end

theorem Kept.note {a : Act} (h : Kept limit o) (hhanded : a.isHanded = false) :
    Kept limit (o.note a) where
  __ := h
  order := by
    have hnone : a.handedFrame = none := by cases a <;> first | rfl | cases hhanded
    simpa [hnone] using h.order.trans (List.prefix_append _ _)
  stops := stops_snoc h.stops fun hh ↦ by rw [hhanded] at hh; cases hh
  waits := waits_snoc h.waits fun hh ↦ by rw [hhanded] at hh; cases hh

theorem Open.quiet_note {a : Act} (h : Open pending o) (ha : a.ends = false) :
    ∀ b ∈ (o.note a).log, b.ends = false := fun b hb ↦ by
  rcases List.mem_append.mp hb with hb | hb
  · exact h.quiet b hb
  · exact List.mem_singleton.mp hb ▸ ha

theorem Kept.flags (h : Kept limit o) (blocked closed resumeTimer : Bool) :
    Kept limit { o with blocked, closed, resumeTimer } :=
  ⟨h.head, h.frames, h.bytes, h.bound, h.order, h.stops, h.waits⟩

theorem Kept.close (h : Kept limit o) : Sound limit pending o.close :=
  have hnote := h.note rfl
  ⟨⟨Nat.zero_le _, rfl, rfl, Int.natCast_nonneg limit, hnote.order, hnote.stops, hnote.waits⟩,
    nofun⟩

theorem Kept.fail (h : Kept limit o) (reason : String) : Sound limit pending (o.fail reason).2 :=
  have hclosed : Sound limit pending o.close := h.close
  ⟨hclosed.toKept.note rfl, nofun⟩

theorem Sound.submit (h : Sound limit (frame :: o.queued) o) (hopen : o.closed = false)
    (hblocked : o.blocked = false) :
    Resting limit (o.submit sendRaw frame).2 := by
  have ho := h.opened hopen
  have hpassed (reply : SocketReply) : (o.note (.handed frame reply)).handed ++ o.queued =
      (o.note (.handed frame reply)).passed := by
    rw [handed_note, passed_note, ← ho.passed]
    simp [Act.handedFrame, Act.passedFrame]
  have hkept (reply : SocketReply) : Kept limit (o.note (.handed frame reply)) :=
    ⟨h.head, h.frames, h.bytes, h.bound, ⟨o.queued, hpassed reply⟩,
      stops_snoc h.stops fun _ ↦ ho.quiet, waits_snoc h.waits fun _ ↦ ho.released (.inl hblocked)⟩
  have htimer : o.resumeTimer = false := by
    rw [← Bool.not_eq_true]
    exact fun htimer ↦ nomatch hblocked.symm.trans (ho.timer htimer)
  unfold SocketOutbox.submit
  cases sendRaw o.log frame with
  | thrown => exact (hkept _).fail _
  | result n =>
    by_cases hn : n = 0
    · simp only [if_pos hn]
      exact (hkept _).fail _
    simp only [if_neg hn]
    have hdrains := ho.drains
    rw [hblocked, Bool.false_and, if_neg Bool.false_ne_true] at hdrains
    refine ⟨(hkept (.result n)).flags _ _ _, fun _ ↦ ⟨?_, ?_, ?_, ?_, ?_⟩⟩
    · exact hpassed _
    · exact ho.quiet_note (a := .handed frame (.result n)) (decide_eq_false hn)
    · rintro (hfree | hset)
      · exact released_snoc (ho.released (.inl hblocked)) hfree
      · exact nomatch htimer.symm.trans hset
    · exact fun hset ↦ nomatch htimer.symm.trans hset
    · show (o.note _).backpressures ≤ (o.note _).drains + if decide (n < 0) &&
        !o.resumeTimer then 1 else 0
      rw [backpressures_note, drains_note, htimer, Bool.not_false, Bool.and_true,
        if_neg (Act.noConfusion : Act.handed frame (.result n) ≠ .drained)]
      exact Nat.add_le_add_right hdrains _

theorem Resting.pop (h : Resting limit o) (hopen : o.closed = false)
    (hlt : o.head < o.queue.length) : ∃ frame, o.queue[o.head] = some frame ∧
      Sound limit (frame :: (o.pop frame).queued) (o.pop frame) := by
  have ho := h.opened hopen
  have hdrop := List.drop_eq_getElem_cons hlt
  cases hframe : o.queue[o.head] with
  | none =>
    have hmem : none ∈ o.queued.map some := by
      rw [← h.frames, hdrop, hframe]
      exact List.mem_cons_self
    simp at hmem
  | some frame =>
    have hqueued : o.queued = frame :: (o.pop frame).queued := by
      simp [queued, SocketOutbox.pop, hdrop, hframe, List.drop_set]
    refine ⟨frame, rfl, ⟨⟨?_, ?_, ?_, ?_, h.order, h.stops, h.waits⟩, fun _ ↦
      ⟨?_, ho.quiet, ho.released, ho.timer, ho.drains⟩⟩⟩
    · rw [SocketOutbox.pop, List.length_set]
      exact hlt
    · have hframes := h.frames
      rw [hqueued, hdrop, hframe, List.map_cons] at hframes
      simpa [SocketOutbox.pop, List.drop_set] using (List.cons.inj hframes).2
    · have hbytes := h.bytes
      rw [hqueued, List.map_cons, List.sum_cons] at hbytes
      rw [show (o.pop frame).bytes = o.bytes - frame.size from rfl]
      omega
    · have hbound := h.bound
      rw [show (o.pop frame).bytes = o.bytes - frame.size from rfl]
      omega
    · exact hqueued ▸ ho.passed

theorem Sound.accept (h : Sound limit (o.queued ++ [frame]) o) (hopen : o.closed = false) :
    Resting limit (o.accept sendRaw limit frame).2 := by
  have ho := h.opened hopen
  unfold SocketOutbox.accept
  split_ifs with hlimit hdirect
  · exact h.toKept.fail _
  · have hqueued : o.queued = [] := by
      rw [queued, hdirect.2, List.drop_length]
      rfl
    exact Sound.submit (hqueued ▸ h) hopen hdirect.1
  · have hqueued : (o.push frame).queued = o.queued ++ [frame] := by
      simp [queued, push, List.drop_append_of_le_length h.head]
    refine ⟨⟨?_, ?_, ?_, ?_, h.order, h.stops, h.waits⟩, fun _ ↦
      ⟨?_, ho.quiet, ho.released, ho.timer, ho.drains⟩⟩
    · rw [push, List.length_append]
      exact Nat.le_add_right_of_le h.head
    · rw [hqueued, List.map_append, ← h.frames]
      exact List.drop_append_of_le_length h.head
    · rw [hqueued, List.map_append, List.sum_append, Int.natCast_add, ← h.bytes]
      rfl
    · have hle := Int.not_lt.mp hlimit
      rw [show (o.push frame).bytes = o.bytes + frame.size from rfl]
      omega
    · exact hqueued ▸ ho.passed

theorem Resting.send (h : Resting limit o) :
    Resting limit (o.send sendRaw limit frame).2 := by
  unfold SocketOutbox.send
  split_ifs with hopen
  · exact h
  refine Sound.accept ⟨h.toKept.note rfl, fun _ ↦ ?_⟩ (Bool.eq_false_iff.mpr hopen)
  have ho := h.opened (Bool.eq_false_iff.mpr hopen)
  refine ⟨?_, ho.quiet_note rfl, fun hr ↦ released_snoc (ho.released hr) rfl, ho.timer, ?_⟩
  · rw [handed_note, passed_note, ← ho.passed]
    simp [Act.handedFrame, Act.passedFrame, queued, note]
  · rw [backpressures_note, drains_note]
    exact ho.drains

theorem Resting.drain (h : Resting limit o) (hadmits : o.drains < o.backpressures) :
    Resting limit o.drain := by
  have hkept := h.toKept.note (a := .drained) rfl
  unfold SocketOutbox.drain
  by_cases hopen : o.closed = true
  · have hcond : ((o.note .drained).closed || (o.note .drained).resumeTimer) = true := by
      rw [show (o.note .drained).closed = true from hopen, Bool.true_or]
    simp only [if_pos hcond]
    exact ⟨hkept, fun hclosed ↦ absurd hopen (Bool.eq_false_iff.mp hclosed)⟩
  have ho := h.opened (Bool.eq_false_iff.mpr hopen)
  obtain ⟨hblocked, htimer⟩ : o.blocked = true ∧ o.resumeTimer = false := by
    have hdrains := ho.drains
    by_cases hwait : (o.blocked && !o.resumeTimer) = true
    · exact ⟨(Bool.and_eq_true_iff.mp hwait).1,
        Bool.not_eq_true' _ ▸ (Bool.and_eq_true_iff.mp hwait).2⟩
    · rw [if_neg hwait] at hdrains
      omega
  have hcond : ((o.note .drained).closed || (o.note .drained).resumeTimer) = false := by
    rw [show (o.note .drained).closed = false from Bool.eq_false_iff.mpr hopen,
      show (o.note .drained).resumeTimer = false from htimer, Bool.false_or]
  simp only [hcond, if_neg Bool.false_ne_true]
  refine ⟨hkept.flags _ _ _, fun _ ↦
    ⟨?_, ho.quiet_note rfl, fun _ ↦ released_drained _, fun _ ↦ hblocked, ?_⟩⟩
  · show (o.note .drained).handed ++ o.queued = (o.note .drained).passed
    rw [handed_note, passed_note, ← ho.passed]
    simp [Act.handedFrame, Act.passedFrame]
  · show (o.note .drained).backpressures ≤ (o.note .drained).drains +
      if o.blocked && !true then 1 else 0
    have hdrains := ho.drains
    rw [hblocked, htimer] at hdrains
    rw [backpressures_note, drains_note, hblocked]
    exact hdrains

theorem Resting.flushLoop (h : Resting limit o) (hopen : o.closed = false) :
    Resting limit (o.flushLoop sendRaw).2 := by
  fun_induction SocketOutbox.flushLoop sendRaw o with
  | case1 o hmore hnone =>
    obtain ⟨frame, hframe, -⟩ := h.pop hopen hmore.2
    cases hnone.symm.trans hframe
  | case2 o hmore frame hframe hsent ih =>
    obtain ⟨frame', hframe', hpop⟩ := h.pop hopen hmore.2
    cases hframe.symm.trans hframe'
    obtain ⟨n, -, -, heq⟩ := submit_fst hsent
    refine ih (hpop.submit hopen hmore.1) ?_
    rw [heq]
    exact hopen
  | case3 o hmore frame hframe hsent =>
    obtain ⟨frame', hframe', hpop⟩ := h.pop hopen hmore.2
    cases hframe.symm.trans hframe'
    exact hpop.submit hopen hmore.1
  | case4 o hmore => exact h

theorem Resting.compact (h : Resting limit o) :
    Resting limit { o with queue := o.queue.drop o.head, head := 0 } :=
  ⟨⟨Nat.zero_le _, h.frames, h.bytes, h.bound, h.order, h.stops, h.waits⟩, fun hopen ↦
    have ho := h.opened hopen
    ⟨ho.passed, ho.quiet, ho.released, ho.timer, ho.drains⟩⟩

theorem Resting.flush (h : Resting limit o) (htimer : o.resumeTimer = true) :
    Resting limit ({ o with resumeTimer := false }.flush sendRaw) := by
  unfold SocketOutbox.flush
  by_cases hopen : o.closed = true
  · rw [if_pos hopen]
    exact ⟨h.toKept.flags _ _ _, fun hclosed ↦ absurd hopen (Bool.eq_false_iff.mp hclosed)⟩
  rw [if_neg hopen]
  have ho := h.opened (Bool.eq_false_iff.mpr hopen)
  have hstart : Resting limit { o with resumeTimer := false, blocked := false } := by
    refine ⟨h.toKept.flags _ _ _, fun _ ↦
      ⟨ho.passed, ho.quiet, fun _ ↦ ho.released (.inr htimer), nofun, ?_⟩⟩
    have hdrains := ho.drains
    rw [htimer, Bool.not_true, Bool.and_false] at hdrains
    exact hdrains
  have hloop : Resting limit (SocketOutbox.flushLoop sendRaw
    { o with resumeTimer := false, blocked := false }).2 :=
      hstart.flushLoop (Bool.eq_false_iff.mpr hopen)
  generalize SocketOutbox.flushLoop sendRaw
    { o with resumeTimer := false, blocked := false } = loop at hloop ⊢
  obtain ⟨ended, o'⟩ := loop
  cases ended with
  | false => exact hloop
  | true =>
    simp only [Bool.not_true, if_neg Bool.false_ne_true]
    split_ifs with hall
    · have hcompact := hloop.compact
      rw [hall, List.drop_length] at hcompact
      exact hcompact
    · exact hloop.compact
    · exact hloop

theorem Resting.step {o' : SocketOutbox} {e : Event} (h : Resting limit o) (hadmits : o.Admits e)
    (hstep : step sendRaw limit o e = some o') : Resting limit o' := by
  cases e with
  | send frame =>
    cases hstep
    exact h.send
  | drain =>
    cases hstep
    exact h.drain hadmits
  | resume =>
    simp only [SocketOutbox.step] at hstep
    split_ifs at hstep with htimer
    cases hstep
    exact h.flush htimer
  | close =>
    cases hstep
    exact h.toKept.close

theorem resting_init (limit : ℕ) : Resting limit {} where
  head := Nat.le_refl 0
  frames := rfl
  bytes := rfl
  bound := Int.natCast_nonneg limit
  order := List.prefix_rfl
  stops := .nil
  waits := fun l _ _ _ _ _ _ h ↦ by simp at h
  opened _ := ⟨rfl, nofun, fun _ l _ _ _ h ↦ by simp at h, nofun, Nat.le_refl 0⟩

/-- **The outbox never reorders, repeats or skips**: over every run in which the transport signals a
drain only after a `-1` and at most once for each, whatever its replies are. -/
theorem handed_in_order {es : List Event}
    (hpath : EventMachine.Path (step sendRaw limit) Admits {} es o) :
    o.handed <+: o.passed ∧ Stops o.log ∧ Waits o.log ∧
      o.bytes = (o.queued.map (·.size)).sum ∧ o.bytes ≤ limit :=
  have h : Resting limit o := hpath.invariant (resting_init limit)
    fun _ _ _ hs hadmits hstep ↦ hs.step hadmits hstep
  ⟨h.order, h.stops, h.waits, h.bytes, h.bound⟩

/-- A transport that pushes back on the first frame and drops the frame `c`. -/
def fitful : Transport := fun log frame ↦
  if frame = .text "c" then .result 0 else if log.any (·.isHanded) then .result 1 else .result (-1)

/-- The second frame waits for the drain, and after the third, which is lost, nothing follows. -/
theorem handed_in_order_fitful : ∃ o, EventMachine.Path (step fitful 8) Admits {}
      [.send (.text "a"), .send (.text "b"), .drain, .resume, .send (.text "c"),
      .send (.text "d")] o ∧
    o.handed = [.text "a", .text "b", .text "c"] ∧ o.handed <+: o.passed ∧ Stops o.log ∧
      Waits o.log := by
  obtain ⟨o, hrun, hhanded⟩ := EventMachine.exists_run (step fitful 8) {} [.send (.text "a"),
    .send (.text "b"), .drain, .resume, .send (.text "c"), .send (.text "d")]
    (·.handed = [.text "a", .text "b", .text "c"]) (by decide +kernel)
  have hpath : EventMachine.Path (step fitful 8) Admits {} _ o :=
    EventMachine.path_of_run hrun (by decide +kernel)
  obtain ⟨horder, hstops, hwaits, -⟩ := handed_in_order hpath
  exact ⟨o, hpath, hhanded, horder, hstops, hwaits⟩

end SocketOutbox

end Swarmlet
