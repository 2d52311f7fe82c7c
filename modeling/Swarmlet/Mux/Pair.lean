import Swarmlet.Mux.Side

/-!
# Two muxes and the channels between them

Two muxes of opposite parity are joined by ordered reliable channels. The frames of a channel that
have arrived are as many of the first ones as the other side has been given. Between two frames the
program on either side may do what it likes: open, write, close and register handlers, also from
inside a callback, and a handler may throw, except in the loop of `onData`, where what is left of
the loop would be lost.
-/

namespace Swarmlet.Mux

open EventMachine

/-! ## The connection -/

/-- Two muxes, each named by whether it allocates odd ids, and how many of the frames that its peer
has sent each has been given. -/
structure Pair where
  mux : Bool → StreamMux
  got : Bool → ℕ

namespace Pair

inductive Event
  /-- The program on one side calls its mux, or a callback returns or throws. -/
  | act (odd : Bool) (e : Mux.Event)
  | deliver (odd : Bool)

def new : Pair := ⟨StreamMux.new, fun _ ↦ 0⟩

/-- A frame is given to a mux only when no call into it is under way. -/
def step (codec : Codec) (p : Pair) : Event → Option Pair
  | .act odd e =>
    if e.isLocal (p.mux odd) then
      (Mux.step codec (p.mux odd) e).map fun m ↦ { p with mux := Function.update p.mux odd m }
    else none
  | .deliver odd =>
    if (p.mux odd).stack.isEmpty then
      (p.mux !odd).sends[p.got odd]?.bind fun buf ↦
        (Mux.step codec (p.mux odd) (.handleFrame buf)).map fun m ↦
          ⟨Function.update p.mux odd m, Function.update p.got odd (p.got odd + 1)⟩
    else none

def heard (p : Pair) (odd : Bool) : List Frame := frames ((p.mux !odd).sends.take (p.got odd))

def HasRoom (p : Pair) : Prop := ∀ odd, (p.mux odd).nextId ≤ 2 ^ 32 + 1

structure Joined (p : Pair) : Prop where
  half : ∀ odd, (p.mux odd).Half odd (p.heard odd)
  got : ∀ odd, p.got odd ≤ (p.mux !odd).sends.length

section

variable {codec : Codec} {p q : Pair}

section

variable {odd : Bool} {m : StreamMux} {es : List Event} {heard : List Frame}

theorem ownId_not {id : ℕ} : ownId (!odd) id ↔ ¬ownId odd id := by
  cases odd <;> simp [ownId]

theorem Joined.update (hp : p.Joined) {e : Mux.Event} {n : ℕ}
    (hstep : Mux.step codec (p.mux odd) e = some m) (hn : n ≤ (p.mux !odd).sends.length)
    (hhalf : m.Half odd (frames ((p.mux !odd).sends.take n))) :
    Joined ⟨Function.update p.mux odd m, Function.update p.got odd n⟩ := by
  have hne : (!odd) ≠ odd := by simp
  have hcalls : (p.mux odd).calls <+: m.calls := (step_acts (hp.half odd).kept.wf hstep).invariant
    (I := fun m' ↦ (p.mux odd).calls <+: m'.calls) List.prefix_rfl fun _ _ hm ha ↦
      hm.trans ha.calls_grow
  obtain ⟨rest, hrest⟩ : (p.mux odd).sends <+: m.sends := hcalls.filterMap _
  have hgot : p.got (!odd) ≤ (p.mux odd).sends.length := by simpa using hp.got (!odd)
  have htake : m.sends.take (p.got !odd) = (p.mux odd).sends.take (p.got !odd) := by
    rw [← hrest, List.take_append_of_le_length hgot]
  refine ⟨fun side ↦ ?_, fun side ↦ ?_⟩
  · by_cases hside : side = odd
    · subst hside
      simpa [heard] using hhalf
    · obtain rfl : side = !odd := by cases side <;> cases odd <;> simp_all
      have := hp.half (!odd)
      simpa [heard, Function.update_of_ne hne, htake] using this
  · by_cases hside : side = odd
    · subst hside
      simpa using hn
    · obtain rfl : side = !odd := by cases side <;> cases odd <;> simp_all
      simp only [Function.update_of_ne hne, Bool.not_not, Function.update_self]
      rw [← hrest, List.length_append]
      exact hgot.trans (Nat.le_add_right ..)

theorem step_joined {e : Event} (hp : p.Joined) (hstep : step codec p e = some q)
    (hroom : q.HasRoom) : q.Joined := by
  cases e with
  | act odd e =>
    rw [step] at hstep
    split_ifs at hstep with hlocal
    obtain ⟨m, hm, rfl⟩ := Option.map_eq_some_iff.mp hstep
    have hhalf := (hp.half odd).step_local hlocal hm (by simpa using hroom odd)
    have := hp.update hm (hp.got odd) hhalf
    rwa [Function.update_eq_self] at this
  | deliver odd =>
    rw [step] at hstep
    split_ifs at hstep with hstack
    obtain ⟨buf, hbuf, hstep⟩ := Option.bind_eq_some_iff.mp hstep
    obtain ⟨m, hm, rfl⟩ := Option.map_eq_some_iff.mp hstep
    have hlt := Entries.lt_length hbuf
    have htake : (p.mux !odd).sends.take (p.got odd + 1) =
        (p.mux !odd).sends.take (p.got odd) ++ [buf] := by
      rw [List.take_add_one, hbuf]
      rfl
    have hpeer := (hp.half (!odd)).speaks
    -- What arrives next is what the peer has said next.
    have hsplit : frames (p.mux !odd).sends = p.heard odd ++ (frames [buf] ++
        frames ((p.mux !odd).sends.drop (p.got odd + 1))) := by
      rw [heard, ← frames_append, ← frames_append, ← List.append_assoc, ← htake,
        List.take_append_drop]
    have hmem : ∀ g ∈ frames [buf], g ∈ frames (p.mux !odd).sends := fun g hg ↦ by
      rw [hsplit]
      exact List.mem_append_right _ (List.mem_append_left _ hg)
    have hsub : ∀ g ∈ p.heard (!odd), g ∈ frames (p.mux odd).sends := fun g hg ↦ by
      rw [heard, Bool.not_not] at hg
      have htaken : (p.mux odd).sends.take (p.got !odd) <+: (p.mux odd).sends := List.take_prefix ..
      exact (htaken.filterMap _).subset hg
    refine hp.update hm hlt ?_
    rw [htake, frames_append]
    refine (hp.half odd).step_frame (List.isEmpty_iff.mp hstack)
      (fun g hg hop ↦ ⟨?_, fun g' hg' ↦ ?_⟩) (fun g hg hop hown ↦ ?_) hm (by simpa using hroom odd)
    · exact ownId_not.mp (hpeer.opens g (hmem g hg) hop)
    · have hfirst := hpeer.first
      rw [hsplit, List.pairwise_append] at hfirst
      exact hfirst.2.2 g' hg' g (List.mem_append_left _ hg) hop
    · obtain ⟨x, hx, hid⟩ := hpeer.data g (hmem g hg) hop
      have hnot : ¬ownId (!odd) x.id := by
        rw [hid, ownId_not, not_not]
        exact hown
      obtain ⟨payload, hopen⟩ := hpeer.opened x hx hnot
      have := (hp.half odd).speaks.own _ (hsub _ hopen) (hid ▸ hown)
      rwa [hid] at this

def Event.opens (odd : Bool) : Event → Bool
  | .act side e => side == odd && e.isOpen
  | .deliver _ => false

theorem step_room {e : Event} (hstep : step codec p e = some q) (odd : Bool) :
    (p.mux odd).nextId ≤ (q.mux odd).nextId ∧
      (q.mux odd).nextId ≤ (p.mux odd).nextId + 2 * (e.opens odd).toNat := by
  have hupdate : ∀ {side : Bool} {e' : Mux.Event} {m : StreamMux},
      Mux.step codec (p.mux side) e' = some m →
      (p.mux odd).nextId ≤ (Function.update p.mux side m odd).nextId ∧
        (Function.update p.mux side m odd).nextId ≤
          (p.mux odd).nextId + 2 * (side == odd && e'.isOpen).toNat := by
    intro side e' m hm
    by_cases hside : odd = side
    · subst hside
      simpa using step_nextId hm
    · rw [Function.update_of_ne hside]
      exact ⟨le_rfl, Nat.le_add_right ..⟩
  cases e with
  | act side e =>
    rw [step] at hstep
    split_ifs at hstep
    obtain ⟨m, hm, rfl⟩ := Option.map_eq_some_iff.mp hstep
    exact hupdate hm
  | deliver side =>
    rw [step] at hstep
    split_ifs at hstep
    obtain ⟨buf, -, hstep⟩ := Option.bind_eq_some_iff.mp hstep
    obtain ⟨m, hm, rfl⟩ := Option.map_eq_some_iff.mp hstep
    simpa [Mux.Event.isOpen, Event.opens] using hupdate hm

theorem run_room (hrun : run (step codec) p es = some q) (odd : Bool) :
    (q.mux odd).nextId ≤ (p.mux odd).nextId + 2 * es.countP (Event.opens odd) := by
  induction es generalizing p with
  | nil =>
    cases hrun
    exact Nat.le_add_right ..
  | cons e es ih =>
    obtain ⟨p', hstep, hrest⟩ := run_cons.mp hrun
    have hlast := ih hrest
    have hfirst := (step_room hstep odd).2
    have hcount : (e :: es).countP (Event.opens odd) =
        es.countP (Event.opens odd) + (e.opens odd).toNat := by
      rw [List.countP_cons]
      cases e.opens odd <;> rfl
    omega

theorem new_joined : new.Joined where
  half odd :=
    { kept := new_kept odd
      owned := new_owned odd
      speaks := by
        refine ⟨?_, ?_, ?_, ?_, ?_, ?_, ?_, ?_⟩ <;>
          simp [new, StreamMux.new, StreamMux.sends, frames, heard]
      hears := fun _ _ hx ↦ nomatch hx }
  got _ := Nat.zero_le _

theorem run_joined (hrun : run (step codec) new es = some p) (hroom : p.HasRoom) : p.Joined := by
  refine run_invariant (I := fun p ↦ p.HasRoom → p.Joined) hrun (fun _ ↦ new_joined) ?_ hroom
  intro p e q hp hstep hroom
  exact step_joined (hp fun odd ↦ (step_room hstep odd).1.trans (hroom odd)) hstep hroom

def openedIds (m : StreamMux) : List ℕ :=
  ((frames m.sends).filter (·.op = .open)).map (·.streamId)

def written (m : StreamMux) (id : ℕ) : List Bytes :=
  ((m.objs.find? (·.id = id)).map (·.wrote)).getD []

theorem dataOf_written (hm : m.Speaks odd heard) (id : ℕ) :
    dataOf id (frames m.sends) <+: written m id := by
  rw [written]
  cases hfind : m.objs.find? (·.id = id) with
  | none =>
    have hnone : dataOf id (frames m.sends) = [] := dataOf_eq_nil fun g hg hop hid ↦ by
      obtain ⟨x, hx, hxid⟩ := hm.data g hg hop
      simpa [hxid, hid] using List.find?_eq_none.mp hfind x hx
    rw [hnone]
    exact List.nil_prefix
  | some x =>
    obtain rfl : x.id = id := by simpa using List.find?_some hfind
    obtain ⟨h, hx⟩ := List.getElem?_of_mem (List.mem_of_find?_eq_some hfind)
    exact (hm.wrote h x hx).1

theorem nodup_openedIds (hm : m.Speaks odd heard) : (openedIds m).Nodup := by
  rw [openedIds, List.Nodup, List.pairwise_map]
  refine (hm.first.filter _).imp_of_mem fun _ hg hne ↦ ?_
  exact hne (by simpa using (List.mem_filter.mp hg).2)

end

/-- **The mux carries each stream faithfully.** However opens, writes, closes, registrations and the
arrival of frames interleave, as long as neither side opens `2 ^ 31` streams: no id is used by two
streams, and what the data handlers of a stream were given is, in this order, the beginning of what
was written on the stream of the same id at the other side. -/
theorem streams_faithful {es : List Event} (hrun : run (step codec) new es = some p)
    (hopens : ∀ odd, es.countP (Event.opens odd) < 2 ^ 31) :
    (∀ odd, ((p.mux odd).objs.map (·.id)).Nodup) ∧
    (openedIds (p.mux true) ++ openedIds (p.mux false)).Nodup ∧
    ∀ odd h, given h (p.mux odd).calls = [] ∨ ∃ x, (p.mux odd).objs[h]? = some x ∧
      (given h (p.mux odd).calls).flatten <+: (written (p.mux !odd) x.id).flatten := by
  have hroom : p.HasRoom := fun odd ↦ by
    have hrun' := run_room hrun odd
    have hlt := hopens odd
    have hfirst : (new.mux odd).nextId ≤ 2 := by cases odd <;> simp [new, StreamMux.new]
    omega
  have hp := run_joined hrun hroom
  have hspeaks := fun odd ↦ (hp.half odd).speaks
  refine ⟨fun odd ↦ (hp.half odd).owned.distinct, ?_, fun odd h ↦ ?_⟩
  · have hown : ∀ odd, ∀ id ∈ openedIds (p.mux odd), ownId odd id := by
      intro odd id hid
      obtain ⟨g, hg, rfl⟩ := List.mem_map.mp hid
      obtain ⟨hg, hop⟩ := List.mem_filter.mp hg
      exact (hspeaks odd).opens g hg (by simpa using hop)
    refine (nodup_openedIds (hspeaks true)).append (nodup_openedIds (hspeaks false))
      fun id htrue hfalse ↦ ?_
    have hnot : ¬ownId true id := ownId_not.mp (hown false id hfalse)
    exact hnot (hown true id htrue)
  · cases hx : (p.mux odd).objs[h]? with
    | none => exact .inl ((hp.half odd).kept.logged.made h (List.getElem?_eq_none_iff.mp hx))
    | some x =>
      have hhalf := hp.half odd
      refine .inr ⟨x, rfl, ?_⟩
      rw [← hhalf.kept.logged.handed h x hx]
      refine ((hhalf.kept.flowing.sofar h x hx).trans (hhalf.hears h x hx).1).trans ?_
      have htaken : (p.mux !odd).sends.take (p.got odd) <+: (p.mux !odd).sends :=
        List.take_prefix ..
      have hsaid : dataOf x.id (p.heard odd) <+: written (p.mux !odd) x.id :=
        (dataOf_mono x.id (htaken.filterMap _)).trans (dataOf_written (hspeaks !odd) x.id)
      obtain ⟨rest, hrest⟩ := hsaid
      rw [← hrest, List.flatten_append]
      exact List.prefix_append ..

/-- Each side opens a stream and writes on it; the second registers a handler for the stream of the
first between the two writes of it. -/
def twoStreams : List Event :=
  [.act true (.open plainHeader), .act true (.returns true), .act false (.open plainHeader),
    .act false (.returns true), .act true (.write 0 [7, 8]), .act true (.returns true),
    .act false (.write 0 [1]), .act false (.returns true), .deliver false,
    .act false (.returns true), .deliver false, .act false (.onData 1 0),
    .act false (.returns true), .act true (.write 0 [9]), .act true (.returns true),
    .deliver false, .act false (.returns true)]

theorem streams_faithful_twoStreams : ∃ p, run (step plainCodec) new twoStreams = some p ∧
    given 1 (p.mux false).calls = [[7, 8], [9]] ∧ ∃ x, (p.mux false).objs[1]? = some x ∧
      [7, 8, 9] <+: (written (p.mux true) x.id).flatten := by
  obtain ⟨p, hrun, hgiven⟩ := exists_run (step plainCodec) new twoStreams
    (fun p ↦ given 1 (p.mux false).calls = [[7, 8], [9]]) (by decide +kernel)
  refine ⟨p, hrun, hgiven, ?_⟩
  rcases (streams_faithful hrun (by decide)).2.2 false 1 with hnone | hsome
  · cases hnone.symm.trans hgiven
  · rwa [hgiven] at hsome

end

end Pair

end Swarmlet.Mux
