import Mathlib.Data.Finset.Card
import Swarmlet.Lib.Machine
import Swarmlet.Protocol.Types

/-!
# The pool of reverse streams

A `ServeDialer` keeps up to `max` streams to its peer. `fill` starts a round of connection attempts
and goes on once all of them have settled; the flag `filling` keeps rounds apart. A call that finds
the pool full returns with the flag set, and nothing clears it, so no round is started after it.

The pool learns that a stream has closed from a listener that is only attached when its round ends.
A stream that closes before is put into the pool all the same, and stays there (`stale`): with
enough of them the pool counts as full while it is not. Which sockets have connected and which have
closed is history, which no function reads.
-/

namespace Swarmlet.Agent

open EventMachine

abbrev SocketId := ℕ

/-- A promise of `connectOne`, with the addresses that have not failed. -/
inductive Attempt
  | waiting (pending : ℕ)
  | settled (sock : Option SocketId)
deriving DecidableEq

def connectOne (target : Endpoint) : Attempt :=
  if target.direct.length = 0 then .settled none else .waiting target.direct.length

def Attempt.miss : Attempt → Attempt
  | waiting pending => if pending - 1 = 0 then settled none else waiting (pending - 1)
  | settled sock => settled sock

def Attempt.done (sock : SocketId) : Attempt → Attempt
  | waiting _ => settled (some sock)
  | settled sock' => settled sock'

def Attempt.result : Attempt → Option (Option SocketId)
  | waiting _ => none
  | settled sock => some sock

structure ServeDialer where
  running : Bool := false
  «open» : Finset SocketId := ∅
  timer : Bool := false
  filling : Bool := false
  target : Option Endpoint := none
  /-- The peer that a call of `fill` dials, and the attempts that it waits for. -/
  round : Option (Endpoint × List Attempt) := none
  /-- History: the sockets that have connected, and those that have closed. -/
  connected : Finset SocketId := ∅
  closed : Finset SocketId := ∅

namespace ServeDialer

section

variable (max : ℤ) (d : ServeDialer)

def fill : ServeDialer :=
  match d.target with
  | none => d
  | some target =>
    if d.filling then d
    else
      let want := max - d.open.card
      if want ≤ 0 then { d with filling := true }
      else { d with
        filling := true
        round := some (target, List.replicate want.toNat (connectOne target)) }

def filled (socks : Finset SocketId) : ServeDialer :=
  { d with
    «open» := if d.running then d.open ∪ socks else d.open
    round := none
    filling := false }

def settled : Option (Finset SocketId) :=
  (d.round.bind (·.2.mapM Attempt.result)).map fun socks ↦ (socks.filterMap id).toFinset

def streams : Finset SocketId := d.open \ d.closed

/-- The streams that the pool counts although they have closed. -/
def stale : Finset SocketId := d.open ∩ d.closed

def attempt (i : ℕ) (f : Endpoint → Attempt → Attempt) : Option ServeDialer :=
  d.round.map fun (target, round) ↦ { d with round := some (target, round.modify i (f target)) }

inductive Event
  | start (target : Endpoint)
  | tick
  | stop
  | miss (i : ℕ)
  | secureConnect (i : ℕ) (sock : SocketId) (fingerprint : String)
  | filled
  | gone (sock : SocketId)

def step : Event → Option ServeDialer
  | .start target => some <| if d.running then d
      else { { d with running := true, target := some target }.fill max with timer := true }
  | .tick => if d.timer then some (d.fill max) else none
  | .stop => some { d with running := false, timer := false, «open» := ∅ }
  | .miss i => d.attempt i fun _ ↦ .miss
  | .secureConnect i sock fingerprint =>
    if sock ∈ d.connected then none
    else (d.attempt i fun target ↦ if target.certFp = fingerprint then .done sock else .miss).map
      fun d ↦ { d with connected := insert sock d.connected }
  | .filled => d.settled.map d.filled
  | .gone sock =>
    if sock ∈ d.connected \ d.closed then
      some { d with «open» := d.open.erase sock, closed := insert sock d.closed }
    else none

def Event.fills : Event → Bool
  | .start _ => !d.running
  | .tick => true
  | _ => false

/-- A call of `fill` that the flag lets pass finds the pool not full, whatever it counts. -/
def FindsRoom (e : Event) : Prop :=
  e.fills d = true → d.filling = false → d.open.card < max

instance (max : ℤ) (d : ServeDialer) (e : Event) : Decidable (d.FindsRoom max e) :=
  inferInstanceAs (Decidable (_ → _ → _))

/-- The streams of a round that ends are open. -/
def Lasts : Event → Prop
  | .filled => ∀ socks ∈ d.settled, Disjoint socks d.closed
  | _ => True

def Live : Prop := d.filling = true → d.round.isSome = true

end

/-- What holds in every run. -/
structure Sound (d : ServeDialer) : Prop where
  round : d.round.isSome = true → d.filling = true
  timer : d.timer = true → d.target.isSome = true

variable {max : ℤ} {d d' : ServeDialer}

theorem Sound.fill (max : ℤ) (hd : d.Sound) (htarget : d.target.isSome = true) :
    (d.fill max).Sound ∧
    ((d.fill max).Live ↔ d.Live ∧ (d.filling = false → d.open.card < max)) := by
  obtain ⟨target, htarget⟩ := Option.isSome_iff_exists.mp htarget
  simp only [ServeDialer.fill, htarget]
  split_ifs with hfilling hfull
  · exact ⟨hd, by simp [hfilling]⟩
  · have hround : d.round = none := by simpa [hfilling] using hd.round
    exact ⟨⟨fun _ ↦ rfl, fun _ ↦ rfl⟩, by simp [Live, hround, hfilling]; omega⟩
  · exact ⟨⟨fun _ ↦ rfl, fun _ ↦ rfl⟩, by simp [Live, hfilling]; omega⟩

theorem Sound.step (hd : d.Sound) {e : Event} (h : step max d e = some d') :
    d'.Sound ∧ (d'.Live ↔ d.Live ∧ d.FindsRoom max e) := by
  have hattempt : ∀ {i f d'}, d.attempt i f = some d' → d'.Sound ∧ (d'.Live ↔ d.Live) := by
    intro i f d' h
    obtain ⟨round, hround, rfl⟩ := Option.map_eq_some_iff.mp h
    exact ⟨⟨fun _ ↦ hd.round (by simp [hround]), hd.timer⟩, by simp [Live, hround]⟩
  cases e with
  | start target =>
    cases h
    split_ifs with hrunning
    · simp [hd, FindsRoom, Event.fills, hrunning]
    · have hbegun : Sound { d with running := true, target := some target } :=
        ⟨hd.round, fun _ ↦ rfl⟩
      obtain ⟨hsound, hlive⟩ := hbegun.fill max rfl
      refine ⟨⟨hsound.round, fun _ ↦ ?_⟩, hlive.trans ?_⟩
      · simp only [ServeDialer.fill]
        split_ifs <;> rfl
      · simp [FindsRoom, Event.fills, hrunning, Live]
  | tick =>
    simp only [ServeDialer.step] at h
    split_ifs at h with htimer
    cases h
    simpa [FindsRoom, Event.fills] using hd.fill max (hd.timer htimer)
  | stop =>
    cases h
    exact ⟨⟨hd.round, nofun⟩, (and_iff_left nofun).symm⟩
  | miss i =>
    have hmiss : d.attempt i (fun _ ↦ .miss) = some d' := h
    simpa [FindsRoom, Event.fills] using hattempt hmiss
  | secureConnect =>
    obtain ⟨-, h⟩ := Option.ite_none_left_eq_some.mp h
    obtain ⟨d₁, hd₁, rfl⟩ := Option.map_eq_some_iff.mp h
    obtain ⟨hsound, hlive⟩ := hattempt hd₁
    exact ⟨⟨hsound.round, hsound.timer⟩, hlive.trans (and_iff_left nofun).symm⟩
  | filled =>
    obtain ⟨socks, hsocks, rfl⟩ := Option.map_eq_some_iff.mp h
    obtain ⟨_, hsettled, -⟩ := Option.map_eq_some_iff.mp hsocks
    obtain ⟨round, hround, -⟩ := Option.bind_eq_some_iff.mp hsettled
    exact ⟨⟨nofun, hd.timer⟩, by simp [Live, filled, hround, FindsRoom, Event.fills]⟩
  | gone =>
    obtain ⟨-, h⟩ := Option.ite_none_right_eq_some.mp h
    cases h
    exact ⟨⟨hd.round, hd.timer⟩, (and_iff_left nofun).symm⟩

/-- **The pool refills at a tick exactly if no call of `fill` found it full before**, and the
streams that it counts although they have closed leave room. -/
theorem refills_iff {es : List Event} (hrun : run (step max) {} es = some d)
    (htimer : d.timer = true) :
    (step max d .tick).any (·.round.isSome) = true ↔
      Always (step max) (FindsRoom max) {} es ∧
        (d.round = none → d.streams.card + d.stale.card < max) := by
  have hinit : Sound {} := ⟨nofun, nofun⟩
  have hlive : d.Live ↔ Always (step max) (FindsRoom max) {} es :=
    (run_iff_always hrun hinit fun _ _ _ hd h ↦ hd.step h).trans (and_iff_right nofun)
  have hsound : d.Sound := run_invariant hrun hinit fun _ _ _ hd h ↦ (hd.step h).1
  obtain ⟨target, htarget⟩ := Option.isSome_iff_exists.mp (hsound.timer htimer)
  have hcard : d.streams.card + d.stale.card = d.open.card :=
    Finset.card_sdiff_add_card_inter d.open d.closed
  rw [← hlive, ServeDialer.step, if_pos htimer, Option.any_some, ServeDialer.fill, htarget]
  cases hfilling : d.filling with
  | true => cases hround : d.round <;> simp [Live, hfilling, hround]
  | false =>
    have hnone : d.round = none := by simpa [hfilling] using hsound.round
    by_cases hfull : max - d.open.card ≤ 0 <;> simp [Live, hfilling, hfull, hnone] <;> omega

theorem stale_fill (max : ℤ) (d : ServeDialer) : (d.fill max).stale = d.stale := by
  simp only [fill]
  split
  · rfl
  · split_ifs <;> rfl

theorem stale_step {e : Event} (h : step max d e = some d') (hlasts : d.Lasts e) :
    d'.stale ⊆ d.stale := by
  cases e with
  | start target =>
    cases h
    split_ifs
    · exact subset_rfl
    · exact (stale_fill max { d with running := true, target := some target }).subset
  | tick =>
    obtain ⟨-, h⟩ := Option.ite_none_right_eq_some.mp h
    cases h
    exact (stale_fill max d).subset
  | stop =>
    cases h
    simp [stale]
  | miss =>
    obtain ⟨round, -, rfl⟩ := Option.map_eq_some_iff.mp h
    exact subset_rfl
  | secureConnect =>
    obtain ⟨-, h⟩ := Option.ite_none_left_eq_some.mp h
    obtain ⟨d₁, hd₁, rfl⟩ := Option.map_eq_some_iff.mp h
    obtain ⟨round, -, rfl⟩ := Option.map_eq_some_iff.mp hd₁
    exact subset_rfl
  | filled =>
    obtain ⟨socks, hsocks, rfl⟩ := Option.map_eq_some_iff.mp h
    have hdisjoint := hlasts socks hsocks
    simp only [stale, filled]
    split_ifs
    · rw [Finset.union_inter_distrib_right, Finset.disjoint_iff_inter_eq_empty.mp hdisjoint,
        Finset.union_empty]
    · exact subset_rfl
  | gone sock =>
    obtain ⟨-, h⟩ := Option.ite_none_right_eq_some.mp h
    cases h
    intro x hx
    simp [stale] at hx ⊢
    tauto

theorem stale_eq_empty {es : List Event}
    (hpath : Path (step max) Lasts {} es d) : d.stale = ∅ := by
  refine hpath.invariant (I := fun d ↦ d.stale = ∅) rfl fun d e d' hd hlasts h ↦ ?_
  exact Finset.subset_empty.mp (hd ▸ stale_step h hlasts)

def onePeer : Endpoint := ⟨"p", "fp", 1, [⟨"h", 1⟩], false, none⟩

/-- A round ends with a stream, which closes. -/
theorem refills_iff_closed : ∃ d,
    run (step 1) {} [.start onePeer, .secureConnect 0 7 "fp", .filled, .gone 7] = some d ∧
      (step 1 d .tick).any (·.round.isSome) = true := by
  obtain ⟨d, hrun, htimer, hcounted⟩ := exists_run (step 1) {}
    [.start onePeer, .secureConnect 0 7 "fp", .filled, .gone 7]
    (fun d ↦ d.timer = true ∧ (d.streams.card : ℤ) + d.stale.card < 1)
    (by decide +kernel)
  exact ⟨d, hrun, (refills_iff hrun htimer).mpr ⟨by decide +kernel, fun _ ↦ hcounted⟩⟩

/-- A tick finds the pool full; when the stream has closed, the next tick starts no round. And a
stream that closes before its round ends fills the pool of two together with the other one. -/
theorem full_pool_never_refills :
    (∃ d, run (step 1) {} [.start onePeer, .secureConnect 0 7 "fp", .filled, .tick, .gone 7] =
      some d ∧ d.timer = true ∧ (d.streams.card : ℤ) < 1 ∧
        (step 1 d .tick).any (·.round.isSome) = false) ∧
    ∃ d, run (step 2) {} [.start onePeer, .secureConnect 0 7 "fp", .gone 7,
        .secureConnect 1 8 "fp", .filled] = some d ∧ d.timer = true ∧ (d.streams.card : ℤ) < 2 ∧
      (step 2 d .tick).any (·.round.isSome) = false :=
  ⟨exists_run (step 1) {} [.start onePeer, .secureConnect 0 7 "fp", .filled, .tick, .gone 7]
    (fun d ↦ d.timer = true ∧ (d.streams.card : ℤ) < 1 ∧
      (step 1 d .tick).any (·.round.isSome) = false) (by decide +kernel),
  exists_run (step 2) {} [.start onePeer, .secureConnect 0 7 "fp", .gone 7,
      .secureConnect 1 8 "fp", .filled]
    (fun d ↦ d.timer = true ∧ (d.streams.card : ℤ) < 2 ∧
      (step 2 d .tick).any (·.round.isSome) = false) (by decide +kernel)⟩

end ServeDialer

end Swarmlet.Agent
