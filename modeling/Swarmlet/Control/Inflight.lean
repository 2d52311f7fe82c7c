import Swarmlet.Lib.Machine

/-!
# Requests in flight

Two endpoints forward inference and count what they admit: the router with `trackInflight`, and the
local endpoint of a node, whose count an update waits for. A request is counted down by its
`release`, which many parts of its handler call: the error branch, the branches that answer without
a stream, the finish hooks of `inferenceStream` and `createNativeResponse`, and in the router the
abort signal. They may come in any order, and several of them.

`release` acts once, and it has acted exactly if something has happened that ends the request
(`Happening.ends`). So the count is the number of requests that are not released (`Counted`), and
the drain of a node is exact.
-/

namespace Swarmlet.Inference

open EventMachine

inductive Phase
  | upstream
  | payload
  | body (sse terminal finished : Bool)
  | native (finished : Bool)
  | over

/-- A request that was counted; `downs` says how often it was counted down. -/
structure Request where
  phase : Phase
  listens : Bool := false
  aborted : Bool := false
  released : Bool := false
  downs : ℕ := 0

/-- What happens to a request. A chunk of the body may hold the terminal event, and one of an event
stream may leave a line of more than a MiB (`overlong`). A native request settles, too, when it is
refused. -/
inductive Happening
  | threw | bodyless | json | stream (sse : Bool) | read | done | chunk (terminal : Bool) | overlong
  | broken | cancelled | aborted | settled

/-- It ends a request; an abort ends one whose `release` listens to the signal. -/
def Happening.ends (listens : Bool) : Happening → Bool
  | json | stream _ | chunk _ => false
  | aborted => listens
  | threw | bodyless | read | done | overlong | broken | cancelled | settled => true

namespace Request

variable (r : Request)

def release : Request := if r.released then r else { r with released := true, downs := r.downs + 1 }

def finish : Request :=
  match r.phase with
  | .body sse terminal false => { r.release with phase := .body sse terminal true }
  | .native false => { r.release with phase := .native true }
  | _ => r

def abort : Request := { (if r.listens then r.release else r) with aborted := true }

def fail : Request := r.abort.finish

def react (e : Happening) : Option Request :=
  match e, r.phase with
  | .threw, .upstream | .bodyless, .upstream | .threw, .payload | .read, .payload =>
    some { r.release with phase := .over }
  -- A translated answer is released before it is mapped, which may fail.
  | .threw, .native _ | .threw, .over => some r.release
  | .json, .upstream => some { r with phase := .payload }
  | .stream sse, .upstream => some { r with phase := .body sse false false }
  | .done, .body sse terminal _ => some (if sse && !terminal then r.fail else r.finish)
  | .chunk found, .body sse terminal finished =>
    some { r with phase := .body sse (terminal || sse && found) finished }
  | .overlong, .body true _ _ => some r.fail
  | .broken, .body _ _ _ => some r.fail
  | .cancelled, .body _ _ _ => some r.finish.abort
  | .aborted, _ => some r.abort
  | .settled, .native _ => some r.finish
  -- The body of a native response closes, or its `cancel` returns, after the generation.
  | .done, .native true => some r
  | .cancelled, .native true => some r.abort
  | _, _ => none

structure Sound : Prop where
  downs : r.downs = if r.released then 1 else 0
  body : ∀ sse terminal, r.phase = .body sse terminal true → r.released
  native : r.phase = .native true → r.released

structure Next (ends : Bool) (r' : Request) : Prop where
  sound : r'.Sound
  listens : r'.listens = r.listens
  released : r'.released = (r.released || ends)

variable {r}

theorem Next.trans {r₁ r₂ : Request} {ends ends' : Bool} (h₁ : r.Next ends r₁)
    (h₂ : r₁.Next ends' r₂) : r.Next (ends || ends') r₂ where
  sound := h₂.sound
  listens := h₂.listens.trans h₁.listens
  released := by rw [h₂.released, h₁.released, Bool.or_assoc]

namespace Sound

variable (h : r.Sound)

include h

theorem release (phase : Phase) (aborted : Bool) :
    r.Next true { r.release with phase, aborted } := by
  have hdowns := h.downs
  unfold Request.release
  split_ifs with hr
  · exact ⟨⟨hdowns, fun _ _ _ ↦ hr, fun _ ↦ hr⟩, rfl, by simp [hr]⟩
  · rw [if_neg hr] at hdowns
    exact ⟨⟨by simp [hdowns], fun _ _ _ ↦ rfl, fun _ ↦ rfl⟩, rfl, by simp⟩

theorem abort : r.Next r.listens r.abort := by
  unfold Request.abort
  split_ifs with hlistens
  · exact hlistens ▸ h.release _ _
  · exact ⟨⟨h.downs, h.body, h.native⟩, rfl, by simp [hlistens]⟩

theorem finish_body {sse terminal finished : Bool} (hr : r.phase = .body sse terminal finished) :
    r.Next true r.finish := by
  cases finished <;> simp only [Request.finish, hr]
  · exact h.release _ _
  · exact ⟨h, rfl, by simp [h.body sse terminal hr]⟩

theorem finish_native {finished : Bool} (hr : r.phase = .native finished) :
    r.Next true r.finish := by
  cases finished <;> simp only [Request.finish, hr]
  · exact h.release _ _
  · exact ⟨h, rfl, by simp [h.native hr]⟩

theorem fail {sse terminal finished : Bool} (hr : r.phase = .body sse terminal finished) :
    r.Next true r.fail := by
  have hphase : r.abort.phase = r.phase := by
    simp only [Request.abort, Request.release]
    split_ifs <;> rfl
  have hnext : r.Next (r.listens || true) r.fail :=
    h.abort.trans (h.abort.sound.finish_body (hphase.trans hr))
  rwa [Bool.or_true] at hnext

/-- **One step** of a request: it is released exactly if what happens ends it, or it was before. -/
theorem react {e : Happening} {r' : Request} (hreact : r.react e = some r') :
    r.Next (e.ends r.listens) r' := by
  unfold Request.react at hreact
  split at hreact <;> cases hreact
  case h_5 | h_6 => exact h.release r.release.phase r.release.aborted
  case h_7 | h_8 => exact ⟨⟨h.downs, nofun, nofun⟩, rfl, (Bool.or_false _).symm⟩
  case h_9 hr =>
    split_ifs
    · exact h.fail hr
    · exact h.finish_body hr
  case h_10 sse terminal finished hr =>
    refine ⟨⟨h.downs, fun _ _ hbody ↦ ?_, nofun⟩, rfl, (Bool.or_false _).symm⟩
    cases hbody
    exact h.body sse terminal hr
  case h_11 hr | h_12 hr => exact h.fail hr
  case h_13 hr => exact (h.finish_body hr).trans (h.finish_body hr).sound.abort
  case h_14 => exact h.abort
  case h_15 hr => exact h.finish_native hr
  case h_16 hr => exact ⟨h, rfl, by rw [h.native hr, Bool.true_or]⟩
  case h_17 hr =>
    refine ⟨h.abort.sound, h.abort.listens, ?_⟩
    rw [h.abort.released, h.native hr, Bool.true_or, Bool.true_or]
  all_goals exact h.release _ _

end Sound

/-- **One run** of a request: it is released exactly if one of the events ends it. -/
theorem Sound.run {es : List Happening} {r' : Request} (h : r.Sound)
    (hrun : EventMachine.run Request.react r es = some r') :
    r.Next (es.any (·.ends r.listens)) r' := by
  induction es generalizing r with
  | nil =>
    cases hrun
    exact ⟨h, rfl, (Bool.or_false _).symm⟩
  | cons e es ih =>
    obtain ⟨r₁, hreact, hrest⟩ := run_cons.mp hrun
    have hstep := h.react hreact
    rw [List.any_cons]
    exact hstep.trans (hstep.listens ▸ ih hstep.sound hrest)

def routed (native : Bool) : Request where
  phase := if native then .native false else .upstream
  listens := !native

/-- **The router counts every request down exactly once**: once as soon as something ends it, never
before and never again. -/
theorem routed_once {native : Bool} {es : List Happening}
    (h : run react (routed native) es = some r) :
    r.downs = if es.any (·.ends (!native)) then 1 else 0 := by
  have hsound : (routed native).Sound := ⟨rfl, by cases native <;> simp [routed], by
    cases native <;> simp [routed]⟩
  have hnext := hsound.run h
  rw [hnext.sound.downs, hnext.released]
  rfl

/-- The request is aborted, its stream ends too early, and then it is cancelled. -/
theorem routed_once_cancelled :
    ∃ r, run react (routed false) [.stream true, .aborted, .done, .cancelled] = some r ∧
      r.downs = 1 := by
  obtain ⟨r, hrun, -⟩ := exists_run react (routed false)
    [.stream true, .aborted, .done, .cancelled] (fun _ ↦ True) (by decide +kernel)
  exact ⟨r, hrun, routed_once hrun⟩

end Request

/-! ## The drain of a node -/

structure Endpoint where
  active : ℕ := 0
  draining : Bool := false
  requests : List Request := []

inductive Event
  | arrive | request (i : ℕ) (e : Happening) | begin | resume

def Event.ends (i : ℕ) : Event → Bool
  | request j e => j = i && e.ends false
  | _ => false

def Event.arrives : Event → Bool
  | arrive => true
  | _ => false

namespace Endpoint

variable (s : Endpoint)

def begin : Option Endpoint := if s.active ≠ 0 then none else some { s with draining := true }

def step : Event → Option Endpoint
  | .arrive => some (if s.draining then s else
      { s with active := s.active + 1, requests := s.requests ++ [{ phase := .upstream }] })
  | .request i e => s.requests[i]?.bind fun r ↦ (r.react e).map fun r' ↦
      { s with active := s.active + r.downs - r'.downs, requests := s.requests.set i r' }
  | .begin => some (s.begin.getD s)
  | .resume => some { s with draining := false }

/-- The count is the number of requests that are not released. -/
structure Counted : Prop where
  sound : ∀ r ∈ s.requests, r.Sound ∧ r.listens = false
  active : s.active = s.requests.countP (!·.released)

def released (i : ℕ) : Bool := s.requests[i]?.any (·.released)

variable {s} {s' : Endpoint} {e : Event}

theorem begin_eq_some (h : s.begin = some s') :
    s.active = 0 ∧ s' = { s with draining := true } := by
  unfold begin at h
  split_ifs at h with hactive
  exact ⟨not_not.mp hactive, (Option.some.inj h).symm⟩

/-- **One step** of the endpoint: the count stays exact, and the requests that the event ends are
released. -/
theorem Counted.step (h : s.Counted) (hstep : s.step e = some s') :
    s'.Counted ∧ ∀ i, s'.released i = (s.released i || e.ends i) := by
  cases e with
  | arrive =>
    cases hstep
    split_ifs
    · exact ⟨h, fun i ↦ (Bool.or_false _).symm⟩
    · refine ⟨⟨fun r hr ↦ ?_, by simp [h.active]⟩, fun i ↦ ?_⟩
      · rcases List.mem_append.mp hr with hr | hr
        · exact h.sound r hr
        · rw [List.mem_singleton.mp hr]
          exact ⟨⟨rfl, nofun, nofun⟩, rfl⟩
      · simp only [Event.ends, Bool.or_false, released, List.getElem?_append]
        split_ifs with hi
        · rfl
        · rw [List.getElem?_eq_none (Nat.not_lt.mp hi)]
          cases i - s.requests.length <;> rfl
  | request i e =>
    obtain ⟨r, hr, hstep⟩ := Option.bind_eq_some_iff.mp hstep
    obtain ⟨r', hreact, rfl⟩ := Option.map_eq_some_iff.mp hstep
    obtain ⟨hold, hlistens⟩ := h.sound r (List.mem_of_getElem? hr)
    have hnext := hold.react hreact
    refine ⟨⟨fun x hx ↦ ?_, ?_⟩, fun j ↦ ?_⟩
    · rcases List.mem_or_eq_of_mem_set hx with hx | rfl
      · exact h.sound x hx
      · exact ⟨hnext.sound, hnext.listens.trans hlistens⟩
    · obtain ⟨hi, rfl⟩ := List.getElem?_eq_some_iff.mp hr
      have hle := List.boole_getElem_le_countP (p := (!·.released)) hi
      dsimp only
      rw [List.countP_set hi, h.active, hold.downs, hnext.sound.downs]
      grind
    · obtain ⟨hi, -⟩ := List.getElem?_eq_some_iff.mp hr
      rw [Event.ends]
      simp only [released]
      by_cases hij : i = j
      · subst hij
        rw [List.getElem?_set_self hi, hr, Option.any_some, Option.any_some, hnext.released,
          hlistens, decide_eq_true rfl, Bool.true_and]
      · rw [List.getElem?_set_ne hij, decide_eq_false hij, Bool.false_and, Bool.or_false]
  | begin =>
    cases hstep
    cases hbegin : s.begin with
    | none => exact ⟨h, fun i ↦ (Bool.or_false _).symm⟩
    | some s₁ =>
      obtain ⟨-, rfl⟩ := begin_eq_some hbegin
      exact ⟨⟨h.sound, h.active⟩, fun i ↦ (Bool.or_false _).symm⟩
  | resume =>
    cases hstep
    exact ⟨⟨h.sound, h.active⟩, fun i ↦ (Bool.or_false _).symm⟩

theorem Counted.run {es : List Event} (h : s.Counted)
    (hrun : EventMachine.run Endpoint.step s es = some s') :
    s'.Counted ∧ ∀ i, s'.released i = (s.released i || es.any (·.ends i)) := by
  induction es generalizing s with
  | nil =>
    cases hrun
    exact ⟨h, fun i ↦ (Bool.or_false _).symm⟩
  | cons e es ih =>
    obtain ⟨s₁, hstep, hrest⟩ := run_cons.mp hrun
    obtain ⟨h₁, hreleased₁⟩ := h.step hstep
    obtain ⟨h', hreleased⟩ := ih h₁ hrest
    exact ⟨h', fun i ↦ by rw [hreleased, hreleased₁, List.any_cons, Bool.or_assoc]⟩

theorem length_step (hstep : s.step e = some s') : s'.requests.length =
    s.requests.length + if e.arrives && !s.draining then 1 else 0 := by
  cases e with
  | arrive =>
    cases hstep
    cases hdraining : s.draining <;> simp [Event.arrives]
  | request i e =>
    obtain ⟨r, -, hstep⟩ := Option.bind_eq_some_iff.mp hstep
    obtain ⟨r', -, rfl⟩ := Option.map_eq_some_iff.mp hstep
    exact List.length_set
  | begin =>
    cases hstep
    cases hbegin : s.begin with
    | none => rfl
    | some s₁ => exact (begin_eq_some hbegin).2 ▸ rfl
  | resume =>
    cases hstep
    rfl

theorem draining_step (hstep : s.step e = some s') :
    (e ≠ .resume → s.draining → s'.draining) ∧
      ((e = .begin → s.begin = none) → s.draining = false → s'.draining = false) := by
  cases e with
  | arrive =>
    cases hstep
    split_ifs <;> simp
  | request i e =>
    obtain ⟨r, -, hstep⟩ := Option.bind_eq_some_iff.mp hstep
    obtain ⟨r', -, rfl⟩ := Option.map_eq_some_iff.mp hstep
    exact ⟨fun _ h ↦ h, fun _ h ↦ h⟩
  | begin =>
    cases hstep
    cases hbegin : s.begin with
    | none => exact ⟨fun _ h ↦ h, fun _ h ↦ h⟩
    | some s₁ => exact ⟨fun _ _ ↦ (begin_eq_some hbegin).2 ▸ rfl, by simp⟩
  | resume =>
    cases hstep
    exact ⟨fun h ↦ absurd rfl h, fun _ _ ↦ rfl⟩

theorem length_draining {es : List Event}
    (hpath : Path Endpoint.step (fun _ e ↦ e ≠ .resume) s es s') (hdraining : s.draining) :
    s'.requests.length = s.requests.length := by
  induction hpath with
  | nil => rfl
  | cons hstep hok _ ih =>
    rw [ih ((draining_step hstep).1 hok hdraining), length_step hstep, hdraining, Bool.not_true,
      Bool.and_false]
    rfl

theorem length_admitting {es : List Event}
    (hpath : Path Endpoint.step (fun t e ↦ e = .begin → t.begin = none) s es s')
    (hopen : s.draining = false) :
    s'.requests.length = s.requests.length + es.countP Event.arrives := by
  induction hpath with
  | nil => rfl
  | cons hstep hok _ ih =>
    rw [ih ((draining_step hstep).2 hok hopen), length_step hstep, hopen, Bool.not_false,
      Bool.and_true, List.countP_cons]
    omega

/-- **The drain is exact**: the count is that of the requests not counted down, `begin` succeeds
exactly when there is none, each request is counted down once as soon as something ends it, none is
admitted from a `begin` that succeeds to the next `resume`, and from there to the next such `begin`
every one that arrives. -/
theorem drain_exact {es : List Event} (h : run Endpoint.step {} es = some s) :
    s.active = s.requests.countP (·.downs = 0) ∧
    (s.begin.isSome ↔ ∀ r ∈ s.requests, r.downs = 1) ∧
    (∀ i r, s.requests[i]? = some r → r.downs = if es.any (·.ends i) then 1 else 0) ∧
    (∀ s₁ es' s', s.begin = some s₁ → Path Endpoint.step (fun _ e ↦ e ≠ .resume) s₁ es' s' →
      s'.requests.length = s.requests.length) ∧
    ∀ s₁ es' s', s.step .resume = some s₁ →
      Path Endpoint.step (fun t e ↦ e = .begin → t.begin = none) s₁ es' s' →
      s'.requests.length = s.requests.length + es'.countP Event.arrives := by
  obtain ⟨hs, hreleased⟩ := Counted.run (s := {}) ⟨nofun, rfl⟩ h
  have hdowns {r : Request} (hr : r ∈ s.requests) : r.downs = if r.released then 1 else 0 :=
    (hs.sound r hr).1.downs
  have hactive : s.active = s.requests.countP (·.downs = 0) := by
    rw [hs.active]
    refine List.countP_congr fun r hr ↦ ?_
    cases hr' : r.released <;> simp [hdowns hr, hr']
  refine ⟨hactive, ?_, fun i r hr ↦ ?_, fun s₁ es' s' hbegin hpath ↦ ?_,
    fun s₁ es' s' hresume hpath ↦ ?_⟩
  · have hisSome : s.begin.isSome ↔ s.active = 0 := by
      unfold begin
      split_ifs with hzero
      · simpa using hzero
      · simpa using hzero
    rw [hisSome, hs.active, List.countP_eq_zero]
    refine forall₂_congr fun r hr ↦ ?_
    cases hr' : r.released <;> simp [hdowns hr, hr']
  · have hi : r.released = es.any (·.ends i) := by simpa [released, hr] using hreleased i
    rw [hdowns (List.mem_of_getElem? hr), hi]
  · obtain ⟨-, rfl⟩ := begin_eq_some hbegin
    exact length_draining (s := { s with draining := true }) hpath rfl
  · cases hresume
    exact length_admitting (s := { s with draining := false }) hpath rfl

theorem drain_exact_two :
    ∃ s, run Endpoint.step {} [.arrive, .arrive, .begin, .request 0 .bodyless,
        .request 1 (.stream false), .request 1 .cancelled] = some s ∧
      s.requests.length = 2 ∧ s.begin.isSome ∧ ∀ r ∈ s.requests, r.downs = 1 := by
  obtain ⟨s, hrun, hlength, hbegin⟩ := exists_run Endpoint.step {} [.arrive, .arrive, .begin,
    .request 0 .bodyless, .request 1 (.stream false), .request 1 .cancelled]
    (fun s ↦ s.requests.length = 2 ∧ s.begin.isSome) (by decide +kernel)
  exact ⟨s, hrun, hlength, hbegin, (drain_exact hrun).2.1.mp hbegin⟩

end Endpoint

end Swarmlet.Inference
