import Mathlib.Data.List.Basic
import Mathlib.Data.Option.Basic

/-!
# Event machines and their runs

An event machine is a partial function `step : σ → ε → Option σ`: an event is either not enabled
in a state, or leads to exactly one next state. All nondeterminism sits in the choice of the next
event, so a *run* is a list of events.

Runs carry a side condition `ok : σ → ε → Prop` on the steps they take. An assumption about the
environment ("the other party never says this after that") is such a condition, and so is the
class of runs for which a conditional result holds.

## The rules

`Path.invariant` is the induction over a run: what every admitted step preserves holds at its end.
`Always` says that a condition holds at every step of the run along a list of events, and
`run_invariant` is the induction rule for runs that are evaluated.
-/

namespace EventMachine

variable {σ ε : Type*}

/-- Run the events in order; `none` as soon as one of them is not enabled. -/
def run (step : σ → ε → Option σ) : σ → List ε → Option σ
  | s, [] => some s
  | s, e :: es => (step s e).bind fun s' ↦ run step s' es

/-- A run from one state to another along a list of events, every step of which is admitted. -/
inductive Path (step : σ → ε → Option σ) (ok : σ → ε → Prop) : σ → List ε → σ → Prop
  | nil (s : σ) : Path step ok s [] s
  | cons {s s' t : σ} {e : ε} {es : List ε} (henabled : step s e = some s') (hok : ok s e)
      (hrest : Path step ok s' es t) : Path step ok s (e :: es) t

/-- The condition holds at every step of the run along a list of events. -/
def Always (step : σ → ε → Option σ) (p : σ → ε → Prop) : σ → List ε → Prop
  | _, [] => True
  | s, e :: es => p s e ∧ ∀ s', step s e = some s' → Always step p s' es

/-- The condition can be checked along a run. -/
instance Always.decidable (step : σ → ε → Option σ) (p : σ → ε → Prop) [∀ s e, Decidable (p s e)] :
    ∀ s es, Decidable (Always step p s es)
  | _, [] => isTrue trivial
  | s, e :: es =>
    have := fun s' ↦ Always.decidable step p s' es
    inferInstanceAs (Decidable (p s e ∧ ∀ s' ∈ step s e, Always step p s' es))

variable {step : σ → ε → Option σ} {ok : σ → ε → Prop}

section

variable {es : List ε} {s t : σ} {e : ε} {p : σ → ε → Prop} {I : σ → Prop}

theorem run_cons :
    run step s (e :: es) = some t ↔ ∃ s', step s e = some s' ∧ run step s' es = some t :=
  Option.bind_eq_some_iff

theorem always_cons {s' : σ} (h : step s e = some s') :
    Always step p s (e :: es) ↔ p s e ∧ Always step p s' es := by
  refine and_congr_right fun _ ↦ ⟨fun hrest ↦ hrest s' h, fun hrest t ht ↦ ?_⟩
  rwa [← Option.mem_unique h ht]

/-- A run that is evaluated ends in a state with a property that is decided there. -/
theorem exists_run (step : σ → ε → Option σ) (s : σ) (es : List ε) (p : σ → Prop) [DecidablePred p]
    (h : (run step s es).any (fun t ↦ decide (p t)) = true) : ∃ t, run step s es = some t ∧
    p t := by
  cases hrun : run step s es with
  | none => simp [hrun] at h
  | some t => exact ⟨t, rfl, by simpa [hrun] using h⟩

/-- The induction rule for runs that are evaluated. -/
theorem run_invariant (h : run step s es = some t) (hs : I s)
    (hstep : ∀ s e s', I s → step s e = some s' → I s') : I t := by
  induction es generalizing s with
  | nil => exact Option.some.inj h ▸ hs
  | cons e es ih =>
    obtain ⟨s', henabled, hrest⟩ := run_cons.mp h
    exact ih hrest (hstep _ _ _ hs henabled)

/-- What a step keeps exactly if it meets a condition holds at the end of a run exactly if all its
steps met the condition. -/
theorem run_iff_always {P : σ → Prop} (h : run step s es = some t) (hs : I s)
    (hstep : ∀ s e s', I s → step s e = some s' → I s' ∧ (P s' ↔ P s ∧ p s e)) :
    P t ↔ P s ∧ Always step p s es := by
  induction es generalizing s with
  | nil =>
    cases h
    exact (and_iff_left trivial).symm
  | cons e es ih =>
    obtain ⟨s', henabled, hrest⟩ := run_cons.mp h
    obtain ⟨hs', hiff⟩ := hstep s e s' hs henabled
    rw [ih hrest hs', hiff, always_cons henabled, and_assoc]

/-- Two conditions that are one, in the states that the second keeps up, are met by the same runs.
-/
theorem always_congr {q : σ → ε → Prop} (hs : I s) (hiff : ∀ s e, I s → (p s e ↔ q s e))
    (hstep : ∀ s e s', I s → q s e → step s e = some s' → I s') :
    Always step p s es ↔ Always step q s es := by
  induction es generalizing s with
  | nil => rfl
  | cons e es ih =>
    refine (and_congr_left' (hiff s e hs)).trans (and_congr_right fun hq ↦ ?_)
    exact forall₂_congr fun s' h ↦ ih (hstep s e s' hs hq h)

theorem path_of_run (h : run step s es = some t)
    (hok : Always step ok s es) : Path step ok s es t := by
  induction es generalizing s with
  | nil => exact Option.some.inj h ▸ .nil s
  | cons e es ih =>
    obtain ⟨s', henabled, hrest⟩ := run_cons.mp h
    exact .cons henabled hok.1 (ih hrest (hok.2 s' henabled))

end

namespace Path

/-- The induction rule for runs. -/
theorem invariant {I : σ → Prop} {s t : σ} {es : List ε} (h : Path step ok s es t) (hs : I s)
    (hstep : ∀ s e s', I s → ok s e → step s e = some s' → I s') : I t := by
  induction h with
  | nil => exact hs
  | cons henabled hok _ ih => exact ih (hstep _ _ _ hs hok henabled)

end Path

end EventMachine
