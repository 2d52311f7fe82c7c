import Mathlib.Data.List.Basic
import Mathlib.Control.Basic

/-!
# Programs that ask

A `Script` is a program that returns, or asks a question and goes on with the answer. It does not
say who answers. `Runs` is the relation to the conversations that lead it to a result, whatever the
answers are, and `Reaches` the same for conversations that have not come to an end; `exec` runs it
against a given answerer, with a state of its own.

A `Routine` is a script with local variables that may throw. The variables keep their values when it
throws, so that what catches the error can read them, and `call` throws what the answerer throws.

## The rules

A conversation of a sequence is one of its first part followed by one of its second
(`runs_bind`), and every conversation can be brought to an end (`Reaches.extends`). For routines
`Routine.runs_bind` has the case of an error besides.
-/

/-- A program that asks questions `Q`, is answered with `A`, and returns an `α`. -/
inductive Script (Q A α : Type)
  | done (a : α)
  | ask (q : Q) (k : A → Script Q A α)

namespace Script

variable {Q A α β : Type}

def bind : Script Q A α → (α → Script Q A β) → Script Q A β
  | done a, f => f a
  | ask q k, f => ask q fun a ↦ bind (k a) f

instance : Monad (Script Q A) where
  pure := done
  bind := bind

def question (q : Q) : Script Q A A := ask q done

/-! ## Conversations -/

/-- A conversation that leads a script to its result. -/
inductive Runs : Script Q A α → List (Q × A) → α → Prop
  | done (a : α) : Runs (done a) [] a
  | ask {q : Q} {k : A → Script Q A α} {a : A} {t : List (Q × A)} {r : α} (h : Runs (k a) t r) :
      Runs (ask q k) ((q, a) :: t) r

/-- A conversation that leads a script to another one, what is left of it. -/
inductive Reaches : Script Q A α → List (Q × A) → Script Q A α → Prop
  | refl (p : Script Q A α) : Reaches p [] p
  | ask {q : Q} {k : A → Script Q A α} {a : A} {t : List (Q × A)} {p : Script Q A α}
      (h : Reaches (k a) t p) : Reaches (ask q k) ((q, a) :: t) p

variable {p : Script Q A α} {t : List (Q × A)} {r : α}

theorem runs_done {a : α} (h : Runs (.done a) t r) : t = [] ∧ r = a := by
  cases h
  exact ⟨rfl, rfl⟩

theorem runs_ask {q : Q} {k : A → Script Q A α} (h : Runs (.ask q k) t r) :
    ∃ a t', t = (q, a) :: t' ∧ Runs (k a) t' r := by
  cases h with
  | ask h => exact ⟨_, _, rfl, h⟩

theorem runs_bind {f : α → Script Q A β} {r : β} (h : Runs (p >>= f) t r) :
    ∃ a t₁ t₂, t = t₁ ++ t₂ ∧ Runs p t₁ a ∧ Runs (f a) t₂ r := by
  induction p generalizing t with
  | done a => exact ⟨a, [], t, rfl, .done a, h⟩
  | ask q k ih =>
    obtain ⟨a, t', rfl, hrest⟩ := runs_ask h
    obtain ⟨b, t₁, t₂, rfl, hp, hf⟩ := ih a hrest
    exact ⟨b, (q, a) :: t₁, t₂, rfl, .ask hp, hf⟩

theorem Reaches.snoc {q : Q} {k : A → Script Q A α}
    (h : Reaches p t (.ask q k)) (a : A) : Reaches p (t ++ [(q, a)]) (k a) := by
  generalize hp' : Script.ask q k = p' at h
  induction h with
  | refl _ =>
    subst hp'
    exact .ask (.refl _)
  | ask _ ih => exact .ask (ih hp')

theorem Reaches.runs (h : Reaches p t (.done r)) : Runs p t r := by
  generalize hp' : Script.done r = p' at h
  induction h with
  | refl _ =>
    subst hp'
    exact .done r
  | ask _ ih => exact .ask (ih hp')

theorem Reaches.extends [hA : Nonempty A] {p' : Script Q A α}
    (h : Reaches p t p') : ∃ t' r, Runs p (t ++ t') r := by
  induction h with
  | refl p =>
    induction p with
    | done a => exact ⟨[], a, .done a⟩
    | ask q k ih =>
      obtain ⟨a⟩ := hA
      obtain ⟨t', r, hr⟩ := ih a
      exact ⟨(q, a) :: t', r, .ask hr⟩
  | ask _ ih =>
    obtain ⟨t', r, hr⟩ := ih
    exact ⟨t', r, .ask hr⟩

/-! ## Answerers -/

variable {W : Type}

/-- Run a script against an answerer with a state. -/
def exec (serve : W → Q → A × W) : Script Q A α → W → α × W
  | done a, w => (a, w)
  | ask q k, w => exec serve (k (serve w q).1) (serve w q).2

theorem exists_reaches_exec (serve : W → Q → A × W) (p : Script Q A α) (w : W) :
    ∃ t, Reaches p t (.done (exec serve p w).1) := by
  induction p generalizing w with
  | done a => exact ⟨[], .refl _⟩
  | ask q k ih =>
    obtain ⟨t, ht⟩ := ih (serve w q).1 (serve w q).2
    exact ⟨_, .ask ht⟩

/-- An answerer that has its answers ready; `a` is what it says after the last one. -/
def recite (a : A) : List A → Q → A × List A
  | [], _ => (a, [])
  | b :: rest, _ => (b, rest)

end Script

/-! ## Routines -/

/-- A script with local variables `σ` that may throw an `E`; so may the answerer. -/
abbrev Routine (Q V σ E : Type) : Type → Type := ExceptT E (StateT σ (Script Q (Except E V)))

namespace Routine

variable {Q V σ E α β : Type}

def call (q : Q) : Routine Q V σ E V := do
  match ← liftM (m := Script Q (Except E V)) (Script.question q) with
  | .ok v => pure v
  | .error e => throw e

def start (p : Routine Q V σ E α) (s : σ) : Script Q (Except E V) (Except E α × σ) := p.run.run s

theorem start_bind (p : Routine Q V σ E α) (f : α → Routine Q V σ E β) (s : σ) :
    start (p >>= f) s = start p s >>= fun r ↦ match r.1 with
      | .ok a => start (f a) r.2
      | .error e => pure (.error e, r.2) := by
  show (start p s).bind _ = (start p s).bind _
  congr 1
  funext ⟨x, s'⟩
  cases x <;> rfl

/-- A conversation of a routine, with its outcome and the variables at its end. -/
def Runs (p : Routine Q V σ E α) (s : σ) (t : List (Q × Except E V)) (x : Except E α) (s' : σ) :
    Prop :=
  Script.Runs (p.start s) t (x, s')

def check (c : Bool) (e : E) : Routine Q V σ E Unit := if c then pure () else throw e

def tell (q : Q) : Routine Q V σ E Unit := do
  let _ ← liftM (m := Script Q (Except E V)) (Script.question q)

/-- `try`: what the routine comes to, as a value. -/
def attempt (p : Routine Q V σ E α) : Routine Q V σ E (Except E α) :=
  ExceptT.mk do return .ok (← p.run)

def lift : Except E α → Routine Q V σ E α
  | .ok a => pure a
  | .error e => throw e

section Rules

variable {s s' : σ} {t : List (Q × Except E V)} {x : Except E α} {y : Except E β}

variable {p : Routine Q V σ E α} {f : α → Routine Q V σ E β} {q : Q} {e : E} {c : Bool}

theorem runs_return {r : Except E α × σ} (h : Script.Runs (.done r) t (x, s')) :
    t = [] ∧ x = r.1 ∧ s' = r.2 := by
  obtain ⟨rfl, rfl⟩ := Script.runs_done h
  exact ⟨rfl, rfl, rfl⟩

theorem runs_pure {a : α} (h : Runs (pure a : Routine Q V σ E α) s t x s') :
    t = [] ∧ x = .ok a ∧ s' = s := runs_return h

theorem runs_throw (h : Runs (throw e : Routine Q V σ E α) s t x s') :
    t = [] ∧ x = .error e ∧ s' = s := runs_return h

theorem runs_call {x : Except E V} (h : Runs (call q : Routine Q V σ E V) s t x s') :
    t = [(q, x)] ∧ s' = s := by
  obtain ⟨a, t, rfl, hdone⟩ := Script.runs_ask h
  cases a <;>
  · obtain ⟨rfl, rfl, rfl⟩ := runs_return hdone
    exact ⟨rfl, rfl⟩

theorem runs_bind (h : Runs (p >>= f) s t y s') : (∃ e, y = .error e ∧ Runs p s t (.error e) s') ∨
      ∃ a s₁ t₁ t₂, t = t₁ ++ t₂ ∧ Runs p s t₁ (.ok a) s₁ ∧ Runs (f a) s₁ t₂ y s' := by
  rw [Runs, start_bind] at h
  obtain ⟨⟨x, s₁⟩, t₁, t₂, rfl, hp, hf⟩ := Script.runs_bind h
  cases x with
  | ok a => exact .inr ⟨a, s₁, t₁, t₂, rfl, hp, hf⟩
  | error e =>
    obtain ⟨rfl, rfl, rfl⟩ := runs_return hf
    exact .inl ⟨e, rfl, by rw [List.append_nil]; exact hp⟩

theorem runs_bind_ok {b : β} (h : Runs (p >>= f) s t (.ok b) s') :
    ∃ a s₁ t₁ t₂, t = t₁ ++ t₂ ∧ Runs p s t₁ (.ok a) s₁ ∧ Runs (f a) s₁ t₂ (.ok b) s' :=
  (runs_bind h).resolve_left fun ⟨_, he, _⟩ ↦ by cases he

theorem runs_call_bind {f : V → Routine Q V σ E β} (h : Runs (call q >>= f) s t y s') :
    (∃ e, t = [(q, .error e)] ∧ y = .error e ∧ s' = s) ∨
      ∃ v t', t = (q, .ok v) :: t' ∧ Runs (f v) s t' y s' := by
  rcases runs_bind h with ⟨e, rfl, hcall⟩ | ⟨v, s₁, t₁, t₂, rfl, hcall, hf⟩ <;>
    obtain ⟨rfl, rfl⟩ := runs_call hcall
  · exact .inl ⟨e, rfl, rfl, rfl⟩
  · exact .inr ⟨v, t₂, rfl, hf⟩

theorem runs_modify_bind {f : σ → σ} {g : Unit → Routine Q V σ E β} :
    Runs ((modify f : Routine Q V σ E Unit) >>= g) s t y s' ↔ Runs (g ()) (f s) t y s' := Iff.rfl

theorem runs_get_bind {f : σ → Routine Q V σ E β} :
    Runs ((get : Routine Q V σ E σ) >>= f) s t y s' ↔ Runs (f s) s t y s' := Iff.rfl

theorem runs_attempt {z : Except E (Except E α)} (h : Runs (attempt p) s t z s') :
    ∃ x, z = .ok x ∧ Runs p s t x s' := by
  obtain ⟨⟨x, s₁⟩, t₁, t₂, rfl, hp, hdone⟩ := Script.runs_bind h
  obtain ⟨rfl, rfl, rfl⟩ := runs_return hdone
  exact ⟨x, rfl, by rw [List.append_nil]; exact hp⟩

theorem runs_attempt_bind {f : Except E α → Routine Q V σ E β}
    (h : Runs (attempt p >>= f) s t y s') : ∃ x s₁ t₁ t₂, t = t₁ ++ t₂ ∧ Runs p s t₁ x s₁ ∧
    Runs (f x) s₁ t₂ y s' := by
  rcases runs_bind h with ⟨e, rfl, hp⟩ | ⟨x, s₁, t₁, t₂, rfl, hp, hf⟩ <;>
    obtain ⟨_, hx, hp⟩ := runs_attempt hp <;> cases hx
  exact ⟨x, s₁, t₁, t₂, rfl, hp, hf⟩

theorem runs_lift {z : Except E α} (h : Runs (lift z : Routine Q V σ E α) s t x s') :
    t = [] ∧ x = z ∧ s' = s := by
  cases z with
  | ok a => exact runs_pure h
  | error e => exact runs_throw h

theorem runs_lift_bind {z : Except E α} (h : Runs (lift z >>= f) s t y s') :
    (∃ e, z = .error e ∧ t = [] ∧ y = .error e ∧ s' = s) ∨
      ∃ a, z = .ok a ∧ Runs (f a) s t y s' := by
  rcases runs_bind h with ⟨e, rfl, hz⟩ | ⟨a, s₁, t₁, t₂, rfl, hz, hf⟩ <;>
    obtain ⟨rfl, rfl, rfl⟩ := runs_lift hz
  · exact .inl ⟨e, rfl, rfl, rfl, rfl⟩
  · exact .inr ⟨a, rfl, hf⟩

theorem runs_check {x : Except E Unit} (h : Runs (check c e : Routine Q V σ E Unit) s t x s') :
    t = [] ∧ x = (if c then .ok () else .error e) ∧ s' = s := by
  cases c with
  | true => exact runs_pure h
  | false => exact runs_throw h

theorem runs_check_bind {f : Unit → Routine Q V σ E β} (h : Runs (check c e >>= f) s t y s') :
    (c = false ∧ t = [] ∧ y = .error e ∧ s' = s) ∨ (c = true ∧ Runs (f ()) s t y s') := by
  cases c with
  | false => exact .inl ⟨rfl, runs_throw h⟩
  | true => exact .inr ⟨rfl, h⟩

end Rules

/-! ### What every conversation keeps -/

/-- Every conversation of the routine relates the variables before it to those after it. -/
def Respects (R : σ → List (Q × Except E V) → σ → Prop) (p : Routine Q V σ E α) : Prop :=
  ∀ ⦃s t x s'⦄, Runs p s t x s' → R s t s'

/-- A relation that sequences respect when their parts do. -/
structure Chains (R : σ → List (Q × Except E V) → σ → Prop) : Prop where
  refl : ∀ s, R s [] s
  trans : ∀ ⦃s t s₁ t' s'⦄, R s t s₁ → R s₁ t' s' → R s (t ++ t') s'

namespace Chains

variable {R : σ → List (Q × Except E V) → σ → Prop} (hR : Chains R)
include hR

theorem pure (a : α) : Respects R (Pure.pure a : Routine Q V σ E α) := by
  intro s t x s' h
  obtain ⟨rfl, -, rfl⟩ := runs_pure h
  exact hR.refl _

theorem lift (z : Except E α) : Respects R (lift z : Routine Q V σ E α) := by
  intro s t x s' h
  obtain ⟨rfl, -, rfl⟩ := runs_lift h
  exact hR.refl _

theorem throw (e : E) : Respects R (throw e : Routine Q V σ E α) := hR.lift (.error e)

theorem check (c : Bool) (e : E) : Respects R (check c e : Routine Q V σ E Unit) := by
  cases c with
  | true => exact hR.pure ()
  | false => exact hR.throw e

theorem bind {p : Routine Q V σ E α} {f : α → Routine Q V σ E β} (hp : Respects R p)
    (hf : ∀ a, Respects R (f a)) : Respects R (p >>= f) := by
  intro s t y s' h
  rcases runs_bind h with ⟨e, -, he⟩ | ⟨a, s₁, t₁, t₂, rfl, ha, hrest⟩
  · exact hp he
  · exact hR.trans (hp ha) (hf a hrest)

end Chains

theorem respects_call {R : σ → List (Q × Except E V) → σ → Prop} {q : Q}
    (h : ∀ s a, R s [(q, a)] s) : Respects R (call q : Routine Q V σ E V) := by
  intro s t x s' hrun
  obtain ⟨rfl, rfl⟩ := runs_call hrun
  exact h _ _

end Routine
