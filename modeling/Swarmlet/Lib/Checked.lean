import Mathlib.Data.List.Basic

/-!
# Computations that fail with a reason

Peeling lemmas for `Except`: from a computation that returned `.ok`, what each of its parts
returned. `Checked.require` is the guard "no problems were found".
-/

namespace Checked

universe u v

variable {ε : Type u} {α β : Type v}

variable {x : Except ε α} {f : α → Except ε β} {l : List α} {a : α} {b : β}

theorem bind_ok (h : x >>= f = .ok b) : ∃ a, x = .ok a ∧ f a = .ok b := by
  cases x with
  | error e => cases h
  | ok a => exact ⟨a, rfl, h⟩

theorem bind_of_ok (hx : x = .ok a) (h : f a = .ok b) : x >>= f = .ok b := by
  rw [hx]
  exact h

theorem exists_bind (hx : x = .ok a) (h : ∃ b, f a = .ok b) : ∃ b, x >>= f = .ok b :=
  h.imp fun _ ↦ bind_of_ok hx

theorem map_ok {f : α → β} (h : f <$> x = .ok b) : ∃ a, x = .ok a ∧ f a = b := by
  cases x with
  | error e => cases h
  | ok a => exact ⟨a, rfl, Except.ok.inj h⟩

/-- Whether a computation returns a value with a decidable property can be decided. -/
instance decidableExistsOk (x : Except ε α) (p : α → Prop) [DecidablePred p] :
    Decidable (∃ a, x = .ok a ∧ p a) :=
  match x with
  | .error _ => isFalse fun h ↦ h.elim fun _ ha ↦ nomatch ha.1
  | .ok a => decidable_of_iff (p a)
      ⟨fun h ↦ ⟨a, rfl, h⟩, fun h ↦ h.elim fun _ ha ↦ Except.ok.inj ha.1 ▸ ha.2⟩

theorem mapError_ok {ε' : Type u} {f : ε → ε'} (h : x.mapError f = .ok a) : x = .ok a := by
  cases x with
  | error e => cases h
  | ok b => exact congrArg _ (Except.ok.inj h)

theorem mapM_ok {r : List β} (h : l.mapM f = .ok r) : List.Forall₂ (fun a b ↦ f a = .ok b) l r := by
  induction l generalizing r with
  | nil =>
    cases h
    exact .nil
  | cons a rest ih =>
    rw [List.mapM_cons] at h
    obtain ⟨b, hb, h⟩ := bind_ok h
    obtain ⟨bs, hbs, h⟩ := bind_ok h
    cases h
    exact .cons hb (ih hbs)

theorem exists_input {r : α → β → Prop} {l' : List β}
    (h : List.Forall₂ r l l') (hb : b ∈ l') : ∃ a ∈ l, r a b := by
  induction h with
  | nil => cases hb
  | @cons a b' _ _ hab _ ih =>
    rcases List.mem_cons.mp hb with rfl | hb
    · exact ⟨a, List.mem_cons_self, hab⟩
    · obtain ⟨a', ha', hr⟩ := ih hb
      exact ⟨a', List.mem_cons_of_mem _ ha', hr⟩

theorem exists_mapM_iff : (∃ r, l.mapM f = .ok r) ↔ ∀ a ∈ l, ∃ b, f a = .ok b := by
  constructor
  · rintro ⟨r, h⟩ a ha
    have hforall := mapM_ok h
    clear h
    induction hforall with
    | nil => cases ha
    | @cons x b _ _ hb _ ih =>
      rcases List.mem_cons.mp ha with rfl | ha
      · exact ⟨b, hb⟩
      · exact ih ha
  · intro h
    induction l with
    | nil => exact ⟨[], rfl⟩
    | cons a rest ih =>
      obtain ⟨b, hb⟩ := h a (by simp)
      obtain ⟨bs, hbs⟩ := ih fun a ha ↦ h a (List.mem_cons_of_mem _ ha)
      rw [List.mapM_cons]
      exact ⟨b :: bs, bind_of_ok hb (bind_of_ok hbs rfl)⟩

theorem forM_ok {f : α → Except ε PUnit} (h : l.forM f = .ok ⟨⟩) : ∀ a ∈ l, f a = .ok ⟨⟩ := by
  induction l with
  | nil => simp
  | cons b l ih =>
    obtain ⟨_, hb, h⟩ := bind_ok h
    intro a ha
    rcases List.mem_cons.mp ha with rfl | ha
    · exact hb
    · exact ih h a ha

theorem forM_of_ok {f : α → Except ε PUnit} (h : ∀ a ∈ l, f a = .ok ⟨⟩) : l.forM f = .ok ⟨⟩ := by
  induction l with
  | nil => rfl
  | cons b l ih =>
    exact bind_of_ok (h b (by simp)) (ih fun a ha ↦ h a (List.mem_cons_of_mem _ ha))

/-- Succeeds when there are no problems, else fails with what `report` makes of them. -/
def require (report : List String → ε) (problems : List String) : Except ε Unit :=
  if problems = [] then .ok () else .error (report problems)

@[simp] theorem require_ok {report : List String → ε} {problems : List String} {u : Unit} :
    require report problems = .ok u ↔ problems = [] := by
  unfold require
  split <;> simp_all

def problem {α : Type v} : Except String α → List String
  | .error e => [e]
  | .ok _ => []

@[simp] theorem problem_eq_nil {x : Except String α} : problem x = [] ↔ ∃ a, x = .ok a := by
  cases x <;> simp [problem]

end Checked
