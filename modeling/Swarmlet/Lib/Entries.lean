import Mathlib.Data.List.Basic

/-!
# Entries of a list

A table whose rows are found by their position changes in two ways: a row is written, or one is
added at the end. These are the rows it has before and afterwards.
-/

namespace Entries

variable {α : Type*} {l l' : List α} {i j : ℕ} {x y z : α}

theorem lt_length (hx : l[i]? = some x) : i < l.length := (List.getElem?_eq_some_iff.mp hx).1

theorem set_self (hx : l[i]? = some x) (hl : l' = l.set i y) : l'[i]? = some y := by
  rw [hl, List.getElem?_set_self (lt_length hx)]

theorem set_of_ne (hl : l' = l.set i y) (hne : j ≠ i) : l'[j]? = l[j]? := by
  rw [hl, List.getElem?_set_ne hne.symm]

theorem of_set (hl : l' = l.set i y) (hz : l'[j]? = some z) :
    j = i ∧ z = y ∨ j ≠ i ∧ l[j]? = some z := by
  by_cases hij : j = i
  · subst hij
    have hlt : j < l.length := by simpa [hl] using lt_length hz
    rw [hl, List.getElem?_set_self hlt] at hz
    exact .inl ⟨rfl, (Option.some.inj hz).symm⟩
  · exact .inr ⟨hij, set_of_ne hl hij ▸ hz⟩

theorem set_cases (hx : l[i]? = some x) (hl : l' = l.set i y) (hz : l[j]? = some z) :
    j = i ∧ z = x ∧ l'[j]? = some y ∨ j ≠ i ∧ l'[j]? = some z := by
  by_cases hij : j = i
  · subst hij
    exact .inl ⟨rfl, Option.mem_unique hz hx, set_self hx hl⟩
  · exact .inr ⟨hij, (set_of_ne hl hij).trans hz⟩

theorem append_left (hl : l' = l ++ [y]) (hx : l[i]? = some x) : l'[i]? = some x := by
  rw [hl, List.getElem?_append_left (lt_length hx), hx]

theorem of_append (hl : l' = l ++ [y]) (hz : l'[j]? = some z) :
    l[j]? = some z ∨ j = l.length ∧ z = y := by
  rw [hl, List.getElem?_append] at hz
  split_ifs at hz with hlt
  · exact .inl hz
  · have hle := lt_length hz
    rw [List.length_singleton, Nat.lt_one_iff, Nat.sub_eq_zero_iff_le] at hle
    exact .inr ⟨Nat.le_antisymm hle (Nat.not_lt.mp hlt), by simpa using List.mem_of_getElem? hz⟩

theorem forall_set {P : ℕ → α → Prop} (hl : l' = l.set i y) (hnew : P i y)
    (hold : ∀ j z, j ≠ i → l[j]? = some z → P j z) : ∀ j z, l'[j]? = some z → P j z := by
  intro j z hz
  rcases of_set hl hz with ⟨rfl, rfl⟩ | ⟨hne, hz⟩
  · exact hnew
  · exact hold j z hne hz

theorem forall_append {P : ℕ → α → Prop} (hl : l' = l ++ [y]) (hnew : P l.length y)
    (hold : ∀ j z, l[j]? = some z → P j z) : ∀ j z, l'[j]? = some z → P j z := by
  intro j z hz
  rcases of_append hl hz with hz | ⟨rfl, rfl⟩
  · exact hold j z hz
  · exact hnew

end Entries
