import Mathlib.Data.List.Basic
import Mathlib.Data.List.Nodup
import Mathlib.Algebra.Order.BigOperators.Group.List
import Mathlib.Algebra.Order.Ring.Nat

/-!
# Totals of keyed amounts

A table is a list of entries, each with a key and an amount. `total` is what the table holds under
a key, and `upsert` adds an entry to the one of the same key, or appends it. The one law the
accounting of a resource needs is `total_upsert`: the total under the entry's key grows by its
amount and every other total stays.
-/

namespace Keyed

variable {α κ : Type*} [DecidableEq κ] (key : α → κ) (amount : α → ℕ)

def total (l : List α) (k : κ) : ℕ := (l.map fun a ↦ if key a = k then amount a else 0).sum

@[simp] theorem total_nil (k : κ) : total key amount [] k = 0 := rfl

theorem total_cons (a : α) (l : List α) (k : κ) :
    total key amount (a :: l) k = (if key a = k then amount a else 0) + total key amount l k := by
  simp [total]

@[simp] theorem total_append (l l' : List α) (k : κ) :
    total key amount (l ++ l') k = total key amount l k + total key amount l' k := by
  simp [total]

variable {l : List α} {k : κ}

theorem total_perm {l' : List α} (h : l.Perm l') (k : κ) :
    total key amount l k = total key amount l' k := (h.map _).sum_eq

theorem total_eq_zero (h : ∀ a ∈ l, key a ≠ k) : total key amount l k = 0 := by
  refine List.sum_eq_zero ?_
  intro x hx
  obtain ⟨a, ha, rfl⟩ := List.mem_map.mp hx
  exact if_neg (h a ha)

theorem le_total {a : α} (h : a ∈ l) : amount a ≤ total key amount l (key a) := by
  refine List.le_sum_of_mem ?_
  exact List.mem_map.mpr ⟨a, h, if_pos rfl⟩

theorem find?_of_mem (h : (l.map key).Nodup) {a : α} (ha : a ∈ l)
    (hk : key a = k) : l.find? (key · = k) = some a := by
  cases hfind : l.find? (key · = k) with
  | none => exact absurd hk (by simpa using List.find?_eq_none.mp hfind a ha)
  | some b =>
    have hb : key b = k := by simpa using List.find?_some hfind
    rw [List.inj_on_of_nodup_map h (List.mem_of_find?_eq_some hfind) ha (hb.trans hk.symm)]

theorem find?_perm {l' : List α} (h : l.Perm l') (hkeys : (l'.map key).Nodup) (k : κ) :
    l.find? (key · = k) = l'.find? (key · = k) := by
  cases hfind : l.find? (key · = k) with
  | none =>
    refine (List.find?_eq_none.mpr fun a ha ↦ ?_).symm
    exact List.find?_eq_none.mp hfind a (h.mem_iff.mpr ha)
  | some a =>
    have ha : key a = k := by simpa using List.find?_some hfind
    exact (find?_of_mem key hkeys (h.mem_iff.mp (List.mem_of_find?_eq_some hfind)) ha).symm

theorem total_eq_find (h : (l.map key).Nodup) (k : κ) :
    total key amount l k = ((l.find? (key · = k)).map amount).getD 0 := by
  induction l with
  | nil => rfl
  | cons a l ih =>
    rw [List.map_cons, List.nodup_cons] at h
    rw [total_cons, List.find?_cons]
    by_cases hk : key a = k
    · have hrest : total key amount l k = 0 := by
        refine total_eq_zero key amount fun b hb hkb ↦ h.1 ?_
        exact List.mem_map.mpr ⟨b, hb, hkb.trans hk.symm⟩
      simp [hk, hrest]
    · simp [hk, ih h.2]

/-! ## Adding an entry -/

section upsert

variable (merge : α → α → α) (fresh : α → α)

/-- Merge an entry into the first one of its key, or append it. -/
def upsert : List α → α → List α
  | [], v => [fresh v]
  | a :: l, v => if key a = key v then merge a v :: l else a :: upsert l v

variable {merge fresh}

theorem total_upsert (hmerge : ∀ a v, key a = key v → amount (merge a v) = amount a + amount v)
    (hkey : ∀ a v, key (merge a v) = key a) (hfresh : ∀ v, amount (fresh v) = amount v)
    (hfreshKey : ∀ v, key (fresh v) = key v) (l : List α) (v : α) (k : κ) :
    total key amount (upsert key merge fresh l v) k =
      total key amount l k + if key v = k then amount v else 0 := by
  induction l with
  | nil => simp [upsert, total_cons, hfresh, hfreshKey]
  | cons a l ih =>
    rw [upsert]
    by_cases hav : key a = key v
    · rw [if_pos hav, total_cons, total_cons, hkey, hmerge a v hav, hav]
      split_ifs <;> omega
    · rw [if_neg hav, total_cons, total_cons, ih, Nat.add_assoc]

theorem mem_upsert {v b : α} (h : b ∈ upsert key merge fresh l v) :
    b ∈ l ∨ b = fresh v ∨ ∃ a ∈ l, b = merge a v := by
  induction l with
  | nil => exact .inr (.inl (by simpa [upsert] using h))
  | cons a l ih =>
    rw [upsert] at h
    split_ifs at h with hav
    · rcases List.mem_cons.mp h with rfl | hb
      · exact .inr (.inr ⟨a, by simp, rfl⟩)
      · exact .inl (List.mem_cons_of_mem _ hb)
    · rcases List.mem_cons.mp h with rfl | hb
      · exact .inl (by simp)
      · rcases ih hb with hb | hb | ⟨c, hc, rfl⟩
        · exact .inl (List.mem_cons_of_mem _ hb)
        · exact .inr (.inl hb)
        · exact .inr (.inr ⟨c, List.mem_cons_of_mem _ hc, rfl⟩)

theorem mem_keys_upsert (hkey : ∀ a v, key (merge a v) = key a)
    (hfreshKey : ∀ v, key (fresh v) = key v) {v : α} :
    k ∈ (upsert key merge fresh l v).map key ↔ k ∈ l.map key ∨ k = key v := by
  induction l with
  | nil => simp [upsert, hfreshKey]
  | cons a l ih =>
    rw [upsert]
    split_ifs with hav
    · rw [List.map_cons, List.map_cons, hkey, List.mem_cons, ← hav]
      tauto
    · rw [List.map_cons, List.map_cons, List.mem_cons, List.mem_cons, ih, or_assoc]

theorem nodup_upsert (hkey : ∀ a v, key (merge a v) = key a)
    (hfreshKey : ∀ v, key (fresh v) = key v) (h : (l.map key).Nodup) (v : α) :
    ((upsert key merge fresh l v).map key).Nodup := by
  induction l with
  | nil => simp [upsert]
  | cons a l ih =>
    rw [List.map_cons, List.nodup_cons] at h
    rw [upsert]
    split_ifs with hav
    · rw [List.map_cons, hkey, List.nodup_cons]
      exact h
    · rw [List.map_cons, List.nodup_cons, mem_keys_upsert key hkey hfreshKey, not_or]
      exact ⟨⟨h.1, hav⟩, ih h.2⟩

end upsert

end Keyed
