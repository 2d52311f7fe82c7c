import Mathlib.Data.List.Nodup

/-!
# Maps as ECMAScript has them

A `Map` keeps its entries in the order in which their keys were first set, and has at most one entry
for a key. The last property is a field, so that the size of a map is the number of its keys.
-/

structure JsMap (κ ν : Type*) where
  entries : List (κ × ν)
  distinct : (entries.map (·.1)).Nodup

namespace JsMap

variable {κ ν : Type*}

def empty : JsMap κ ν := ⟨[], List.nodup_nil⟩

def keys (m : JsMap κ ν) : List κ := m.entries.map (·.1)

def size (m : JsMap κ ν) : ℕ := m.entries.length

variable (m : JsMap κ ν)

theorem length_keys : m.keys.length = m.size := List.length_map _

def retain (m : JsMap κ ν) (p : κ → ν → Bool) : JsMap κ ν where
  entries := m.entries.filter fun e ↦ p e.1 e.2
  distinct := m.distinct.sublist (List.filter_sublist.map _)

variable [DecidableEq κ]

def get (m : JsMap κ ν) (k : κ) : Option ν := (m.entries.find? (·.1 = k)).map (·.2)

def replace (k : κ) (v : ν) (entries : List (κ × ν)) : List (κ × ν) :=
  entries.map fun e ↦ if e.1 = k then (k, v) else e

theorem map_fst_replace (k : κ) (v : ν) (entries : List (κ × ν)) :
    (replace k v entries).map (·.1) = entries.map (·.1) := by
  rw [replace, List.map_map]
  refine List.map_congr_left fun e _ ↦ ?_
  by_cases h : e.1 = k
  · simp [h]
  · simp [h]

def set (m : JsMap κ ν) (k : κ) (v : ν) : JsMap κ ν :=
  if h : k ∈ m.keys then ⟨replace k v m.entries, by rw [map_fst_replace]; exact m.distinct⟩
  else ⟨m.entries ++ [(k, v)], by
    rw [List.map_append]
    exact m.distinct.append (by simp) (by simpa [keys] using h)⟩

variable {k k' : κ} {v : ν}

theorem keys_set_of_mem {m : JsMap κ ν} (h : k ∈ m.keys) (v : ν) : (m.set k v).keys = m.keys := by
  rw [set, dif_pos h]
  exact map_fst_replace k v m.entries

theorem keys_set_of_notMem {m : JsMap κ ν} (h : k ∉ m.keys) (v : ν) :
    (m.set k v).keys = m.keys ++ [k] := by
  rw [set, dif_neg h, keys, List.map_append]
  rfl

def ofEntries (entries : List (κ × ν)) : JsMap κ ν :=
  entries.foldl (fun m e ↦ m.set e.1 e.2) empty

theorem entries_ofEntries_of_nodup {entries : List (κ × ν)} (h : (entries.map (·.1)).Nodup) :
    (ofEntries entries).entries = entries := by
  suffices ∀ m : JsMap κ ν, (∀ e ∈ entries, e.1 ∉ m.keys) →
      (entries.foldl (fun m e ↦ m.set e.1 e.2) m).entries = m.entries ++ entries from
    this empty fun _ _ ↦ List.not_mem_nil
  induction entries with
  | nil => exact fun m _ ↦ (List.append_nil _).symm
  | cons e entries ih =>
    intro m hfresh
    rw [List.map_cons, List.nodup_cons] at h
    have he : e.1 ∉ m.keys := hfresh e List.mem_cons_self
    have hset : (m.set e.1 e.2).entries = m.entries ++ [e] := by rw [set, dif_neg he]
    rw [List.foldl_cons, ih h.2, hset, List.append_assoc, List.singleton_append]
    intro e' he' hmem
    rw [keys_set_of_notMem he, List.mem_append, List.mem_singleton] at hmem
    rcases hmem with hold | heq
    · exact hfresh e' (List.mem_cons_of_mem _ he') hold
    · exact h.1 (heq ▸ List.mem_map_of_mem he')

theorem mem_keys_set {m : JsMap κ ν} : k' ∈ (m.set k v).keys ↔ k' ∈ m.keys ∨ k' = k := by
  by_cases h : k ∈ m.keys
  · rw [keys_set_of_mem h]
    exact ⟨.inl, fun h' ↦ h'.elim id fun heq ↦ heq ▸ h⟩
  · rw [keys_set_of_notMem h, List.mem_append, List.mem_singleton]

@[simp] theorem get_empty (k : κ) : (empty : JsMap κ ν).get k = none := rfl

theorem get_eq_none_iff {m : JsMap κ ν} : m.get k = none ↔ k ∉ m.keys := by
  rw [get, Option.map_eq_none_iff, List.find?_eq_none, keys, List.mem_map]
  constructor
  · rintro h ⟨e, he, rfl⟩
    exact h e he (by simp)
  · intro h e he hkey
    exact h ⟨e, he, by simpa using hkey⟩

private theorem find?_replace_self (v : ν) {entries : List (κ × ν)}
    (h : k ∈ entries.map (·.1)) : (replace k v entries).find? (·.1 = k) = some (k, v) := by
  induction entries with
  | nil => simp at h
  | cons e entries ih =>
    by_cases hkey : e.1 = k
    · simp [replace, hkey]
    · have hrest : k ∈ entries.map (·.1) := by
        rw [List.map_cons, List.mem_cons] at h
        exact h.resolve_left fun heq ↦ hkey heq.symm
      rw [replace, List.map_cons, if_neg hkey, List.find?_cons_of_neg (by simpa using hkey)]
      exact ih hrest

private theorem find?_replace_of_ne (hne : k' ≠ k) (v : ν) (entries : List (κ × ν)) :
    (replace k v entries).find? (·.1 = k') = entries.find? (·.1 = k') := by
  induction entries with
  | nil => rfl
  | cons e entries ih =>
    rw [replace, List.map_cons, ← replace]
    by_cases hkey : e.1 = k
    · rw [if_pos hkey, List.find?_cons_of_neg (by simpa using hne.symm),
        List.find?_cons_of_neg (by simpa [hkey] using hne.symm), ih]
    · rw [if_neg hkey]
      by_cases hkey' : e.1 = k'
      · rw [List.find?_cons_of_pos (by simpa using hkey'),
          List.find?_cons_of_pos (by simpa using hkey')]
      · rw [List.find?_cons_of_neg (by simpa using hkey'),
          List.find?_cons_of_neg (by simpa using hkey'), ih]

@[simp] theorem get_set_self (k : κ) (v : ν) : (m.set k v).get k = some v := by
  by_cases h : k ∈ m.keys
  · rw [set, dif_pos h, get, find?_replace_self v h]
    rfl
  · have hnone := get_eq_none_iff.mpr h
    rw [get, Option.map_eq_none_iff] at hnone
    rw [set, dif_neg h, get, List.find?_append, hnone]
    simp

theorem get_set_of_ne (hne : k' ≠ k) (v : ν) : (m.set k v).get k' = m.get k' := by
  by_cases h : k ∈ m.keys
  · rw [set, dif_pos h, get, get, find?_replace_of_ne hne]
  · rw [set, dif_neg h, get, get, List.find?_append]
    simp [hne.symm]

theorem get_set_of_get {m : JsMap κ ν} {w : ν} (hfree : m.get k = none)
    (h : m.get k' = some v) : (m.set k w).get k' = some v := by
  rw [get_set_of_ne, h]
  rintro rfl
  rw [hfree] at h
  cases h

theorem mem_entries_of_get {m : JsMap κ ν} (h : m.get k = some v) : (k, v) ∈ m.entries := by
  obtain ⟨e, he, rfl⟩ := Option.map_eq_some_iff.mp h
  obtain rfl : e.1 = k := by simpa using List.find?_some he
  exact List.mem_of_find?_eq_some he

theorem get_of_set {m : JsMap κ ν} {w : ν} (h : (m.set k v).get k' = some w) :
    k' = k ∧ w = v ∨ k' ≠ k ∧ m.get k' = some w := by
  by_cases hk : k' = k
  · subst hk
    exact .inl ⟨rfl, (Option.some.inj ((m.get_set_self ..).symm.trans h)).symm⟩
  · exact .inr ⟨hk, (m.get_set_of_ne hk v).symm.trans h⟩

theorem get_of_mem {e : κ × ν} (h : e ∈ m.entries) : m.get e.1 = some e.2 := by
  cases hget : m.get e.1 with
  | none => exact absurd (List.mem_map_of_mem h) (get_eq_none_iff.mp hget)
  | some v =>
    have heq : (e.1, v) = e := List.inj_on_of_nodup_map m.distinct (mem_entries_of_get hget) h rfl
    exact congrArg some (congrArg Prod.snd heq)

theorem mem_entries_set {m : JsMap κ ν} {e : κ × ν} (h : e ∈ (m.set k v).entries) :
    e = (k, v) ∨ e ∈ m.entries := by
  rw [set] at h
  by_cases hk : k ∈ m.keys
  · rw [dif_pos hk] at h
    obtain ⟨e', he', rfl⟩ := List.mem_map.mp h
    by_cases hkey : e'.1 = k
    · exact .inl (if_pos hkey)
    · exact .inr (by rwa [if_neg hkey])
  · rw [dif_neg hk] at h
    simpa [or_comm] using h

def erase (m : JsMap κ ν) (k : κ) : JsMap κ ν := m.retain fun k' _ ↦ k' ≠ k

theorem size_erase_le (k : κ) : (m.erase k).size ≤ m.size := List.length_filter_le _ _

theorem get_erase_self (k : κ) : (m.erase k).get k = none := by
  rw [get_eq_none_iff, keys, List.mem_map]
  rintro ⟨e, he, rfl⟩
  simpa using List.of_mem_filter he

theorem get_erase_of_ne (hne : k' ≠ k) : (m.erase k).get k' = m.get k' := by
  rw [get, get, erase, retain, List.find?_filter]
  congr 2
  funext e
  by_cases h : e.1 = k'
  · simp [h, hne]
  · simp [h]

theorem get_erase_of_get {m : JsMap κ ν} {w : ν} (hk : m.get k = some v)
    (h : m.get k' = some w) (hne : v ≠ w) : (m.erase k).get k' = some w := by
  rw [get_erase_of_ne, h]
  rintro rfl
  exact hne (Option.some.inj (hk.symm.trans h))

theorem erase_set_self (k : κ) (v : ν) :
    ((m.set k v).erase k).entries = (m.erase k).entries := by
  have hreplace : ∀ entries : List (κ × ν), (replace k v entries).filter (fun e ↦ e.1 ≠ k)
      = entries.filter fun e ↦ e.1 ≠ k := by
    intro entries
    induction entries with
    | nil => rfl
    | cons e entries ih =>
      rw [replace, List.map_cons, ← replace, List.filter_cons, List.filter_cons, ih]
      by_cases he : e.1 = k
      · simp [he]
      · simp [he]
  by_cases h : k ∈ m.keys
  · rw [set, dif_pos h]
    exact hreplace m.entries
  · rw [set, dif_neg h]
    simp [erase, retain]

theorem get_of_erase {m : JsMap κ ν} (h : (m.erase k').get k = some v) :
    k ≠ k' ∧ m.get k = some v := by
  have hne : k ≠ k' := by
    rintro rfl
    rw [m.get_erase_self k] at h
    cases h
  exact ⟨hne, (m.get_erase_of_ne hne).symm.trans h⟩

theorem size_set_le (k : κ) (v : ν) : (m.set k v).size ≤ m.size + 1 := by
  rw [← length_keys, ← length_keys]
  by_cases h : k ∈ m.keys
  · rw [keys_set_of_mem h]
    exact Nat.le_succ _
  · simp [keys_set_of_notMem h]

def values (m : JsMap κ ν) : List ν := m.entries.map (·.2)

theorem mem_values_of_get {m : JsMap κ ν} (h : m.get k = some v) : v ∈ m.values :=
  List.mem_map.mpr ⟨_, mem_entries_of_get h, rfl⟩

end JsMap
