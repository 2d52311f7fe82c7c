import Mathlib.Data.Rat.Cast.Order
import Mathlib.Data.List.Nodup

/-!
# JSON values

A JSON text is represented by the tree `JSON.parse` makes of it. `object` builds an object the way
`JSON.stringify` writes one: members whose value is `undefined` (here `none`) are dropped. Reading
a member back is `get_object`.

The predicates take an `Option Json`, because reading a member that is absent gives `undefined`.
-/

namespace Js

inductive Json
  | null
  | bool (b : Bool)
  | num (q : ℚ)
  | str (s : String)
  | arr (elements : List Json)
  | obj (members : List (String × Json))

namespace Json

def get (members : List (String × Json)) (key : String) : Option Json :=
  (members.find? (·.1 = key)).map (·.2)

def defined (members : List (String × Option Json)) : List (String × Json) :=
  members.filterMap fun m ↦ m.2.map (m.1, ·)

def object (members : List (String × Option Json)) : Json := .obj (defined members)

def keys (members : List (String × Json)) : List String := members.map (·.1)

/-- `Object.keys(value).every(key => allowed.includes(key))`. -/
def only (members : List (String × Json)) (allowed : List String) : Bool :=
  (keys members).all (· ∈ allowed)

variable {members : List (String × Option Json)}

theorem mem_keys_defined {key : String}
    (h : key ∈ keys (defined members)) : key ∈ members.map (·.1) := by
  obtain ⟨m, hm, rfl⟩ := List.mem_map.mp h
  obtain ⟨n, hn, hsome⟩ := List.mem_filterMap.mp hm
  obtain ⟨v, -, rfl⟩ := Option.map_eq_some_iff.mp hsome
  exact List.mem_map.mpr ⟨n, hn, rfl⟩

theorem only_defined {allowed : List String}
    (h : ∀ key ∈ members.map (·.1), key ∈ allowed) : only (defined members) allowed = true := by
  rw [only, List.all_eq_true]
  exact fun key hkey ↦ decide_eq_true (h key (mem_keys_defined hkey))

/-- **Reading a member back**, for members with pairwise different keys. -/
theorem get_defined (h : (members.map (·.1)).Nodup) (key : String) :
    get (defined members) key = (members.find? (·.1 = key)).bind (·.2) := by
  induction members with
  | nil => rfl
  | cons m members ih =>
    rw [List.map_cons, List.nodup_cons] at h
    have hrest := ih h.2
    by_cases hkey : m.1 = key
    · rw [List.find?_cons_of_pos (by simpa using hkey), Option.bind_some]
      cases hv : m.2 with
      | some v => simp [get, defined, hv, hkey]
      | none =>
        have habsent : get (defined members) key = none := by
          rw [get, Option.map_eq_none_iff, List.find?_eq_none]
          intro x hx hxkey
          have hmem : key ∈ keys (defined members) :=
            List.mem_map.mpr ⟨x, hx, by simpa using hxkey⟩
          exact h.1 (hkey ▸ mem_keys_defined hmem)
        simpa [defined, hv] using habsent
    · rw [List.find?_cons_of_neg (by simpa using hkey), ← hrest]
      cases hv : m.2 with
      | none => simp [defined, hv]
      | some v => simp [get, defined, hv, hkey]

/-! ## Type tests -/

/-- `typeof v === "string"`. -/
def isStr : Option Json → Bool
  | some (.str _) => true
  | _ => false

def isNum : Option Json → Bool
  | some (.num _) => true
  | _ => false

def isBool : Option Json → Bool
  | some (.bool _) => true
  | _ => false

/-- `!!v && typeof v === "object" && !Array.isArray(v)`. -/
def isObj : Option Json → Bool
  | some (.obj _) => true
  | _ => false

def numThat (p : ℚ → Bool) : Option Json → Bool
  | some (.num q) => p q
  | _ => false

def strThat (p : String → Bool) : Option Json → Bool
  | some (.str s) => p s
  | _ => false

def arrayOf (p : Option Json → Bool) : Option Json → Bool
  | some (.arr l) => l.all fun v ↦ p (some v)
  | _ => false

def objThat (p : List (String × Json) → Bool) : Option Json → Bool
  | some (.obj members) => p members
  | _ => false

/-- `!!v`. -/
def truthy : Option Json → Bool
  | none => false
  | some .null => false
  | some (.bool b) => b
  | some (.num q) => q ≠ 0
  | some (.str s) => s ≠ ""
  | some (.arr _) => true
  | some (.obj _) => true

@[simp] theorem isStr_str (s : String) : isStr (some (.str s)) = true := rfl
@[simp] theorem isNum_num (q : ℚ) : isNum (some (.num q)) = true := rfl
@[simp] theorem isBool_bool (b : Bool) : isBool (some (.bool b)) = true := rfl
@[simp] theorem numThat_num (p : ℚ → Bool) (q : ℚ) : numThat p (some (.num q)) = p q := rfl
@[simp] theorem strThat_str (p : String → Bool) (s : String) :
    strThat p (some (.str s)) = p s := rfl
@[simp] theorem objThat_obj (p : List (String × Json) → Bool) (l : List (String × Json)) :
    objThat p (some (.obj l)) = p l := rfl
@[simp] theorem arrayOf_arr (p : Option Json → Bool) (l : List Json) :
    arrayOf p (some (.arr l)) = l.all fun v ↦ p (some v) := rfl

def nat (n : ℕ) : Json := .num n

def strings (l : List String) : Json := .arr (l.map .str)

end Json

end Js
