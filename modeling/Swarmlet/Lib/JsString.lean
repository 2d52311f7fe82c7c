import Mathlib.Data.List.Sort
import Mathlib.Data.List.TakeWhile
import Mathlib.Data.Rat.Defs

/-!
# Strings and sorting as ECMAScript has them

The operations of the language's library that control code relies on: comparison of strings by
UTF-16 code units, stable sorting by a comparator, and unanchored search for a pattern given as a
predicate on the text that starts at a position.

Everything here is structurally recursive, so that it computes in the kernel.
-/

namespace Js

/-! ## Comparison by code units -/

/-- The UTF-16 code units of a character: one below `0x10000`, else a surrogate pair. -/
def utf16 (c : Char) : List ℕ :=
  if c.toNat < 0x10000 then [c.toNat]
  else [0xd800 + (c.toNat - 0x10000) / 0x400, 0xdc00 + (c.toNat - 0x10000) % 0x400]

def units (s : String) : List ℕ := s.toList.flatMap utf16

def compareUnits : List ℕ → List ℕ → Ordering
  | [], [] => .eq
  | [], _ :: _ => .lt
  | _ :: _, [] => .gt
  | a :: as, b :: bs => if a < b then .lt else if b < a then .gt else compareUnits as bs

def compareText (a b : String) : Ordering := compareUnits (units a) (units b)

def length (s : String) : ℕ := (units s).length

theorem compareUnits_eq (a b : List ℕ) : compareUnits a b = List.compareLex compare a b := by
  induction a generalizing b with
  | nil => cases b <;> rfl
  | cons x a ih =>
    cases b with
    | nil => rfl
    | cons y b =>
      rw [compareUnits, List.compareLex_cons_cons, ih]
      split_ifs with hxy hyx
      · rw [Nat.compare_eq_lt.mpr hxy]
        rfl
      · rw [Nat.compare_eq_gt.mpr hyx]
        rfl
      · rw [Nat.compare_eq_eq.mpr (by omega)]
        rfl

instance : Std.TransCmp compareUnits := by
  rw [show compareUnits = List.compareLex compare from funext₂ compareUnits_eq]
  infer_instance

instance : Std.LawfulEqCmp compareUnits := by
  rw [show compareUnits = List.compareLex compare from funext₂ compareUnits_eq]
  infer_instance

/-- No code is the beginning of another one: a character is read off the units that start with
its own. -/
private theorem utf16_append_inj {c d : Char} {a b : List ℕ} (h : utf16 c ++ a = utf16 d ++ b) :
    c = d ∧ a = b := by
  have hc := c.valid
  have hd := d.valid
  simp only [UInt32.isValidChar, Nat.isValidChar] at hc hd
  suffices c.toNat = d.toNat ∧ a = b from ⟨Char.toNat_inj.mp this.1, this.2⟩
  have hcn : c.val.toNat = c.toNat := rfl
  have hdn : d.val.toNat = d.toNat := rfl
  unfold utf16 at h
  split_ifs at h with hcs hds hds
  all_goals simp only [List.cons_append, List.nil_append, List.cons.injEq] at h
  · exact h
  · omega
  · omega
  · exact ⟨by omega, h.2.2⟩

theorem units_injective : Function.Injective units := by
  intro s t h
  refine String.toList_injective ?_
  unfold units at h
  generalize s.toList = a at h ⊢
  generalize t.toList = b at h ⊢
  have hne : ∀ c : Char, utf16 c ≠ [] := by
    intro c
    rw [utf16]
    split_ifs <;> simp
  induction a generalizing b with
  | nil =>
    cases b with
    | nil => rfl
    | cons d b => exact absurd (List.append_eq_nil_iff.mp h.symm).1 (hne d)
  | cons c a ih =>
    cases b with
    | nil => exact absurd (List.append_eq_nil_iff.mp h).1 (hne c)
    | cons d b =>
      obtain ⟨rfl, hrest⟩ := utf16_append_inj h
      rw [ih b hrest]

theorem transCmp_on {α β : Type*} (c : α → α → Ordering) [Std.TransCmp c] (key : β → α) :
    Std.TransCmp fun a b ↦ c (key a) (key b) where
  eq_swap := Std.OrientedCmp.eq_swap
  isLE_trans hxy hyz := Std.TransCmp.isLE_trans hxy hyz

instance : Std.TransCmp compareText := transCmp_on compareUnits units

instance : Std.LawfulEqCmp compareText where
  compare_self {a} := @Std.ReflCmp.compare_self _ compareUnits _ (units a)
  eq_of_compare h := units_injective (@Std.LawfulEqCmp.eq_of_compare _ compareUnits _ _ _ h)

/-! ## Sorting -/

/-- `[...l].sort(c)` for a comparator: a stable sort. -/
def sortBy {α : Type*} (c : α → α → Ordering) (l : List α) : List α :=
  l.insertionSort fun a b ↦ (c a b).isLE = true

variable {α : Type*} {c : α → α → Ordering} {l : List α}

theorem sortBy_perm (c : α → α → Ordering) (l : List α) : (sortBy c l).Perm l :=
  List.perm_insertionSort _ l

@[simp] theorem mem_sortBy {a : α} :
    a ∈ sortBy c l ↔ a ∈ l := (sortBy_perm c l).mem_iff

/-- The result is sorted as soon as the comparator is a total order on the elements of the list. -/
theorem pairwise_sortBy (htotal : ∀ a ∈ l, ∀ b ∈ l, (c a b).isLE = true ∨ (c b a).isLE = true)
    (htrans : ∀ x ∈ l, ∀ y ∈ l, ∀ z ∈ l,
      (c x y).isLE = true → (c y z).isLE = true → (c x z).isLE = true) :
    (sortBy c l).Pairwise fun a b ↦ (c a b).isLE = true := by
  let r (a b : {a // a ∈ l}) : Prop := (c a b).isLE = true
  have hr : Std.Total r := ⟨fun a b ↦ htotal a a.2 b b.2⟩
  have hr' : IsTrans _ r := ⟨fun x y z ↦ htrans x x.2 y y.2 z z.2⟩
  have hmap : (l.attach.insertionSort r).map Subtype.val = sortBy c l := by
    rw [List.map_insertionSort r (fun a b ↦ (c a b).isLE = true) Subtype.val l.attach
      fun a _ b _ ↦ Iff.rfl, List.attach_map_subtype_val, sortBy]
  rw [← hmap, List.pairwise_map]
  exact List.pairwise_insertionSort r _

theorem sorted_sortBy [Std.TransCmp c] (l : List α) :
    (sortBy c l).Pairwise fun a b ↦ (c a b).isLE = true := by
  refine pairwise_sortBy (fun a _ b _ ↦ ?_) fun _ _ _ _ _ _ ↦ Std.TransCmp.isLE_trans
  have hswap : c b a = (c a b).swap := Std.OrientedCmp.eq_swap
  rw [hswap]
  cases c a b <;> decide

/-- **Sorting forgets the order of its input** when the comparator tells the elements apart. -/
theorem sortBy_eq_of_perm [Std.TransCmp c] {l' : List α}
    (h : l.Perm l') (hinj : ∀ a ∈ l, ∀ b ∈ l, c a b = .eq → a = b) : sortBy c l = sortBy c l' := by
  refine List.Perm.eq_of_pairwise ?_ (sorted_sortBy l) (sorted_sortBy l')
    ((sortBy_perm c l).trans (h.trans (sortBy_perm c l').symm))
  intro a b ha hb hab hba
  refine hinj a (mem_sortBy.mp ha) b (h.mem_iff.mpr (mem_sortBy.mp hb)) ?_
  exact Std.OrientedCmp.isLE_antisymm hab hba

/-- `[...new Set(l)]`: the first occurrences, in order. -/
def distinct {α : Type*} [DecidableEq α] (l : List α) : List α := go [] l
where
  go (seen : List α) : List α → List α
    | [] => []
    | a :: as => if a ∈ seen then go seen as else a :: go (a :: seen) as

private theorem mem_distinct_go [DecidableEq α] {seen : List α} {a : α} :
    a ∈ distinct.go seen l ↔ a ∈ l ∧ a ∉ seen := by
  induction l generalizing seen with
  | nil => simp [distinct.go]
  | cons b l ih =>
    rw [distinct.go]
    split_ifs with hb
    · rw [ih, List.mem_cons]
      refine ⟨fun h ↦ ⟨.inr h.1, h.2⟩, fun h ↦ ⟨h.1.resolve_left ?_, h.2⟩⟩
      rintro rfl
      exact h.2 hb
    · rw [List.mem_cons, ih, List.mem_cons, List.mem_cons, not_or]
      by_cases hab : a = b
      · simp [hab, hb]
      · simp [hab]

@[simp] theorem mem_distinct [DecidableEq α] {a : α} :
    a ∈ distinct l ↔ a ∈ l := by
  rw [distinct, mem_distinct_go]
  simp

theorem nodup_distinct [DecidableEq α] (l : List α) : (distinct l).Nodup := by
  suffices ∀ seen, (distinct.go seen l).Nodup from this []
  induction l with
  | nil => exact fun _ ↦ List.nodup_nil
  | cons a l ih =>
    intro seen
    rw [distinct.go]
    split_ifs with ha
    · exact ih seen
    · exact List.nodup_cons.mpr ⟨fun h ↦ (mem_distinct_go.mp h).2 (by simp), ih _⟩

theorem two_le_length_distinct [DecidableEq α] :
    2 ≤ (distinct l).length ↔ ∃ a ∈ l, ∃ b ∈ l, a ≠ b := by
  constructor
  · intro h
    have hnodup := nodup_distinct l
    match heq : distinct l, h with
    | a :: b :: rest, _ =>
      rw [heq] at hnodup
      have ha : a ∈ l := mem_distinct.mp (heq ▸ List.mem_cons_self)
      have hb : b ∈ l := mem_distinct.mp (heq ▸ List.mem_cons_of_mem _ List.mem_cons_self)
      exact ⟨a, ha, b, hb, fun hab ↦ (List.nodup_cons.mp hnodup).1 (hab ▸ List.mem_cons_self)⟩
  · rintro ⟨a, ha, b, hb, hab⟩
    by_contra hlt
    obtain ⟨x, hx⟩ : ∃ x, ∀ y ∈ distinct l, y = x := by
      match heq : distinct l with
      | [] => exact ⟨a, by simp⟩
      | [x] => exact ⟨x, by simp⟩
      | _ :: _ :: _ => simp [heq] at hlt
    exact hab ((hx a (mem_distinct.mpr ha)).trans (hx b (mem_distinct.mpr hb)).symm)

/-! ## Searching -/

/-- `/p/.test(s)` for a pattern that is not anchored: `p` holds at some position. -/
def search (p : List Char → Bool) : List Char → Bool
  | [] => p []
  | c :: cs => p (c :: cs) || search p cs

def startsWith : List Char → List Char → Bool
  | [], _ => true
  | _ :: _, [] => false
  | n :: ns, c :: cs => n == c && startsWith ns cs

def foldCase (c : Char) : Char := if 'A' ≤ c ∧ c ≤ 'Z' then Char.ofNat (c.toNat + 32) else c

/-- `/needle/i.test(s)` for a literal needle. -/
def containsIgnoringCase (needle s : String) : Bool :=
  search (startsWith (needle.toList.map foldCase)) (s.toList.map foldCase)

/-- The class `\s`. -/
def isSpace (c : Char) : Bool :=
  (9 ≤ c.toNat && c.toNat ≤ 13) || c.toNat ∈ [0x20, 0xa0, 0x1680, 0x2028, 0x2029, 0x202f, 0x205f,
    0x3000, 0xfeff] || (0x2000 ≤ c.toNat && c.toNat ≤ 0x200a)

/-- `b.toString(16).padStart(2, "0")`. -/
def hexByte (b : Fin 256) : List Char := [Nat.digitChar (b / 16), Nat.digitChar (b % 16)]

/-- `/^[0-9a-f]{64}$/.test(s)`. -/
def isSha256 (s : String) : Bool :=
  s.toList.length == 64 && s.toList.all fun c ↦ ('0' ≤ c && c ≤ '9') || ('a' ≤ c && c ≤ 'f')

/-- The last segment of a path, trailing slashes ignored: `path.basename`. -/
def basename (path : String) : String :=
  String.ofList (((path.toList.reverse.dropWhile (· == '/')).takeWhile (· != '/')).reverse)

/-! ## Numbered texts -/

section

variable {m n : ℕ} {c : Char} {a b : String}

private theorem toDigits_inj (h : Nat.toDigits 10 m = Nat.toDigits 10 n) : m = n := by
  rw [← Nat.ofDigitChars_ten_toDigits (n := m), h, Nat.ofDigitChars_ten_toDigits]

theorem toString_inj (h : toString m = toString n) : m = n :=
  toDigits_inj (by simpa using congrArg String.toList h)

private theorem takeWhile_number (hc : c.isDigit = false) (a : List Char) (n : ℕ) :
    (a ++ c :: Nat.toDigits 10 n).reverse.takeWhile (· ≠ c) = (Nat.toDigits 10 n).reverse := by
  have hdigits : c ∉ Nat.toDigits 10 n := fun h ↦ by
    rw [Nat.isDigit_of_mem_toDigits (by decide) (by decide) h] at hc
    cases hc
  rw [List.reverse_append, List.reverse_cons, List.append_assoc, List.takeWhile_append_of_pos]
  · simp
  · intro d hd
    have hne : d ≠ c := fun heq ↦ hdigits (heq ▸ List.mem_reverse.mp hd)
    exact decide_eq_true hne

theorem numbered_inj (hc : c.isDigit = false) (h : a.toList ++ c :: (toString m).toList =
    b.toList ++ c :: (toString n).toList) : a = b ∧ m = n := by
  have htext : a.toList ++ c :: Nat.toDigits 10 m = b.toList ++ c :: Nat.toDigits 10 n := by
    simpa using h
  have hdigits := takeWhile_number hc a.toList m
  rw [htext, takeWhile_number hc] at hdigits
  have hnumber := toDigits_inj (List.reverse_injective hdigits.symm)
  rw [hnumber] at htext
  exact ⟨String.toList_injective (List.append_cancel_right htext), hnumber⟩

theorem number_inj (h : a ++ "-" ++ toString m = b ++ "-" ++ toString n) : m = n := by
  refine (numbered_inj (c := '-') (by decide) (a := a) (b := b) ?_).2
  simpa using congrArg String.toList h

end

/-! ## The host library -/

/-- A parsed URL; `port` is `none` where the text names none or names the scheme's default. -/
structure Url where
  protocol : String
  hostname : String
  port : Option ℕ
deriving DecidableEq

/-- `Number(url.port)`: an absent port is the empty string, which is zero. -/
def Url.portNumber (url : Url) : ℕ := url.port.getD 0

/-- The host functions a program calls on text it did not write itself. Nothing is assumed of
them: results hold for every regular-expression engine, collation, URL parser and way of writing
numbers. -/
structure Runtime where
  test : String → String → Bool
  localeCompare : String → String → Ordering
  url : String → Option Url
  origin : Url → String
  number : ℚ → String
  toFixed : ℚ → ℕ → String

/-- Patterns are compared as text, ids by code unit, nothing is a URL, and a number is written as
its integer part. -/
def plainRuntime : Runtime where
  test pattern text := pattern = text
  localeCompare := compareText
  url _ := none
  origin _ := ""
  number x := toString (x.num / x.den)
  toFixed x _ := toString (x.num / x.den)

end Js
