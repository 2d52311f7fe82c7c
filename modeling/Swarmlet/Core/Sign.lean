import Swarmlet.Lib.Json
import Swarmlet.Lib.JsonText

/-!
# Signatures over canonical JSON

`canonicalize` writes a value with the keys of its objects sorted, and an object is signed as the
bytes of that text, its own `signature` field left out. The canonical text is the JSON text of the
value's *normal form*, whose objects have their defined members in the order of their keys and whose
numbers are those the text reads back as. Two values are equal exactly when they have one normal
form (`same_iff`), and the text of a normal form parses to it, so that the text determines the value
up to equality.
-/

namespace Swarmlet

open Js

variable {ν : Type}

/-! ## The canonical text -/

/-- `a < b ? -1 : a > b ? 1 : 0` on keys. -/
def compareKeys (a b : Units) : Ordering := compareUnits (a.map (·.val)) (b.map (·.val))

def sortMembers {α : Type*} (members : List (Units × α)) : List (Units × α) :=
  sortBy (fun a b ↦ compareKeys a.1 b.1) members

mutual

/-- `canonicalize(value)`. The texts of the members are made before they are sorted: the sort looks
at the keys alone. -/
def canonicalize (N : Numerals ν) : Value ν → List Char
  | .arr elements => '[' :: commas (canonicalElements N elements) ++ [']']
  | .obj members =>
    '\x7b' :: commas ((sortMembers (canonicalMembers N members)).map fun m ↦ memberText m.1 m.2)
      ++ ['\x7d']
  | v => stringify N v

def canonicalElements (N : Numerals ν) : List (Value ν) → List (List Char)
  | [] => []
  | v :: vs => canonicalize N v :: canonicalElements N vs

def canonicalMembers (N : Numerals ν) :
    List (Units × Option (Value ν)) → List (Units × List Char)
  | [] => []
  | (_, none) :: ms => canonicalMembers N ms
  | (k, some v) :: ms => (k, canonicalize N v) :: canonicalMembers N ms

end

variable (N : Numerals ν)

theorem canonicalElements_eq (elements : List (Value ν)) :
    canonicalElements N elements = elements.map (canonicalize N) := by
  induction elements with
  | nil => rfl
  | cons v vs ih => rw [canonicalElements, ih, List.map_cons]

theorem canonicalMembers_eq (members : List (Units × Option (Value ν))) :
    canonicalMembers N members
      = (definedMembers members).map fun m ↦ (m.1, canonicalize N m.2) := by
  induction members with
  | nil => rfl
  | cons m ms ih =>
    obtain ⟨k, _ | v⟩ := m
    · rw [canonicalMembers, ih]
      rfl
    · rw [canonicalMembers, ih]
      rfl

/-! ## Normal forms -/

def readBack (N : Numerals ν) (x : ν) : ν := (N.read (N.write x)).getD x

mutual

/-- The value the canonical text denotes. -/
def normalForm (N : Numerals ν) : Value ν → Value ν
  | .num x => .num (readBack N x)
  | .arr elements => .arr (normalElements N elements)
  | .obj members =>
    .obj ((sortMembers (normalMembers N members)).map fun m ↦ (m.1, some m.2))
  | v => v

def normalElements (N : Numerals ν) : List (Value ν) → List (Value ν)
  | [] => []
  | v :: vs => normalForm N v :: normalElements N vs

def normalMembers (N : Numerals ν) : List (Units × Option (Value ν)) → List (Units × Value ν)
  | [] => []
  | (_, none) :: ms => normalMembers N ms
  | (k, some v) :: ms => (k, normalForm N v) :: normalMembers N ms

end

theorem normalElements_eq (elements : List (Value ν)) :
    normalElements N elements = elements.map (normalForm N) := by
  induction elements with
  | nil => rfl
  | cons v vs ih => rw [normalElements, ih, List.map_cons]

theorem normalMembers_eq (members : List (Units × Option (Value ν))) :
    normalMembers N members = (definedMembers members).map fun m ↦ (m.1, normalForm N m.2) := by
  induction members with
  | nil => rfl
  | cons m ms ih =>
    obtain ⟨k, _ | v⟩ := m
    · rw [normalMembers, ih]
      rfl
    · rw [normalMembers, ih]
      rfl

/-! ## Sorting by key -/

theorem sortMembers_map {α β : Type*} (f : α → β) (members : List (Units × α)) :
    sortMembers (members.map fun m ↦ (m.1, f m.2))
      = (sortMembers members).map fun m ↦ (m.1, f m.2) := by
  symm
  exact List.map_insertionSort (r := fun a b : Units × α ↦ (compareKeys a.1 b.1).isLE = true)
    (s := fun a b : Units × β ↦ (compareKeys a.1 b.1).isLE = true) (fun m ↦ (m.1, f m.2)) members
    fun _ _ _ _ ↦ Iff.rfl

theorem mem_sortMembers {α : Type*} {members : List (Units × α)} {m : Units × α} :
    m ∈ sortMembers members ↔ m ∈ members := mem_sortBy

theorem sortMembers_perm {α : Type*} (members : List (Units × α)) :
    (sortMembers members).Perm members := sortBy_perm _ members

theorem eq_of_compareKeys {a b : Units} (h : compareKeys a b = .eq) : a = b :=
  List.map_injective_iff.mpr Fin.val_injective (Std.LawfulEqCmp.eq_of_compare h)

theorem sortMembers_eq_of_perm {α : Type*} {members members' : List (Units × α)}
    (h : members.Perm members') (hkeys : (members.map (·.1)).Nodup) :
    sortMembers members = sortMembers members' := by
  have : Std.TransCmp fun a b : Units × α ↦ compareKeys a.1 b.1 :=
    transCmp_on compareUnits fun m : Units × α ↦ m.1.map fun u : CodeUnit ↦ u.val
  refine sortBy_eq_of_perm h fun a ha b hb heq ↦ ?_
  exact List.inj_on_of_nodup_map hkeys ha hb (eq_of_compareKeys heq)

theorem canonicalize_obj (members : List (Units × Option (Value ν))) :
    canonicalize N (.obj members) = '\x7b' :: commas ((sortMembers (definedMembers members)).map
      fun m ↦ memberText m.1 (canonicalize N m.2)) ++ ['\x7d'] := by
  rw [canonicalize, canonicalMembers_eq, sortMembers_map, List.map_map]
  rfl

/-! ## The canonical text is the text of the normal form -/

theorem write_readBack (x : ν) : N.write (readBack N x) = N.write x := by
  obtain ⟨y, hread, hsame⟩ := N.read_write x
  rw [readBack, hread, Option.getD_some]
  exact ((N.write_eq_iff x y).mpr hsame).symm

theorem read_write_readBack (x : ν) :
    N.read (N.write (readBack N x)) = some (readBack N x) := by
  obtain ⟨y, hread, -⟩ := N.read_write x
  rw [write_readBack, readBack, hread, Option.getD_some]

theorem canonicalize_eq_stringify {v : Value ν} (hv : Distinct v) :
    canonicalize N v = stringify N (normalForm N v) := by
  induction hv with
  | null | bool | str => rfl
  | num x => exact (write_readBack N x).symm
  | @arr elements _ ih =>
    rw [canonicalize, canonicalElements_eq, normalForm, normalElements_eq, stringify,
      elementTexts_eq, List.map_map, List.map_congr_left ih]
    rfl
  | @obj members _ _ ih =>
    have htexts : (sortMembers (definedMembers members)).map
          (fun m ↦ memberText m.1 (canonicalize N m.2))
        = (sortMembers (definedMembers members)).map
          fun m ↦ memberText m.1 (stringify N (normalForm N m.2)) :=
      List.map_congr_left fun m hm ↦ by rw [ih m (mem_sortMembers.mp hm)]
    rw [canonicalize_obj, htexts, normalForm, normalMembers_eq, sortMembers_map, stringify,
      memberTexts_eq, definedMembers_map_some, List.map_map]
    rfl

theorem exact_normalForm {v : Value ν} (hv : Distinct v) :
    Exact N (normalForm N v) := by
  induction hv with
  | null => exact .null
  | bool b => exact .bool b
  | num x => exact .num (read_write_readBack N x)
  | str s => exact .str s
  | @arr elements _ ih =>
    rw [normalForm, normalElements_eq]
    refine .arr fun w hw ↦ ?_
    obtain ⟨v, hv, rfl⟩ := List.mem_map.mp hw
    exact ih v hv
  | @obj members hkeys _ ih =>
    rw [normalForm, normalMembers_eq, sortMembers_map]
    refine .obj ?_ fun m hm ↦ ?_
    · rw [List.map_map]
      exact (((sortMembers_perm _).map _).nodup_iff).mpr (nodup_definedMembers hkeys)
    · obtain ⟨m', hm', rfl⟩ := List.mem_map.mp hm
      exact ih m' (mem_sortMembers.mp hm')

/-! ## One normal form, one value -/

theorem readBack_eq_iff (x y : ν) : readBack N x = readBack N y ↔ N.Same x y := by
  rw [← N.write_eq_iff]
  constructor
  · intro h
    rw [← write_readBack N x, h, write_readBack]
  · intro h
    obtain ⟨z, hread, -⟩ := N.read_write y
    rw [readBack, readBack, h, hread]
    rfl

theorem same_elements_iff {l l' : List (Value ν)}
    (ih : ∀ v ∈ l, ∀ w ∈ l', Same N v w ↔ normalForm N v = normalForm N w) :
    List.Forall₂ (Same N) l l' ↔ l.map (normalForm N) = l'.map (normalForm N) := by
  induction l generalizing l' with
  | nil => cases l' <;> simp
  | cons v l ihl =>
    cases l' with
    | nil => simp
    | cons w l' =>
      rw [List.forall₂_cons, List.map_cons, List.map_cons, List.cons.injEq,
        ih v List.mem_cons_self w List.mem_cons_self,
        ihl fun v hv w hw ↦ ih v (List.mem_cons_of_mem _ hv) w (List.mem_cons_of_mem _ hw)]

variable {ms ms' members : List (Units × Option (Value ν))} {v a b : Value ν}

theorem mem_normalMembers (hkeys : (members.map (·.1)).Nodup) {k : Units} {w : Value ν} :
    (k, w) ∈ normalMembers N members ↔ (member members k).map (normalForm N) = some w := by
  rw [normalMembers_eq, List.mem_map, Option.map_eq_some_iff]
  constructor
  · rintro ⟨⟨k', v⟩, hmem, hpair⟩
    cases hpair
    exact ⟨v, (member_eq_some_iff hkeys).mpr hmem, rfl⟩
  · rintro ⟨v, hv, rfl⟩
    exact ⟨(k, v), (member_eq_some_iff hkeys).mp hv, rfl⟩

theorem nodup_normalMembers
    (hkeys : (members.map (·.1)).Nodup) : ((normalMembers N members).map (·.1)).Nodup := by
  rw [normalMembers_eq, List.map_map]
  exact nodup_definedMembers hkeys

theorem sort_normalMembers_eq_iff (hkeys : (ms.map (·.1)).Nodup) (hkeys' : (ms'.map (·.1)).Nodup) :
    sortMembers (normalMembers N ms) = sortMembers (normalMembers N ms')
      ↔ ∀ k, (member ms k).map (normalForm N) = (member ms' k).map (normalForm N) := by
  constructor
  · intro h k
    have hmem : ∀ w, (k, w) ∈ normalMembers N ms ↔ (k, w) ∈ normalMembers N ms' := by
      intro w
      rw [← mem_sortMembers, h, mem_sortMembers]
    refine Option.ext fun w ↦ ?_
    rw [← mem_normalMembers N hkeys, hmem, mem_normalMembers N hkeys']
  · intro h
    refine sortMembers_eq_of_perm ?_ (nodup_normalMembers N hkeys)
    refine (List.perm_ext_iff_of_nodup (nodup_normalMembers N hkeys).of_map
      (nodup_normalMembers N hkeys').of_map).mpr ?_
    rintro ⟨k, w⟩
    rw [mem_normalMembers N hkeys, h, mem_normalMembers N hkeys']

theorem normalForm_obj_eq_iff : normalForm N (.obj ms) = normalForm N (.obj ms')
      ↔ sortMembers (normalMembers N ms) = sortMembers (normalMembers N ms') := by
  rw [normalForm, normalForm, Value.obj.injEq]
  refine List.map_inj_right ?_
  rintro ⟨k, v⟩ ⟨k', v'⟩ h
  cases h
  rfl

theorem optionRel_iff {α : Type*} {r : α → α → Prop} {β : Type*} {f : α → β} {o o' : Option α}
    (h : ∀ v ∈ o, ∀ w ∈ o', r v w ↔ f v = f w) : Option.Rel r o o' ↔ o.map f = o'.map f := by
  cases o <;> cases o' <;> simp_all

/-- **Two values are equal exactly when they have one normal form.** -/
theorem same_iff (ha : Distinct a) (hb : Distinct b) :
    Same N a b ↔ normalForm N a = normalForm N b := by
  induction ha generalizing b with
  | null =>
    cases hb with
    | null => exact iff_of_true .null rfl
    | _ => exact iff_of_false nofun nofun
  | bool b =>
    cases hb with
    | bool c =>
      refine ⟨fun h ↦ ?_, fun h ↦ ?_⟩
      · cases h
        rfl
      · cases h
        exact .bool b
    | _ => exact iff_of_false nofun nofun
  | num x =>
    cases hb with
    | num y =>
      rw [normalForm, normalForm, Value.num.injEq, readBack_eq_iff]
      exact ⟨fun | .num h => h, .num⟩
    | _ => exact iff_of_false nofun nofun
  | str s =>
    cases hb with
    | str t =>
      refine ⟨fun h ↦ ?_, fun h ↦ ?_⟩
      · cases h
        rfl
      · cases h
        exact .str s
    | _ => exact iff_of_false nofun nofun
  | @arr l _ ih =>
    cases hb with
    | @arr l' hl' =>
      have hall : List.Forall₂ (Same N) l l' ↔ l.map (normalForm N) = l'.map (normalForm N) :=
        same_elements_iff N fun v hv w hw ↦ ih v hv (hl' w hw)
      rw [normalForm, normalForm, normalElements_eq, normalElements_eq, Value.arr.injEq, ← hall]
      exact ⟨fun | .arr h => h, .arr⟩
    | _ => exact iff_of_false nofun nofun
  | @obj ms hkeys _ ih =>
    cases hb with
    | @obj ms' hkeys' hms' =>
      rw [normalForm_obj_eq_iff, sort_normalMembers_eq_iff N hkeys hkeys']
      have hkey : ∀ k, Option.Rel (Same N) (member ms k) (member ms' k)
          ↔ (member ms k).map (normalForm N) = (member ms' k).map (normalForm N) := fun k ↦
        optionRel_iff fun v hv w hw ↦ ih (k, v) ((member_eq_some_iff hkeys).mp hv)
          (hms' (k, w) ((member_eq_some_iff hkeys').mp hw))
      refine ⟨fun h k ↦ ?_, fun h ↦ .obj fun k ↦ (hkey k).mpr (h k)⟩
      cases h with
      | obj h => exact (hkey k).mp (h k)
    | _ => exact iff_of_false nofun nofun

theorem normalForm_normalForm (hv : Distinct v) :
    normalForm N (normalForm N v) = normalForm N v := by
  induction hv with
  | null | bool | str => rfl
  | num x =>
    rw [normalForm, normalForm, readBack, read_write_readBack, Option.getD_some]
  | @arr elements _ ih =>
    rw [normalForm, normalElements_eq, normalForm, normalElements_eq, List.map_map]
    exact congrArg Value.arr (List.map_congr_left ih)
  | @obj members hkeys _ ih =>
    have hnormal : (normalMembers N members).map (fun m ↦ (m.1, normalForm N m.2))
        = normalMembers N members := by
      rw [normalMembers_eq, List.map_map]
      exact List.map_congr_left fun m hm ↦ Prod.ext rfl (ih m hm)
    have hsorted := sortMembers_eq_of_perm (sortMembers_perm (normalMembers N members))
      (((sortMembers_perm _).map _).nodup_iff.mpr (nodup_normalMembers N hkeys))
    rw [normalForm, normalForm, normalMembers_eq N (List.map _ _), definedMembers_map_some,
      sortMembers_map, hsorted, ← sortMembers_map, hnormal]

theorem same_normalForm (hv : Distinct v) : Same N v (normalForm N v) :=
  (same_iff N hv (exact_normalForm N hv).distinct).mpr (normalForm_normalForm N hv).symm

theorem parse_canonicalize (hv : Distinct v) :
    parse N (canonicalize N v) = some (normalForm N v) := by
  rw [canonicalize_eq_stringify N hv]
  exact parse_stringify (exact_normalForm N hv)

theorem canonicalize_eq_iff (ha : Distinct a) (hb : Distinct b) :
    canonicalize N a = canonicalize N b ↔ Same N a b := by
  rw [same_iff N ha hb]
  constructor
  · intro h
    have hparse := parse_canonicalize N ha
    rw [h, parse_canonicalize N hb] at hparse
    exact (Option.some.inj hparse).symm
  · intro h
    rw [canonicalize_eq_stringify N ha, canonicalize_eq_stringify N hb, h]

/-! ## Signed objects -/

structure Document (ν : Type) where
  value : Value ν
  distinct : Distinct value

structure SignedObject (ν : Type) where
  members : JsMap Units (Option (Value ν))
  distinct : ∀ m ∈ definedMembers members.entries, Distinct m.2

/-- What the host provides: the signatures of a key pair and their base64 form, which may fail to
decode, and verification, which may throw. -/
structure Signing (priv pub sig : Type) where
  sign : priv → ByteArray → sig
  verify : pub → sig → ByteArray → Option Bool
  toBase64 : sig → Units
  fromBase64 : Units → Option sig

/-- A signature verifies for one message only. -/
def Signing.Binding {priv pub sig : Type} (S : Signing priv pub sig) : Prop :=
  ∀ key s m m', S.verify key s m = some true → S.verify key s m' = some true → m = m'

def encode (text : List Char) : ByteArray := (String.ofList text).toUTF8

theorem encode_injective : Function.Injective encode := by
  intro a b h
  exact String.ofList_injective (String.toByteArray_inj.mp h)

def textUnits (s : String) : Units := s.toList.flatMap unitsOf

def signatureKey : Units := textUnits "signature"

theorem distinct_set {members : JsMap Units (Option (Value ν))} {k : Units} {v : Value ν}
    (h : ∀ m ∈ definedMembers members.entries, Distinct m.2) (hv : Distinct v) :
    ∀ m ∈ definedMembers (members.set k (some v)).entries, Distinct m.2 := by
  rintro ⟨k', w⟩ hm
  rcases JsMap.mem_entries_set (mem_definedMembers.mp hm) with heq | hold
  · cases heq
    exact hv
  · exact h _ (mem_definedMembers.mpr hold)

namespace SignedObject

variable {priv pub sig : Type}

section

variable (N : Numerals ν) (S : Signing priv pub sig) (o : SignedObject ν)

def payload : Value ν := .obj (o.members.erase signatureKey).entries

def data : ByteArray := encode (canonicalize N o.payload)

def signObject (key : priv) (o : SignedObject ν) : SignedObject ν where
  members := o.members.set signatureKey (some (.str (S.toBase64 (S.sign key (o.data N)))))
  distinct := distinct_set o.distinct (.str _)

def signature : Option sig :=
  match o.members.get signatureKey with
  | some (some (.str s)) => S.fromBase64 s
  | _ => none

/-- `verifyObject(signed, pub)`: false unless the signature is a string, decodes and verifies. -/
def verifyObject (key : pub) (o : SignedObject ν) : Bool :=
  ((o.signature S).bind fun s ↦ S.verify key s (o.data N)).getD false

theorem distinct_payload : Distinct o.payload := by
  refine .obj (o.members.erase signatureKey).distinct fun m hm ↦ o.distinct m ?_
  rw [mem_definedMembers] at hm ⊢
  exact List.mem_of_mem_filter hm

theorem verifyObject_signObject {key : priv} {key' : pub}
    (hpair : ∀ m, S.verify key' (S.sign key m) m = some true)
    (hbase : ∀ s, S.fromBase64 (S.toBase64 s) = some s) (o : SignedObject ν) :
    (o.signObject N S key).verifyObject N S key' = true := by
  have hpayload : (o.signObject N S key).payload = o.payload :=
    congrArg Value.obj (JsMap.erase_set_self _ _ _)
  rw [verifyObject, signature, data, hpayload, ← data, signObject, JsMap.get_set_self]
  simp [hbase, hpair]

end

theorem verify_of_verifyObject {N : Numerals ν} {S : Signing priv pub sig} {key : pub}
    {o : SignedObject ν} (h : o.verifyObject N S key = true) :
    ∃ s, o.signature S = some s ∧ S.verify key s (o.data N) = some true := by
  rw [verifyObject, Option.getD_eq_iff] at h
  rcases h with h | ⟨-, h⟩
  · exact Option.bind_eq_some_iff.mp h
  · cases h

end SignedObject

/-! ## Parsed objects -/

mutual

/-- A value that was parsed from a text; of the members with one key the last counts. -/
def ofJson : Json → Value ℚ
  | .null => .null
  | .bool b => .bool b
  | .num q => .num q
  | .str s => .str (textUnits s)
  | .arr elements => .arr (ofElements elements)
  | .obj members => .obj (ofMembers .empty members).entries

def ofElements : List Json → List (Value ℚ)
  | [] => []
  | v :: vs => ofJson v :: ofElements vs

def ofMembers : JsMap Units (Option (Value ℚ)) → List (String × Json) →
    JsMap Units (Option (Value ℚ))
  | parsed, [] => parsed
  | parsed, (k, v) :: ms => ofMembers (parsed.set (textUnits k) (some (ofJson v))) ms

end

mutual

theorem distinct_ofJson : ∀ v, Distinct (ofJson v)
  | .null => .null
  | .bool _ => .bool _
  | .num _ => .num _
  | .str _ => .str _
  | .arr elements => .arr (distinct_ofElements elements)
  | .obj members => .obj (ofMembers .empty members).distinct
      (distinct_ofMembers .empty members fun _ hm ↦ nomatch hm)

theorem distinct_ofElements : ∀ elements, ∀ v ∈ ofElements elements, Distinct v
  | [], _, hv => nomatch hv
  | w :: ws, v, hv => by
    rcases List.mem_cons.mp hv with rfl | hv
    · exact distinct_ofJson w
    · exact distinct_ofElements ws v hv

theorem distinct_ofMembers : ∀ parsed members,
    (∀ m ∈ definedMembers parsed.entries, Distinct m.2) →
      ∀ m ∈ definedMembers (ofMembers parsed members).entries, Distinct m.2
  | _, [], h => h
  | _, (_, v) :: ms, h => distinct_ofMembers _ ms (distinct_set h (distinct_ofJson v))

end

def SignedObject.ofJson (members : List (String × Json)) : SignedObject ℚ :=
  ⟨ofMembers .empty members, distinct_ofMembers _ members fun _ hm ↦ nomatch hm⟩

/-! ## What a signature binds -/

/-- **Signed objects mean one thing.** Two values have one canonical text exactly when they are
equal, the text parses to a value equal to the one it was made from, and two objects that verify
under one signature agree outside the signature field. -/
theorem signed_objects_mean_one_thing :
    (∀ a b : Document ν, canonicalize N a.value = canonicalize N b.value ↔ Same N a.value b.value) ∧
    (∀ a : Document ν, ∃ v, parse N (canonicalize N a.value) = some v ∧ Same N a.value v) ∧
    ∀ {priv pub sig : Type} (S : Signing priv pub sig), S.Binding → ∀ (key : pub)
      (a b : SignedObject ν), a.signature S = b.signature S → a.verifyObject N S key = true →
      b.verifyObject N S key = true → Same N a.payload b.payload := by
  refine ⟨fun a b ↦ canonicalize_eq_iff N a.distinct b.distinct, fun a ↦ ?_, ?_⟩
  · exact ⟨_, parse_canonicalize N a.distinct, same_normalForm N a.distinct⟩
  · intro priv pub sig S hone key a b hsig ha hb
    obtain ⟨s, hs, hverify⟩ := SignedObject.verify_of_verifyObject ha
    obtain ⟨s', hs', hverify'⟩ := SignedObject.verify_of_verifyObject hb
    obtain rfl : s = s' := Option.some.inj (hs.symm.trans (hsig.trans hs'))
    have htext := encode_injective (hone key s _ _ hverify hverify')
    exact (canonicalize_eq_iff N a.distinct_payload b.distinct_payload).mp htext

/-! ### An instance

The two zeros, written alike, and a scheme whose signatures are the messages themselves. -/

def zeros (zero : ν) : Numerals ν where
  write _ := ['0']
  read text := if text = ['0'] then some zero else none
  Same _ _ := True
  write_eq_iff _ _ := by simp
  read_write _ := ⟨zero, by simp, trivial⟩
  write_ne_nil _ := by simp
  isNumberChar_of_mem _ c hc := by
    rw [List.mem_singleton.mp hc]
    decide

def bytesOf (m : ByteArray) : Units := m.data.toList.map fun b ↦ Fin.ofNat 0x10000 b.toNat

def plainSigning : Signing Unit Unit Units where
  sign _ m := bytesOf m
  verify _ s m := some (decide (s = bytesOf m))
  toBase64 s := s
  fromBase64 s := some s

theorem bytesOf_injective : Function.Injective bytesOf := by
  intro m m' h
  refine ByteArray.ext (Array.toList_inj.mp ?_)
  refine List.map_injective_iff.mpr ?_ h
  intro b c hbc
  have hb := b.toNat_lt
  have hc := c.toNat_lt
  have hval : b.toNat % 0x10000 = c.toNat % 0x10000 := congrArg Fin.val hbc
  exact UInt8.toNat_inj.mp (by omega)

theorem plainSigning_binding : plainSigning.Binding := by
  intro _ s m m' h h'
  have hm : s = bytesOf m := by simpa [plainSigning] using h
  have hm' : s = bytesOf m' := by simpa [plainSigning] using h'
  exact bytesOf_injective (hm.symm.trans hm')

/-- An object with a zero of a given sign under one key and nothing under another. -/
def zeroMember (negative : Bool) : SignedObject Bool where
  members := ⟨[([98], some (.num negative)), ([97], none)], by simp⟩
  distinct := by
    intro m hm
    obtain rfl : m = ([98], .num negative) := by simpa [definedMembers] using hm
    exact .num negative

theorem signed_objects_mean_one_thing_zeros :
    Same (zeros false) ((zeroMember false).signObject (zeros false) plainSigning ()).payload
      ((zeroMember true).signObject (zeros false) plainSigning ()).payload := by
  have hverify : ∀ negative, ((zeroMember negative).signObject (zeros false) plainSigning
      ()).verifyObject (zeros false) plainSigning () = true := fun negative ↦
    SignedObject.verifyObject_signObject (zeros false) plainSigning
      (fun m ↦ by simp [plainSigning]) (fun _ ↦ rfl) (zeroMember negative)
  refine (signed_objects_mean_one_thing (zeros false)).2.2 plainSigning plainSigning_binding () _ _
    ?_ (hverify false) (hverify true)
  rfl

end Swarmlet
