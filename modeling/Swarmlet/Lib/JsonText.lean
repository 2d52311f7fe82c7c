import Swarmlet.Lib.JsMap
import Swarmlet.Lib.JsString
import Swarmlet.Lib.Keyed

/-!
# JSON values and their texts

The values a JSON text can denote, `JSON.stringify` for them and `JSON.parse`. A string is the list
of its 16-bit code units, lone surrogates included, as the language has it. A text is a list of
characters: `JSON.stringify` escapes a surrogate that has no partner, so that its results are
always well formed.

How a number is written is a parameter. `Numerals` says what is used of it: two numbers have one
text when they are the same number, the text reads back, and it is made of the characters of a JSON
number.

The main result is `parse_stringify`: the text of an exact value parses, to that value. A member of
an object may be undefined, as it may be in the object a program holds; an exact value has none.
-/

namespace Js

/-! ## Strings -/

abbrev CodeUnit := Fin 0x10000

abbrev Units := List CodeUnit

def CodeUnit.isHigh (u : CodeUnit) : Bool := 0xd800 ≤ u.val && u.val < 0xdc00

def CodeUnit.isLow (u : CodeUnit) : Bool := 0xdc00 ≤ u.val && u.val < 0xe000

def pairChar (high low : CodeUnit) : Char :=
  Char.ofNat (0x10000 + (high.val - 0xd800) * 0x400 + (low.val - 0xdc00))

instance neZero_units : NeZero 0x10000 := ⟨by decide⟩

def unitsOf (c : Char) : Units := (utf16 c).map (Fin.ofNat 0x10000)

def unicodeEscape (u : CodeUnit) : List Char :=
  ['\\', 'u', (u.val / 4096).digitChar, (u.val / 256 % 16).digitChar, (u.val / 16 % 16).digitChar,
    (u.val % 16).digitChar]

def quoteUnit (u : CodeUnit) : List Char :=
  if u.val = 8 then ['\\', 'b']
  else if u.val = 9 then ['\\', 't']
  else if u.val = 10 then ['\\', 'n']
  else if u.val = 12 then ['\\', 'f']
  else if u.val = 13 then ['\\', 'r']
  else if u.val = 34 then ['\\', '"']
  else if u.val = 92 then ['\\', '\\']
  else if u.val < 0x20 || u.isHigh || u.isLow then unicodeEscape u
  else [Char.ofNat u.val]

def quoteUnits : Units → List Char
  | [] => []
  | [u] => quoteUnit u
  | u :: v :: rest =>
    if u.isHigh && v.isLow then pairChar u v :: quoteUnits rest
    else quoteUnit u ++ quoteUnits (v :: rest)

/-- `JSON.stringify(s)` for a string. -/
def quote (s : Units) : List Char := '"' :: quoteUnits s ++ ['"']

def hexValue (c : Char) : Option ℕ :=
  if '0' ≤ c ∧ c ≤ '9' then some (c.toNat - 48)
  else if 'a' ≤ c ∧ c ≤ 'f' then some (c.toNat - 87)
  else if 'A' ≤ c ∧ c ≤ 'F' then some (c.toNat - 55)
  else none

def escapedUnit (c : Char) : Option CodeUnit :=
  match c with
  | '"' => some 34
  | '\\' => some 92
  | '/' => some 47
  | 'b' => some 8
  | 'f' => some 12
  | 'n' => some 10
  | 'r' => some 13
  | 't' => some 9
  | _ => none

/-- The rest of a string literal after its first quote, with the text that follows it. -/
def parseUnits : List Char → Option (Units × List Char)
  | [] => none
  | '"' :: rest => some ([], rest)
  | '\\' :: 'u' :: a :: b :: c :: d :: rest => do
    let n := (← hexValue a) * 4096 + (← hexValue b) * 256 + (← hexValue c) * 16 + (← hexValue d)
    let (s, after) ← parseUnits rest
    some (Fin.ofNat 0x10000 n :: s, after)
  | '\\' :: c :: rest => do
    let u ← escapedUnit c
    let (s, after) ← parseUnits rest
    some (u :: s, after)
  | c :: rest =>
    if c.toNat < 0x20 then none
    else do
      let (s, after) ← parseUnits rest
      some (unitsOf c ++ s, after)

theorem hexValue_digitChar {n : ℕ} (h : n < 16) : hexValue n.digitChar = some n := by
  have hall : ∀ n < 16, hexValue n.digitChar = some n := by decide
  exact hall n h

variable {rest after : List Char} {s : Units}

theorem parseUnits_unicodeEscape (u : CodeUnit) (h : parseUnits rest = some (s, after)) :
    parseUnits (unicodeEscape u ++ rest) = some (u :: s, after) := by
  have h1 := hexValue_digitChar (n := u.val / 4096) (by omega)
  have h2 := hexValue_digitChar (n := u.val / 256 % 16) (by omega)
  have h3 := hexValue_digitChar (n := u.val / 16 % 16) (by omega)
  have h4 := hexValue_digitChar (n := u.val % 16) (by omega)
  have hsum : u.val / 4096 * 4096 + u.val / 256 % 16 * 256 + u.val / 16 % 16 * 16 + u.val % 16
      = u.val := by omega
  simp [unicodeEscape, parseUnits, h1, h2, h3, h4, h, hsum]

/-- A character that is neither a quote, a backslash nor a control character stands for itself. -/
theorem parseUnits_plain {c : Char} (hquote : c ≠ '"') (hslash : c ≠ '\\') (hc : 0x20 ≤ c.toNat)
    (h : parseUnits rest = some (s, after)) :
    parseUnits (c :: rest) = some (unitsOf c ++ s, after) := by
  rw [parseUnits.eq_5]
  · rw [if_neg (by omega), h]
    rfl
  · exact hquote
  · intros
    exact absurd ‹_› hslash
  · intros
    exact absurd ‹_› hslash

theorem unitsOf_ofNat {u : CodeUnit} (hhigh : u.isHigh = false) (hlow : u.isLow = false) :
    (Char.ofNat u.val).toNat = u.val ∧ unitsOf (Char.ofNat u.val) = [u] := by
  have hu := u.isLt
  simp only [CodeUnit.isHigh, CodeUnit.isLow, Bool.and_eq_false_iff, decide_eq_false_iff_not] at *
  have hnat : (Char.ofNat u.val).toNat = u.val := by
    rw [Char.ofNat, dif_pos (by rw [Nat.isValidChar]; omega)]
    exact UInt32.toNat_ofNatLT
  refine ⟨hnat, ?_⟩
  rw [unitsOf, utf16, hnat, if_pos hu]
  exact congrArg (· :: []) (Fin.ext (Nat.mod_eq_of_lt hu))

theorem unitsOf_pairChar {u v : CodeUnit} (hhigh : u.isHigh = true) (hlow : v.isLow = true) :
    0x10000 ≤ (pairChar u v).toNat ∧ unitsOf (pairChar u v) = [u, v] := by
  simp only [CodeUnit.isHigh, CodeUnit.isLow, Bool.and_eq_true, decide_eq_true_eq] at hhigh hlow
  have hnat : (pairChar u v).toNat = 0x10000 + (u.val - 0xd800) * 0x400 + (v.val - 0xdc00) := by
    rw [pairChar, Char.ofNat, dif_pos (by rw [Nat.isValidChar]; omega)]
    exact UInt32.toNat_ofNatLT
  refine ⟨by omega, ?_⟩
  rw [unitsOf, utf16, if_neg (by omega), hnat]
  have hu : 0xd800 + (0x10000 + (u.val - 0xd800) * 0x400 + (v.val - 0xdc00) - 0x10000) / 0x400
      = u.val := by omega
  have hv : 0xdc00 + (0x10000 + (u.val - 0xd800) * 0x400 + (v.val - 0xdc00) - 0x10000) % 0x400
      = v.val := by omega
  rw [hu, hv]
  simp

theorem parseUnits_quoteUnit (u : CodeUnit) (h : parseUnits rest = some (s, after)) :
    parseUnits (quoteUnit u ++ rest) = some (u :: s, after) := by
  rw [quoteUnit]
  -- The seven one-letter escapes, the code escape, and the character itself.
  split_ifs with h8 h9 h10 h12 h13 h34 h92 hescape
  · obtain rfl : u = 8 := Fin.ext h8
    simp [parseUnits, escapedUnit, h]
  · obtain rfl : u = 9 := Fin.ext h9
    simp [parseUnits, escapedUnit, h]
  · obtain rfl : u = 10 := Fin.ext h10
    simp [parseUnits, escapedUnit, h]
  · obtain rfl : u = 12 := Fin.ext h12
    simp [parseUnits, escapedUnit, h]
  · obtain rfl : u = 13 := Fin.ext h13
    simp [parseUnits, escapedUnit, h]
  · obtain rfl : u = 34 := Fin.ext h34
    simp [parseUnits, escapedUnit, h]
  · obtain rfl : u = 92 := Fin.ext h92
    simp [parseUnits, escapedUnit, h]
  · exact parseUnits_unicodeEscape u h
  · simp only [Bool.or_eq_true, decide_eq_true_eq, not_or, Bool.not_eq_true] at hescape
    obtain ⟨⟨hcontrol, hhigh⟩, hlow⟩ := hescape
    obtain ⟨hnat, hunits⟩ := unitsOf_ofNat hhigh hlow
    have hparse := parseUnits_plain (c := Char.ofNat u.val) (fun heq ↦ h34 (hnat ▸ heq ▸ rfl))
      (fun heq ↦ h92 (hnat ▸ heq ▸ rfl)) (by omega) h
    rwa [hunits] at hparse

/-- **A string reads back** from its literal, and the reader stops at the closing quote. -/
theorem parseUnits_quoteUnits (s : Units) (rest : List Char) :
    parseUnits (quoteUnits s ++ '"' :: rest) = some (s, rest) := by
  induction s using quoteUnits.induct with
  | case1 => simp [quoteUnits, parseUnits]
  | case2 u => exact parseUnits_quoteUnit u (by simp [parseUnits])
  | case3 u v s hpair ih =>
    rw [Bool.and_eq_true] at hpair
    obtain ⟨hnat, hunits⟩ := unitsOf_pairChar hpair.1 hpair.2
    have hne : ∀ c : Char, c.toNat < 0x10000 → pairChar u v ≠ c := by
      rintro c hc rfl
      omega
    have hparse := parseUnits_plain (hne '"' (by decide)) (hne '\\' (by decide)) (by omega) ih
    rw [hunits] at hparse
    rw [quoteUnits, if_pos (by simp [hpair])]
    exact hparse
  | case4 u v s hpair ih =>
    rw [quoteUnits, if_neg hpair, List.append_assoc]
    exact parseUnits_quoteUnit u ih

/-! ## Numbers -/

def isNumberChar (c : Char) : Bool := c.isDigit || c ∈ ['-', '+', '.', 'e', 'E']

structure Numerals (ν : Type) where
  write : ν → List Char
  read : List Char → Option ν
  Same : ν → ν → Prop
  write_eq_iff : ∀ x y, write x = write y ↔ Same x y
  read_write : ∀ x, ∃ y, read (write x) = some y ∧ Same x y
  write_ne_nil : ∀ x, write x ≠ []
  isNumberChar_of_mem : ∀ x, ∀ c ∈ write x, isNumberChar c = true

/-! ## Values -/

inductive Value (ν : Type)
  | null
  | bool (b : Bool)
  | num (x : ν)
  | str (s : Units)
  | arr (elements : List (Value ν))
  /-- Members in order; one whose value is undefined is still a key of the object. -/
  | obj (members : List (Units × Option (Value ν)))

variable {ν : Type}

def commas : List (List Char) → List Char
  | [] => []
  | [t] => t
  | t :: u :: ts => t ++ ',' :: commas (u :: ts)

def memberText (k : Units) (text : List Char) : List Char := quote k ++ ':' :: text

mutual

/-- `JSON.stringify(value)`. -/
def stringify (N : Numerals ν) : Value ν → List Char
  | .null => ['n', 'u', 'l', 'l']
  | .bool true => ['t', 'r', 'u', 'e']
  | .bool false => ['f', 'a', 'l', 's', 'e']
  | .num x => N.write x
  | .str s => quote s
  | .arr elements => '[' :: commas (elementTexts N elements) ++ [']']
  | .obj members => '\x7b' :: commas (memberTexts N members) ++ ['\x7d']

def elementTexts (N : Numerals ν) : List (Value ν) → List (List Char)
  | [] => []
  | v :: vs => stringify N v :: elementTexts N vs

def memberTexts (N : Numerals ν) : List (Units × Option (Value ν)) → List (List Char)
  | [] => []
  | (_, none) :: ms => memberTexts N ms
  | (k, some v) :: ms => memberText k (stringify N v) :: memberTexts N ms

end

def definedMembers {α : Type*} (members : List (Units × Option α)) : List (Units × α) :=
  members.filterMap fun m ↦ m.2.map fun v ↦ (m.1, v)

def member {α : Type*} (members : List (Units × Option α)) (k : Units) : Option α :=
  (members.find? (·.1 = k)).bind (·.2)

/-- No object inside has a key twice, as none of the language has. -/
inductive Distinct : Value ν → Prop
  | null : Distinct .null
  | bool (b : Bool) : Distinct (.bool b)
  | num (x : ν) : Distinct (.num x)
  | str (s : Units) : Distinct (.str s)
  | arr {elements : List (Value ν)} (helements : ∀ v ∈ elements, Distinct v) :
    Distinct (.arr elements)
  | obj {members : List (Units × Option (Value ν))} (hkeys : (members.map (·.1)).Nodup)
    (hmembers : ∀ m ∈ definedMembers members, Distinct m.2) : Distinct (.obj members)

/-- **Equality of JSON values**: arrays element by element, objects key by key whatever the order of
their members, numbers up to the sign of zero. An undefined member is none. -/
inductive Same (N : Numerals ν) : Value ν → Value ν → Prop
  | null : Same N .null .null
  | bool (b : Bool) : Same N (.bool b) (.bool b)
  | num {x y : ν} (h : N.Same x y) : Same N (.num x) (.num y)
  | str (s : Units) : Same N (.str s) (.str s)
  | arr {l l' : List (Value ν)} (h : List.Forall₂ (Same N) l l') : Same N (.arr l) (.arr l')
  | obj {ms ms' : List (Units × Option (Value ν))}
    (h : ∀ k, Option.Rel (Same N) (member ms k) (member ms' k)) : Same N (.obj ms) (.obj ms')

theorem mem_definedMembers {α : Type*} {members : List (Units × Option α)} {k : Units} {v : α} :
    (k, v) ∈ definedMembers members ↔ (k, some v) ∈ members := by
  rw [definedMembers, List.mem_filterMap]
  constructor
  · rintro ⟨⟨k', w⟩, hm, heq⟩
    obtain ⟨u, hu, hpair⟩ := Option.map_eq_some_iff.mp heq
    cases hpair
    cases hu
    exact hm
  · exact fun h ↦ ⟨_, h, rfl⟩

theorem definedMembers_map_some {α : Type*} (members : List (Units × α)) :
    definedMembers (members.map fun m ↦ (m.1, some m.2)) = members := by
  rw [definedMembers, List.filterMap_map]
  exact List.filterMap_some

theorem nodup_definedMembers {α : Type*} {members : List (Units × Option α)}
    (h : (members.map (·.1)).Nodup) : ((definedMembers members).map (·.1)).Nodup := by
  refine h.sublist ?_
  induction members with
  | nil => exact List.Sublist.slnil
  | cons m ms ih =>
    rw [List.map_cons, List.nodup_cons] at h
    obtain ⟨k, _ | v⟩ := m
    · exact (ih h.2).cons k
    · exact (ih h.2).cons_cons k

theorem member_eq_some_iff {α : Type*} {members : List (Units × Option α)}
    (h : (members.map (·.1)).Nodup) {k : Units} {v : α} :
    member members k = some v ↔ (k, v) ∈ definedMembers members := by
  rw [mem_definedMembers, member, Option.bind_eq_some_iff]
  constructor
  · rintro ⟨m, hfind, hv⟩
    obtain rfl : m.1 = k := by simpa using List.find?_some hfind
    rw [← hv]
    exact List.mem_of_find?_eq_some hfind
  · exact fun hmem ↦ ⟨_, Keyed.find?_of_mem (·.1) h hmem rfl, rfl⟩

variable (N : Numerals ν)

theorem elementTexts_eq (elements : List (Value ν)) :
    elementTexts N elements = elements.map (stringify N) := by
  induction elements with
  | nil => rfl
  | cons v vs ih => rw [elementTexts, ih, List.map_cons]

theorem memberTexts_eq (members : List (Units × Option (Value ν))) :
    memberTexts N members
      = (definedMembers members).map fun m ↦ memberText m.1 (stringify N m.2) := by
  induction members with
  | nil => rfl
  | cons m ms ih =>
    obtain ⟨k, _ | v⟩ := m
    · rw [memberTexts, ih]
      rfl
    · rw [memberTexts, ih]
      rfl

/-! ## Parsing -/

def skipSpace (text : List Char) : List Char :=
  text.dropWhile (· ∈ [' ', '\t', '\n', '\r'])

def literal (word text : List Char) : Option (List Char) :=
  if word.isPrefixOf text then some (text.drop word.length) else none

/-- A number is the longest run of number characters; the characters that may follow a JSON number
are not among them. -/
def parseNumber (N : Numerals ν) (text : List Char) : Option (Value ν × List Char) :=
  (N.read (text.takeWhile isNumberChar)).map fun x ↦ (.num x, text.dropWhile isNumberChar)

/-- The object with the members read: the last value of a key counts. -/
def objectOf (members : List (Units × Value ν)) : Value ν :=
  .obj ((JsMap.ofEntries members).entries.map fun m ↦ (m.1, some m.2))

mutual

/-- The value a text starts with, and the text after it. The first argument bounds the nesting. -/
def parseValue (N : Numerals ν) : ℕ → List Char → Option (Value ν × List Char)
  | 0, _ => none
  | n + 1, text =>
    match skipSpace text with
    | [] => none
    | c :: rest =>
      if c = '"' then (parseUnits rest).map fun r ↦ (.str r.1, r.2)
      else if c = '[' then
        match skipSpace rest with
        | ']' :: after => some (.arr [], after)
        | _ => (parseElements N n rest).map fun r ↦ (.arr r.1, r.2)
      else if c = '\x7b' then
        match skipSpace rest with
        | '\x7d' :: after => some (.obj [], after)
        | _ => (parseMembers N n rest).map fun r ↦ (objectOf r.1, r.2)
      else if c = 'n' then (literal ['u', 'l', 'l'] rest).map (.null, ·)
      else if c = 't' then (literal ['r', 'u', 'e'] rest).map (.bool true, ·)
      else if c = 'f' then (literal ['a', 'l', 's', 'e'] rest).map (.bool false, ·)
      else if isNumberChar c then parseNumber N (c :: rest)
      else none

def parseElements (N : Numerals ν) : ℕ → List Char → Option (List (Value ν) × List Char)
  | 0, _ => none
  | n + 1, text => do
    let (v, rest) ← parseValue N n text
    match skipSpace rest with
    | ',' :: rest => (parseElements N n rest).map fun r ↦ (v :: r.1, r.2)
    | ']' :: after => some ([v], after)
    | _ => none

def parseMembers (N : Numerals ν) : ℕ → List Char → Option (List (Units × Value ν) × List Char)
  | 0, _ => none
  | n + 1, text =>
    match skipSpace text with
    | '"' :: rest => do
      let (k, rest) ← parseUnits rest
      match skipSpace rest with
      | ':' :: rest => do
        let (v, rest) ← parseValue N n rest
        match skipSpace rest with
        | ',' :: rest => (parseMembers N n rest).map fun r ↦ ((k, v) :: r.1, r.2)
        | '\x7d' :: after => some ([(k, v)], after)
        | _ => none
      | _ => none
    | _ => none

end

/-- `JSON.parse(text)`. Every level of nesting takes a character, so that the length of the text is
bound enough. -/
def parse (N : Numerals ν) (text : List Char) : Option (Value ν) :=
  match parseValue N text.length text with
  | some (v, after) => if skipSpace after = [] then some v else none
  | none => none

/-- Values with all members defined, no key twice, and the numbers that reading yields. -/
inductive Exact (N : Numerals ν) : Value ν → Prop
  | null : Exact N .null
  | bool (b : Bool) : Exact N (.bool b)
  | num {x : ν} (hread : N.read (N.write x) = some x) : Exact N (.num x)
  | str (s : Units) : Exact N (.str s)
  | arr {elements : List (Value ν)} (helements : ∀ v ∈ elements, Exact N v) :
    Exact N (.arr elements)
  | obj {members : List (Units × Value ν)} (hkeys : (members.map (·.1)).Nodup)
    (hmembers : ∀ m ∈ members, Exact N m.2) :
    Exact N (.obj (members.map fun m ↦ (m.1, some m.2)))

theorem Exact.distinct {N : Numerals ν} {v : Value ν} (hv : Exact N v) : Distinct v := by
  induction hv with
  | null => exact .null
  | bool b => exact .bool b
  | @num x => exact .num x
  | str s => exact .str s
  | arr _ ih => exact .arr ih
  | obj hkeys _ ih =>
    refine .obj (by simpa [Function.comp_def] using hkeys) fun m hm ↦ ?_
    rw [definedMembers_map_some] at hm
    exact ih m hm

/-- A text that cannot extend a number before it. -/
def Ends (text : List Char) : Prop := ∀ c ∈ text.head?, isNumberChar c = false

theorem parseNumber_write (x : ν) {rest : List Char} (hrest : Ends rest) :
    parseNumber N (N.write x ++ rest) = (N.read (N.write x)).map fun y ↦ (.num y, rest) := by
  have htake : rest.takeWhile isNumberChar = [] := by
    cases rest with
    | nil => rfl
    | cons c => rw [List.takeWhile_cons_of_neg (by simp [hrest c rfl])]
  have hdrop : rest.dropWhile isNumberChar = rest := by
    cases rest with
    | nil => rfl
    | cons c => rw [List.dropWhile_cons_of_neg (by simp [hrest c rfl])]
  rw [parseNumber, List.takeWhile_append_of_pos (N.isNumberChar_of_mem x), htake, List.append_nil,
    List.dropWhile_append_of_pos (N.isNumberChar_of_mem x), hdrop]

theorem parseValue_of_isNumberChar {c : Char} (hc : isNumberChar c = true) (n : ℕ)
    (rest : List Char) : parseValue N (n + 1) (c :: rest) = parseNumber N (c :: rest) := by
  have hne : ∀ d, isNumberChar d = false → c ≠ d := by
    rintro d hd rfl
    rw [hc] at hd
    cases hd
  have hspace : skipSpace (c :: rest) = c :: rest := by
    rw [skipSpace, List.dropWhile_cons_of_neg]
    simp [hne ' ' (by decide), hne '\t' (by decide), hne '\n' (by decide), hne '\r' (by decide)]
  rw [parseValue, hspace]
  simp [hc, hne '"' (by decide), hne '[' (by decide), hne '\x7b' (by decide), hne 'n' (by decide),
    hne 't' (by decide), hne 'f' (by decide)]

@[simp] theorem skipSpace_comma (rest : List Char) : skipSpace (',' :: rest) = ',' :: rest := rfl

@[simp] theorem skipSpace_bracket (rest : List Char) : skipSpace (']' :: rest) = ']' :: rest := rfl

@[simp] theorem skipSpace_brace (rest : List Char) :
    skipSpace ('\x7d' :: rest) = '\x7d' :: rest := rfl

/-- Reading a value back after its text, whatever follows it. -/
def ReadsBack (N : Numerals ν) (v : Value ν) : Prop :=
  ∀ n rest, (stringify N v).length ≤ n → Ends rest →
    parseValue N n (stringify N v ++ rest) = some (v, rest)

theorem parseElements_commas {v : Value ν} {vs : List (Value ν)}
    (h : ∀ w ∈ v :: vs, ReadsBack N w) (n : ℕ) (rest : List Char)
    (hn : (commas ((v :: vs).map (stringify N))).length < n) :
    parseElements N n (commas ((v :: vs).map (stringify N)) ++ ']' :: rest)
      = some (v :: vs, rest) := by
  induction vs generalizing v n with
  | nil =>
    obtain _ | n := n
    · omega
    rw [parseElements]
    have hv := h v List.mem_cons_self n (']' :: rest) (by simpa [commas] using Nat.le_of_lt_succ hn)
      (by rintro _ ⟨⟩; decide)
    simp [commas, hv]
  | cons w vs ih =>
    obtain _ | n := n
    · omega
    simp only [List.map_cons, commas, List.length_append, List.length_cons] at hn ih ⊢
    have hv := h v List.mem_cons_self n (',' :: (commas (stringify N w :: vs.map (stringify N))
      ++ ']' :: rest)) (by omega) (by rintro _ ⟨⟩; decide)
    have hvs := ih (fun u hu ↦ h u (List.mem_cons_of_mem _ hu)) n (by omega)
    rw [parseElements, List.append_assoc, List.cons_append, hv]
    simp [hvs]

theorem parseMembers_commas {m : Units × Value ν} {ms : List (Units × Value ν)}
    (h : ∀ m' ∈ m :: ms, ReadsBack N m'.2) (n : ℕ) (rest : List Char)
    (hn : (commas ((m :: ms).map fun m ↦ memberText m.1 (stringify N m.2))).length < n) :
    parseMembers N n (commas ((m :: ms).map fun m ↦ memberText m.1 (stringify N m.2))
      ++ '\x7d' :: rest) = some (m :: ms, rest) := by
  -- A key reads back with the colon after it, whatever the member's value.
  have hkey : ∀ (k : Units) (text : List Char),
      skipSpace (quote k ++ ':' :: text) = '"' :: (quoteUnits k ++ '"' :: ':' :: text) := by
    simp [quote, skipSpace]
  have hcolon : ∀ text, skipSpace (':' :: text) = ':' :: text := fun _ ↦ rfl
  induction ms generalizing m n with
  | nil =>
    obtain _ | n := n
    · omega
    simp only [List.map_cons, List.map_nil, commas, memberText, List.length_append,
      List.length_cons] at hn
    have hv := h m List.mem_cons_self n ('\x7d' :: rest) (by omega) (by rintro _ ⟨⟩; decide)
    simp [commas, memberText, parseMembers, hkey, parseUnits_quoteUnits, hcolon, hv]
  | cons m' ms ih =>
    obtain _ | n := n
    · omega
    have hvs := ih (fun u hu ↦ h u (List.mem_cons_of_mem _ hu)) n
    simp only [List.map_cons, commas, List.length_append, List.length_cons] at hn hvs ⊢
    have hlength : (stringify N m.2).length ≤ n := by
      simp only [memberText, List.length_append, List.length_cons] at hn
      omega
    have hv := h m List.mem_cons_self n (',' :: (commas (memberText m'.1 (stringify N m'.2)
      :: ms.map fun m ↦ memberText m.1 (stringify N m.2)) ++ '\x7d' :: rest)) hlength
      (by rintro _ ⟨⟩; decide)
    rw [memberText, List.append_assoc, List.append_assoc, List.cons_append, List.cons_append,
      parseMembers, hkey]
    simp [parseUnits_quoteUnits, hcolon, hv, hvs (by omega)]

theorem exists_commas_cons (t : List Char) (ts : List (List Char)) :
    ∃ u, commas (t :: ts) = t ++ u := by
  cases ts with
  | nil => exact ⟨[], (List.append_nil t).symm⟩
  | cons t' ts => exact ⟨',' :: commas (t' :: ts), rfl⟩

theorem exists_stringify_cons (v : Value ν) :
    ∃ c text, stringify N v = c :: text ∧ c ∉ [' ', '\t', '\n', '\r', ']'] := by
  cases v with
  | null => exact ⟨'n', _, rfl, by decide⟩
  | bool b =>
    cases b with
    | false => exact ⟨'f', _, rfl, by decide⟩
    | true => exact ⟨'t', _, rfl, by decide⟩
  | num x =>
    obtain ⟨c, text, heq⟩ := List.exists_cons_of_ne_nil (N.write_ne_nil x)
    have hc := N.isNumberChar_of_mem x c (by rw [heq]; exact List.mem_cons_self)
    refine ⟨c, text, heq, fun hmem ↦ ?_⟩
    have hnone : ∀ d ∈ [' ', '\t', '\n', '\r', ']'], isNumberChar d = false := by
      simp [isNumberChar]
    rw [hnone c hmem] at hc
    cases hc
  | str => exact ⟨'"', _, rfl, by decide⟩
  | arr => exact ⟨'[', _, rfl, by decide⟩
  | obj => exact ⟨'\x7b', _, rfl, by decide⟩

theorem parseValue_arr {elements : List (Value ν)}
    (h : ∀ v ∈ elements, ReadsBack N v) : ReadsBack N (.arr elements) := by
  intro n rest hn _
  rw [stringify, elementTexts_eq] at *
  simp only [List.length_append, List.length_cons] at hn
  obtain _ | n := n
  · omega
  have hopen : ∀ text, skipSpace ('[' :: text) = '[' :: text := fun _ ↦ rfl
  cases elements with
  | nil => simp [commas, parseValue, hopen]
  | cons v vs =>
    have hparse := parseElements_commas N h n rest (by omega)
    obtain ⟨c, text, hv, hc⟩ := exists_stringify_cons N v
    obtain ⟨u, hu⟩ := exists_commas_cons (stringify N v) (vs.map (stringify N))
    rw [List.map_cons, hu, hv] at hparse ⊢
    simp only [List.cons_append, List.append_assoc, List.nil_append] at hparse ⊢
    have hspace : skipSpace (c :: (text ++ (u ++ ']' :: rest)))
        = c :: (text ++ (u ++ ']' :: rest)) := by
      rw [skipSpace, List.dropWhile_cons_of_neg]
      simp at hc
      simp [hc]
    have hbracket : c ≠ ']' := by
      rintro rfl
      simp at hc
    simp [parseValue, hopen, hspace, hbracket, hparse]

theorem parseValue_obj {members : List (Units × Value ν)}
    (hkeys : (members.map (·.1)).Nodup) (h : ∀ m ∈ members, ReadsBack N m.2) :
    ReadsBack N (.obj (members.map fun m ↦ (m.1, some m.2))) := by
  intro n rest hn _
  rw [stringify, memberTexts_eq, definedMembers_map_some] at *
  simp only [List.length_append, List.length_cons] at hn
  obtain _ | n := n
  · omega
  have hopen : ∀ text, skipSpace ('\x7b' :: text) = '\x7b' :: text := fun _ ↦ rfl
  cases members with
  | nil => simp [commas, parseValue, hopen]
  | cons m ms =>
    have hparse := parseMembers_commas N h n rest (by omega)
    obtain ⟨u, hu⟩ := exists_commas_cons (memberText m.1 (stringify N m.2))
      (ms.map fun m ↦ memberText m.1 (stringify N m.2))
    rw [List.map_cons, hu, memberText, quote] at hparse ⊢
    simp only [List.cons_append, List.append_assoc, List.nil_append] at hparse ⊢
    have hquote : ∀ text, skipSpace ('"' :: text) = '"' :: text := fun _ ↦ rfl
    have hobject : objectOf (m :: ms) = .obj ((m :: ms).map fun m ↦ (m.1, some m.2)) := by
      rw [objectOf, JsMap.entries_ofEntries_of_nodup hkeys]
    simp [parseValue, hopen, hquote, hparse, hobject]

theorem Exact.readsBack {N : Numerals ν} {v : Value ν} (hv : Exact N v) : ReadsBack N v := by
  induction hv with
  | null =>
    intro n rest hn _
    obtain ⟨n, rfl⟩ : ∃ k, n = k + 1 := ⟨n - 1, by simp [stringify] at hn; omega⟩
    simp [stringify, parseValue, skipSpace, literal]
  | bool b =>
    intro n rest hn _
    obtain ⟨n, rfl⟩ : ∃ k, n = k + 1 := ⟨n - 1, by cases b <;> simp [stringify] at hn <;> omega⟩
    cases b <;> simp [stringify, parseValue, skipSpace, literal]
  | @num x hread =>
    intro n rest hn hrest
    obtain ⟨c, text, heq⟩ := List.exists_cons_of_ne_nil (N.write_ne_nil x)
    have hc := N.isNumberChar_of_mem x c (by rw [heq]; exact List.mem_cons_self)
    have hparse := parseNumber_write N x hrest
    rw [stringify] at *
    rw [hread, heq] at hparse
    rw [heq] at hn ⊢
    obtain _ | n := n
    · simp at hn
    · exact (parseValue_of_isNumberChar N hc n _).trans hparse
  | str =>
    intro n rest hn _
    obtain ⟨n, rfl⟩ : ∃ k, n = k + 1 := ⟨n - 1, by simp [stringify, quote] at hn; omega⟩
    simp [stringify, quote, parseValue, skipSpace, parseUnits_quoteUnits]
  | arr _ ih => exact parseValue_arr N ih
  | obj hkeys _ ih => exact parseValue_obj N hkeys ih

/-- **The text of an exact value parses**, to that value. -/
theorem parse_stringify {N : Numerals ν} {v : Value ν} (hv : Exact N v) :
    parse N (stringify N v) = some v := by
  have h := hv.readsBack (stringify N v).length [] le_rfl (by simp [Ends])
  rw [List.append_nil] at h
  simp [parse, h, skipSpace]

end Js
