import Swarmlet.Lib.JsString
import Swarmlet.Lib.Regex

/-!
# Detecting and redacting personal data

The five patterns of the event store, the stateful detector that shares them between calls, and the
redactor that replaces every match of one pattern after the other. The detector's expressions have
the global flag, so each keeps the position behind its last match and the next call resumes there,
in whatever text it is given; the redactor builds fresh expressions.

`redactPii_clean` is the fact about the redactor: whatever the text, none of the five patterns
matches anywhere in the result. The email, phone and IBAN passes each leave nothing of their own
pattern and create nothing of the two before, and the other two patterns cannot match where no phone
number does.

A text is the list of its UTF-16 code units, on which the expressions (without the unicode flag)
work.
-/

namespace Swarmlet.Loop

open Js Regex

abbrev Text := List ℕ

/-! ## The patterns -/

def oneOf (set : String) (u : ℕ) : Bool := set.toList.any fun c ↦ decide (c.toNat = u)

def isDigit (u : ℕ) : Bool := decide (48 ≤ u) && decide (u ≤ 57)

def isUpper (u : ℕ) : Bool := decide (65 ≤ u) && decide (u ≤ 90)

def isLetter (u : ℕ) : Bool := isUpper u || (decide (97 ≤ u) && decide (u ≤ 122))

def isWord (u : ℕ) : Bool := isLetter u || isDigit u || oneOf "_" u

def isBlank (u : ℕ) : Bool := isSpace (Char.ofNat u)

inductive PiiClass
  | email
  | phone
  | nationalId
  | iban
  | card
deriving DecidableEq, Repr

namespace PiiClass

def name : PiiClass → String
  | email => "email"
  | phone => "phone"
  | nationalId => "national-id"
  | iban => "iban"
  | card => "card"

def digitGroup (separator : ℕ → Bool) : Body ℕ :=
  .seq (.unit isDigit) (.rep (.unit separator) 0 (some 1))

def phoneSeparator (u : ℕ) : Bool := isBlank u || oneOf "-" u

def pattern : PiiClass → Pattern ℕ
  | email =>
    -- [A-Za-z0-9._%+-]+@[A-Za-z0-9.-]+\.[A-Za-z]{2,}
    { body := .seq (.rep (.unit fun u ↦ isLetter u || isDigit u || oneOf "._%+-" u) 1 none)
        (.seq (.unit (oneOf "@"))
          (.seq (.rep (.unit fun u ↦ isLetter u || isDigit u || oneOf ".-" u) 1 none)
            (.seq (.unit (oneOf ".")) (.rep (.unit isLetter) 2 none))))
      bounded := false
      solid := by decide
      pos := by decide }
  | phone =>
    -- (?:\+\d{1,3}[\s-]?)?(?:\d[\s-]?){7,11}\d
    { body := .seq (.rep (.seq (.unit (oneOf "+"))
          (.seq (.rep (.unit isDigit) 1 (some 3)) (.rep (.unit phoneSeparator) 0 (some 1))))
          0 (some 1))
        (.seq (.rep (digitGroup phoneSeparator) 7 (some 11)) (.unit isDigit))
      bounded := false
      solid := by decide
      pos := by decide }
  | nationalId =>
    -- \b\d{11}\b
    { body := .rep (.unit isDigit) 11 (some 11), bounded := true
      solid := by decide
      pos := by decide }
  | iban =>
    -- \b[A-Z]{2}\d{2}[A-Z0-9]{10,30}\b
    { body := .seq (.rep (.unit isUpper) 2 (some 2))
        (.seq (.rep (.unit isDigit) 2 (some 2))
          (.rep (.unit fun u ↦ isUpper u || isDigit u) 10 (some 30)))
      bounded := true
      solid := by decide
      pos := by decide }
  | card =>
    -- \b(?:\d[ -]?){13,19}\b
    { body := .rep (digitGroup (oneOf " -")) 13 (some 19), bounded := true
      solid := by decide
      pos := by decide }

def all : List PiiClass := [email, phone, nationalId, iban, card]

theorem mem_all (c : PiiClass) : c ∈ all := by cases c <;> decide

def label (c : PiiClass) : Text := units ("[redacted:" ++ c.name ++ "]")

end PiiClass

open PiiClass

/-! ## Detection -/

/-- Where the shared expression of each class resumes. -/
abbrev LastIndex := PiiClass → ℕ

/-- `PII_PATTERNS.some(([, re]) => re.test(payload))`: the classes behind a match are not searched
for, and keep their position. -/
def detectAmong (payload : Text) : List PiiClass → LastIndex → Bool × LastIndex
  | [], lastIndex => (false, lastIndex)
  | c :: cs, lastIndex =>
    let r := c.pattern.test isWord (lastIndex c) payload
    let lastIndex := Function.update lastIndex c r.2
    if r.1 then (true, lastIndex) else detectAmong payload cs lastIndex

def detectPii (lastIndex : LastIndex) (payload : Text) : Bool × LastIndex :=
  detectAmong payload PiiClass.all lastIndex

def redactPii (payload : Text) : Text :=
  PiiClass.all.foldl (fun out c ↦ c.pattern.replaceAll isWord c.label out) payload

/-- Some span of the text matches the pattern of a class and starts at that class's position or
later. -/
def HasPiiFrom (lastIndex : LastIndex) (text : Text) : Prop :=
  ∃ (c : PiiClass) (pre m post : Text), text = pre ++ m ++ post ∧ lastIndex c ≤ pre.length ∧
    c.pattern.Spans isWord pre.getLast? post.head? m

/-- Some span of the text matches one of the patterns. -/
def HasPii (text : Text) : Prop :=
  ∃ (c : PiiClass) (pre m post : Text), text = pre ++ m ++ post ∧
    c.pattern.Spans isWord pre.getLast? post.head? m

variable {text : Text} {c : PiiClass} {lastIndex : LastIndex}

theorem HasPiiFrom.hasPii (h : HasPiiFrom lastIndex text) :
    HasPii text :=
  let ⟨c, pre, m, post, htext, _, hspan⟩ := h
  ⟨c, pre, m, post, htext, hspan⟩

theorem not_hasPii :
    ¬ HasPii text ↔ ∀ c : PiiClass, c.pattern.Free isWord none text := by
  simp only [HasPii, Pattern.Free, Option.or_none, not_exists, not_and]

private theorem detectAmong_fst {payload : Text} {cs : List PiiClass} (hcs : cs.Nodup) :
    (detectAmong payload cs lastIndex).1 = true ↔
      ∃ c ∈ cs, (c.pattern.test isWord (lastIndex c) payload).1 = true := by
  induction cs generalizing lastIndex with
  | nil => simp [detectAmong]
  | cons c cs ih =>
    rw [List.nodup_cons] at hcs
    rw [detectAmong]
    by_cases hc : (c.pattern.test isWord (lastIndex c) payload).1 = true
    · simp [hc]
    · rw [if_neg hc, ih hcs.2]
      have hkeep : ∀ d ∈ cs, Function.update lastIndex c
          (c.pattern.test isWord (lastIndex c) payload).2 d = lastIndex d := by
        rintro d hd
        exact Function.update_of_ne (by rintro rfl; exact hcs.1 hd) _ _
      constructor
      · rintro ⟨d, hd, h⟩
        exact ⟨d, List.mem_cons_of_mem _ hd, by rwa [hkeep d hd] at h⟩
      · rintro ⟨d, hd, h⟩
        rcases List.mem_cons.mp hd with rfl | hd
        · exact absurd h hc
        · exact ⟨d, hd, by rwa [hkeep d hd]⟩

/-- **Detection resumes where the last match ended**: a payload is found to hold personal data
exactly if some pattern matches in it from that pattern's position on. -/
theorem detectPii_fst {payload : Text} :
    (detectPii lastIndex payload).1 = true ↔ HasPiiFrom lastIndex payload := by
  rw [detectPii, detectAmong_fst (by decide)]
  simp only [Pattern.test_fst, mem_all, true_and, HasPiiFrom]

/-! ## Redaction -/

theorem over_brackets (c : PiiClass) : c.pattern.body.Over (· ∉ units "[]") :=
  Body.over_of_avoids (by cases c <;> decide +kernel)

private theorem isWord_of_isUpper {u : ℕ} (h : isUpper u = true) : isWord u = true := by
  simp [isWord, isLetter, h]

private theorem isWord_of_isDigit {u : ℕ} (h : isDigit u = true) : isWord u = true := by
  simp [isWord, h]

private theorem iban_over_isWord : iban.pattern.body.Over (isWord · = true) := by
  refine ⟨fun _ ↦ isWord_of_isUpper, fun _ ↦ isWord_of_isDigit, fun u h ↦ ?_⟩
  rcases Bool.or_eq_true_iff.mp h with h | h
  · exact isWord_of_isUpper h
  · exact isWord_of_isDigit h

private theorem label_eq (c : PiiClass) : c.label = 91 :: units ("redacted:" ++ c.name) ++
    [93] := by
  cases c <;> decide

private theorem free_label {d : PiiClass} (h : c.pattern.execFrom isWord none d.label 0 = none) :
    c.pattern.Free isWord none (91 :: units ("redacted:" ++ d.name) ++ [93]) := by
  rw [← label_eq]
  exact (Pattern.free_iff_execFrom 0).mpr h

def pass (c : PiiClass) (text : Text) : Text := c.pattern.replaceAll isWord c.label text

private theorem pass_replaced (c : PiiClass) (text : Text) :
    Pattern.Replaced isWord c.pattern (91 :: units ("redacted:" ++ c.name) ++ [93]) none text
      (pass c text) := by
  rw [← label_eq]
  exact Pattern.replaceAll_replaced _ _

private theorem pass_free_self (hunbounded : c.pattern.bounded = false)
    (hlabel : c.pattern.execFrom isWord none c.label 0 = none) (text : Text) :
    c.pattern.Free isWord none (pass c text) :=
  Pattern.Replaced.free_self (over_brackets c) (by decide) (by decide) (free_label hlabel)
    (by simp [hunbounded]) (pass_replaced c text) none (.inl rfl)

private theorem pass_iban_free (text : Text) : iban.pattern.Free isWord none (pass iban text) :=
  Pattern.Replaced.free_self iban_over_isWord (by decide) (by decide)
    (free_label (by decide +kernel)) (fun _ _ h ↦ h) (pass_replaced iban text) none (.inl rfl)

private theorem pass_free_other {d : PiiClass} (hunbounded : d.pattern.bounded = false)
    (hlabel : d.pattern.execFrom isWord none c.label 0 = none)
    (h : d.pattern.Free isWord none text) : d.pattern.Free isWord none (pass c text) := by
  refine Pattern.Replaced.free_other (over_brackets d) (by decide) (by decide) (free_label hlabel)
    hunbounded (pass_replaced c text) (fun p ↦ ?_) none
  exact h.of_lang hunbounded fun m hm ↦ ⟨m, [], by simp, hm⟩

private theorem pass_eq_of_free (h : c.pattern.Free isWord none text) :
    pass c text = text :=
  (pass_replaced c text).eq_of_free h

private theorem phone_lang_of_groups {parts : List Text} (hlen : 8 ≤ parts.length)
    (hparts : ∀ x ∈ parts, (digitGroup phoneSeparator).Lang x) :
    ∃ x y, parts.flatten = x ++ y ∧ phone.pattern.body.Lang x := by
  obtain ⟨d, sep, hp, hd, -⟩ := hparts parts[7] (List.getElem_mem _)
  have hsplit : parts = parts.take 7 ++ (d ++ sep) :: parts.drop 8 := by
    rw [← hp, ← List.drop_eq_getElem_cons, List.take_append_drop]
  refine ⟨(parts.take 7).flatten ++ d, sep ++ (parts.drop 8).flatten, ?_, ?_⟩
  · conv_lhs => rw [hsplit]
    simp
  · refine ⟨[], _, rfl, ⟨[], rfl, by simp, by simp, by simp⟩, _, d, rfl, ?_, hd⟩
    have hseven : (parts.take 7).length = 7 := by rw [List.length_take]; omega
    exact ⟨parts.take 7, rfl, fun x hx ↦ hparts x (List.mem_of_mem_take hx), hseven.ge,
      by rintro n ⟨⟩; rw [hseven]; decide⟩

private theorem nationalId_free (h : phone.pattern.Free isWord none text) :
    nationalId.pattern.Free isWord none text := by
  refine h.of_lang rfl ?_
  rintro c ⟨parts, rfl, hparts, hlen, -⟩
  refine phone_lang_of_groups (le_trans (by decide) hlen) fun x hx ↦ ?_
  exact ⟨x, [], by simp, hparts x hx, [], rfl, by simp, by simp, by simp⟩

private theorem card_free (h : phone.pattern.Free isWord none text) :
    card.pattern.Free isWord none text := by
  have hsep : ∀ u, oneOf " -" u = true → phoneSeparator u = true := by
    intro u hu
    obtain ⟨c, hc, hcu⟩ := List.any_eq_true.mp hu
    have hboth : (" -".toList.all fun c ↦ phoneSeparator c.toNat) = true := by decide
    exact of_decide_eq_true hcu ▸ List.all_eq_true.mp hboth c hc
  refine h.of_lang rfl ?_
  rintro c ⟨parts, rfl, hparts, hlen, -⟩
  refine phone_lang_of_groups (le_trans (by decide) hlen) fun x hx ↦ ?_
  obtain ⟨d, s, rfl, hd, seps, rfl, hseps, hle⟩ := hparts x hx
  refine ⟨d, _, rfl, hd, seps, rfl, fun y hy ↦ ?_, hle⟩
  obtain ⟨u, rfl, hu⟩ := hseps y hy
  exact ⟨u, rfl, hsep u hu⟩

private theorem redactPii_eq (text : Text) :
    redactPii text = pass iban (pass phone (pass email text)) ∧
      ∀ c : PiiClass, c.pattern.Free isWord none (redactPii text) := by
  set t₁ := pass email text with ht₁
  set t₂ := pass phone t₁ with ht₂
  set t₃ := pass iban t₂ with ht₃
  have hemail₁ : email.pattern.Free isWord none t₁ :=
    pass_free_self rfl (by decide +kernel) text
  have hemail₂ : email.pattern.Free isWord none t₂ :=
    pass_free_other rfl (by decide +kernel) hemail₁
  have hphone₂ : phone.pattern.Free isWord none t₂ := pass_free_self rfl (by decide +kernel) t₁
  have hphone₃ : phone.pattern.Free isWord none t₃ :=
    pass_free_other rfl (by decide +kernel) hphone₂
  have hredact : redactPii text = t₃ := by
    change pass card (pass iban (pass nationalId t₂)) = t₃
    rw [pass_eq_of_free (nationalId_free hphone₂), pass_eq_of_free (card_free hphone₃)]
  refine ⟨hredact, fun c ↦ hredact ▸ ?_⟩
  cases c with
  | email => exact pass_free_other rfl (by decide +kernel) hemail₂
  | phone => exact hphone₃
  | nationalId => exact nationalId_free hphone₃
  | iban => exact pass_iban_free t₂
  | card => exact card_free hphone₃

/-- **Redaction leaves no span of any pattern.** -/
theorem redactPii_clean (text : Text) : ¬ HasPii (redactPii text) :=
  not_hasPii.mpr (redactPii_eq text).2

/-- **Redaction leaves nothing behind**, so that a second one changes nothing. -/
theorem redactPii_leaves_nothing (text : Text) :
    ¬ HasPii (redactPii text) ∧ redactPii (redactPii text) = redactPii text := by
  refine ⟨redactPii_clean text, ?_⟩
  have hfree := (redactPii_eq text).2
  rw [(redactPii_eq (redactPii text)).1, pass_eq_of_free (hfree email),
    pass_eq_of_free (hfree phone), pass_eq_of_free (hfree iban)]

/-! ## How long a redacted text is -/

/-- The units of phone numbers and IBANs, none of which is in a label. -/
private def numeral (u : ℕ) : Bool := isUpper u || isDigit u || phoneSeparator u || oneOf "+" u

private theorem phone_over_numeral : phone.pattern.body.Over (numeral · = true) := by
  have hdigit : ∀ u, isDigit u = true → numeral u = true := fun u h ↦ by simp [numeral, h]
  have hsep : ∀ u, phoneSeparator u = true → numeral u = true := fun u h ↦ by simp [numeral, h]
  exact ⟨⟨fun u h ↦ by simp [numeral, h], hdigit, hsep⟩, ⟨hdigit, hsep⟩, hdigit⟩

private theorem iban_over_numeral : iban.pattern.body.Over (numeral · = true) :=
  ⟨fun u h ↦ by simp [numeral, h], fun u h ↦ by simp [numeral, h],
    fun u h ↦ by
      rcases Bool.or_eq_true_iff.mp h with h | h <;> simp [numeral, h]⟩

theorem length_redactPii_le (text : Text) : 3 * (redactPii text).length ≤ 8 * text.length := by
  rw [(redactPii_eq text).1]
  have hgrow {c : PiiClass} (Q : ℕ → Bool) (hQ : ∀ u, numeral u = true → Q u = true)
      (hover : c.pattern.body.Over (Q · = true)) (hlabel : c.label.countP numeral = 0) (t : Text) :
      ∃ k x, (pass c t).length + x = t.length + c.label.length * k ∧
        c.pattern.body.minLength * k ≤ x ∧ (pass c t).countP numeral + x ≤ t.countP Q :=
    Pattern.Replaced.length_eq numeral Q hQ hover hlabel (Pattern.replaceAll_replaced _ _)
  obtain ⟨k₁, x₁, hlen₁, hk₁, hx₁⟩ := hgrow (fun _ ↦ true) (fun _ _ ↦ rfl)
    ((over_brackets email).mono fun _ _ ↦ rfl) (by decide +kernel) text
  obtain ⟨k₂, x₂, hlen₂, hk₂, hx₂⟩ := hgrow numeral (fun _ h ↦ h) phone_over_numeral
    (by decide +kernel) (pass email text)
  obtain ⟨k₃, x₃, hlen₃, hk₃, hx₃⟩ := hgrow numeral (fun _ h ↦ h) iban_over_numeral
    (by decide +kernel) (pass phone (pass email text))
  have hsizes : email.label.length = 16 ∧ phone.label.length = 16 ∧ iban.label.length = 15 ∧
      email.pattern.body.minLength = 6 ∧ phone.pattern.body.minLength = 8 ∧
      iban.pattern.body.minLength = 14 := by decide +kernel
  obtain ⟨h₁, h₂, h₃, m₁, m₂, m₃⟩ := hsizes
  rw [h₁] at hlen₁
  rw [h₂] at hlen₂
  rw [h₃] at hlen₃
  rw [m₁] at hk₁
  rw [m₂] at hk₂
  rw [m₃] at hk₃
  rw [List.countP_true] at hx₁
  omega

end Swarmlet.Loop
