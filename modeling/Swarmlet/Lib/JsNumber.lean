import Mathlib.Algebra.Group.Nat.Defs
import Mathlib.Data.Rat.Defs
import Swarmlet.Lib.JsString

/-!
# Numbers

`Js.timesUp` is the product of a natural number and a decimal constant in double precision, rounded
up to a multiple.

`Js.number` is the conversion `Number(text)` of a string: blanks around the text do not count, the
empty text is zero, and decimal, hexadecimal, octal and binary literals are read. Values are exact
rationals; a value without one (`NaN`, an infinity) is `none`, which equals no number.
-/

namespace Js

/-- The double nearest to a natural number: 53 significant bits, ties to even. -/
def toDouble (n : ℕ) : ℕ :=
  let unit := 2 ^ (n.log2 - 52)
  let q := n / unit
  let r := n % unit
  (if unit < 2 * r ∨ (unit = 2 * r ∧ q % 2 = 1) then q + 1 else q) * unit

/-- `Math.ceil((n * c) / unit) * unit` for the constant `c`, which is the double `m / 2 ^ 52`, and a
power of two `unit`: the product is rounded to a double, the division by `unit` is exact. -/
def timesUp (n m unit : ℕ) : ℕ :=
  (toDouble (n * m) + (2 ^ 52 * unit - 1)) / (2 ^ 52 * unit) * unit

/-- The double of the constant `1.05`, in units of `2 ^ -52`. -/
def double_1_05 : ℕ := 4728779608739021

def double_1_1 : ℕ := 4953959590107546

def double_1_2 : ℕ := 5404319552844595

-- the double of `1.1` is a little above it, so 3200 times it needs one more unit of 64
example : timesUp 3200 double_1_1 64 = 3584 ∧ timesUp 3201 double_1_2 64 = 3904 := by decide +kernel

def digitValue (base : ℕ) (c : Char) : Option ℕ :=
  let value :=
    if '0' ≤ c ∧ c ≤ '9' then c.toNat - 48
    else if 'a' ≤ c ∧ c ≤ 'z' then c.toNat - 87
    else if 'A' ≤ c ∧ c ≤ 'Z' then c.toNat - 55
    else base
  if value < base then some value else none

def digits (base : ℕ) : List Char → Option ℕ
  | [] => none
  | cs => cs.foldlM (fun n c ↦ (digitValue base c).map (n * base + ·)) 0

def signed (read : List Char → Option ℚ) : List Char → Option ℚ
  | '-' :: cs => (read cs).map (- ·)
  | '+' :: cs => read cs
  | cs => read cs

/-- Digits with an optional fraction; one of the two parts may be missing. -/
def mantissa (cs : List Char) : Option ℚ :=
  let whole := cs.takeWhile (· ≠ '.')
  match cs.dropWhile (· ≠ '.') with
  | [] => (digits 10 whole).map (↑)
  | _ :: fraction =>
    if whole = [] then (digits 10 fraction).map fun n ↦ n / 10 ^ fraction.length
    else if fraction = [] then (digits 10 whole).map (↑)
    else do
      let w ← digits 10 whole
      let f ← digits 10 fraction
      pure (w + f / 10 ^ fraction.length)

def decimal (cs : List Char) : Option ℚ :=
  let isExponent (c : Char) := c = 'e' ∨ c = 'E'
  match cs.dropWhile (¬isExponent ·) with
  | [] => mantissa cs
  | _ :: exponent => do
    let m ← mantissa (cs.takeWhile (¬isExponent ·))
    let e ← signed (fun ds ↦ (digits 10 ds).map (↑)) exponent
    pure (m * 10 ^ e.num)

/-- `Number(text)`: blanks around it do not count, no text is zero, and `none` is a value that
equals no number and is no integer (`NaN`, or an infinity). -/
def number (s : String) : Option ℚ :=
  let blank (c : Char) := isSpace c
  match ((s.toList.dropWhile blank).reverse.dropWhile blank).reverse with
  | [] => some 0
  | '0' :: x :: cs =>
    if x = 'x' ∨ x = 'X' then (digits 16 cs).map (↑)
    else if x = 'o' ∨ x = 'O' then (digits 8 cs).map (↑)
    else if x = 'b' ∨ x = 'B' then (digits 2 cs).map (↑)
    else decimal ('0' :: x :: cs)
  | cs => signed decimal cs

theorem number_toString {n : ℕ} (h : n < 100) : number (toString n) = some (n : ℚ) := by
  have hall : ∀ n ∈ List.range 100, number (toString n) = some (n : ℚ) := by decide +kernel
  exact hall n (List.mem_range.mpr h)

end Js
