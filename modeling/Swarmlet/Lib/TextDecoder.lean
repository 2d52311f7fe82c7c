import Mathlib.Data.List.Basic

/-!
# A streaming UTF-8 decoder

`new TextDecoder()` as the Encoding Standard defines it: a machine that takes one byte at a time,
replaces every maximal ill-formed part by U+FFFD, and drops a byte order mark at the start of the
stream. A byte that cannot continue a sequence ends it and is taken again as a first byte.
-/

namespace Js

/-- The UTF-8 decoder: `needed` continuation bytes are to come, the next one between `lower` and
`upper`. -/
structure Utf8 where
  codePoint : ℕ := 0
  needed : ℕ := 0
  lower : ℕ := 0x80
  upper : ℕ := 0xBF
deriving DecidableEq

namespace Utf8

def replacement : Char := Char.ofNat 0xFFFD

def first (byte : ℕ) : Utf8 × List Char :=
  if byte ≤ 0x7F then ({}, [Char.ofNat byte])
  else if 0xC2 ≤ byte ∧ byte ≤ 0xDF then ({ codePoint := byte - 0xC0, needed := 1 }, [])
  else if 0xE0 ≤ byte ∧ byte ≤ 0xEF then
    ({ codePoint := byte - 0xE0, needed := 2, lower := if byte = 0xE0 then 0xA0 else 0x80
       upper := if byte = 0xED then 0x9F else 0xBF }, [])
  else if 0xF0 ≤ byte ∧ byte ≤ 0xF4 then
    ({ codePoint := byte - 0xF0, needed := 3, lower := if byte = 0xF0 then 0x90 else 0x80
       upper := if byte = 0xF4 then 0x8F else 0xBF }, [])
  else ({}, [replacement])

def next (u : Utf8) (byte : ℕ) : Utf8 × List Char :=
  match u.needed with
  | 0 => first byte
  | left + 1 =>
    if byte < u.lower ∨ u.upper < byte then ((first byte).1, replacement :: (first byte).2)
    else
      let codePoint := u.codePoint * 64 + (byte - 0x80)
      if left = 0 then ({}, [Char.ofNat codePoint]) else ({ codePoint, needed := left }, [])

end Utf8

structure TextDecoder where
  utf8 : Utf8 := {}
  bomSeen : Bool := false
deriving DecidableEq

namespace TextDecoder

/-- The output so far decides whether a byte order mark is dropped. -/
def serialize (bomSeen : Bool) : List Char → Bool × List Char
  | [] => (bomSeen, [])
  | c :: cs => (true, if !bomSeen && c = Char.ofNat 0xFEFF then cs else c :: cs)

/-- `decode(bytes, { stream: true })`. -/
def decode (d : TextDecoder) : List ℕ → TextDecoder × List Char
  | [] => (d, [])
  | byte :: bytes =>
    let (utf8, out) := d.utf8.next byte
    let (bomSeen, out) := serialize d.bomSeen out
    let (d, rest) := decode { utf8, bomSeen } bytes
    (d, out ++ rest)

/-- `decode()`, which ends the stream. -/
def finish (d : TextDecoder) : List Char :=
  if d.utf8.needed = 0 then [] else [Utf8.replacement]

end TextDecoder

end Js
