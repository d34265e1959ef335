import ChainHub.Bytes

/-!
# Hexadecimal text

* `encode`: two lower-case digits per byte.
* `decode?`: the inverse, which also takes upper-case digits.
* `encodePrefixed`: the form shown in events and errors, with `0x` in front.
-/

namespace ChainHub.Hex

/-- The lower-case digit of a number below sixteen. -/
def digit (n : Nat) : Char :=
  if n < 10 then Char.ofNat (48 + n) else Char.ofNat (87 + n)

/-- The number that a hexadecimal digit of either case stands for. -/
def digitValue? (c : Char) : Option Nat :=
  let n := c.toNat
  if 48 ≤ n ∧ n ≤ 57 then some (n - 48)
  else if 97 ≤ n ∧ n ≤ 102 then some (n - 87)
  else if 65 ≤ n ∧ n ≤ 70 then some (n - 55)
  else none

/-- The digits of a byte string, high digit first in each byte. -/
def digits (bytes : Bytes) : List Char :=
  bytes.flatMap fun b => [digit (b.toNat / 16), digit (b.toNat % 16)]

/-- The bytes written by an even number of digits. -/
def fromDigits? : List Char → Option Bytes
  | [] => some []
  | [_] => none
  | hi :: lo :: rest => do
    let h ← digitValue? hi
    let l ← digitValue? lo
    let bytes ← fromDigits? rest
    return UInt8.ofNat (16 * h + l) :: bytes

/-- A byte string as lower-case hexadecimal text. -/
def encode (bytes : Bytes) : String := String.ofList (digits bytes)

/-- The byte string that a hexadecimal text stands for. -/
def decode? (text : String) : Option Bytes := fromDigits? text.toList

/-- Hexadecimal text after `0x`. -/
def encodePrefixed (bytes : Bytes) : String := "0x" ++ encode bytes

end ChainHub.Hex
