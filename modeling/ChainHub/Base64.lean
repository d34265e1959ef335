import ChainHub.Bytes

/-!
# Base64 text

The standard alphabet. Written text is always padded to a multiple of four characters. Read text
may leave padding out, wholly or in part, but may not carry more than a group has room for, and the
bits of the last character that belong to no byte must be zero.
-/

namespace ChainHub.Base64

/-- The character of a six-bit number. -/
def symbol (n : Nat) : Char :=
  if n < 26 then Char.ofNat (65 + n)
  else if n < 52 then Char.ofNat (71 + n)
  else if n < 62 then Char.ofNat (n - 4)
  else if n = 62 then '+'
  else '/'

/-- The six-bit number of a character of the alphabet. -/
def symbolValue? (c : Char) : Option Nat :=
  let n := c.toNat
  if 65 ≤ n ∧ n ≤ 90 then some (n - 65)
  else if 97 ≤ n ∧ n ≤ 122 then some (n - 71)
  else if 48 ≤ n ∧ n ≤ 57 then some (n + 4)
  else if c = '+' then some 62
  else if c = '/' then some 63
  else none

/-- The characters of a byte string, four for each group of three bytes. -/
def symbols : Bytes → List Char
  | [] => []
  | [a] =>
    let n := a.toNat * 16
    [symbol (n / 64), symbol (n % 64), '=', '=']
  | [a, b] =>
    let n := (a.toNat * 256 + b.toNat) * 4
    [symbol (n / 4096), symbol (n / 64 % 64), symbol (n % 64), '=']
  | a :: b :: c :: rest =>
    let n := (a.toNat * 256 + b.toNat) * 256 + c.toNat
    symbol (n / 262144) :: symbol (n / 4096 % 64) :: symbol (n / 64 % 64) :: symbol (n % 64)
      :: symbols rest

/-- The one byte of a last group of two characters. -/
def pairBytes? (a b : Char) : Option Bytes := do
  let n := 64 * (← symbolValue? a) + (← symbolValue? b)
  if n % 16 = 0 then some [UInt8.ofNat (n / 16)] else none

/-- The two bytes of a last group of three characters. -/
def tripleBytes? (a b c : Char) : Option Bytes := do
  let n := 4096 * (← symbolValue? a) + 64 * (← symbolValue? b) + (← symbolValue? c)
  if n % 4 = 0 then some [UInt8.ofNat (n / 1024), UInt8.ofNat (n / 4)] else none

/-- The bytes of a list of characters, read in groups of four. -/
def fromSymbols? : List Char → Option Bytes
  | [] => some []
  | [_] => none
  | [a, b] => pairBytes? a b
  | [a, b, c] => if c = '=' then pairBytes? a b else tripleBytes? a b c
  | [a, b, '=', '='] => pairBytes? a b
  | [a, b, c, '='] => tripleBytes? a b c
  | a :: b :: c :: d :: rest => do
    let n := 262144 * (← symbolValue? a) + 4096 * (← symbolValue? b) + 64 * (← symbolValue? c)
      + (← symbolValue? d)
    let bytes ← fromSymbols? rest
    return UInt8.ofNat (n / 65536) :: UInt8.ofNat (n / 256) :: UInt8.ofNat n :: bytes

/-- A byte string as padded base64 text. -/
def encode (bytes : Bytes) : String := String.ofList (symbols bytes)

/-- The byte string that a base64 text stands for. -/
def decode? (text : String) : Option Bytes := fromSymbols? text.toList

end ChainHub.Base64
