import ChainHub.Bytes

/-!
# UTF-8

* `encode`: the bytes of a text.
* `decode`: the text of a byte string, or the place where the byte string stops being UTF-8.

A fault is described as follows. At the first byte that does not begin a complete, valid sequence,
either the input ends inside a sequence that could still be completed, or the fault is `length`
bytes long: the longest part of it that begins some valid sequence, and at least one byte.
Surrogates, overlong forms and values above `10FFFF` begin no valid sequence beyond their first
byte.
-/

namespace ChainHub.Utf8

/-- Where and how a byte string stops being UTF-8. -/
inductive Fault
  /-- No character starts at `index` with these `length` bytes. -/
  | invalid (length index : Nat)
  /-- The input ends inside the character that starts at `index`. -/
  | incomplete (index : Nat)
deriving DecidableEq, Repr, Inhabited

/-- The wording of a fault. -/
def Fault.message : Fault → String
  | .invalid length index =>
    s!"invalid utf-8 sequence of {length} bytes from index {index}"
  | .incomplete index => s!"incomplete utf-8 byte sequence from index {index}"

/-- How many bytes follow a first byte, and the range in which the second byte must lie. -/
def following? (first : Nat) : Option (Nat × Nat × Nat) :=
  if first < 0x80 then some (0, 0, 0)
  else if first < 0xC2 then none
  else if first < 0xE0 then some (1, 0x80, 0xBF)
  else if first = 0xE0 then some (2, 0xA0, 0xBF)
  else if first = 0xED then some (2, 0x80, 0x9F)
  else if first < 0xF0 then some (2, 0x80, 0xBF)
  else if first = 0xF0 then some (3, 0x90, 0xBF)
  else if first < 0xF4 then some (3, 0x80, 0xBF)
  else if first = 0xF4 then some (3, 0x80, 0x8F)
  else none

/-- The first fault of `bytes`, which start at position `index`. The last argument describes the
character being read: where it starts, how many bytes of it are still to come, and the range of the
next one. -/
def firstFault? : (index : Nat) → Option (Nat × Nat × Nat × Nat) → Bytes → Option Fault
  | _, none, [] => none
  | _, some (start, _, _, _), [] => some (.incomplete start)
  | index, none, b :: bytes =>
    match following? b.toNat with
    | none => some (.invalid 1 index)
    | some (0, _, _) => firstFault? (index + 1) none bytes
    | some (more + 1, lo, hi) => firstFault? (index + 1) (some (index, more, lo, hi)) bytes
  | index, some (start, more, lo, hi), b :: bytes =>
    if lo ≤ b.toNat ∧ b.toNat ≤ hi then
      match more with
      | 0 => firstFault? (index + 1) none bytes
      | more + 1 => firstFault? (index + 1) (some (start, more, 0x80, 0xBF)) bytes
    else
      some (.invalid (index - start) start)

/-- The bytes of a text. -/
def encode (text : String) : Bytes := text.toUTF8.data.toList

/-- The text that a byte string encodes. -/
def decode (bytes : Bytes) : Except Fault String :=
  match String.fromUTF8? ⟨bytes.toArray⟩ with
  | some text => .ok text
  | none => .error ((firstFault? 0 none bytes).getD (.incomplete bytes.length))

end ChainHub.Utf8
