import ChainHub.Text.Utf8

/-!
# The wire format

Model of `Encode`, `Decode` and `CodecError`, which write and read borsh.

Numbers are written least significant byte first, texts and lists after their length as a 32-bit
number, values of fixed length as they are, and the fields of a record one after the other. A value
is read from the front of a byte string; a complete byte string must be used up.

* `Wire α`: how values of `α` are written and read.
* `Wire.encode` / `Wire.decode`: a value as a complete byte string, and back.

Out of scope: lists and texts of 2³² or more entries. `Encode` panics on them, here their length is
cut to 32 bits.
-/

namespace ChainHub

/-- Why a byte string is not the written form of a value. -/
inductive WireError
  /-- The byte string ends before the value does. -/
  | unexpectedEnd
  /-- A text is not UTF-8. -/
  | invalidText (fault : Utf8.Fault)
  /-- No message status has this number. -/
  | unknownStatus (code : UInt32)
  /-- Bytes are left after the value. -/
  | trailingBytes
deriving DecidableEq, Inhabited

namespace WireError

/-- The fault in words. -/
def reason : WireError → String
  | .unexpectedEnd => "Unexpected length of input"
  | .invalidText fault => fault.message
  | .unknownStatus code => "unknown cross-chain message status: " ++ toString code.toNat
  | .trailingBytes => "Not all bytes read"

/-- The wording of the error. -/
def message (e : WireError) : String := "Malformed encoding: " ++ e.reason

end WireError

/-- Reads a value from the front of a byte string, and returns what comes after it. -/
abbrev WireReader (α : Type) := StateT Bytes (Except WireError) α

/-- How values are written and read. -/
class Wire (α : Type) where
  /-- The written form. -/
  encode : α → Bytes
  /-- Reads one value. -/
  read : WireReader α

namespace Wire

/-- Reads `n` bytes as they are. -/
def readBytes (n : Nat) : WireReader Bytes := fun bytes =>
  if n ≤ bytes.length then .ok (bytes.take n, bytes.drop n) else .error .unexpectedEnd

/-- Reads `n` values. -/
def readMany {α : Type} [Wire α] : Nat → WireReader (List α)
  | 0 => pure []
  | n + 1 => do
    let first ← read
    let rest ← readMany n
    return first :: rest

instance : Wire UInt8 where
  encode b := [b]
  read
    | [] => .error .unexpectedEnd
    | b :: bytes => .ok (b, bytes)

instance : Wire UInt32 where
  encode n := littleEndian 4 n.toNat
  read := do
    let bytes ← readBytes 4
    return UInt32.ofNat (fromLittleEndian bytes)

instance : Wire UInt64 where
  encode n := littleEndian 8 n.toNat
  read := do
    let bytes ← readBytes 8
    return UInt64.ofNat (fromLittleEndian bytes)

instance {n : Nat} : Wire (FixedBytes n) where
  encode x := x.toList
  read bytes :=
    if h : n ≤ bytes.length then .ok (⟨bytes.take n, by simp [h]⟩, bytes.drop n)
    else .error .unexpectedEnd

/-- A list, and so also a byte string, is written after its length. -/
instance {α : Type} [Wire α] : Wire (List α) where
  encode items := encode (UInt32.ofNat items.length) ++ items.flatMap encode
  read := do
    let length : UInt32 ← read
    readMany length.toNat

/-- A text is written as the list of its bytes. -/
instance : Wire String where
  encode text := encode (Utf8.encode text)
  read := do
    let bytes : Bytes ← read
    match Utf8.decode bytes with
    | .ok text => return text
    | .error fault => throw (.invalidText fault)

instance {α β : Type} [Wire α] [Wire β] : Wire (α × β) where
  encode x := encode x.1 ++ encode x.2
  read := do
    let a ← read
    let b ← read
    return (a, b)

/-- The value that a complete byte string stands for. -/
def decode {α : Type} [Wire α] (bytes : Bytes) : Except WireError α :=
  match read bytes with
  | .error e => .error e
  | .ok (value, []) => .ok value
  | .ok (_, _ :: _) => .error .trailingBytes

end Wire

end ChainHub
