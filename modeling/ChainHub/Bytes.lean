import Std.Data.ExtTreeMap

/-!
# Byte strings

Everything that is hashed, signed, stored or sent is a list of bytes. Identifiers and digests have
a fixed length, which is part of their type, so a value of `FixedBytes n` never has to be checked
again.

* `Bytes`: a byte string of any length.
* `FixedBytes n`: a byte string of length `n`, ordered lexicographically.
* `littleEndian` / `fromLittleEndian`: numbers as byte strings, least significant byte first.
-/

namespace ChainHub

/-- A byte string. -/
abbrev Bytes := List UInt8

/-- A byte string of length `n`. -/
@[ext]
structure FixedBytes (n : Nat) where
  /-- The bytes, first byte first. -/
  toList : Bytes
  length_toList : toList.length = n
deriving DecidableEq

/-- A 32-byte hash value. -/
abbrev Digest := FixedBytes 32

/-- Identifies a chain; the first byte names its network. -/
abbrev ChainId := FixedBytes 4

/-- Identifies a token: the id of the chain that issues it and a local id of four bytes. -/
abbrev TokenId := FixedBytes 8

namespace FixedBytes

variable {n : Nat}

attribute [simp] length_toList

/-- The byte string as a value of fixed length, if its length is right. -/
def ofList? (n : Nat) (bytes : Bytes) : Option (FixedBytes n) :=
  if h : bytes.length = n then some ⟨bytes, h⟩ else none

/-- The value with all bytes zero. -/
def zero (n : Nat) : FixedBytes n := ⟨List.replicate n 0, List.length_replicate⟩

instance : Inhabited (FixedBytes n) := ⟨zero n⟩

/-- Values are ordered byte by byte from the left. -/
instance : Ord (FixedBytes n) := ⟨compareOn toList⟩

instance : Std.TransOrd (FixedBytes n) :=
  inferInstanceAs (Std.TransCmp (compareOn (toList (n := n))))

instance : Std.LawfulEqOrd (FixedBytes n) where
  eq_of_compare {a b} h := by
    have h' : compare a.toList b.toList = .eq := h
    exact FixedBytes.ext (Std.LawfulEqCmp.eq_of_compare h')
  compare_self {a} := by
    have h : compare a.toList a.toList = .eq := Std.ReflCmp.compare_self
    exact h

@[simp]
theorem ofList?_toList (x : FixedBytes n) : ofList? n x.toList = some x := by
  simp [ofList?]

theorem ofList?_eq_some_iff {bytes : Bytes} {x : FixedBytes n} :
    ofList? n bytes = some x ↔ bytes = x.toList := by
  constructor
  · intro h
    unfold ofList? at h
    split at h
    · cases h
      rfl
    · cases h
  · rintro rfl
    exact ofList?_toList x

end FixedBytes

/-! ## Numbers as bytes -/

/-- The last `width` base-256 digits of `value`, least significant first. -/
def littleEndian : (width value : Nat) → Bytes
  | 0, _ => []
  | width + 1, value => UInt8.ofNat value :: littleEndian width (value / 256)

/-- The number whose base-256 digits are given, least significant first. -/
def fromLittleEndian : Bytes → Nat
  | [] => 0
  | b :: bytes => b.toNat + 256 * fromLittleEndian bytes

/-- The last `width` base-256 digits of `value`, most significant first. -/
def bigEndian (width value : Nat) : Bytes := (littleEndian width value).reverse

/-- The number whose base-256 digits are given, most significant first. -/
def fromBigEndian (bytes : Bytes) : Nat := fromLittleEndian bytes.reverse

@[simp]
theorem length_littleEndian (width value : Nat) : (littleEndian width value).length = width := by
  induction width generalizing value with
  | zero => rfl
  | succ width ih => simp [littleEndian, ih]

@[simp]
theorem length_bigEndian (width value : Nat) : (bigEndian width value).length = width := by
  simp [bigEndian]

theorem littleEndian_fromLittleEndian (bytes : Bytes) :
    littleEndian bytes.length (fromLittleEndian bytes) = bytes := by
  induction bytes with
  | nil => rfl
  | cons b bytes ih =>
    have hb : b.toNat < 256 := b.toNat_lt
    have hdiv : (b.toNat + 256 * fromLittleEndian bytes) / 256 = fromLittleEndian bytes := by
      omega
    have hdigit : UInt8.ofNat (b.toNat + 256 * fromLittleEndian bytes) = b := by
      apply UInt8.toNat_inj.1
      simp only [UInt8.toNat_ofNat']
      omega
    simp only [List.length_cons, fromLittleEndian, littleEndian, hdiv, ih, hdigit]

end ChainHub
