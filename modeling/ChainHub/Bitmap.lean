import ChainHub.Bytes

/-!
# Bitmaps

Model of `bitmap_bit` and of the same test on the bits of a certificate's signers.

A bitmap is a byte string whose bits are numbered from the least significant bit of the first byte.
-/

namespace ChainHub.Bitmap

/-- Bit `i`; bits beyond the end are zero. -/
def test (bitmap : Bytes) (i : Nat) : Bool := (bitmap.getD (i / 8) 0).toNat.testBit (i % 8)

/-- The byte with the given bits. -/
def byteOf (bit : Nat → Bool) : UInt8 :=
  UInt8.ofNat ((List.range 8).foldl (fun n i => if bit i then n + 1 <<< i else n) 0)

/-- The bitmap of the given number of bytes in which exactly the bits are set that `bit` selects. -/
def ofBits (bytes : Nat) (bit : Nat → Bool) : Bytes :=
  (List.range bytes).map fun i => byteOf fun j => bit (8 * i + j)

@[simp]
theorem length_ofBits (bytes : Nat) (bit : Nat → Bool) : (ofBits bytes bit).length = bytes := by
  simp [ofBits]

end ChainHub.Bitmap
