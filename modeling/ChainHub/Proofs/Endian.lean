import ChainHub.Bytes
import Mathlib.Algebra.Group.Nat.Even

/-!
# Numbers and their bytes

Writing a number with enough bytes and reading it back gives the number
(`fromLittleEndian_littleEndian`); every byte string is the written form of the number that it
stands for (`littleEndian_fromLittleEndian`, beside the definitions).
-/

namespace ChainHub

theorem fromLittleEndian_lt (bytes : Bytes) : fromLittleEndian bytes < 256 ^ bytes.length := by
  induction bytes with
  | nil => simp [fromLittleEndian]
  | cons b bytes ih =>
    have hb : b.toNat < 256 := b.toNat_lt
    simp only [fromLittleEndian, List.length_cons, Nat.pow_succ]
    omega

theorem fromLittleEndian_littleEndian (width value : Nat) :
    fromLittleEndian (littleEndian width value) = value % 256 ^ width := by
  induction width generalizing value with
  | zero => simp [littleEndian, fromLittleEndian, Nat.mod_one]
  | succ width ih =>
    simp only [littleEndian, fromLittleEndian, ih, UInt8.toNat_ofNat', Nat.pow_succ']
    exact Nat.mod_mul.symm

end ChainHub
