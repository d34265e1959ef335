import ChainHub.Bitmap
import Mathlib.Data.Nat.Bitwise

/-!
# Bitmaps read back

* `Bitmap.testBit_byteOf`: a byte has the bits that it is made of.
* `Bitmap.test_ofBits`: so has a bitmap.
* `Bitmap.exists_byte`, `Bitmap.test_of_length_le`: every bit is one of a byte, and those beyond the
  end are zero.
* `Bitmap.ones`, `Bitmap.countP_test`: the number of one bits, wherever the count ends.
-/

namespace ChainHub.Bitmap

/-- The number with the given lowest bits. -/
def numberOf (bit : Nat → Bool) (n : Nat) : Nat :=
  (List.range n).foldl (fun n i => if bit i then n + 1 <<< i else n) 0

variable {bit : Nat → Bool}

theorem numberOf_succ (n : Nat) :
    numberOf bit (n + 1) = if bit n then numberOf bit n + 2 ^ n else numberOf bit n := by
  unfold numberOf
  rw [List.range_succ, List.foldl_append, List.foldl_cons, List.foldl_nil, Nat.one_shiftLeft]

theorem numberOf_lt (n : Nat) : numberOf bit n < 2 ^ n := by
  induction n with
  | zero => exact Nat.one_pos
  | succ n ih =>
    rw [numberOf_succ, Nat.pow_succ]
    split <;> omega

theorem testBit_numberOf {n i : Nat} (h : i < n) : (numberOf bit n).testBit i = bit i := by
  induction n with
  | zero => omega
  | succ n ih =>
    rw [numberOf_succ]
    rcases Nat.lt_succ_iff_lt_or_eq.mp h with hlt | rfl
    · split
      · rw [Nat.add_comm, Nat.testBit_two_pow_add_gt hlt, ih hlt]
      · exact ih hlt
    · split
      · rename_i hbit
        rw [Nat.add_comm, Nat.testBit_two_pow_add_eq, Nat.testBit_lt_two_pow (numberOf_lt i), hbit]
        rfl
      · rename_i hbit
        rw [Nat.testBit_lt_two_pow (numberOf_lt i), Bool.eq_false_of_not_eq_true hbit]

/-- A byte has the bits that it is made of. -/
theorem testBit_byteOf {i : Nat} (h : i < 8) : (byteOf bit).toNat.testBit i = bit i := by
  have hbyte : (byteOf bit).toNat = numberOf bit 8 :=
    UInt8.toNat_ofNat_of_lt' (numberOf_lt 8)
  rw [hbyte, testBit_numberOf h]

/-- **A bitmap has the bits that it is made of.** -/
theorem test_ofBits {bytes i : Nat} (h : i < 8 * bytes) : test (ofBits bytes bit) i = bit i := by
  have hbyte : i / 8 < bytes := by omega
  have hsplit : 8 * (i / 8) + i % 8 = i := Nat.div_add_mod i 8
  unfold test ofBits
  rw [List.getD_eq_getElem _ _ (by simpa using hbyte), List.getElem_map, List.getElem_range,
    testBit_byteOf (Nat.mod_lt i (by decide)), hsplit]

section

variable {bitmap : Bytes} {i : Nat}

/-- A bit within a bitmap is a bit of one of its bytes. -/
theorem exists_byte (h : i < 8 * bitmap.length) :
    ∃ byte, bitmap[i / 8]? = some byte ∧ test bitmap i = byte.toNat.testBit (i % 8) := by
  have hbyte : i / 8 < bitmap.length := by omega
  refine ⟨bitmap[i / 8], List.getElem?_eq_getElem hbyte, ?_⟩
  rw [test, List.getD_eq_getElem _ _ hbyte]

/-- No bit is set beyond the end of a bitmap. -/
theorem test_of_length_le (h : 8 * bitmap.length ≤ i) : test bitmap i = false := by
  unfold test
  rw [List.getD_eq_default _ _ (by omega)]
  exact Nat.zero_testBit _

end

/-- The number of one bits. -/
def ones (bitmap : Bytes) : Nat := (List.range (8 * bitmap.length)).countP (test bitmap)

/-- Looking beyond the end finds no more of them. -/
theorem countP_test {bitmap : Bytes} {bits : Nat} (h : 8 * bitmap.length ≤ bits) :
    (List.range bits).countP (test bitmap) = ones bitmap := by
  obtain ⟨more, rfl⟩ := Nat.exists_eq_add_of_le h
  have hbeyond : ((List.range more).map (8 * bitmap.length + ·)).countP (test bitmap) = 0 := by
    refine List.countP_eq_zero.mpr fun i hi => ?_
    obtain ⟨j, -, rfl⟩ := List.mem_map.mp hi
    rw [test_of_length_le (Nat.le_add_right _ j)]
    exact Bool.false_ne_true
  rw [List.range_add, List.countP_append, hbeyond, Nat.add_zero, ones]

end ChainHub.Bitmap
