import ChainHub.Certificate
import ChainHub.Proofs.Bitmap
import ChainHub.Proofs.Validators
import Mathlib.Algebra.Order.Floor.Div
import Mathlib.Data.List.FinRange

/-!
# The weight behind a certificate

A certificate names its signers by a bitmap, one bit for each validator, and counts when their
weights reach the threshold. The check goes through the bitmap bit by bit and adds weights in 64
bits, where a sum that is too large stops at the largest number. What it decides is said here of the
bitmap as a whole and of exact sums.

* `marked`, `markedWeight`: the positions whose bit is set, and the sum of the weights there.
* `selected_eq_map`: the validators that are selected are those at these positions, in order.
* `signedWeight_eq`: the sum of the check is the exact one or the largest number.
* `IsBacked`, `verifySignatureWith_eq_ok_iff`: what an accepted certificate shows.
* `verifySignature_weighs`: what this means for a legal set.
-/

namespace ChainHub.Certificate

open ValidatorSet

/-! ## The bitmap -/

/-- The positions whose bit is set, in ascending order. -/
def marked (signers : Bytes) (count : Nat) : List (Fin count) :=
  (List.finRange count).filter fun i => Bitmap.test signers i

/-- **The validators whose bit is set are those at the marked positions**, in this order. -/
theorem selected_eq_map (signers : Bytes) (validators : List Validator) :
    selected signers validators =
      (marked signers validators.length).map fun i => validators[i] := by
  have hindexed : validators.zipIdx =
      (List.finRange validators.length).map fun i => (validators[i], i.val) :=
    List.ext_getElem (by simp) (by simp)
  rw [selected, hindexed, List.filter_map, List.map_map]
  rfl

theorem selected_sublist (signers : Bytes) (validators : List Validator) :
    (selected signers validators).Sublist validators := by
  have h := (List.filter_sublist (l := validators.zipIdx)
    (p := fun v => Bitmap.test signers v.2)).map Prod.fst
  rwa [List.zipIdx_map_fst] at h

theorem bitmapLength_eq (count : Nat) : bitmapLength count = count ⌈/⌉ 8 := by
  rw [Nat.ceilDiv_eq_add_pred_div]
  rfl

/-- The bits of a bitmap are enough. -/
theorem le_bits (count : Nat) : count ≤ 8 * bitmapLength count := by
  unfold bitmapLength
  omega

/-- **No bit is set that belongs to no validator**, if the bitmap has the right length. -/
theorem not_namesBeyond_iff {signers : Bytes} {count : Nat}
    (hlen : signers.length = bitmapLength count) :
    ¬ namesBeyond signers count = true ↔ ∀ i, count ≤ i → Bitmap.test signers i = false := by
  have hbits := le_bits count
  rw [namesBeyond, List.any_eq_true]
  constructor
  · intro h i hi
    by_cases hend : i < 8 * bitmapLength count
    · have hmem : i ∈ List.range' count (bitmapLength count * 8 - count) :=
        List.mem_range'_1.mpr ⟨hi, by omega⟩
      exact Bool.eq_false_of_not_eq_true fun hset => h ⟨i, hmem, hset⟩
    · exact Bitmap.test_of_length_le (by omega)
  · rintro h ⟨i, hmem, hset⟩
    rw [h i (List.mem_range'_1.mp hmem).1] at hset
    cases hset

/-! ## The weight -/

/-- The sum of the weights at the marked positions. -/
def markedWeight (signers : Bytes) (validators : List Validator) : Nat :=
  ((marked signers validators.length).map fun i => validators[i].weight.toNat).sum

theorem totalWeight_selected (signers : Bytes) (validators : List Validator) :
    totalWeight (selected signers validators) = markedWeight signers validators := by
  rw [totalWeight, selected_eq_map, List.map_map]
  rfl

/-- **The sum of the check is the exact one, or the largest number** if that is less. -/
theorem signedWeight_eq (validators : List Validator) :
    signedWeight validators = min (totalWeight validators) (UInt64.size - 1) := by
  have hfrom : ∀ (validators : List Validator) (start : Nat), start ≤ UInt64.size - 1 →
      validators.foldl (fun sum v => Nat.min (sum + v.weight.toNat) (UInt64.size - 1)) start =
        min (start + totalWeight validators) (UInt64.size - 1) := by
    intro validators
    induction validators with
    | nil =>
      intro start hstart
      exact (Nat.min_eq_left hstart).symm
    | cons v rest ih =>
      intro start hstart
      rw [List.foldl_cons, ih _ (Nat.min_le_right _ _), totalWeight_cons]
      show min (min (start + v.weight.toNat) (UInt64.size - 1) + totalWeight rest) _ = _
      omega
  exact (hfrom validators 0 (Nat.zero_le _)).trans (by rw [Nat.zero_add])

theorem signedWeight_of_lt {validators : List Validator}
    (h : totalWeight validators < UInt64.size) :
    signedWeight validators = totalWeight validators := by
  rw [signedWeight_eq]
  omega

/-- Where the sum stops makes no difference to the threshold. -/
theorem signedWeight_lt_iff {validators : List Validator} {threshold : UInt64} :
    signedWeight validators < threshold.toNat ↔ totalWeight validators < threshold.toNat := by
  have hthreshold : threshold.toNat < UInt64.size := threshold.toNat_lt
  rw [signedWeight_eq]
  omega

/-! ## The check -/

/-- What an accepted certificate shows: its bitmap has as many bytes as the validators need, no bit
is set that belongs to none of them, the weights of the marked validators reach the threshold, and
these validators have signed it. -/
structure IsBacked (scheme : SignatureScheme) (c : Certificate) (chain : ChainId)
    (set : ValidatorSet) : Prop where
  length : c.signers.length = set.validators.length ⌈/⌉ 8
  within : ∀ i, set.validators.length ≤ i → Bitmap.test c.signers i = false
  weight : set.threshold.toNat ≤ markedWeight c.signers set.validators
  signature : scheme.verifyAggregate
    ((marked c.signers set.validators.length).map fun i => set.validators[i].key)
    (c.signingBytes chain) c.signature = true

/-- **A certificate is accepted exactly if it is backed**, in every scheme and by every set. -/
theorem verifySignatureWith_eq_ok_iff {scheme : SignatureScheme} {c : Certificate}
    {chain : ChainId} {set : ValidatorSet} :
    c.verifySignatureWith scheme chain set = .ok () ↔ c.IsBacked scheme chain set := by
  have hkeys : (selected c.signers set.validators).map (·.key) =
      (marked c.signers set.validators.length).map fun i => set.validators[i].key := by
    rw [selected_eq_map, List.map_map]
    rfl
  unfold verifySignatureWith
  simp only [Attempt.throw_bind, Attempt.ite_throw_eq_ok_iff, Attempt.ite_eq_ok_iff, not_not,
    signedWeight_lt_iff, totalWeight_selected, hkeys, not_lt]
  rw [bitmapLength_eq]
  constructor
  · rintro ⟨hlen, hwithin, hweight, hsignature, -⟩
    exact ⟨hlen, (not_namesBeyond_iff (hlen.trans (bitmapLength_eq _).symm)).mp hwithin, hweight,
      hsignature⟩
  · intro h
    exact ⟨h.length, (not_namesBeyond_iff (h.length.trans (bitmapLength_eq _).symm)).mpr h.within,
      h.weight, h.signature, rfl⟩

/-- A certificate needs exactly the weight that it shows. -/
structure Weighs (c : Certificate) (chain : ChainId) (set : ValidatorSet) : Prop where
  accepted_iff : c.verifySignature chain set = .ok () ↔ c.IsBacked Bls.scheme chain set
  /-- The sum is the exact one after every signer, so it never stops at the largest number. -/
  exact : ∀ count, signedWeight ((selected c.signers set.validators).take count) =
    totalWeight ((selected c.signers set.validators).take count)
  /-- Every bit that is read, of a validator or beyond them, is a bit of one of the bytes. -/
  inRange : c.signers.length = bitmapLength set.validators.length →
    ∀ i, i < set.validators.length ∨ i < 8 * bitmapLength set.validators.length →
      ∃ byte, c.signers[i / 8]? = some byte ∧
        Bitmap.test c.signers i = byte.toNat.testBit (i % 8)
  /-- Whoever has signed an accepted certificate has more than a third of the total weight. -/
  aboveThird : c.verifySignature chain set = .ok () →
    totalWeight set.validators < 3 * markedWeight c.signers set.validators

/-- **A certificate needs exactly the weight that it shows**, if the validators are a legal set. It
is accepted exactly if its bitmap fits the validators, the weights of the marked ones reach the
threshold as exact numbers, and the signature is that of these validators and no others. -/
theorem verifySignature_weighs {set : ValidatorSet} (hset : set.check = .ok ()) (c : Certificate)
    (chain : ChainId) : c.Weighs chain set := by
  have hlegal := check_eq_ok_iff.mp hset
  have hmax : totalWeight set.validators < UInt64.size :=
    Nat.lt_of_le_of_lt hlegal.validators.total (by decide)
  refine ⟨verifySignatureWith_eq_ok_iff, fun count => ?_, fun hlen i hi => ?_, fun hok => ?_⟩
  · have hpart := totalWeight_le_of_sublist
      ((List.take_sublist count _).trans (selected_sublist c.signers set.validators))
    exact signedWeight_of_lt (Nat.lt_of_le_of_lt hpart hmax)
  · have hbits := le_bits set.validators.length
    exact Bitmap.exists_byte (by omega)
  · have hweight := (verifySignatureWith_eq_ok_iff.mp hok).weight
    have hleast := hlegal.least
    omega

/-- Nine validators of weight 10 each. -/
def nineValidators : ValidatorSet where
  validators := (List.range 9).map fun i => ⟨UInt8.ofNat i :: List.replicate 47 0, 10⟩
  threshold := 31

/-- A bitmap of two bytes, of which the second one has a single bit. -/
theorem verifySignature_weighs_nine :
    nineValidators.check = .ok () ∧
      ({ (default : Certificate) with signers := [0x55, 0x01] }).Weighs default nineValidators ∧
        markedWeight [0x55, 0x01] nineValidators.validators = 50 := by
  have hset : nineValidators.check = .ok () := by decide
  exact ⟨hset, verifySignature_weighs hset _ _, by decide⟩

end ChainHub.Certificate
