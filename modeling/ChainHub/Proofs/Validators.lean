import ChainHub.Proofs.Attempt
import ChainHub.Validators
import Mathlib.Algebra.Order.BigOperators.Group.List
import Mathlib.Algebra.Order.Group.Nat
import Mathlib.Data.List.Chain
import Mathlib.Data.List.Nodup
import Mathlib.Data.UInt

/-!
# Which validator sets are legal

The check goes through the validators once. It compares each key with the one before it and adds the
weights up, and it ends at the first fault. What it lets pass is said here of the whole list: all
keys are in order, so no two are equal, and the total is the sum of all weights as exact numbers.

* `totalWeight`: the sum of the weights as exact numbers, and `wordWeight` in words of 64 bits.
* `AreLegal`, `IsLegal`: the rules for a list of validators, and for a set with its threshold.
* `checkFrom_eq_ok_iff`: what the check says of the rest of a list, by induction on it.
* `check_accepts_legal`: the check passes the legal sets and no others, and its total is the sum.
-/

namespace ChainHub.ValidatorSet

/-- The sum of the weights. -/
def totalWeight (validators : List Validator) : Nat := (validators.map (·.weight.toNat)).sum

/-- The sum of the weights in 64 bits, where it starts again at zero after the last number. -/
def wordWeight (validators : List Validator) : UInt64 := (validators.map (·.weight)).sum

/-- The rules for a list of validators. -/
structure AreLegal (validators : List Validator) : Prop where
  count : 1 ≤ validators.length ∧ validators.length ≤ 199
  keys : ∀ v ∈ validators, v.key.length = 48
  weights : ∀ v ∈ validators, 0 < v.weight
  ascending : validators.Pairwise fun v w => v.key < w.key
  total : totalWeight validators ≤ 2 ^ 64 - 1

/-- The rules for a validator set. -/
structure IsLegal (set : ValidatorSet) : Prop where
  validators : AreLegal set.validators
  least : totalWeight set.validators / 3 + 1 ≤ set.threshold.toNat
  most : set.threshold.toNat ≤ totalWeight set.validators

theorem totalWeight_cons (v : Validator) (rest : List Validator) :
    totalWeight (v :: rest) = v.weight.toNat + totalWeight rest := List.sum_cons

theorem totalWeight_le_of_sublist {some all : List Validator} (h : some.Sublist all) :
    totalWeight some ≤ totalWeight all :=
  (h.map _).sum_le_sum fun _ _ => Nat.zero_le _

/-! ## One validator after the other -/

/-- What is checked of one validator alone. -/
structure Passes (v : Validator) : Prop where
  key : v.key.length = 48
  weight : 0 < v.weight

theorem checkFrom_cons_eq_ok_iff {index total result : Nat} {previous : Option Bytes}
    {v : Validator} {rest : List Validator} :
    checkFrom index previous total (v :: rest) = .ok result ↔
      Passes v ∧ (∀ key ∈ previous, key < v.key) ∧ total + v.weight.toNat < UInt64.size ∧
        checkFrom (index + 1) (some v.key) (total + v.weight.toNat) rest = .ok result := by
  have hweight : v.weight ≠ 0 ↔ 0 < v.weight := UInt64.pos_iff_ne_zero.symm
  simp only [checkFrom, Attempt.ite_error_eq_ok_iff, not_not, Nat.not_le, Option.any_eq_true,
    hweight]
  constructor
  · rintro ⟨hkey, hpos, hprevious, hroom, h⟩
    refine ⟨⟨hkey, hpos⟩, fun key hmem => ?_, hroom, h⟩
    by_contra hlt
    exact hprevious ⟨key, hmem, by simpa using hlt⟩
  · rintro ⟨⟨hkey, hpos⟩, hprevious, hroom, h⟩
    refine ⟨hkey, hpos, ?_, hroom, h⟩
    rintro ⟨key, hmem, hlt⟩
    exact absurd (hprevious key hmem) (by simpa using hlt)

theorem isChain_cons_iff {previous : Option Bytes} {key : Bytes} {keys : List Bytes} :
    (previous.toList ++ key :: keys).IsChain (· < ·) ↔
      (∀ before ∈ previous, before < key) ∧ (key :: keys).IsChain (· < ·) := by
  cases previous <;> simp

/-- **What the check says of the rest of a list**, after a key and a total. -/
theorem checkFrom_eq_ok_iff {index total result : Nat} {previous : Option Bytes}
    {validators : List Validator} (hroom : total < UInt64.size) :
    checkFrom index previous total validators = .ok result ↔
      (∀ v ∈ validators, Passes v) ∧
        (previous.toList ++ validators.map (·.key)).IsChain (· < ·) ∧
          total + totalWeight validators < UInt64.size ∧
            result = total + totalWeight validators := by
  induction validators generalizing index previous total with
  | nil => cases previous <;> simp [checkFrom, totalWeight, hroom, eq_comm]
  | cons v rest ih =>
    rw [checkFrom_cons_eq_ok_iff, List.forall_mem_cons, List.map_cons, isChain_cons_iff,
      totalWeight_cons, ← Nat.add_assoc]
    constructor
    · rintro ⟨hv, hprevious, hsum, h⟩
      obtain ⟨hrest, hchain, htotal, rfl⟩ := (ih hsum).mp h
      exact ⟨⟨hv, hrest⟩, ⟨hprevious, hchain⟩, htotal, rfl⟩
    · rintro ⟨⟨hv, hrest⟩, ⟨hprevious, hchain⟩, htotal, rfl⟩
      have hsum : total + v.weight.toNat < UInt64.size := by omega
      exact ⟨hv, hprevious, hsum, (ih hsum).mpr ⟨hrest, hchain, htotal, rfl⟩⟩

/-! ## Whole lists -/

/-- **The check of a list passes the legal ones** and gives the sum of the weights. -/
theorem checkValidators_eq_ok_iff {validators : List Validator} {total : Nat} :
    checkValidators validators = .ok total ↔
      AreLegal validators ∧ total = totalWeight validators := by
  have hsize : UInt64.size = 2 ^ 64 := rfl
  unfold checkValidators
  rw [Attempt.ite_error_eq_ok_iff, checkFrom_eq_ok_iff (by decide), Option.toList_none,
    List.nil_append, List.isChain_iff_pairwise, List.pairwise_map, Nat.zero_add]
  constructor
  · rintro ⟨hcount, hpass, hascending, hsum, htotal⟩
    refine ⟨⟨?_, fun v hv => (hpass v hv).key, fun v hv => (hpass v hv).weight, hascending, ?_⟩,
      htotal⟩
    · rw [maxValidators] at hcount
      omega
    · omega
  · rintro ⟨h, htotal⟩
    have hcount := h.count
    have hsum := h.total
    refine ⟨?_, fun v hv => ⟨h.keys v hv, h.weights v hv⟩, h.ascending, by omega, htotal⟩
    rw [maxValidators]
    omega

theorem check_eq_ok_iff {set : ValidatorSet} : set.check = .ok () ↔ set.IsLegal := by
  unfold check
  cases h : checkValidators set.validators with
  | error fault =>
    refine ⟨nofun, fun hlegal => ?_⟩
    have hok := checkValidators_eq_ok_iff.mpr ⟨hlegal.validators, rfl⟩
    cases h.symm.trans hok
  | ok total =>
    obtain ⟨hlegal, rfl⟩ := checkValidators_eq_ok_iff.mp h
    dsimp only
    rw [Attempt.ite_error_eq_ok_iff, leastThreshold]
    constructor
    · rintro ⟨hthreshold, -⟩
      exact ⟨hlegal, by omega, by omega⟩
    · intro hset
      have hleast := hset.least
      have hmost := hset.most
      exact ⟨by omega, rfl⟩

/-- No two validators of a legal list have the same key. -/
theorem AreLegal.nodup {validators : List Validator} (h : AreLegal validators) :
    (validators.map (·.key)).Nodup := by
  refine List.pairwise_map.mpr (h.ascending.imp fun {v w} hlt heq => ?_)
  rw [heq] at hlt
  exact List.lt_irrefl _ hlt

/-- Sums that fit into 64 bits are exact. -/
theorem toNat_wordWeight {validators : List Validator} (h : totalWeight validators < UInt64.size) :
    (wordWeight validators).toNat = totalWeight validators := by
  induction validators with
  | nil => rfl
  | cons v rest ih =>
    rw [totalWeight_cons] at h ⊢
    have hrest := ih (by omega)
    show (v.weight + wordWeight rest).toNat = _
    rw [UInt64.toNat_add, hrest]
    exact Nat.mod_eq_of_lt h

/-- **The check passes the legal sets and no others.** A set is legal if it has 1 to 199 validators,
every key has 48 bytes, every weight is positive, the keys are in ascending order throughout, the
sum of all weights fits into 64 bits, and the threshold is above one third of this sum and at most
all of it. The sum that the check comes to is the exact one, also when it refuses the threshold, and
no key is used twice. For a legal list the sum of the first weights, however many, is the same in
64 bits: nothing wraps on the way. -/
theorem check_accepts_legal (set : ValidatorSet) :
    (set.check = .ok () ↔ set.IsLegal) ∧
      (∀ total, checkValidators set.validators = .ok total ↔
        AreLegal set.validators ∧ total = totalWeight set.validators) ∧
      (AreLegal set.validators → (set.validators.map (·.key)).Nodup ∧
        ∀ n, (wordWeight (set.validators.take n)).toNat = totalWeight (set.validators.take n)) := by
  refine ⟨check_eq_ok_iff, fun total => checkValidators_eq_ok_iff, fun h => ⟨h.nodup, fun n => ?_⟩⟩
  have hsum := h.total
  have hle := totalWeight_le_of_sublist (List.take_sublist n set.validators)
  exact toNat_wordWeight (Nat.lt_of_le_of_lt hle (Nat.lt_of_le_of_lt hsum (by decide)))

end ChainHub.ValidatorSet
