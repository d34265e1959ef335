import ChainHub.Hash.Keccak
import ChainHub.Wire

/-!
# Validator sets

Model of `ActiveValidator`, `ChainValidators`, `validate_active_validators` and
`compute_validators_hash`.

The validators of a chain sign its certificates. Each has a weight, and a certificate counts when
the weights of its signers reach the threshold of the set.

* `ValidatorSet`: the validators and their threshold.
* `ValidatorSet.check`: whether a set is legal. Keys are in ascending order and so all different,
  weights are positive, and the threshold is above one third of the total weight and at most all
  of it.
* `ValidatorSet.hash`: the commitment to a set that certificates carry.
-/

namespace ChainHub

/-- A signer of certificates. -/
structure Validator where
  /-- The public key, in 48 bytes. -/
  key : Bytes
  weight : UInt64
deriving DecidableEq, Inhabited

instance : Wire Validator where
  encode v := Wire.encode v.key ++ Wire.encode v.weight
  read := do
    let key ← Wire.read
    let weight ← Wire.read
    return { key, weight }

/-- The signers of a chain's certificates. -/
structure ValidatorSet where
  validators : List Validator
  /-- The weight that the signers of a certificate must have together. -/
  threshold : UInt64
deriving DecidableEq, Inhabited

/-- The limit on the number of validators. -/
def maxValidators : Nat := 199

/-- The length of a validator's key. -/
def keyLength : Nat := 48

/-- What is wrong with a list of validators. -/
inductive ValidatorFault
  | count (got : Nat)
  | keyLength (index got : Nat)
  | zeroWeight (index : Nat)
  | notAscending
  | weightOverflow
deriving DecidableEq, Inhabited

/-- The fault in words. -/
def ValidatorFault.reason : ValidatorFault → String
  | .count got => s!"expected 1 to {maxValidators} validators, got {got}"
  | .keyLength index got =>
    s!"validator {index} key is {got} bytes, expected {ChainHub.keyLength}"
  | .zeroWeight index => s!"validator {index} has zero weight"
  | .notAscending => "keys must be unique and in ascending order"
  | .weightOverflow => "total weight overflows"

/-- Why a validator set is not legal. -/
inductive ValidatorSetError
  | validators (fault : ValidatorFault)
  | threshold (got least most : Nat)
deriving DecidableEq, Inhabited

/-- The wording of the error. -/
def ValidatorSetError.message : ValidatorSetError → String
  | .validators fault => "Invalid validator set: " ++ fault.reason
  | .threshold got least most =>
    s!"Invalid certificate threshold {got}: must be between {least} and {most}"

namespace ValidatorSet

/-- Checks the validators from position `index` on, after one with the key `previous`, and adds
their weights to `total`. -/
def checkFrom (index : Nat) (previous : Option Bytes) (total : Nat) :
    List Validator → Except ValidatorFault Nat
  | [] => .ok total
  | v :: rest =>
    if v.key.length ≠ keyLength then .error (.keyLength index v.key.length)
    else if v.weight = 0 then .error (.zeroWeight index)
    else if previous.any fun key => !decide (key < v.key) then .error .notAscending
    else if UInt64.size ≤ total + v.weight.toNat then .error .weightOverflow
    else checkFrom (index + 1) (some v.key) (total + v.weight.toNat) rest

/-- Checks the number of validators and then each of them; gives the total weight. -/
def checkValidators (validators : List Validator) : Except ValidatorFault Nat :=
  if validators.length = 0 ∨ maxValidators < validators.length then
    .error (.count validators.length)
  else checkFrom 0 none 0 validators

/-- The least threshold of a set with the given total weight. -/
def leastThreshold (total : Nat) : Nat := total / 3 + 1

/-- Checks that a set is legal (`validate_active_validators`). -/
def check (set : ValidatorSet) : Except ValidatorSetError Unit :=
  match checkValidators set.validators with
  | .error fault => .error (.validators fault)
  | .ok total =>
    let threshold := set.threshold.toNat
    if threshold < leastThreshold total ∨ total < threshold then
      .error (.threshold threshold (leastThreshold total) total)
    else .ok ()

/-- What is hashed for the commitment. -/
def hashInput (set : ValidatorSet) : Bytes :=
  Wire.encode set.validators ++ Wire.encode set.threshold

/-- The commitment to a set that certificates carry (`compute_validators_hash`). -/
def hash (set : ValidatorSet) : Digest := keccak256 set.hashInput

end ValidatorSet

end ChainHub
