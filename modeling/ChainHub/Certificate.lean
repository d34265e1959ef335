import ChainHub.Account
import ChainHub.Bitmap
import ChainHub.Bls
import ChainHub.Validators

/-!
# Certificates

Model of `Certificate` with its `signing_bytes`, of `verify_certificate`,
`verify_certificate_signature` and `CertificateError`.

A certificate commits to a block of a sidechain and is signed by validators of that chain. Bit `i`
of its bitmap says whether validator `i` is among the signers.

* `Certificate.signingBytes`: what the validators sign. The bitmap and the signature are left out.
* `Certificate.verifySignature`: the signers reach the threshold and their aggregate signature is
  right.
* `Certificate.verify`: the certificate is newer than the last one, too, and commits to the expected
  validators.
-/

namespace ChainHub

/-- A block commitment signed by the validators of a chain. -/
structure Certificate where
  blockId : Digest
  height : UInt64
  /-- In seconds. -/
  timestamp : UInt64
  stateRoot : Digest
  validatorsHash : Digest
  /-- Which validators have signed. -/
  signers : Bytes
  signature : Bytes
deriving DecidableEq, Inhabited

instance : Wire Certificate where
  encode c :=
    Wire.encode c.blockId ++ Wire.encode c.height ++ Wire.encode c.timestamp
      ++ Wire.encode c.stateRoot ++ Wire.encode c.validatorsHash ++ Wire.encode c.signers
      ++ Wire.encode c.signature
  read := do
    let blockId ← Wire.read
    let height ← Wire.read
    let timestamp ← Wire.read
    let stateRoot ← Wire.read
    let validatorsHash ← Wire.read
    let signers ← Wire.read
    let signature ← Wire.read
    return { blockId, height, timestamp, stateRoot, validatorsHash, signers, signature }

/-- Why a certificate is refused. -/
inductive CertificateError
  | timestamp (got last current : UInt64)
  | height (got last : UInt64)
  | validatorsHash
  /-- The bitmap has the wrong length. -/
  | signersLength (expected got : Nat)
  /-- The bitmap names a signer that does not exist. -/
  | signersBeyond
  | weight (signed threshold : Nat)
  | signature
deriving DecidableEq, Inhabited

/-- The wording of the error. -/
def CertificateError.message : CertificateError → String
  | .timestamp got last current =>
    "Invalid certificate timestamp " ++ toString got ++ ": last certified " ++ toString last
      ++ ", current block " ++ toString current
  | .height got last =>
    "InvalidHeight: certificate height " ++ toString got ++ " must exceed last certified height "
      ++ toString last
  | .validatorsHash => "Certificate validators hash does not match the expected validator set"
  | .signersLength expected got =>
    s!"Invalid aggregation bits: expected {expected} bytes, got {got}"
  | .signersBeyond => "Invalid aggregation bits: bit set beyond the validator set"
  | .weight signed threshold =>
    s!"Invalid certificate signature: signed weight {signed} below threshold {threshold}"
  | .signature => "Invalid certificate signature: aggregate signature does not verify"

namespace Certificate

/-- The text that begins everything validators sign. -/
def signingTag : Bytes := Utf8.encode "CCU_CERTIFICATE_"

/-- What the validators of `chain` sign (`signing_bytes`). -/
def signingBytes (c : Certificate) (chain : ChainId) : Bytes :=
  signingTag ++ chain.toList ++ Wire.encode c.blockId ++ Wire.encode c.height
    ++ Wire.encode c.timestamp ++ Wire.encode c.stateRoot ++ Wire.encode c.validatorsHash

/-- The number of bytes in a bitmap of `count` bits. -/
def bitmapLength (count : Nat) : Nat := (count + 7) / 8

/-- The validators whose bit is set. -/
def selected (signers : Bytes) (validators : List Validator) : List Validator :=
  (validators.zipIdx.filter fun v => Bitmap.test signers v.2).map (·.1)

/-- The sum of the weights, or the largest 64-bit number if it is above that. -/
def signedWeight (validators : List Validator) : Nat :=
  validators.foldl (fun sum v => Nat.min (sum + v.weight.toNat) (UInt64.size - 1)) 0

/-- Whether a bit is set that belongs to no validator. -/
def namesBeyond (signers : Bytes) (count : Nat) : Bool :=
  (List.range' count (bitmapLength count * 8 - count)).any (Bitmap.test signers)

/-- Checks the bitmap, the weight of the signers and the aggregate signature, in this order, with
the given signature scheme. -/
def verifySignatureWith (scheme : SignatureScheme) (c : Certificate) (chain : ChainId)
    (set : ValidatorSet) : Except CertificateError Unit := do
  let count := set.validators.length
  if c.signers.length ≠ bitmapLength count then
    throw (.signersLength (bitmapLength count) c.signers.length)
  if namesBeyond c.signers count then throw .signersBeyond
  let signers := selected c.signers set.validators
  let weight := signedWeight signers
  if weight < set.threshold.toNat then throw (.weight weight set.threshold.toNat)
  unless scheme.verifyAggregate (signers.map (·.key)) (c.signingBytes chain) c.signature do
    throw .signature

/-- Checks that the signers reach the threshold and have signed (`verify_certificate_signature`). -/
def verifySignature (c : Certificate) (chain : ChainId) (set : ValidatorSet) :
    Except CertificateError Unit :=
  c.verifySignatureWith Bls.scheme chain set

/-- Checks the height, the time, the committed validators and the signature, in this order
(`verify_certificate`). -/
def verify (c : Certificate) (chain : ChainId) (last : CertificateSummary) (set : ValidatorSet)
    (now : UInt64) (expectedValidators : Digest) : Except CertificateError Unit := do
  if c.height ≤ last.height then throw (.height c.height last.height)
  if c.timestamp ≤ last.timestamp ∨ now < c.timestamp then
    throw (.timestamp c.timestamp last.timestamp now)
  if c.validatorsHash ≠ expectedValidators then throw .validatorsHash
  c.verifySignature chain set

/-- What the hub keeps of an accepted certificate. -/
def summary (c : Certificate) : CertificateSummary where
  height := c.height
  timestamp := c.timestamp
  stateRoot := c.stateRoot
  validatorsHash := c.validatorsHash

end Certificate

end ChainHub
