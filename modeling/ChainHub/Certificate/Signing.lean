import ChainHub.Bls.Signer
import ChainHub.Certificate

/-!
# Signing certificates

Model of `sign_certificate` and of `active_validator`, by which a signer becomes a validator.

`Certificate.sign?` makes the certificate that some of a chain's validators would make together. The
other fields of the certificate stay as they are.
-/

namespace ChainHub

/-- The validator with the public key of a signer. -/
def Bls.Signer.validator (signer : Signer) (weight : UInt64) : Validator :=
  { key := signer.publicKey, weight := weight }

namespace Certificate

/-- The certificate signed by the validators at the given positions, with the given signature
scheme. There is no result when there are no positions or when a position has no validator. -/
def signWith? (scheme : SignatureScheme) (c : Certificate) (chain : ChainId)
    (validators : List Bls.Signer) (positions : List Nat) : Option Certificate := do
  let message := c.signingBytes chain
  let signers ← positions.mapM fun i => validators[i]?
  let signature ← scheme.aggregate? (signers.map fun signer => scheme.sign signer.secret message)
  return { c with
    signers := Bitmap.ofBits (bitmapLength validators.length) positions.contains
    signature := signature }

/-- The certificate signed by the validators at the given positions. -/
def sign? (c : Certificate) (chain : ChainId) (validators : List Bls.Signer)
    (positions : List Nat) : Option Certificate :=
  c.signWith? Bls.scheme chain validators positions

end Certificate

end ChainHub
