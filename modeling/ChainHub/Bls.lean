import ChainHub.Curve.HashToCurve
import ChainHub.Curve.Pairing
import ChainHub.SignatureScheme

/-!
# Aggregate signatures

Model of `decode_public_key`, `decode_signature`, `verify_aggregate_signature` and
`aggregate_signatures`, with the curve and the pairing that they rest on.

Public keys are points of the curve over `Fp`, in 48 bytes, and signatures are points of the curve
over `Fp2`, in 96 bytes. All signers sign the same message, so the keys are added up and the sum is
checked against one signature.

* `PublicKey.decode?`: refuses the point at infinity.
* `Signature.decode?`: does not.
* `scheme`: the scheme as a whole. A sum of keys at infinity has no signatures.
* `verifyAggregate`: whether a signature is that of all the given keys together.
-/

namespace ChainHub.Bls

/-- The generator of the group of public keys. -/
def generator : Point Fp :=
  .affine
    (.ofNat 0x17f1d3a73197d7942695638c4fa9ac0fc3688c4f9774b905a14e3a3f171bac586c55e83ff97a1aeffb3af00adb22c6bb)
    (.ofNat 0x08b3f481e3aaa0f1a09e30ed741d8ae4fcf5e095d5d00af600db18cb2c04b3edd03cc744a2888ae40caa232946c5e7e1)

/-- The point of a public key. -/
def PublicKey.decode? (bytes : Bytes) : Option (Point Fp) :=
  match Point.decode? bytes with
  | some .infinity => none
  | other => other

/-- The point of a signature. -/
def Signature.decode? (bytes : Bytes) : Option (Point Fp2) := Point.decode? bytes

/-- The scheme by which certificates are signed. -/
def scheme : SignatureScheme where
  Key := Jacobian Fp
  Signature := Point Fp2
  decodeKey? bytes := (PublicKey.decode? bytes).map .ofPoint
  decodeSignature? := Signature.decode?
  noKey := .infinity
  addKeys := Jacobian.add
  addSignatures? points :=
    if points.isEmpty then none
    else some (points.foldl (fun sum point => sum.add (.ofPoint point))
      Jacobian.infinity).toPoint.encode
  sign secret message := ((HashToCurve.hash message).multiply secret).toPoint.encode
  accepts sum message signature :=
    match sum.neg.toPoint with
    | .infinity => false
    | key => Pairing.productIsOne [(key, (HashToCurve.hash message).toPoint), (generator, signature)]

/-- Whether `signature` is the sum of the signatures of all `keys` on `message`. -/
def verifyAggregate (keys : List Bytes) (message signature : Bytes) : Bool :=
  scheme.verifyAggregate keys message signature

/-- The sum of the given signatures, if there is at least one and all of them decode. -/
def aggregate? (signatures : List Bytes) : Option Bytes := scheme.aggregate? signatures

end ChainHub.Bls
