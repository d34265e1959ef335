import ChainHub.Bls

/-!
# Signers with known secrets

Model of `TestValidator` (`from_seed`, `sign`) and `sorted_validators`.

A `Signer` is derived from a number, so that relayers can be run against chains whose validators
are known. Such keys protect nothing.
-/

namespace ChainHub.Bls

/-- A secret number and its public key. -/
structure Signer where
  secret : Nat
  publicKey : Bytes
deriving DecidableEq, Inhabited

/-- The secret number derived from key material. -/
def secretOf (material : Bytes) : Nat :=
  fromBigEndian (Hkdf.derive (Utf8.encode "BLS-SIG-KEYGEN-SALT-") (material ++ [0]) [0, 48] 48)
    % groupOrder

/-- The signer of a number. -/
def Signer.ofSeed (seed : UInt64) : Signer :=
  let secret := secretOf (bigEndian 8 seed.toNat ++ List.replicate 24 0x5a)
  ⟨secret, ((Jacobian.ofPoint generator).multiply secret).toPoint.encode⟩

/-- The signature of a message. -/
def Signer.sign (signer : Signer) (message : Bytes) : Bytes :=
  scheme.sign signer.secret message

/-- The signers of the given numbers, ordered by public key. -/
def sortedSigners (seeds : List UInt64) : List Signer :=
  (seeds.map Signer.ofSeed).mergeSort fun a b => (compare a.publicKey b.publicKey).isLE

end ChainHub.Bls
