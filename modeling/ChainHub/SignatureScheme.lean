import ChainHub.Bytes

/-!
# Signatures that add up

What `verify_aggregate_signature` and `aggregate_signatures` ask of the scheme below them, as a
parameter.

In some schemes the signatures of one message can be added up, and so can the public keys of its
signers. The sum of the signatures is then one signature of the message under the sum of the keys.

* `SignatureScheme`: what such a scheme offers.
* `SignatureScheme.verifyAggregate`: whether a signature is that of all the given keys together.
* `SignatureScheme.aggregate?`: the signatures of several signers as one.
-/

namespace ChainHub

/-- A scheme in which keys and signatures add up. -/
structure SignatureScheme where
  /-- Public keys and their sums. -/
  Key : Type
  /-- Signatures and their sums. -/
  Signature : Type
  /-- The key of a single signer. -/
  decodeKey? : Bytes → Option Key
  decodeSignature? : Bytes → Option Signature
  /-- The sum of no keys. -/
  noKey : Key
  addKeys : Key → Key → Key
  /-- The sum of signatures, if there is at least one. -/
  addSignatures? : List Signature → Option Bytes
  /-- The signature of a message with a secret number. -/
  sign : (secret : Nat) → (message : Bytes) → Bytes
  /-- Whether a signature of a message belongs to a sum of keys. -/
  accepts : Key → (message : Bytes) → Signature → Bool

namespace SignatureScheme

/-- The sum of the given public keys, if all of them decode. -/
def sumKeys? (scheme : SignatureScheme) (keys : List Bytes) : Option scheme.Key :=
  keys.foldlM (fun sum key => (scheme.decodeKey? key).map (scheme.addKeys sum)) scheme.noKey

/-- Whether `signature` is the sum of the signatures of all `keys` on `message`. There has to be a
key. -/
def verifyAggregate (scheme : SignatureScheme) (keys : List Bytes) (message signature : Bytes) :
    Bool :=
  if keys.isEmpty then false
  else
    match scheme.decodeSignature? signature, scheme.sumKeys? keys with
    | some sig, some sum => scheme.accepts sum message sig
    | _, _ => false

/-- The sum of the given signatures, if there is at least one and all of them decode. -/
def aggregate? (scheme : SignatureScheme) (signatures : List Bytes) : Option Bytes := do
  scheme.addSignatures? (← signatures.mapM scheme.decodeSignature?)

end SignatureScheme

end ChainHub
