import ChainHub.Merkle.Accumulator

/-!
# Channels

Model of `ChannelData`, in the store and on the wire.

The hub has a channel with every registered chain: what it has received from the chain, what it has
sent to it, and the root of the chain's own outbox as far as it is known.
-/

namespace ChainHub

/-- The hub's view of its channel with a partner chain. -/
structure Channel where
  /-- The messages received from the partner. -/
  inbox : Accumulator
  /-- The messages sent to the partner. -/
  outbox : Accumulator
  /-- The root of the partner's outbox at the last accepted inbox update. -/
  partnerOutboxRoot : Digest
  /-- The token in which message fees are paid. -/
  feeToken : TokenId
  minFeePerByte : UInt64
deriving DecidableEq, Inhabited

namespace Channel

/-- A channel on which nothing has been sent or received. -/
def fresh (feeToken : TokenId) (minFeePerByte : UInt64) : Channel where
  inbox := .empty
  outbox := .empty
  partnerOutboxRoot := emptyRoot
  feeToken := feeToken
  minFeePerByte := minFeePerByte

instance : Wire Channel where
  encode c :=
    Wire.encode c.inbox ++ Wire.encode c.outbox ++ Wire.encode c.partnerOutboxRoot
      ++ Wire.encode c.feeToken ++ Wire.encode c.minFeePerByte
  read := do
    let inbox ← Wire.read
    let outbox ← Wire.read
    let partnerOutboxRoot ← Wire.read
    let feeToken ← Wire.read
    let minFeePerByte ← Wire.read
    return { inbox, outbox, partnerOutboxRoot, feeToken, minFeePerByte }

end Channel

end ChainHub
