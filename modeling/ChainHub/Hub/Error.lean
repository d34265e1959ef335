import ChainHub.Certificate
import ChainHub.Coin
import ChainHub.Merkle.Basic
import ChainHub.Message

/-!
# Errors of the hub

Model of `ContractError` and of what reaches it from the host chain (`StdError`).

Every error here refuses a whole transaction. What is wrong with a single message of an update is
never an error; it is reported by an event.
-/

namespace ChainHub

/-- Errors that come from the host chain and not from the protocol. -/
inductive HostError
  | invalid (text : String)
  /-- What was asked for does not exist. -/
  | notFound (what : String)
  /-- A record that has to exist is not stored. -/
  | recordMissing
  /-- Bytes that should be text are not UTF-8. -/
  | notUtf8
deriving DecidableEq, Inhabited

/-- The wording of the error. A missing record and broken text have none. -/
def HostError.message : HostError → String
  | .invalid text => "Generic error: " ++ text
  | .notFound what => what ++ " not found"
  | .recordMissing => ""
  | .notUtf8 => ""

/-- Why a chain id cannot be used. -/
inductive ChainIdFault
  | length (got : Nat)
  | hubNotMainchain
  | otherNetwork
  | sidechainIsMainchain
  | hubTerminated
deriving DecidableEq, Inhabited

/-- The fault in words. -/
def ChainIdFault.reason : ChainIdFault → String
  | .length got => s!"expected 4 bytes, got {got}"
  | .hubNotMainchain => "the hub must use a mainchain ID"
  | .otherNetwork => "network byte must match the hub"
  | .sidechainIsMainchain => "mainchain IDs cannot be registered as sidechains"
  | .hubTerminated => "the hub cannot be terminated"

/-- What is wrong with the positions of a recovery. -/
inductive RecoveryIndexFault
  | count (indexes messages : Nat)
  | notAscending
  | outside (index first size : UInt64)
deriving DecidableEq, Inhabited

/-- The fault in words. -/
def RecoveryIndexFault.reason : RecoveryIndexFault → String
  | .count indexes messages => s!"{indexes} indexes for {messages} messages"
  | .notAscending => "indexes must be strictly ascending"
  | .outside index first size =>
    "index " ++ toString index ++ " outside the pending range " ++ toString first ++ ".."
      ++ toString size

/-- Why a message cannot be recovered. -/
inductive RecoveryMessageFault
  | malformed (fault : WireError)
  | status
  | otherReceiver
  | senderNotLive
deriving DecidableEq, Inhabited

/-- The fault in words. -/
def RecoveryMessageFault.reason : RecoveryMessageFault → String
  | .malformed fault => fault.message
  | .status => "only messages with status OK can be recovered"
  | .otherReceiver => "message is not addressed to the terminated chain"
  | .senderNotLive => "sending chain is not live"

/-- Why a transaction is refused. -/
inductive HubError
  | host (e : HostError)
  | certificate (e : CertificateError)
  | wire (e : WireError)
  | merkle (e : Merkle.MerkleError)
  | format (e : FormatError)
  | chainId (fault : ChainIdFault)
  | chainName (name : String)
  | validatorSet (e : ValidatorSetError)
  | hashLength (got : Nat)
  | tokenIdLength (got : Nat)
  | chainIdTaken (id : ChainId)
  | chainNameTaken (name : String)
  | insufficientFee (expected got : Amount)
  | unexpectedFunds (denom expected : String)
  | chainNotFound (id : ChainId)
  | chainNotLive (id : ChainId)
  | chainStillLive (id : ChainId)
  | chainTerminated (id : ChainId)
  | chainNotActive (id : ChainId)
  | emptyUpdate
  | certificateRequired
  | validatorsWithoutCertificate
  | certificateTooOld (age limit : Nat)
  | outboxRootNotProven
  | outboxRootMismatch
  | terminatedStateNotFound (id : ChainId)
  | terminatedOutboxNotFound (id : ChainId)
  | terminatedOutboxExists (id : ChainId)
  | channelNotProven
  | recoveryIndexes (fault : RecoveryIndexFault)
  | recoveryMessage (index : Nat) (fault : RecoveryMessageFault)
  | recoveryNotProven
  | moduleRegistered (name : String)
deriving DecidableEq, Inhabited

/-- The wording of the error. -/
def HubError.message : HubError → String
  | .host e => e.message
  | .certificate e => e.message
  | .wire e => "Codec error: " ++ e.message
  | .merkle e => "Merkle proof error: " ++ e.message
  | .format e => "Invalid cross-chain message: " ++ e.message
  | .chainId fault => "Invalid chain ID: " ++ fault.reason
  | .chainName name => "Invalid chain name: " ++ Quoted.encode name
  | .validatorSet e => e.message
  | .hashLength got => s!"Invalid hash: expected 32 bytes, got {got}"
  | .tokenIdLength got => s!"Invalid token ID: expected 8 bytes, got {got}"
  | .chainIdTaken id => "Chain ID " ++ id.toHex ++ " is not available"
  | .chainNameTaken name => "Chain name " ++ name ++ " is not available"
  | .insufficientFee expected got =>
    "Insufficient registration fee: expected " ++ expected.digits ++ ", got " ++ got.digits
  | .unexpectedFunds denom expected =>
    "Unexpected funds in " ++ denom ++ ": only " ++ expected ++ " is accepted"
  | .chainNotFound id => "Chain " ++ id.toHex ++ " not found"
  | .chainNotLive id => "Chain " ++ id.toHex ++ " is not live"
  | .chainStillLive id => "Chain " ++ id.toHex ++ " is still live"
  | .chainTerminated id => "Chain " ++ id.toHex ++ " is terminated"
  | .chainNotActive id => "Chain " ++ id.toHex ++ " is not active"
  | .emptyUpdate => "Cross-chain update must contain a certificate or an inbox update"
  | .certificateRequired =>
    "Cross-chain update from a registered chain must contain a non-empty certificate"
  | .validatorsWithoutCertificate => "Validator set update requires a non-empty certificate"
  | .certificateTooOld age limit => s!"Certificate is {age} seconds old, limit is {limit}"
  | .outboxRootNotProven => "Outbox root witness does not prove the partner outbox root"
  | .outboxRootMismatch => "Inbox update does not extend to the stored partner outbox root"
  | .terminatedStateNotFound id =>
    "Terminated state account for chain " ++ id.toHex ++ " not found"
  | .terminatedOutboxNotFound id =>
    "Terminated outbox account for chain " ++ id.toHex ++ " not found"
  | .terminatedOutboxExists id =>
    "Terminated outbox account for chain " ++ id.toHex ++ " already exists"
  | .channelNotProven => "Channel data is not included in the terminated state root"
  | .recoveryIndexes fault => "Invalid recovery indexes: " ++ fault.reason
  | .recoveryMessage index fault =>
    "Message " ++ toString index ++ " cannot be recovered: " ++ fault.reason
  | .recoveryNotProven => "Recovery proof does not match the terminated outbox root"
  | .moduleRegistered name => "Module " ++ name ++ " is already registered"

end ChainHub
