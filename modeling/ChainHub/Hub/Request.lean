import ChainHub.Coin
import ChainHub.Sparse.Basic
import ChainHub.Validators

/-!
# Requests

Model of `InstantiateMsg`, `ExecuteMsg` and `QueryMsg`.

What the hub can be asked to do (`ExecuteRequest`) and asked about (`Query`). Ids, hashes and
encoded records are byte strings here; their form is checked when a request is carried out.
-/

namespace ChainHub

/-- Sets the hub up. -/
structure InstantiateRequest where
  ownChainId : Bytes
  ownName : String
  feeCollector : String
  registrationFee : Coin
  feeToken : Bytes
  minFeePerByte : UInt64
deriving DecidableEq, Inhabited

/-- Messages for the inbox of the hub. -/
structure InboxUpdate where
  /-- Encoded messages, in the order of the sender's outbox. -/
  messages : List Bytes
  /-- What extends the inbox with these messages to the sender's outbox root. -/
  witness : List Bytes
  /-- Proves the sender's outbox root in its certified state root. -/
  outboxRootProof : Sparse.Proof
deriving DecidableEq, Inhabited

/-- Whether nothing at all is to be delivered. -/
def InboxUpdate.isEmpty (u : InboxUpdate) : Bool :=
  u.messages.isEmpty && u.witness.isEmpty && u.outboxRootProof.bitmap.isEmpty
    && u.outboxRootProof.siblings.isEmpty

/-- A certificate or messages of a sidechain, or both. -/
structure UpdateRequest where
  sender : Bytes
  /-- The encoded certificate, empty if there is none. -/
  certificate : Bytes
  /-- The new validators, empty to keep the present ones. -/
  validators : List Validator
  threshold : UInt64
  inbox : InboxUpdate
deriving DecidableEq, Inhabited

/-- A new sidechain. -/
structure RegistrationRequest where
  chainId : Bytes
  name : String
  validators : List Validator
  threshold : UInt64
deriving DecidableEq, Inhabited

/-- Proof of what a terminated chain had received. -/
structure RecoveryInitRequest where
  chainId : Bytes
  /-- The encoded channel of the chain toward the hub. -/
  channel : Bytes
  proof : Sparse.Proof
deriving DecidableEq, Inhabited

/-- Messages of a terminated chain's outbox that are to go back. -/
structure RecoveryRequest where
  chainId : Bytes
  /-- Encoded messages, one for each position. -/
  messages : List Bytes
  /-- Their positions in the outbox. -/
  indexes : List UInt64
  siblings : List Bytes
deriving DecidableEq, Inhabited

/-- What the hub can be asked to do. -/
inductive ExecuteRequest
  | register (request : RegistrationRequest)
  | update (request : UpdateRequest)
  | terminateForLiveness (chainId : Bytes)
  | initRecovery (request : RecoveryInitRequest)
  | recover (request : RecoveryRequest)
deriving DecidableEq, Inhabited

/-- What the hub can be asked about. -/
inductive Query
  | config
  | ownAccount
  | chainAccount (chainId : Bytes)
  | chainAccounts (startAfter : Option Bytes) (limit : Option UInt32)
  | channel (chainId : Bytes)
  | validators (chainId : Bytes)
  | terminatedState (chainId : Bytes)
  | terminatedOutbox (chainId : Bytes)
  | isChainIdAvailable (chainId : Bytes)
  | isChainNameAvailable (name : String)
  | isLive (chainId : Bytes) (time : Option UInt64)
deriving DecidableEq, Inhabited

end ChainHub
