import ChainHub.Hub.Delivery
import ChainHub.Hub.Fields
import ChainHub.Hub.Request
import ChainHub.Hub.Transaction

/-!
# Updates from sidechains

Model of `verify_cross_chain_update`, `verify_inbox_update`, `execute_cross_chain_update` and the
handler `execute_submit_cross_chain_update`, with the records `VerifiedUpdate` and `UpdateOutcome`
that they hand on.

An update carries a certificate of its sender, messages for the inbox, or both. Checking it changes
nothing and refuses the whole update on any failure. Carrying it out stores the certificate and then
deals with the messages one by one; a bad message refuses nothing, it is discarded or bounced or
terminates its sender.

* `Update.verify`: the check.
* `Update.perform`: the rest. It stops at the message that terminates the sender, and then keeps the
  old root of the partner's outbox.
* `Update.execute`: both, with the answer.

Out of scope: the counters of `UpdateOutcome` have 32 bits and are `Nat` here. An update with 2³² or
more messages is counted right, where the 32-bit counters would abort.
-/

namespace ChainHub.Update

/-- The substore in which a chain keeps the roots of its outboxes
(`SUBSTORE_PREFIX_OUTBOX_ROOT`). -/
def outboxRootSubstore : Bytes := [0x80, 0x00]

/-- Where a partner keeps the root of its outbox toward a chain. -/
def outboxRootKey (own : ChainId) : Digest :=
  Sparse.stateKey interoperabilityModule outboxRootSubstore own.toList

/-- A checked update (`VerifiedUpdate`). -/
structure Verified where
  sender : ChainId
  account : ChainAccount
  certificate : Option Certificate
  validators : Option ValidatorSet
  /-- The proven root of the partner's outbox, if there is an inbox update. -/
  partnerOutboxRoot : Option Digest
deriving DecidableEq, Inhabited

/-- The new validator set that an update asks for. A set changes with a certificate only. -/
def verifyValidators (current : ValidatorSet) (request : UpdateRequest) :
    Except HubError (Option ValidatorSet) := do
  if request.validators.isEmpty && request.threshold == current.threshold then return none
  if request.certificate.isEmpty then throw .validatorsWithoutCertificate
  let validators :=
    if request.validators.isEmpty then current.validators else request.validators
  let set : ValidatorSet := ⟨validators, request.threshold⟩
  match set.check with
  | .error e => throw (.validatorSet e)
  | .ok () => return some set

/-- How old the certificate of an inbox update may be. A chain that is not active yet has half the
time to deliver its first messages (the `limit` of `CertificateLivenessExpired`). -/
def ageLimit (status : ChainStatus) : Nat :=
  if status = .registered then livenessLimit / 2 else livenessLimit

/-- Checks that the certificate of an inbox update is not too old. -/
def verifyAge (account : ChainAccount) (certificate : Certificate) (now : UInt64) :
    Except HubError Unit :=
  let age := now.toNat - certificate.timestamp.toNat
  if ageLimit account.status < age then .error (.certificateTooOld age (ageLimit account.status))
  else .ok ()

/-- Decodes and checks the certificate, if there is one. -/
def verifyCertificate (id : ChainId) (account : ChainAccount) (current : ValidatorSet)
    (new : Option ValidatorSet) (now : UInt64) (request : UpdateRequest) :
    Except HubError (Option Certificate) := do
  if request.certificate.isEmpty then return none
  match (Wire.decode request.certificate : Except WireError Certificate) with
  | .error e => throw (.wire e)
  | .ok certificate =>
    let expected :=
      match new with
      | some set => set.hash
      | none => account.last.validatorsHash
    match certificate.verify id account.last current now expected with
    | .error e => throw (.certificate e)
    | .ok () =>
      unless request.inbox.isEmpty do verifyAge account certificate now
      return some certificate

/-- Checks that the inbox with the new messages begins the partner's outbox, and that the root of
the outbox is the certified one, or without a certificate the one that is stored. Gives the
root (`verify_inbox_update`). -/
def verifyInbox (s : Store) (own id : ChainId) (certificate : Option Certificate)
    (inbox : InboxUpdate) : Attempt HubError Digest := do
  let channel ← Attempt.require (.host .recordMissing) (s.get (.channel id))
  let after ← Attempt.ofOption (channel.inbox.appendAll? inbox.messages)
  let witness ← Attempt.lift (parseHashes inbox.witness)
  let root ← Attempt.ofExcept .merkle (Merkle.rootOfRightWitness after.size after.path witness)
  match certificate with
  | some certificate =>
    if Sparse.includes certificate.stateRoot (outboxRootKey own) root.toList inbox.outboxRootProof
    then return root
    else .refuse .outboxRootNotProven
  | none => if root = channel.partnerOutboxRoot then return root else .refuse .outboxRootMismatch

/-- Checks an update (`verify_cross_chain_update`). `verifyValidators`, `verifyCertificate` and
`verifyInbox` are its three middle parts, in the order in which it makes them. -/
def verify (s : Store) (own : ChainId) (now : UInt64) (request : UpdateRequest) :
    Attempt HubError Verified := do
  let id ← Attempt.lift (parseChainId request.sender)
  if request.certificate.isEmpty && request.inbox.isEmpty then .refuse .emptyUpdate
  let account ← Attempt.require (.chainNotFound id) (s.get (.account id))
  unless s.isLive own id now do .refuse (.chainNotLive id)
  if account.status = .registered ∧ request.certificate.isEmpty then .refuse .certificateRequired
  let current ← Attempt.require (.host .recordMissing) (s.get (.validators id))
  let validators ← Attempt.lift (verifyValidators current request)
  let certificate ← Attempt.lift
    (verifyCertificate id account current validators now request)
  let partnerOutboxRoot ←
    if request.inbox.isEmpty then pure none
    else some <$> verifyInbox s own id certificate request.inbox
  return { sender := id, account, certificate, validators, partnerOutboxRoot }

/-! ## Carrying an update out -/

/-- What became of the messages of an update (`UpdateOutcome`). -/
structure Outcome where
  applied : Nat := 0
  forwarded : Nat := 0
  bounced : Nat := 0
  discarded : Nat := 0
  senderTerminated : Bool := false
deriving DecidableEq, Inhabited

namespace Outcome

/-- One more message. -/
def record (o : Outcome) : Disposition → Outcome
  | .applied => { o with applied := o.applied + 1 }
  | .forwarded => { o with forwarded := o.forwarded + 1 }
  | .bounced => { o with bounced := o.bounced + 1 }
  | .discarded => { o with discarded := o.discarded + 1 }

/-- A message that terminated its sender before it was delivered. -/
def recordRejected (o : Outcome) : Outcome :=
  { o with discarded := o.discarded + 1, senderTerminated := true }

/-- How many messages were dealt with. -/
def processed (o : Outcome) : Nat := o.applied + o.forwarded + o.bounced + o.discarded

/-- Whether no message was discarded and the sender is not terminated. -/
def isAccepted (o : Outcome) : Bool := o.discarded == 0 && !o.senderTerminated

end Outcome

/-- What a message from the chain `id` breaks before it is delivered: it has to name that chain as
its sender and to keep the format rules. -/
def violation? (id : ChainId) (m : Message) : Option ProcessedCode :=
  if m.sender ≠ id then some .wrongSender
  else if HubM.isRefused (m.checkFormat.mapError .format) then some .invalidFormat
  else none

/-- Deals with the messages from the chain `id` until one terminates it: the loop of
`execute_cross_chain_update`, with a `return` for each `break`. -/
def processMessages (r : Registry) (id : ChainId) : List Bytes → Outcome → HubM Outcome
  | [], o => return o
  | bytes :: rest, o => do
    match (Wire.decode bytes : Except WireError Message) with
    | .error _ =>
      HubM.terminateChain id
      HubM.emit (.undecodable (keccak256 bytes) id .malformed)
      return o.recordRejected
    | .ok m =>
      match violation? id m with
      | some code =>
        HubM.terminateChain id
        HubM.emit (.processed m .discarded code)
        return o.recordRejected
      | none =>
        let _ ← HubM.appendToInbox id bytes
        let o := o.record (← HubM.deliver r m)
        let account ← HubM.load (.account id)
        if account.status = .terminated then return { o with senderTerminated := true }
        else processMessages r id rest o

/-- Stores an accepted certificate; the first one makes its chain active. -/
def storeCertificate (v : Verified) (certificate : Certificate) : HubM Unit := do
  let status ←
    if v.account.status = .registered then do
      HubM.emit (.accountUpdated v.sender .active)
      pure .active
    else pure v.account.status
  HubM.save (.account v.sender) { v.account with status := status, last := certificate.summary }

/-- Stores the validators that replace the present ones. -/
def storeValidators (v : Verified) : HubM Unit := do
  if let some set := v.validators then HubM.save (.validators v.sender) set

/-- Stores the certificate and the validators of a checked update. -/
def storeVerified (v : Verified) : HubM Unit := do
  if let some certificate := v.certificate then storeCertificate v certificate
  storeValidators v

/-- Stores the proven root of the partner's outbox. -/
def storePartnerRoot (v : Verified) : HubM Unit := do
  if let some root := v.partnerOutboxRoot then
    let channel ← HubM.load (.channel v.sender)
    HubM.save (.channel v.sender) { channel with partnerOutboxRoot := root }

/-- Carries out a checked update (`execute_cross_chain_update`). -/
def perform (r : Registry) (messages : List Bytes) (v : Verified) : HubM Outcome := do
  storeVerified v
  let outcome ← processMessages r v.sender messages {}
  unless outcome.senderTerminated do storePartnerRoot v
  return outcome

/-- The answer to an update. -/
def response (id : ChainId) (outcome : Outcome) (events : List Event) : Response where
  attributes :=
    [("method", "submit_cross_chain_update"), ("sending_chain_id", id.toHex),
      ("outcome", if outcome.isAccepted then "accepted" else "partial"),
      ("processed", toString outcome.processed), ("discarded", toString outcome.discarded),
      ("sender_terminated", toString outcome.senderTerminated)]
  events := events

/-- Checks an update and carries it out (`execute_submit_cross_chain_update`). -/
def execute (r : Registry) (header : BlockHeader) (request : UpdateRequest) : StoreM Response := do
  let own ← StoreM.load .own
  let verified ← StoreM.ofAttempt (verify (← get) own.chainId header.time request)
  let (outcome, events) ← StoreM.withContext header (perform r request.inbox.messages verified)
  return response verified.sender outcome events

end ChainHub.Update
