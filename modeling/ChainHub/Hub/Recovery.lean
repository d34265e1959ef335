import ChainHub.Hub.Delivery
import ChainHub.Hub.Fields
import ChainHub.Hub.Request
import ChainHub.Hub.Transaction
import ChainHub.Merkle.LeafProof

/-!
# Recovery of messages

Model of `verify_message_recovery_initialization`, `execute_initialize_message_recovery`,
`verify_message_recovery`, `execute_message_recovery` and the handler `execute_recover_message`.

Messages that a terminated chain never received can be sent back. First it is proven, from the last
certified state of the chain, how many messages it had received, and the hub's outbox toward it is
frozen. Then messages behind that point are proven against the frozen root and sent back with status
`recovered`. In the frozen root each of them is replaced by its recovered form, so that its proof
does not hold a second time.

* `Recovery.start`: the first step.
* `Recovery.verify` / `Recovery.perform` / `Recovery.execute`: the second.
-/

namespace ChainHub.Recovery

/-- The substore in which a chain keeps its channels (`SUBSTORE_PREFIX_CHANNEL`). -/
def channelSubstore : Bytes := [0xa0, 0x00]

/-- Where a partner keeps its channel toward a chain. -/
def channelKey (own : ChainId) : Digest :=
  Sparse.stateKey interoperabilityModule channelSubstore own.toList

/-! ## Freezing the outbox -/

/-- Checks the proof of a terminated chain's channel; gives the id and the channel
(`verify_message_recovery_initialization`). -/
def verifyInit (s : Store) (request : RecoveryInitRequest) :
    Except HubError (ChainId × Channel) := do
  let id ← parseChainId request.chainId
  match s.own with
  | none => throw (.host .recordMissing)
  | some own =>
    match (s.get (.terminatedState id)).filter (·.initialized) with
    | none => throw (.terminatedStateNotFound id)
    | some state =>
      if (s.get (.terminatedOutbox id)).isSome then throw (.terminatedOutboxExists id)
      match (Wire.decode request.channel : Except WireError Channel) with
      | .error e => throw (.wire e)
      | .ok channel =>
        if Sparse.includes state.stateRoot (channelKey own.chainId) request.channel request.proof
        then return (id, channel)
        else throw .channelNotProven

/-- Freezes the outbox toward a terminated chain (`execute_initialize_message_recovery`). -/
def start (request : RecoveryInitRequest) : StoreM Response := do
  let (id, partner) ← StoreM.ofAttempt (Attempt.lift (verifyInit (← get) request))
  let channel ← StoreM.load (.channel id)
  let outbox : TerminatedOutbox := {
    root := channel.outbox.root
    size := channel.outbox.size
    partnerInboxSize := partner.inbox.size }
  StoreM.save (.terminatedOutbox id) outbox
  return {
    attributes := [("method", "initialize_message_recovery"), ("chain_id", id.toHex)]
    events := [.terminatedOutboxCreated id outbox] }

/-! ## Sending messages back -/

/-- A checked recovery (`VerifiedRecovery`). -/
structure Verified where
  id : ChainId
  outbox : TerminatedOutbox
  messages : List Message
  indexes : List UInt64
  siblings : List Digest
deriving DecidableEq, Inhabited

/-- Checks that there is one position for each message and that all are among those that the chain
has not received. -/
def verifyIndexes (outbox : TerminatedOutbox) (indexes : List UInt64) (messages : Nat) :
    Except RecoveryIndexFault Unit := do
  if indexes.isEmpty ∨ indexes.length ≠ messages then throw (.count indexes.length messages)
  unless Merkle.isAscending (indexes.map UInt64.toNat) do throw .notAscending
  match indexes.find? fun i => i < outbox.partnerInboxSize || outbox.size ≤ i with
  | some i => throw (.outside i outbox.partnerInboxSize outbox.size)
  | none => return

/-- Decodes a message and checks that it can be recovered from the chain `id`. -/
def verifyMessage (s : Store) (own : ChainId) (now : UInt64) (id : ChainId) (encoded : Bytes) :
    Except RecoveryMessageFault Message := do
  match (Wire.decode encoded : Except WireError Message) with
  | .error e => throw (.malformed e)
  | .ok m =>
    if m.status ≠ .ok then throw .status
    if m.receiver ≠ id then throw .otherReceiver
    unless s.isLive own m.sender now do throw .senderNotLive
    return m

/-- Checks messages in order, the first of which is number `index`. -/
def verifyMessages (s : Store) (own : ChainId) (now : UInt64) (id : ChainId) :
    (index : Nat) → List Bytes → Except HubError (List Message)
  | _, [] => return []
  | index, encoded :: rest => do
    match verifyMessage s own now id encoded with
    | .error fault => throw (.recoveryMessage index fault)
    | .ok m =>
      let messages ← verifyMessages s own now id (index + 1) rest
      return m :: messages

/-- Checks that messages with the given leaf hashes are in the frozen outbox. -/
def verifyProof (outbox : TerminatedOutbox) (indexes : List UInt64)
    (leaves siblings : List Digest) : Attempt HubError Unit :=
  match Merkle.rootOfLeaves outbox.size indexes leaves siblings with
  | .ok root => if root = outbox.root then .ok () else .refuse .recoveryNotProven
  | .error (.error _) => .refuse .recoveryNotProven
  | .error .abort => .abort

/-- Checks a recovery (`verify_message_recovery`). -/
def verify (s : Store) (own : ChainId) (now : UInt64) (request : RecoveryRequest) :
    Attempt HubError Verified := do
  let id ← Attempt.lift (parseChainId request.chainId)
  let outbox ← Attempt.require (.terminatedOutboxNotFound id) (s.get (.terminatedOutbox id))
  Attempt.ofExcept .recoveryIndexes
    (verifyIndexes outbox request.indexes request.messages.length)
  let messages ← Attempt.lift (verifyMessages s own now id 0 request.messages)
  let siblings ← Attempt.lift (parseHashes request.siblings)
  verifyProof outbox request.indexes (request.messages.map leafHash) siblings
  return { id, outbox, messages, indexes := request.indexes, siblings }

/-- Delivers a recovered message after the hooks for it (`deliver_recovered`). -/
def deliverRecovered (r : Registry) (m : Message) : HubM Disposition := do
  r.modules.forM fun mod => mod.beforeRecover m
  HubM.deliver r m

/-- Recovers messages in order and counts those that were not discarded. A message whose hooks or
delivery are refused leaves no trace but an event. -/
def recoverMessages (r : Registry) : List Message → (delivered : Nat) → HubM Nat
  | [], delivered => return delivered
  | m :: rest, delivered => do
    let start ← HubM.snapshot
    match ← HubM.attempt (deliverRecovered r m.recovered) with
    | .ok .discarded => recoverMessages r rest delivered
    | .ok _ => recoverMessages r rest (delivered + 1)
    | .error _ =>
      HubM.restore start
      HubM.emit (.processed m.recovered .discarded .failed)
      recoverMessages r rest delivered

/-- Carries out a checked recovery and gives the number of messages delivered
(`execute_message_recovery`). -/
def perform (r : Registry) (v : Verified) : HubM Nat := do
  let delivered ← recoverMessages r v.messages 0
  let leaves := v.messages.map fun m => leafHash m.recovered.encode
  match Merkle.rootOfLeaves v.outbox.size v.indexes leaves v.siblings with
  | .error failure => throw (failure.map .merkle)
  | .ok root =>
    HubM.save (.terminatedOutbox v.id) { v.outbox with root := root }
    HubM.emit (.terminatedOutboxUpdated v.id root)
    return delivered

/-- Checks a recovery and carries it out (`execute_recover_message`). -/
def execute (r : Registry) (header : BlockHeader) (request : RecoveryRequest) :
    StoreM Response := do
  let own ← StoreM.load .own
  let verified ← StoreM.ofAttempt (verify (← get) own.chainId header.time request)
  let (delivered, events) ← StoreM.withContext header (perform r verified)
  return {
    attributes :=
      [("method", "recover_message"), ("chain_id", verified.id.toHex),
        ("recovered", toString verified.messages.length), ("delivered", toString delivered)]
    events := events }

end ChainHub.Recovery
