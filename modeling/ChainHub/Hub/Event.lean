import ChainHub.Account
import ChainHub.Message
import ChainHub.Hub.Store

/-!
# Events

Model of `CcmProcessedResult`, `CcmProcessedCode` and of the functions `ccm_processed` to
`terminated_outbox_updated` that build events.

Relayers follow the events of the hub: a `sent` event carries every message that entered an outbox,
and each message of an update is accounted for by a `processed` or `undecodable` event.

* `Event`: what happened. Modules may emit events of their own.
* `Event.type` / `Event.attributes`: how an event is shown.
-/

namespace ChainHub

/-- What became of an inbound message. -/
inductive Disposition
  /-- Applied on the hub. -/
  | applied
  /-- Put into the outbox of its receiving chain. -/
  | forwarded
  /-- Sent back to its sender. -/
  | bounced
  | discarded
deriving DecidableEq, Inhabited

/-- The word for a disposition. -/
def Disposition.word : Disposition → String
  | .applied => "applied"
  | .forwarded => "forwarded"
  | .bounced => "bounced"
  | .discarded => "discarded"

/-- Why an inbound message ended as it did. -/
inductive ProcessedCode
  | success
  | channelUnavailable
  | moduleNotSupported
  | commandNotSupported
  | failed
  /-- The message breaks the format rules. -/
  | invalidFormat
  /-- A module's check of the message failed. -/
  | verifyHookFailed
  | beforeHookFailed
  | afterHookFailed
  /-- The message cannot be decoded. -/
  | malformed
  /-- The message does not come from the chain that delivered it. -/
  | wrongSender
deriving DecidableEq, Inhabited

/-- The number of a code. -/
def ProcessedCode.code : ProcessedCode → Nat
  | .success => 0
  | .channelUnavailable => 1
  | .moduleNotSupported => 2
  | .commandNotSupported => 3
  | .failed => 4
  | .invalidFormat => 5
  | .verifyHookFailed => 6
  | .beforeHookFailed => 7
  | .afterHookFailed => 8
  | .malformed => 9
  | .wrongSender => 10

/-- The code with the given number. -/
def ProcessedCode.ofCode? (code : Nat) : Option ProcessedCode :=
  [success, channelUnavailable, moduleNotSupported, commandNotSupported, failed, invalidFormat,
    verifyHookFailed, beforeHookFailed, afterHookFailed, malformed, wrongSender].find?
    fun c => c.code = code

/-- Something that happened during a transaction. -/
inductive Event
  /-- An inbound message was dealt with. -/
  | processed (message : Message) (result : Disposition) (code : ProcessedCode)
  /-- Bytes with the given hash, delivered by a chain, were discarded as no message. -/
  | undecodable (id : Digest) (sender : ChainId) (code : ProcessedCode)
  /-- A message entered the outbox of its receiving chain. -/
  | sent (message : Message)
  | accountUpdated (id : ChainId) (status : ChainStatus)
  | terminatedStateCreated (id : ChainId) (stateRoot : Digest)
  | terminatedOutboxCreated (id : ChainId) (outbox : TerminatedOutbox)
  | terminatedOutboxUpdated (id : ChainId) (root : Digest)
  /-- An event of a module. -/
  | custom (type : String) (attributes : List (String × String))
deriving DecidableEq, Inhabited

namespace Event

/-- The type that an event is shown with. -/
def type : Event → String
  | .processed .. => "ccm_processed"
  | .undecodable .. => "ccm_processed"
  | .sent _ => "ccm_send_success"
  | .accountUpdated .. => "chain_account_updated"
  | .terminatedStateCreated .. => "terminated_state_created"
  | .terminatedOutboxCreated .. => "terminated_outbox_created"
  | .terminatedOutboxUpdated .. => "terminated_outbox_updated"
  | .custom type _ => type

/-- The attributes that an event is shown with, in order. -/
def attributes : Event → List (String × String)
  | .processed m result code =>
    [("ccm_id", Digest.toHex m.id), ("sending_chain_id", m.sender.toHex),
      ("receiving_chain_id", m.receiver.toHex), ("module", m.module),
      ("cross_chain_command", m.command), ("result", result.word),
      ("code", toString code.code)]
  | .undecodable id sender code =>
    [("ccm_id", Digest.toHex id), ("sending_chain_id", sender.toHex),
      ("result", Disposition.discarded.word), ("code", toString code.code)]
  | .sent m =>
    [("ccm_id", Digest.toHex m.id), ("sending_chain_id", m.sender.toHex),
      ("receiving_chain_id", m.receiver.toHex), ("module", m.module),
      ("cross_chain_command", m.command), ("nonce", toString m.nonce.toNat),
      ("ccm", Hex.encode m.encode)]
  | .accountUpdated id status => [("chain_id", id.toHex), ("status", toString status.code)]
  | .terminatedStateCreated id stateRoot =>
    [("chain_id", id.toHex), ("state_root", Digest.toHex stateRoot)]
  | .terminatedOutboxCreated id outbox =>
    [("chain_id", id.toHex), ("outbox_root", Digest.toHex outbox.root),
      ("outbox_size", toString outbox.size.toNat),
      ("partner_chain_inbox_size", toString outbox.partnerInboxSize.toNat)]
  | .terminatedOutboxUpdated id root =>
    [("chain_id", id.toHex), ("outbox_root", Digest.toHex root)]
  | .custom _ attributes => attributes

end Event

end ChainHub
