import ChainHub.Hub.Answer
import ChainHub.Hub.RequestJson

/-!
# Answers as JSON

Model of the JSON form of the response records, from `ConfigResponse` to `IsLiveResponse`.

`Answer.toJson`: the answer to a query as an object. Byte strings are base64 text and amounts are
decimal text.
-/

namespace ChainHub

open RequestJson

namespace AnswerJson

/-- A chain account with its id. -/
def ofAccount (id : ChainId) (account : ChainAccount) : Json :=
  .object
    [("chain_id", ofFixed id), ("name", .text account.name),
      ("status", .text account.status.word),
      ("last_certificate", .object
        [("height", .ofU64 account.last.height), ("timestamp", .ofU64 account.last.timestamp),
          ("state_root", ofFixed account.last.stateRoot),
          ("validators_hash", ofFixed account.last.validatorsHash)])]

/-- An inbox or outbox. -/
def ofAccumulator (acc : Accumulator) : Json :=
  .object
    [("root", ofFixed acc.root), ("size", .ofU64 acc.size),
      ("append_path", .ofList ofFixed acc.path)]

end AnswerJson

/-- The answer as JSON. -/
def Answer.toJson : Answer → Json
  | .config c =>
    .object
      [("fee_collector", .text c.feeCollector), ("registration_fee", ofCoin c.registrationFee),
        ("message_fee_token_id", ofFixed c.feeToken),
        ("min_return_fee_per_byte", .ofU64 c.minFeePerByte)]
  | .ownAccount own =>
    .object
      [("chain_id", ofFixed own.chainId), ("name", .text own.name), ("nonce", .ofU64 own.nonce)]
  | .chainAccount id account => AnswerJson.ofAccount id account
  | .chainAccounts page =>
    .object [("chains", .ofList (fun e => AnswerJson.ofAccount e.1 e.2) page)]
  | .channel c =>
    .object
      [("inbox", AnswerJson.ofAccumulator c.inbox), ("outbox", AnswerJson.ofAccumulator c.outbox),
        ("partner_chain_outbox_root", ofFixed c.partnerOutboxRoot),
        ("message_fee_token_id", ofFixed c.feeToken),
        ("min_return_fee_per_byte", .ofU64 c.minFeePerByte)]
  | .validators set =>
    .object
      [("active_validators", .ofList ofValidator set.validators),
        ("certificate_threshold", .ofU64 set.threshold)]
  | .terminatedState state =>
    .object
      [("state_root", ofFixed state.stateRoot),
        ("mainchain_state_root", ofFixed state.mainchainStateRoot),
        ("initialized", .bool state.initialized)]
  | .terminatedOutbox outbox =>
    .object
      [("outbox_root", ofFixed outbox.root), ("outbox_size", .ofU64 outbox.size),
        ("partner_chain_inbox_size", .ofU64 outbox.partnerInboxSize)]
  | .available isFree => .object [("available", .bool isFree)]
  | .live isLive => .object [("live", .bool isLive)]

end ChainHub
