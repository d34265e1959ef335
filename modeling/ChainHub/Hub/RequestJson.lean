import ChainHub.Base64
import ChainHub.Hub.Request
import ChainHub.Json.Reader
import ChainHub.Json.Typed

/-!
# Requests as JSON

Model of the JSON form of `InstantiateMsg`, `ExecuteMsg`, `QueryMsg` and `MigrateMsg`.

Every request is an object. Requests of a kind with several forms have a single field that is named
for the form. Byte strings are base64 text and amounts are decimal text. Reading is strict, except
that a coin may carry further fields.

* `ExecuteRequest.read?`, `Query.read?`, `InstantiateRequest.read?`, `readMigrate?`: requests from
  text.
* `ExecuteRequest.toJson`, `Query.toJson`, `InstantiateRequest.toJson`: the other way.
-/

namespace ChainHub

/-- How deep the text of a request may be nested. -/
def maxNesting : Nat := 127

/-- An object with one field, whose value is an object. -/
def Json.form (name : String) (fields : List (String × Json)) : Json :=
  .object [(name, .object fields)]

namespace RequestJson

/-- A byte string. -/
def bytes? (json : Json) : Option Bytes := json.text?.bind Base64.decode?

/-- A byte string as JSON. -/
def ofBytes (bytes : Bytes) : Json := .text (Base64.encode bytes)

/-- A value of fixed length as JSON. -/
def ofFixed {n : Nat} (x : FixedBytes n) : Json := ofBytes x.toList

/-- Whether a coin has a field of this name. -/
def isCoinField (name : String) : Bool := name = "denom" || name = "amount"

/-- A coin. Further fields are skipped. -/
def coin? : Json → Option Coin
  | .object fields => do
    let known := fields.filter fun field => isCoinField field.1
    let fields ← (Json.object known).distinctFields?
    let denom ← Json.field? fields "denom" Json.text?
    let amount ← Json.field? fields "amount" fun json => json.text?.bind Amount.ofDigits?
    return { denom, amount }
  | _ => none

/-- A coin as JSON. -/
def ofCoin (coin : Coin) : Json :=
  .object [("denom", .text coin.denom), ("amount", .text coin.amount.digits)]

/-- A validator. -/
def validator? (json : Json) : Option Validator := do
  let fields ← json.fields? ["bls_key", "bft_weight"]
  let key ← Json.field? fields "bls_key" bytes?
  let weight ← Json.field? fields "bft_weight" Json.u64?
  return { key, weight }

/-- A validator as JSON. -/
def ofValidator (v : Validator) : Json :=
  .object [("bls_key", ofBytes v.key), ("bft_weight", .ofU64 v.weight)]

/-- A proof of a stored value. -/
def proof? (json : Json) : Option Sparse.Proof := do
  let fields ← json.fields? ["bitmap", "sibling_hashes"]
  let bitmap ← Json.field? fields "bitmap" bytes?
  let siblings ← Json.field? fields "sibling_hashes" (Json.list? bytes?)
  return { bitmap, siblings }

/-- A proof of a stored value as JSON. -/
def ofProof (proof : Sparse.Proof) : Json :=
  .object [("bitmap", ofBytes proof.bitmap), ("sibling_hashes", .ofList ofBytes proof.siblings)]

/-- Messages for the inbox. -/
def inboxUpdate? (json : Json) : Option InboxUpdate := do
  let fields ← json.fields?
    ["cross_chain_messages", "message_witness_hashes", "outbox_root_witness"]
  let messages ← Json.field? fields "cross_chain_messages" (Json.list? bytes?)
  let witness ← Json.field? fields "message_witness_hashes" (Json.list? bytes?)
  let outboxRootProof ← Json.field? fields "outbox_root_witness" proof?
  return { messages, witness, outboxRootProof }

/-- Messages for the inbox as JSON. -/
def ofInboxUpdate (u : InboxUpdate) : Json :=
  .object
    [("cross_chain_messages", .ofList ofBytes u.messages),
      ("message_witness_hashes", .ofList ofBytes u.witness),
      ("outbox_root_witness", ofProof u.outboxRootProof)]

/-- The one field of requests that only name a chain. -/
def chainId? (json : Json) : Option Bytes := do
  let fields ← json.fields? ["chain_id"]
  Json.field? fields "chain_id" bytes?

/-- A request without fields. -/
def noFields? (json : Json) : Option Unit := do
  let _ ← json.fields? []
  return ()

end RequestJson

open RequestJson

/-! ## Setting up -/

namespace InstantiateRequest

/-- The request from JSON. -/
def ofJson? (json : Json) : Option InstantiateRequest := do
  let fields ← json.fields?
    ["own_chain_id", "own_name", "fee_collector", "registration_fee", "message_fee_token_id",
      "min_return_fee_per_byte"]
  let ownChainId ← Json.field? fields "own_chain_id" bytes?
  let ownName ← Json.field? fields "own_name" Json.text?
  let feeCollector ← Json.field? fields "fee_collector" Json.text?
  let registrationFee ← Json.field? fields "registration_fee" coin?
  let feeToken ← Json.field? fields "message_fee_token_id" bytes?
  let minFeePerByte ← Json.field? fields "min_return_fee_per_byte" Json.u64?
  return { ownChainId, ownName, feeCollector, registrationFee, feeToken, minFeePerByte }

/-- The request as JSON. -/
def toJson (r : InstantiateRequest) : Json :=
  .object
    [("own_chain_id", ofBytes r.ownChainId), ("own_name", .text r.ownName),
      ("fee_collector", .text r.feeCollector), ("registration_fee", ofCoin r.registrationFee),
      ("message_fee_token_id", ofBytes r.feeToken),
      ("min_return_fee_per_byte", .ofU64 r.minFeePerByte)]

/-- Skips the further fields of the coin. -/
def skips : Json.Skips
  | [name, "registration_fee"] => !isCoinField name
  | _ => false

/-- The request from text. -/
def read? (text : String) : Option InstantiateRequest :=
  (Json.read? maxNesting text skips).bind ofJson?

end InstantiateRequest

/-- The request to record the version, from JSON. It has no fields. -/
def migrateOfJson? (json : Json) : Option Unit := noFields? json

/-- The request to record the version, from text. -/
def readMigrate? (text : String) : Option Unit := (Json.read? maxNesting text).bind migrateOfJson?

/-! ## Requests that change the hub -/

namespace RegistrationRequest

/-- The request from JSON. -/
def ofJson? (json : Json) : Option RegistrationRequest := do
  let fields ← json.fields?
    ["chain_id", "name", "sidechain_validators", "sidechain_certificate_threshold"]
  let chainId ← Json.field? fields "chain_id" bytes?
  let name ← Json.field? fields "name" Json.text?
  let validators ← Json.field? fields "sidechain_validators" (Json.list? validator?)
  let threshold ← Json.field? fields "sidechain_certificate_threshold" Json.u64?
  return { chainId, name, validators, threshold }

end RegistrationRequest

namespace UpdateRequest

/-- The request from JSON. -/
def ofJson? (json : Json) : Option UpdateRequest := do
  let fields ← json.fields?
    ["sending_chain_id", "certificate", "active_validators_update", "certificate_threshold",
      "inbox_update"]
  let sender ← Json.field? fields "sending_chain_id" bytes?
  let certificate ← Json.field? fields "certificate" bytes?
  let validators ← Json.field? fields "active_validators_update" (Json.list? validator?)
  let threshold ← Json.field? fields "certificate_threshold" Json.u64?
  let inbox ← Json.field? fields "inbox_update" inboxUpdate?
  return { sender, certificate, validators, threshold, inbox }

end UpdateRequest

namespace RecoveryInitRequest

/-- The request from JSON. -/
def ofJson? (json : Json) : Option RecoveryInitRequest := do
  let fields ← json.fields? ["chain_id", "channel", "proof"]
  let chainId ← Json.field? fields "chain_id" bytes?
  let channel ← Json.field? fields "channel" bytes?
  let proof ← Json.field? fields "proof" proof?
  return { chainId, channel, proof }

end RecoveryInitRequest

namespace RecoveryRequest

/-- The request from JSON. -/
def ofJson? (json : Json) : Option RecoveryRequest := do
  let fields ← json.fields? ["chain_id", "cross_chain_messages", "idxs", "sibling_hashes"]
  let chainId ← Json.field? fields "chain_id" bytes?
  let messages ← Json.field? fields "cross_chain_messages" (Json.list? bytes?)
  let indexes ← Json.field? fields "idxs" (Json.list? Json.u64?)
  let siblings ← Json.field? fields "sibling_hashes" (Json.list? bytes?)
  return { chainId, messages, indexes, siblings }

end RecoveryRequest

namespace ExecuteRequest

/-- The request from JSON. -/
def ofJson? (json : Json) : Option ExecuteRequest :=
  match json.single? with
  | some ("register_sidechain", json) => (RegistrationRequest.ofJson? json).map .register
  | some ("submit_cross_chain_update", json) => (UpdateRequest.ofJson? json).map .update
  | some ("terminate_sidechain_for_liveness", json) => (chainId? json).map .terminateForLiveness
  | some ("initialize_message_recovery", json) =>
    (RecoveryInitRequest.ofJson? json).map .initRecovery
  | some ("recover_message", json) => (RecoveryRequest.ofJson? json).map .recover
  | _ => none

/-- The request as JSON. -/
def toJson : ExecuteRequest → Json
  | .register r =>
    .form "register_sidechain"
      [("chain_id", ofBytes r.chainId), ("name", .text r.name),
        ("sidechain_validators", .ofList ofValidator r.validators),
        ("sidechain_certificate_threshold", .ofU64 r.threshold)]
  | .update r =>
    .form "submit_cross_chain_update"
      [("sending_chain_id", ofBytes r.sender), ("certificate", ofBytes r.certificate),
        ("active_validators_update", .ofList ofValidator r.validators),
        ("certificate_threshold", .ofU64 r.threshold), ("inbox_update", ofInboxUpdate r.inbox)]
  | .terminateForLiveness chainId =>
    .form "terminate_sidechain_for_liveness" [("chain_id", ofBytes chainId)]
  | .initRecovery r =>
    .form "initialize_message_recovery"
      [("chain_id", ofBytes r.chainId), ("channel", ofBytes r.channel), ("proof", ofProof r.proof)]
  | .recover r =>
    .form "recover_message"
      [("chain_id", ofBytes r.chainId), ("cross_chain_messages", .ofList ofBytes r.messages),
        ("idxs", .ofList .ofU64 r.indexes), ("sibling_hashes", .ofList ofBytes r.siblings)]

/-- The request from text. -/
def read? (text : String) : Option ExecuteRequest := (Json.read? maxNesting text).bind ofJson?

end ExecuteRequest

/-! ## Queries -/

namespace Query

/-- The fields of a query for a page of chain accounts. -/
def page? (json : Json) : Option Query := do
  let fields ← json.fields? ["start_after", "limit"]
  let startAfter ← Json.optional? fields "start_after" bytes?
  let limit ← Json.optional? fields "limit" Json.u32?
  return .chainAccounts startAfter limit

/-- The fields of a query for a chain's liveness. -/
def isLive? (json : Json) : Option Query := do
  let fields ← json.fields? ["chain_id", "timestamp"]
  let chainId ← Json.field? fields "chain_id" bytes?
  let time ← Json.optional? fields "timestamp" Json.u64?
  return .isLive chainId time

/-- The one field of a query for a chain name. -/
def name? (json : Json) : Option String := do
  let fields ← json.fields? ["name"]
  Json.field? fields "name" Json.text?

/-- The query from JSON. -/
def ofJson? (json : Json) : Option Query :=
  match json.single? with
  | some ("config", json) => (noFields? json).map fun () => .config
  | some ("own_chain_account", json) => (noFields? json).map fun () => .ownAccount
  | some ("chain_account", json) => (chainId? json).map .chainAccount
  | some ("chain_accounts", json) => page? json
  | some ("channel", json) => (chainId? json).map .channel
  | some ("chain_validators", json) => (chainId? json).map .validators
  | some ("terminated_state_account", json) => (chainId? json).map .terminatedState
  | some ("terminated_outbox_account", json) => (chainId? json).map .terminatedOutbox
  | some ("is_chain_id_available", json) => (chainId? json).map .isChainIdAvailable
  | some ("is_chain_name_available", json) => (name? json).map .isChainNameAvailable
  | some ("is_live", json) => isLive? json
  | _ => none

/-- The query as JSON. -/
def toJson : Query → Json
  | .config => .form "config" []
  | .ownAccount => .form "own_chain_account" []
  | .chainAccount chainId => .form "chain_account" [("chain_id", ofBytes chainId)]
  | .chainAccounts startAfter limit =>
    .form "chain_accounts"
      [("start_after", .ofOption ofBytes startAfter),
        ("limit", .ofOption (fun n => .ofNat n.toNat) limit)]
  | .channel chainId => .form "channel" [("chain_id", ofBytes chainId)]
  | .validators chainId => .form "chain_validators" [("chain_id", ofBytes chainId)]
  | .terminatedState chainId => .form "terminated_state_account" [("chain_id", ofBytes chainId)]
  | .terminatedOutbox chainId => .form "terminated_outbox_account" [("chain_id", ofBytes chainId)]
  | .isChainIdAvailable chainId => .form "is_chain_id_available" [("chain_id", ofBytes chainId)]
  | .isChainNameAvailable name => .form "is_chain_name_available" [("name", .text name)]
  | .isLive chainId time =>
    .form "is_live" [("chain_id", ofBytes chainId), ("timestamp", .ofOption .ofU64 time)]

/-- The query from text. -/
def read? (text : String) : Option Query := (Json.read? maxNesting text).bind ofJson?

end Query

end ChainHub
