import ChainHub.Hub.Context

/-!
# Inboxes and outboxes

Model of `append_to_inbox`, `append_to_outbox`, `build_message`, `append_and_emit`, `send_internal`
and `send_notice`.

* `appendToInbox` / `appendToOutbox`: one more message on a channel.
* `sendInternal`: a message of the hub to a chain that can receive it.
* `sendNotice`: a message of the hub to a chain whatever its status, for notices that have to reach
  a chain that is being terminated.

A message of the hub takes the next nonce of the hub before it enters an outbox.
-/

namespace ChainHub

/-- What the hub wants to send (`OutgoingMessage`). -/
structure Draft where
  receiver : ChainId
  module : String
  command : String
  fee : UInt64
  status : MessageStatus
  params : Bytes
deriving DecidableEq, Inhabited

/-- The draft as a message of the hub with the hub's next nonce. -/
def Draft.message (draft : Draft) (own : OwnAccount) : Message where
  module := draft.module
  command := draft.command
  nonce := own.nonce
  fee := draft.fee
  sender := own.chainId
  receiver := draft.receiver
  params := draft.params
  status := draft.status

namespace HubM

/-- Appends an encoded message to the outbox toward a chain and gives the new root. -/
def appendToOutbox (id : ChainId) (encoded : Bytes) : HubM Digest := do
  let channel ← load (.channel id)
  match channel.outbox.append? encoded with
  | none => abort
  | some outbox =>
    save (.channel id) { channel with outbox := outbox }
    return outbox.root

/-- Appends an encoded message to the inbox from a chain and gives the new root. -/
def appendToInbox (id : ChainId) (encoded : Bytes) : HubM Digest := do
  let channel ← load (.channel id)
  match channel.inbox.append? encoded with
  | none => abort
  | some inbox =>
    save (.channel id) { channel with inbox := inbox }
    return inbox.root

/-- Puts a message into the outbox toward its receiver (`append_and_emit`). -/
def post (m : Message) : HubM Unit := do
  let _ ← appendToOutbox m.receiver m.encode
  emit (.sent m)

/-- Makes a draft a message of the hub, which uses the next nonce up (`build_message`). -/
def address (draft : Draft) : HubM Message := do
  let own ← load .own
  let m := draft.message own
  match m.checkFormat with
  | .error e => refuse (.format e)
  | .ok () =>
    if own.nonce.toNat + 1 < UInt64.size then
      save .own { own with nonce := own.nonce + 1 }
      return m
    else abort

/-- Sends a message of the hub without regard to the status of its receiver. -/
def sendNotice (draft : Draft) : HubM Message := do
  let m ← address draft
  post m
  return m

/-- Sends a message of the hub. A chain that is not active yet takes nothing but the handshake, and
a terminated one takes nothing. -/
def sendInternal (draft : Draft) : HubM Message := do
  match ← get? (.account draft.receiver) with
  | none => refuse (.chainNotFound draft.receiver)
  | some account =>
    match account.status with
    | .terminated => refuse (.chainTerminated draft.receiver)
    | .registered =>
      if draft.command = registrationCommand then sendNotice draft
      else refuse (.chainNotActive draft.receiver)
    | .active => sendNotice draft

end HubM

end ChainHub
