import ChainHub.Hub.Outbox

/-!
# Termination

Model of `terminate_chain`, and of `is_live` for the records of a store.

A chain is terminated once and for all. It is told so through its outbox, its account is marked, and
its last certified state root is frozen, so that messages it never received can be recovered.
-/

namespace ChainHub

/-- The notice that a channel is closed. -/
def channelTerminatedDraft (id : ChainId) : Draft where
  receiver := id
  module := interoperabilityModule
  command := channelTerminatedCommand
  fee := 0
  status := .ok
  params := []

/-- The notice to the sender of a message that its receiver is terminated. -/
def sidechainTerminatedDraft (receiver terminated : ChainId) (stateRoot : Digest) : Draft where
  receiver := receiver
  module := interoperabilityModule
  command := sidechainTerminatedCommand
  fee := 0
  status := .ok
  params := Wire.encode (SidechainTerminatedParams.mk terminated stateRoot)

namespace HubM

/-- Terminates a chain; nothing happens if it is terminated already. -/
def terminateChain (id : ChainId) : HubM Unit := do
  match ← get? (.account id) with
  | none => refuse (.chainNotFound id)
  | some account =>
    if account.status = .terminated then return
    if (← get? (.channel id)).isSome then
      let _ ← sendNotice (channelTerminatedDraft id)
    save (.account id) { account with status := .terminated }
    save (.terminatedState id) {
      stateRoot := account.last.stateRoot
      mainchainStateRoot := FixedBytes.zero 32
      initialized := true }
    emit (.accountUpdated id .terminated)
    emit (.terminatedStateCreated id account.last.stateRoot)

end HubM

namespace Store

/-- Whether a chain can exchange messages. The own chain always can; only a hub knows about any
other chain. -/
def isLive (s : Store) (own id : ChainId) (now : UInt64) : Bool :=
  if id = own then true
  else if !own.isMainchain then false
  else
    match s.get (.account id) with
    | some account => account.isLive now
    | none => false

end Store

end ChainHub
