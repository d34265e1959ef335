import ChainHub.Hub.Fields
import ChainHub.Hub.Termination
import ChainHub.Hub.Transaction

/-!
# Termination of stale chains

Model of `verify_liveness_termination` and `execute_terminate_sidechain_for_liveness`.

Anyone may terminate a sidechain that has not certified anything within the liveness limit.
-/

namespace ChainHub.Staleness

/-- Checks that a chain may be terminated and gives its id. -/
def verify (s : Store) (now : UInt64) (chainId : Bytes) : Except HubError ChainId := do
  let id ← parseChainId chainId
  match s.own with
  | none => throw (.host .recordMissing)
  | some own =>
    if id = own.chainId then throw (.chainId .hubTerminated)
    match s.get (.account id) with
    | none => throw (.chainNotFound id)
    | some account =>
      if account.status = .terminated then throw (.chainTerminated id)
      unless account.isStale now do throw (.chainStillLive id)
      return id

/-- Terminates a stale chain. -/
def execute (header : BlockHeader) (chainId : Bytes) : StoreM Response := do
  let id ← StoreM.ofAttempt (Attempt.lift (verify (← get) header.time chainId))
  let ((), events) ← StoreM.withContext header (HubM.terminateChain id)
  return {
    attributes := [("method", "terminate_sidechain_for_liveness"), ("chain_id", id.toHex)]
    events := events }

end ChainHub.Staleness
