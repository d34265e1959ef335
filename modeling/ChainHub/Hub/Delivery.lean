import ChainHub.Hub.Registry

/-!
# Delivery of inbound messages

Model of `apply_ccm`, `forward_ccm` and `bounce_ccm`.

A message for the hub is applied by the command that it names. Any other message is forwarded to the
outbox of its receiver, or bounced to its sender when the receiver cannot take it. Nothing that is
wrong with a message refuses the transaction; what became of it is reported by an event.

* `applyMessage`: the steps are the modules' checks, the command's check, the hooks before the
  command, the command, and the hooks after it. A failing module hook leaves no trace of the message
  but terminates its sender; a failing command leaves the traces of the hooks only.
* `forwardMessage`: a receiver found to be stale is terminated on the way.
* `bounceMessage`: a message that is itself on its way back is not sent back again.

Out of scope: what modules other than the hub's own do in their hooks and commands. The functions
here take any `Registry`.
-/

namespace ChainHub.HubM

/-- Discards a message for the given reason (`discard`). -/
def discard (m : Message) (code : ProcessedCode) : HubM Disposition := do
  emit (.processed m .discarded code)
  return .discarded

/-- Terminates the sender of a message and discards the message (`reject_sender`). -/
def rejectSender (m : Message) (code : ProcessedCode) : HubM Disposition := do
  terminateChain m.sender
  discard m code

/-- Whether a check is refused. -/
def isRefused : Except HubError Unit → Bool
  | .ok () => false
  | .error _ => true

/-- Carries out a command between the hooks of all modules: `apply_ccm` from its first snapshot
on. -/
def runCommand (r : Registry) (command : Command) (m : Message) : HubM Disposition := do
  let start ← snapshot
  unless ← allSucceed (r.modules.map fun mod => mod.beforeExecute m) do
    restore start
    return ← rejectSender m .beforeHookFailed
  let beforeCommand ← snapshot
  let executed ← succeeds (command.execute m)
  unless executed do restore beforeCommand
  unless ← allSucceed (r.modules.map fun mod => mod.afterExecute m) do
    restore start
    return ← rejectSender m .afterHookFailed
  if executed then
    emit (.processed m .applied .success)
    return .applied
  else discard m .failed

/-- Applies a message that is for the hub (`apply_ccm`). -/
def applyMessage (r : Registry) (m : Message) : HubM Disposition := do
  if !r.hasModule m.module then discard m .moduleNotSupported
  else
    match r.command? m.module m.command with
    | none => discard m .commandNotSupported
    | some command =>
      let c ← get
      if r.modules.any fun mod => isRefused (mod.verify c m) then
        rejectSender m .verifyHookFailed
      else if isRefused (command.verify c m) then discard m .failed
      else runCommand r command m

/-- Sends a message back to its sender (`bounce_ccm`). -/
def bounceMessage (m : Message) (status : MessageStatus) (code : ProcessedCode) :
    HubM Disposition := do
  if m.status ≠ .ok then discard m code
  else
    post (m.bounced status)
    emit (.processed m .bounced code)
    return .bounced

/-- Sends a message back because its receiver cannot take it. -/
def bounceUnavailable (m : Message) : HubM Disposition :=
  bounceMessage m .channelUnavailable .channelUnavailable

/-- Puts a message into the outbox of a receiver that can take it: `forward_ccm` from its snapshot
on. -/
def passOn (r : Registry) (m : Message) : HubM Disposition := do
  let start ← snapshot
  if ← allSucceed (r.modules.map fun mod => mod.beforeForward m) then
    post m
    emit (.processed m .forwarded .success)
    return .forwarded
  else
    restore start
    bounceMessage m .failed .failed

/-- Terminates the stale receiver of a message and tells the sender. -/
def terminateReceiver (m : Message) (receiver : ChainAccount) : HubM Unit := do
  terminateChain m.receiver
  let _ ← sendInternal (sidechainTerminatedDraft m.sender m.receiver receiver.last.stateRoot)

/-- Forwards a message that is for another chain (`forward_ccm`). -/
def forwardMessage (r : Registry) (m : Message) : HubM Disposition := do
  match ← get? (.account m.receiver) with
  | none => bounceUnavailable m
  | some receiver =>
    let now := (← get).now
    if !receiver.isLive now then
      if receiver.isStale now then terminateReceiver m receiver
      bounceUnavailable m
    else if receiver.status = .registered then bounceUnavailable m
    else passOn r m

/-- Delivers a message: to the hub itself or onward. -/
def deliver (r : Registry) (m : Message) : HubM Disposition := do
  if m.receiver = (← get).ownChain then applyMessage r m else forwardMessage r m

end ChainHub.HubM
