import ChainHub.Hub.Registry

/-!
# Tracing modules

A tracing module serves any commands and leaves a trace at every point where the hub calls it: the
nonce of the message in a cell of its own, and an event. It refuses where it is told to, either by
its description or by the first byte of a message's parameters, so that every way through the
delivery of a message can be driven and watched.

* `TracingModule`: the description.
* `TracingModule.toModule`: the module.
-/

namespace ChainHub

/-- Where the hub calls a module around the commands of all modules. -/
inductive HookPoint
  | verify
  | beforeExecute
  | afterExecute
  | beforeForward
  | beforeRecover
deriving DecidableEq, Inhabited

namespace HookPoint

/-- The word for a point in traces. -/
def word : HookPoint → String
  | .verify => "verify"
  | .beforeExecute => "before"
  | .afterExecute => "after"
  | .beforeForward => "forward"
  | .beforeRecover => "recover"

/-- The point that a word stands for. -/
def ofWord? (word : String) : Option HookPoint :=
  [verify, beforeExecute, afterExecute, beforeForward, beforeRecover].find? fun p => p.word = word

end HookPoint

/-- A module that leaves traces. -/
structure TracingModule where
  name : String
  commands : List String
  /-- The points at which it refuses every message. -/
  refusals : List HookPoint
deriving DecidableEq, Inhabited

namespace TracingModule

/-- A refusal in the words of a module. -/
def refusal (text : String) : HubError := .host (.invalid text)

/-- The cell in which the last trace of a point is kept. -/
def cell (t : TracingModule) (point : String) : String := "test/" ++ t.name ++ "/" ++ point

/-- Leaves a trace of a message. -/
def trace (t : TracingModule) (point : String) (m : Message) : HubM Unit := do
  HubM.setCell (t.cell point) (bigEndian 8 m.nonce.toNat)
  HubM.emit (.custom "test_trace"
    [("module", t.name), ("point", point), ("nonce", toString m.nonce.toNat)])

/-- Refuses at the points that are listed. -/
def refuseListed (t : TracingModule) (point : HookPoint) : Except HubError Unit :=
  if t.refusals.contains point then .error (refusal "hook failed") else .ok ()

/-- A hook that leaves a trace, whether or not it refuses. -/
def hook (t : TracingModule) (point : HookPoint) (m : Message) : HubM Unit := do
  t.trace point.word m
  HubM.ofAttempt (Attempt.lift (t.refuseListed point))

/-- The hook of recovery, which also refuses parameters that begin with `fc`. -/
def recoverHook (t : TracingModule) (m : Message) : HubM Unit := do
  t.trace HookPoint.beforeRecover.word m
  if m.params.head? = some 0xfc then HubM.refuse (refusal "recovery rejected")
  HubM.ofAttempt (Attempt.lift (t.refuseListed .beforeRecover))

/-- A command that refuses parameters that begin with `fe` when it checks and with `ff` when it is
carried out, and that terminates the sender when they begin with `fd`. -/
def command (t : TracingModule) (name : String) : Command where
  name := name
  verify _ m :=
    if m.params.head? = some 0xfe then .error (refusal "command verify failed") else .ok ()
  execute m := do
    t.trace ("execute:" ++ name) m
    if m.params.head? = some 0xff then HubM.refuse (refusal "command execute failed")
    if m.params.head? = some 0xfd then HubM.terminateChain m.sender

/-- The module that is described. -/
def toModule (t : TracingModule) : Module where
  name := t.name
  commands := t.commands.map t.command
  verify _ _ := t.refuseListed .verify
  beforeExecute := t.hook .beforeExecute
  afterExecute := t.hook .afterExecute
  beforeForward := t.hook .beforeForward
  beforeRecover := t.recoverHook

end TracingModule

end ChainHub
