import ChainHub.Hub.Termination

/-!
# Modules and commands

Model of `CrossChainCommand`, `InteroperableModule`, `CommandRegistry` and of the hub's own
`InteroperabilityModule` with `RegistrationCommand` and `ChannelTerminatedCommand`.

A module serves commands and may have hooks that run around every message, whichever module the
message is for. Hooks run in the order in which the modules were registered.

* `Command`, `Module`: what is served.
* `Registry`: the modules of a hub and their commands, looked up by both names.
* `Registry.interoperability`: the module by which chains manage their channels, the only one that a
  hub always has.

Out of scope: modules of other kinds than the hub's own. A `Module` is any record of functions of
the right types, so a statement about every registry speaks about them, too.
-/

namespace ChainHub

/-- Serves one kind of message. -/
structure Command where
  name : String
  /-- Checks a message without changing anything. -/
  verify : Context → Message → Except HubError Unit := fun _ _ => .ok ()
  /-- Carries a message out. -/
  execute : Message → HubM Unit

/-- Serves the messages that name it. -/
structure Module where
  name : String
  commands : List Command := []
  /-- Checks every message that is applied on the hub; a refusal terminates the sender. -/
  verify : Context → Message → Except HubError Unit := fun _ _ => .ok ()
  /-- Runs before the command of a message; a refusal terminates the sender. -/
  beforeExecute : Message → HubM Unit := fun _ => pure ()
  /-- Runs after the command of a message; a refusal terminates the sender. -/
  afterExecute : Message → HubM Unit := fun _ => pure ()
  /-- Runs before a message is forwarded; a refusal sends the message back. -/
  beforeForward : Message → HubM Unit := fun _ => pure ()
  /-- Runs before a recovered message is delivered; a refusal discards the message. -/
  beforeRecover : Message → HubM Unit := fun _ => pure ()

/-- The names of a module and of one of its commands. -/
structure ServiceName where
  module : String
  command : String
deriving DecidableEq, Inhabited

namespace ServiceName

/-- Ordered by module and then by command. -/
instance : Ord ServiceName := ⟨compareLex (compareOn module) (compareOn command)⟩

instance : Std.TransOrd ServiceName :=
  inferInstanceAs (Std.TransCmp
    (compareLex (compareOn ServiceName.module) (compareOn ServiceName.command)))

instance : Std.LawfulEqOrd ServiceName where
  compare_self {a} := by
    have h : (compare a.module a.module).then (compare a.command a.command) = .eq := by simp
    exact h
  eq_of_compare {a b} h := by
    have h' : (compare a.module b.module).then (compare a.command b.command) = .eq := h
    rw [Ordering.then_eq_eq] at h'
    have h₁ := Std.LawfulEqCmp.eq_of_compare h'.1
    have h₂ := Std.LawfulEqCmp.eq_of_compare h'.2
    cases a
    cases b
    simp_all

end ServiceName

/-- The modules of a hub in order of registration, and their commands. -/
structure Registry where
  modules : List Module
  commands : Table ServiceName Command

namespace Registry

/-- The registry without modules. -/
def empty : Registry := ⟨[], ∅⟩

/-- Whether a module of that name is registered. -/
def hasModule (r : Registry) (name : String) : Bool := r.modules.any fun m => m.name == name

/-- The command of that name of the module of that name. -/
def command? (r : Registry) (module command : String) : Option Command :=
  r.commands[ServiceName.mk module command]?

/-- A module added at the end; of two commands with one name it serves the last one. -/
def insert (r : Registry) (m : Module) : Registry where
  modules := r.modules ++ [m]
  commands := m.commands.foldl (fun t c => t.insert ⟨m.name, c.name⟩ c) r.commands

/-- A module added at the end, unless one of that name is registered. -/
def register (r : Registry) (m : Module) : Except HubError Registry :=
  if r.hasModule m.name then .error (.moduleRegistered m.name) else .ok (r.insert m)

/-- Several modules added in order, up to the first that is refused. -/
def registerAll (r : Registry) (modules : List Module) : Except HubError Registry :=
  modules.foldlM register r

end Registry

/-! ## The interoperability module -/

/-- The handshake of a chain. It has to be the first message of the chain and has to name the hub
and the fee token of the channel; any other handshake terminates its sender. Parameters that do not
decode already fail the check, so such a message is discarded and its sender stays as it is. -/
def registration : Command where
  name := registrationCommand
  verify _ m :=
    match (Wire.decode m.params : Except WireError RegistrationParams) with
    | .ok _ => .ok ()
    | .error e => .error (.wire e)
  execute m := do
    match (Wire.decode m.params : Except WireError RegistrationParams) with
    | .error e => HubM.refuse (.wire e)
    | .ok params =>
      let own ← HubM.load .own
      let channel ← HubM.load (.channel m.sender)
      let valid :=
        m.status = .ok ∧ params.chainId = own.chainId ∧ params.name = own.name
          ∧ params.feeToken = channel.feeToken ∧ channel.inbox.size = 1
      unless valid do HubM.terminateChain m.sender

/-- The sender has closed the channel from its side. -/
def channelTerminated : Command where
  name := channelTerminatedCommand
  execute m := HubM.terminateChain m.sender

/-- The module by which chains manage their channels. -/
def interoperability : Module where
  name := interoperabilityModule
  commands := [registration, channelTerminated]

/-- The registry of a hub without further modules. -/
def Registry.default : Registry := Registry.empty.insert interoperability

end ChainHub
