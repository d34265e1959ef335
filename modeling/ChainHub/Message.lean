import ChainHub.Chain
import ChainHub.Hash.Node
import ChainHub.Wire
import ChainHub.Text.Quoted

/-!
# Cross-chain messages

Model of `CrossChainMessage`, `CcmStatus`, `FormatError`, `validate_format`, `recovered_message` and
the parameters of the messages that hubs and chains send about themselves.

A message names a module and a command of its receiving chain and carries parameters for it. Its
status says whether it is on its way or on its way back.

* `Message`: a message, with its wire format and its id.
* `Message.checkFormat`: the limits that every message on a channel keeps.
* `RegistrationParams`, `SidechainTerminatedParams`: the parameters of the hub's own messages.
-/

namespace ChainHub

/-- The delivery status that a message carries. -/
inductive MessageStatus
  | ok
  | moduleNotSupported
  | commandNotSupported
  | channelUnavailable
  | recovered
  | failed
deriving DecidableEq, Inhabited

namespace MessageStatus

/-- The number of a status. -/
def code : MessageStatus → UInt32
  | .ok => 0
  | .moduleNotSupported => 1
  | .commandNotSupported => 2
  | .channelUnavailable => 3
  | .recovered => 4
  | .failed => 5

/-- The status with the given number. -/
def ofCode? (code : UInt32) : Option MessageStatus :=
  if code = 0 then some .ok
  else if code = 1 then some .moduleNotSupported
  else if code = 2 then some .commandNotSupported
  else if code = 3 then some .channelUnavailable
  else if code = 4 then some .recovered
  else if code = 5 then some .failed
  else none

theorem ofCode?_code (s : MessageStatus) : ofCode? s.code = some s := by
  cases s <;> rfl

theorem code_of_ofCode? {code : UInt32} {s : MessageStatus} (h : ofCode? code = some s) :
    s.code = code := by
  unfold ofCode? at h
  repeat' split at h
  all_goals cases h
  all_goals
    subst_vars
    rfl

/-- A status is written as its number. -/
instance : Wire MessageStatus where
  encode s := Wire.encode s.code
  read := do
    let code : UInt32 ← Wire.read
    match ofCode? code with
    | some s => return s
    | none => throw (.unknownStatus code)

end MessageStatus

/-- A message from one chain to another. -/
structure Message where
  /-- The module of the receiving chain that serves the message. -/
  module : String
  /-- The command of that module. -/
  command : String
  /-- The number of the message among those its sender has sent. -/
  nonce : UInt64
  fee : UInt64
  sender : ChainId
  receiver : ChainId
  params : Bytes
  status : MessageStatus
deriving DecidableEq, Inhabited

/-- The limit on the length of an encoded message. -/
def maxMessageSize : Nat := 10240

/-- The limit on the length of a module or command name. -/
def maxNameLength : Nat := 32

/-- Why a message may not be on a channel. -/
inductive FormatError
  | invalidModuleName (name : String)
  | invalidCommandName (name : String)
  | tooLarge (size : Nat)
  | sameChains
deriving DecidableEq, Inhabited

/-- The wording of the error. -/
def FormatError.message : FormatError → String
  | .invalidModuleName name => "Invalid module name: " ++ Quoted.encode name
  | .invalidCommandName name => "Invalid cross-chain command name: " ++ Quoted.encode name
  | .tooLarge size => s!"Cross-chain message is {size} bytes, limit is {maxMessageSize}"
  | .sameChains => "Sending and receiving chain are the same"

/-- Names of modules and commands are made of 1 to 32 letters and digits of ASCII. -/
def isServiceName (name : String) : Bool :=
  !name.isEmpty && name.utf8ByteSize ≤ maxNameLength && name.toList.all Char.isAlphanum

namespace Message

instance : Wire Message where
  encode m :=
    Wire.encode m.module ++ Wire.encode m.command ++ Wire.encode m.nonce ++ Wire.encode m.fee
      ++ Wire.encode m.sender ++ Wire.encode m.receiver ++ Wire.encode m.params
      ++ Wire.encode m.status
  read := do
    let module ← Wire.read
    let command ← Wire.read
    let nonce ← Wire.read
    let fee ← Wire.read
    let sender ← Wire.read
    let receiver ← Wire.read
    let params ← Wire.read
    let status ← Wire.read
    return { module, command, nonce, fee, sender, receiver, params, status }

/-- The encoded message. -/
def encode (m : Message) : Bytes := Wire.encode m

/-- The hash of the encoded message. -/
def id (m : Message) : Digest := keccak256 m.encode

/-- Checks the names, the size and that the two chains differ, in this order (`validate_format`). -/
def checkFormat (m : Message) : Except FormatError Unit := do
  unless isServiceName m.module do throw (.invalidModuleName m.module)
  unless isServiceName m.command do throw (.invalidCommandName m.command)
  let size := m.encode.length
  if maxMessageSize < size then throw (.tooLarge size)
  if m.sender = m.receiver then throw .sameChains

/-- The message on its way back to its sender, with the given status and no fee (`bounce_ccm`). -/
def bounced (m : Message) (status : MessageStatus) : Message :=
  { m with sender := m.receiver, receiver := m.sender, fee := 0, status := status }

/-- The message on its way back to its sender after the receiving chain was terminated
(`recovered_message`). -/
def recovered (m : Message) : Message :=
  { m with sender := m.receiver, receiver := m.sender, status := .recovered }

end Message

/-! ## Messages of the hub itself -/

/-- The module that serves the messages by which chains manage their channels. -/
def interoperabilityModule : String := "interoperability"

/-- The handshake by which a chain opens its channel. -/
def registrationCommand : String := "registration"

/-- Tells a chain that its channel is closed. -/
def channelTerminatedCommand : String := "channelTerminated"

/-- Tells a chain that the chain its message was for is terminated. -/
def sidechainTerminatedCommand : String := "sidechainTerminated"

/-- The parameters of the handshake. -/
structure RegistrationParams where
  name : String
  chainId : ChainId
  feeToken : TokenId
  minFeePerByte : UInt64
deriving DecidableEq, Inhabited

instance : Wire RegistrationParams where
  encode p :=
    Wire.encode p.name ++ Wire.encode p.chainId ++ Wire.encode p.feeToken
      ++ Wire.encode p.minFeePerByte
  read := do
    let name ← Wire.read
    let chainId ← Wire.read
    let feeToken ← Wire.read
    let minFeePerByte ← Wire.read
    return { name, chainId, feeToken, minFeePerByte }

/-- The parameters of the notice that a chain is terminated. -/
structure SidechainTerminatedParams where
  chainId : ChainId
  stateRoot : Digest
deriving DecidableEq, Inhabited

instance : Wire SidechainTerminatedParams where
  encode p := Wire.encode p.chainId ++ Wire.encode p.stateRoot
  read := do
    let chainId ← Wire.read
    let stateRoot ← Wire.read
    return { chainId, stateRoot }

end ChainHub
