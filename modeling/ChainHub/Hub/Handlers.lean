import ChainHub.Hub.Recovery
import ChainHub.Hub.Registration
import ChainHub.Hub.Staleness
import ChainHub.Hub.Update
import ChainHub.Text.Cased
import ChainHub.Text.Utf8

/-!
# The requests that change the hub

Model of the entry points `instantiate`, `execute` and `migrate`.

* `Hub.instantiate`: sets the hub up, or sets it up anew.
* `Hub.execute`: carries out a request with the modules of a registry.
* `Hub.migrate`: records the version of the program.

Out of scope: the sender of a request, which no handler reads. The check of an address
(`addr_validate`) belongs to the host chain; `checkAddress` is that of its test host (`MockApi`).
-/

namespace ChainHub.Hub

/-- The name and version of this program, as recorded in the store. -/
def version : Version := ⟨"crates.io:interop", "0.1.0"⟩

/-- Why a text is no account address of the host chain. -/
inductive AddressFault
  | tooShort
  | tooLong
  /-- The canonical form ends inside a character. -/
  | cutCharacter
  | notNormalized
deriving DecidableEq, Inhabited

/-- The fault as an error of the host chain. -/
def AddressFault.toHostError : AddressFault → HostError
  | .tooShort =>
    .invalid "Invalid input: human address too short for this mock implementation (must be >= 3)."
  | .tooLong =>
    .invalid "Invalid input: human address too long for this mock implementation (must be <= 90)."
  | .cutCharacter => .notUtf8
  | .notNormalized => .invalid "Invalid input: address not normalized"

/-- The most bytes that an address has. -/
def addressLimit : Nat := 90

/-- The canonical form of an address: in lower case, cut to the bytes that there is room for, and
without zero bytes. -/
def canonicalAddress (text : String) : Bytes :=
  ((Utf8.encode (Cased.lowerText text)).take addressLimit).filter fun b => b ≠ 0

/-- An address has 3 to 90 bytes and is its own canonical form. -/
def checkAddress (text : String) : Except AddressFault Unit := do
  if text.utf8ByteSize < 3 then throw .tooShort
  if addressLimit < text.utf8ByteSize then throw .tooLong
  match Utf8.decode (canonicalAddress text) with
  | .error _ => throw .cutCharacter
  | .ok canonical => if canonical ≠ text then throw .notNormalized

/-- Checks what a hub is set up with. -/
def verifyInstantiate (request : InstantiateRequest) : Except HubError (ChainId × Config) := do
  let id ← parseChainId request.ownChainId
  unless id.isMainchain do throw (.chainId .hubNotMainchain)
  unless isChainName request.ownName do throw (.chainName request.ownName)
  match checkAddress request.feeCollector with
  | .error fault => throw (.host fault.toHostError)
  | .ok () =>
    let feeToken ← parseTokenId request.feeToken
    return (id, {
      feeCollector := request.feeCollector
      registrationFee := request.registrationFee
      feeToken := feeToken
      minFeePerByte := request.minFeePerByte })

/-- Sets the hub up. Its own name is taken from then on. -/
def instantiate (request : InstantiateRequest) : StoreM Response := do
  StoreM.save .version version
  let (id, config) ← StoreM.ofAttempt (Attempt.lift (verifyInstantiate request))
  StoreM.save .config config
  StoreM.save .own { chainId := id, name := request.ownName, nonce := 0 }
  StoreM.save (.name request.ownName) id
  return {
    attributes :=
      [("method", "instantiate"), ("own_chain_id", id.toHex), ("own_name", request.ownName),
        ("fee_collector", config.feeCollector),
        ("registration_fee", config.registrationFee.text)] }

/-- Carries out a request that comes with the given coins. -/
def execute (r : Registry) (header : BlockHeader) (funds : List Coin) :
    ExecuteRequest → StoreM Response
  | .register request => Registration.execute header funds request
  | .update request => Update.execute r header request
  | .terminateForLiveness chainId => Staleness.execute header chainId
  | .initRecovery request => Recovery.start request
  | .recover request => Recovery.execute r header request

/-- Records the version of the program. -/
def migrate : StoreM Response := do
  StoreM.save .version version
  return { attributes := [("action", "migrate"), ("version", version.version)] }

end ChainHub.Hub
