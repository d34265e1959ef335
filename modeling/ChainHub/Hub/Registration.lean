import ChainHub.Hub.Fields
import ChainHub.Hub.Outbox
import ChainHub.Hub.Request
import ChainHub.Hub.Transaction

/-!
# Registration of sidechains

Model of `verify_sidechain_registration`, `registration_payment` and the handler
`execute_register_sidechain`.

A new chain gets an account, an empty channel and its validators, and the handshake waits in its
outbox. It becomes active with its first accepted certificate. What is paid goes to the fee
collector in full.

Out of scope: the transfer of the payment, which the host chain makes (`BankMsg`). The answer names
it.
-/

namespace ChainHub.Registration

/-- The sum of the coins of one denomination (`registration_payment`). -/
def payment (funds : List Coin) (denom : String) : Attempt HubError Amount :=
  .ofOption (Amount.sum? ((funds.filter fun coin => coin.denom == denom).map (·.amount)))

/-- Checks that a chain id can be registered. -/
def verifyChainId (s : Store) (own : OwnAccount) (id : ChainId) : Except HubError Unit := do
  if id.network ≠ own.chainId.network then throw (.chainId .otherNetwork)
  if id.isMainchain then throw (.chainId .sidechainIsMainchain)
  if (s.get (.account id)).isSome then throw (.chainIdTaken id)

/-- Checks that a chain name can be registered. -/
def verifyName (s : Store) (name : String) : Except HubError Unit := do
  unless isChainName name do throw (.chainName name)
  if (s.get (.name name)).isSome then throw (.chainNameTaken name)

/-- Checks that the fee is paid, and in no other denomination. -/
def verifyFunds (fee : Coin) (funds : List Coin) : Attempt HubError Unit := do
  match funds.find? fun coin => coin.denom ≠ fee.denom with
  | some coin => .refuse (.unexpectedFunds coin.denom fee.denom)
  | none =>
    let paid ← payment funds fee.denom
    if paid.val < fee.amount.val then .refuse (.insufficientFee fee.amount paid)

/-- Checks a registration and gives the chain id (`verify_sidechain_registration`). -/
def verify (s : Store) (config : Config) (funds : List Coin) (request : RegistrationRequest) :
    Attempt HubError ChainId := do
  let id ← Attempt.lift (parseChainId request.chainId)
  let own ← Attempt.require (.host .recordMissing) s.own
  Attempt.lift (verifyChainId s own id)
  Attempt.lift (verifyName s request.name)
  Attempt.ofExcept .validatorSet (ValidatorSet.check ⟨request.validators, request.threshold⟩)
  verifyFunds config.registrationFee funds
  return id

/-- The handshake of the hub. -/
def handshake (config : Config) (id : ChainId) (name : String) : Draft where
  receiver := id
  module := interoperabilityModule
  command := registrationCommand
  fee := 0
  status := .ok
  params := Wire.encode (RegistrationParams.mk name id config.feeToken config.minFeePerByte)

/-- The account of a chain at its registration. -/
def account (name : String) (set : ValidatorSet) (now : UInt64) : ChainAccount where
  name := name
  status := .registered
  last := { height := 0, timestamp := now, stateRoot := emptyRoot, validatorsHash := set.hash }

/-- What is paid on to the fee collector. -/
def payments (config : Config) (paid : Amount) : List Payment :=
  if paid.val = 0 then []
  else [⟨config.feeCollector, [⟨config.registrationFee.denom, paid⟩]⟩]

/-- Registers a sidechain (`execute_register_sidechain`). -/
def execute (header : BlockHeader) (funds : List Coin) (request : RegistrationRequest) :
    StoreM Response := do
  let config ← StoreM.load .config
  let id ← StoreM.ofAttempt (verify (← get) config funds request)
  let set : ValidatorSet := ⟨request.validators, request.threshold⟩
  StoreM.save (.account id) (account request.name set header.time)
  StoreM.save (.channel id) (.fresh config.feeToken config.minFeePerByte)
  StoreM.save (.validators id) set
  StoreM.save (.name request.name) id
  StoreM.save (.escrow ⟨id, config.feeToken⟩) Amount.zero
  let (message, events) ← StoreM.withContext header do
    HubM.emit (.accountUpdated id .registered)
    HubM.sendInternal (handshake config id request.name)
  let paid ← StoreM.ofAttempt (payment funds config.registrationFee.denom)
  return {
    attributes :=
      [("method", "register_sidechain"), ("chain_id", id.toHex), ("name", request.name),
        ("registration_nonce", toString message.nonce.toNat)]
    events := events
    payments := payments config paid }

end ChainHub.Registration
