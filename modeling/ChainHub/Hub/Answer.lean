import ChainHub.Hub.Fields
import ChainHub.Hub.Request
import ChainHub.Hub.Termination

/-!
# Answers to queries

Model of the entry point `query` and of the functions `query_config` to `query_is_live` behind it.

* `Query.answer`: what the hub knows.
* `chainAccountsPage`: one page of the chain accounts in ascending order of their ids.
-/

namespace ChainHub

/-- The answer to a query. -/
inductive Answer
  | config (config : Config)
  | ownAccount (own : OwnAccount)
  | chainAccount (id : ChainId) (account : ChainAccount)
  | chainAccounts (page : List (ChainId × ChainAccount))
  | channel (channel : Channel)
  | validators (set : ValidatorSet)
  | terminatedState (state : TerminatedState)
  | terminatedOutbox (outbox : TerminatedOutbox)
  | available (available : Bool)
  | live (live : Bool)
deriving DecidableEq, Inhabited

/-- The number of accounts on a page when no limit is given, and the most there may be. -/
def defaultPageSize : Nat := 10

/-- The most accounts on a page. -/
def maxPageSize : Nat := 50

/-- The first accounts whose ids are above `startAfter`, at most as many as the limit allows. -/
def chainAccountsPage (s : Store) (startAfter : Option Bytes) (limit : Option UInt32) :
    List (ChainId × ChainAccount) :=
  let size := Nat.min (limit.elim defaultPageSize UInt32.toNat) maxPageSize
  let rest := s.accountList.filter fun e => startAfter.all fun start => start < e.1.toList
  rest.take size

/-- Whether a chain id can be registered. -/
def Store.isFreeChainId (s : Store) (own : OwnAccount) (id : ChainId) : Bool :=
  id.network == own.chainId.network && !id.isMainchain && (s.get (.account id)).isNone

/-- Whether a chain name can be registered. -/
def Store.isFreeChainName (s : Store) (name : String) : Bool :=
  isChainName name && (s.get (.name name)).isNone

namespace Query

/-- The chain id of a query. -/
def parseId (bytes : Bytes) : Except HostError ChainId :=
  match parseChainId bytes with
  | .ok id => .ok id
  | .error e => .error (.invalid e.message)

/-- The record of a chain; `what` says what is missing when there is none. -/
def find {α : Type} (what : String) (id : ChainId) : Option α → Except HostError α
  | some a => .ok a
  | none => .error (.notFound (what ++ " for chain " ++ id.toHex))

/-- A record that has to be stored. -/
def load {α : Type} : Option α → Except HostError α
  | some a => .ok a
  | none => .error .recordMissing

/-- What the hub answers at the given time. -/
def answer (s : Store) (now : UInt64) : Query → Except HostError Answer
  | .config => return .config (← load s.config)
  | .ownAccount => return .ownAccount (← load s.own)
  | .chainAccount chainId => do
    let id ← parseId chainId
    return .chainAccount id (← find "chain account" id (s.get (.account id)))
  | .chainAccounts startAfter limit => return .chainAccounts (chainAccountsPage s startAfter limit)
  | .channel chainId => do
    let id ← parseId chainId
    return .channel (← find "channel" id (s.get (.channel id)))
  | .validators chainId => do
    let id ← parseId chainId
    return .validators (← find "validators" id (s.get (.validators id)))
  | .terminatedState chainId => do
    let id ← parseId chainId
    return .terminatedState (← find "terminated state account" id (s.get (.terminatedState id)))
  | .terminatedOutbox chainId => do
    let id ← parseId chainId
    return .terminatedOutbox (← find "terminated outbox account" id (s.get (.terminatedOutbox id)))
  | .isChainIdAvailable chainId =>
    match parseChainId chainId with
    | .error _ => return .available false
    | .ok id => return .available (s.isFreeChainId (← load s.own) id)
  | .isChainNameAvailable name => return .available (s.isFreeChainName name)
  | .isLive chainId time => do
    let id ← parseId chainId
    let own ← load s.own
    return .live (s.isLive own.chainId id (time.getD now))

end Query

end ChainHub
