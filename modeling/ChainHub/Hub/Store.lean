import ChainHub.Account
import ChainHub.Certificate
import ChainHub.Channel
import ChainHub.Coin
import ChainHub.Hub.Error

/-!
# The store of the hub

Model of the records `Config`, `OwnChainAccount`, `ChainValidators`, `TerminatedStateAccount`,
`TerminatedOutboxAccount` and of the maps that hold them, from `CONFIG` to
`TERMINATED_OUTBOX_ACCOUNTS`.

* `Store`: all records of the hub, one table for each kind.
* `Slot`: names a place in the store; `Slot.Value` is the type of the record kept there.
* `Store.get` / `Store.put`: read and write any place.

Modules other than the hub's own keep their data in cells, under keys of their choice.

Out of scope: the byte strings under which the maps keep their records, and the records as bytes. So
the key of a cell never meets a key of a map here.
-/

namespace ChainHub

/-- The settings of the hub. -/
structure Config where
  /-- Receives the registration fees. -/
  feeCollector : String
  /-- What a registration costs. -/
  registrationFee : Coin
  /-- The token of message fees on new channels. -/
  feeToken : TokenId
  minFeePerByte : UInt64
deriving DecidableEq, Inhabited

/-- The hub's own identity. -/
structure OwnAccount where
  chainId : ChainId
  name : String
  /-- The number of the next message that the hub sends. -/
  nonce : UInt64
deriving DecidableEq, Inhabited

/-- The frozen state of a terminated chain. -/
structure TerminatedState where
  /-- The last certified state root of the chain. -/
  stateRoot : Digest
  /-- The state root of the hub the record was made from, zero when the hub made it itself. -/
  mainchainStateRoot : Digest
  initialized : Bool
deriving DecidableEq, Inhabited

/-- The hub's outbox toward a terminated chain, as far as recovery needs it. -/
structure TerminatedOutbox where
  /-- The root, in which recovered messages are replaced by their recovered form. -/
  root : Digest
  size : UInt64
  /-- How many of the messages the chain had received. -/
  partnerInboxSize : UInt64
deriving DecidableEq, Inhabited

/-- The name and version of the program that wrote the store. -/
structure Version where
  name : String
  version : String
deriving DecidableEq, Inhabited

/-- A token of a chain, as the key of an escrow. -/
structure EscrowId where
  chain : ChainId
  token : TokenId
deriving DecidableEq, Inhabited

namespace EscrowId

/-- Escrows are ordered by chain and then by token. -/
instance : Ord EscrowId := ⟨compareLex (compareOn chain) (compareOn token)⟩

instance : Std.TransOrd EscrowId :=
  inferInstanceAs (Std.TransCmp (compareLex (compareOn EscrowId.chain) (compareOn EscrowId.token)))

instance : Std.LawfulEqOrd EscrowId where
  compare_self {a} := by
    have h : (compare a.chain a.chain).then (compare a.token a.token) = .eq := by simp
    exact h
  eq_of_compare {a b} h := by
    have h' : (compare a.chain b.chain).then (compare a.token b.token) = .eq := h
    rw [Ordering.then_eq_eq] at h'
    have h₁ := Std.LawfulEqCmp.eq_of_compare h'.1
    have h₂ := Std.LawfulEqCmp.eq_of_compare h'.2
    cases a
    cases b
    simp_all

end EscrowId

/-- Records of one kind by their keys. -/
abbrev Table (κ ν : Type) [Ord κ] := Std.ExtTreeMap κ ν

/-- A place in the store. -/
inductive Slot
  | version
  | config
  | own
  | account (id : ChainId)
  | channel (id : ChainId)
  | validators (id : ChainId)
  | name (name : String)
  | escrow (id : EscrowId)
  | terminatedState (id : ChainId)
  | terminatedOutbox (id : ChainId)
  | cell (key : String)
deriving DecidableEq

/-- The type of the record in a place. -/
abbrev Slot.Value : Slot → Type
  | .version => Version
  | .config => Config
  | .own => OwnAccount
  | .account _ => ChainAccount
  | .channel _ => Channel
  | .validators _ => ValidatorSet
  | .name _ => ChainId
  | .escrow _ => Amount
  | .terminatedState _ => TerminatedState
  | .terminatedOutbox _ => TerminatedOutbox
  | .cell _ => Bytes

/-- All records of the hub. -/
structure Store where
  version : Option Version := none
  config : Option Config := none
  own : Option OwnAccount := none
  accounts : Table ChainId ChainAccount := ∅
  channels : Table ChainId Channel := ∅
  validators : Table ChainId ValidatorSet := ∅
  names : Table String ChainId := ∅
  escrows : Table EscrowId Amount := ∅
  terminatedStates : Table ChainId TerminatedState := ∅
  terminatedOutboxes : Table ChainId TerminatedOutbox := ∅
  cells : Table String Bytes := ∅

namespace Store

/-- The store without records. -/
def empty : Store := {}

instance : Inhabited Store := ⟨empty⟩

/-- A table with the record under `key` written, or removed when there is none to write. -/
def putIn {κ ν : Type} [Ord κ] [Std.TransOrd κ] (table : Table κ ν) (key : κ) :
    Option ν → Table κ ν
  | some value => table.insert key value
  | none => table.erase key

/-- The record in a place. -/
def get (s : Store) : (slot : Slot) → Option slot.Value
  | .version => s.version
  | .config => s.config
  | .own => s.own
  | .account id => s.accounts[id]?
  | .channel id => s.channels[id]?
  | .validators id => s.validators[id]?
  | .name name => s.names[name]?
  | .escrow id => s.escrows[id]?
  | .terminatedState id => s.terminatedStates[id]?
  | .terminatedOutbox id => s.terminatedOutboxes[id]?
  | .cell key => s.cells[key]?

/-- The store with a place written, or emptied when there is nothing to write. -/
def put (s : Store) : (slot : Slot) → Option slot.Value → Store
  | .version, v => { s with version := v }
  | .config, v => { s with config := v }
  | .own, v => { s with own := v }
  | .account id, v => { s with accounts := putIn s.accounts id v }
  | .channel id, v => { s with channels := putIn s.channels id v }
  | .validators id, v => { s with validators := putIn s.validators id v }
  | .name name, v => { s with names := putIn s.names name v }
  | .escrow id, v => { s with escrows := putIn s.escrows id v }
  | .terminatedState id, v => { s with terminatedStates := putIn s.terminatedStates id v }
  | .terminatedOutbox id, v => { s with terminatedOutboxes := putIn s.terminatedOutboxes id v }
  | .cell key, v => { s with cells := putIn s.cells key v }

/-- The chain accounts in ascending order of their ids. -/
def accountList (s : Store) : List (ChainId × ChainAccount) := s.accounts.toList

/-- The chains that have an account or a channel. -/
def chainIds (s : Store) : List ChainId := (s.accounts.keys ++ s.channels.keys).eraseDups

/-- The cells whose keys are at least `first` and below `last`, in ascending order. -/
def cellsBetween (s : Store) (first last : String) : List (String × Bytes) :=
  s.cells.toList.filter fun cell => ¬ cell.1 < first ∧ cell.1 < last

theorem getElem?_putIn {κ ν : Type} [Ord κ] [Std.TransOrd κ] [Std.LawfulEqOrd κ] [DecidableEq κ]
    (table : Table κ ν) (key other : κ) (value : Option ν) :
    (putIn table key value)[other]? = if key = other then value else table[other]? := by
  cases value <;> by_cases h : key = other <;>
    simp_all [putIn, Std.ExtTreeMap.getElem?_insert, Std.ExtTreeMap.getElem?_erase]

/-- A place holds what was last written to it. -/
@[simp]
theorem get_put_self (s : Store) (slot : Slot) (value : Option slot.Value) :
    (s.put slot value).get slot = value := by
  cases slot <;> simp [get, put, getElem?_putIn]

/-- Writing one place leaves all others alone. -/
theorem get_put_of_ne (s : Store) {slot other : Slot} (value : Option slot.Value)
    (h : slot ≠ other) : (s.put slot value).get other = s.get other := by
  cases slot <;> cases other <;> simp_all [get, put, getElem?_putIn]

end Store

end ChainHub
