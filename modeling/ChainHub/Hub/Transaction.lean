import ChainHub.Hub.Context

/-!
# Transactions

Model of what the host chain does with a handler: it calls it on its storage, keeps the writes when
it returns a `Response`, and drops them when it returns an error or panics.

* `StoreM`: computations on the store. Like those on a context they keep what they wrote when they
  fail.
* `StoreM.withContext`: carries out a request in a context of its own.
* `commit`: what the host chain makes of it. A transaction that fails leaves the store as it was.

Out of scope: gas, and the order of transactions in a block.
-/

namespace ChainHub

/-- A payment out of the hub. -/
structure Payment where
  recipient : String
  coins : List Coin
deriving DecidableEq, Inhabited

/-- The answer to a successful request. -/
structure Response where
  attributes : List (String × String)
  events : List Event := []
  payments : List Payment := []
deriving DecidableEq, Inhabited

/-- A computation on the store. -/
abbrev StoreM := EStateM (Failure HubError) Store

namespace StoreM

/-- Refuses. -/
def refuse {α : Type} (e : HubError) : StoreM α := throw (.error e)

/-- A computation that does not touch the store. -/
def ofAttempt {α : Type} : Attempt HubError α → StoreM α
  | .ok a => pure a
  | .error failure => throw failure

/-- The record in a place that must not be empty. -/
def load (slot : Slot) : StoreM slot.Value := do
  match (← get).get slot with
  | some value => return value
  | none => refuse (.host .recordMissing)

/-- Writes a record. -/
def save (slot : Slot) (value : slot.Value) : StoreM Unit := modify fun s => s.put slot (some value)

/-- Carries out a request in a new context on the store; gives its events, too. -/
def withContext {α : Type} (header : BlockHeader) (x : HubM α) : StoreM (α × List Event) := do
  let own ← load .own
  fun s =>
    match x (.start s header own.chainId) with
    | .ok a c => .ok (a, c.events) c.store
    | .error failure c => .error failure c.store

/-- The outcome of a transaction, and the store after it. -/
def commit {α : Type} (x : StoreM α) (s : Store) : Except (Failure HubError) α × Store :=
  match x s with
  | .ok a after => (.ok a, after)
  | .error failure _ => (.error failure, s)

end StoreM

end ChainHub
