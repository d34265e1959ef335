import ChainHub.Failure
import ChainHub.Hub.Event

/-!
# Requests in progress

Model of `StoreContext`, `JournaledStorage` and `SnapshotId` (`create_snapshot`,
`restore_snapshot`).

While a request is carried out, a `Context` holds the store, the events so far and a journal with
the previous content of every place that was written. A snapshot is a pair of lengths; restoring it
undoes the journal entries and drops the events beyond them. So the effects of one message can be
taken back without giving up the whole request.

* `HubM`: computations on a context. What was written stays written when they fail; only a restore
  or the end of the transaction takes it back.
* `save`, `erase`, `emit`: the three ways in which a context changes forward.
* `snapshot` / `restore`: the way back.
* `succeeds`: runs a computation for its effects and tells whether it was refused.

Out of scope: keys and values as bytes. A journal entry holds a place and the record that was in it.
-/

namespace ChainHub

/-- The previous content of a place that was written. -/
structure JournalEntry where
  slot : Slot
  previous : Option slot.Value

/-- A point of a request that can be restored. -/
structure Snapshot where
  journal : Nat
  events : Nat
deriving DecidableEq, Inhabited

/-- The block that a request is part of. -/
structure BlockHeader where
  height : UInt64
  /-- In seconds. -/
  time : UInt64
deriving DecidableEq, Inhabited

/-- A request in progress. -/
structure Context where
  store : Store
  /-- The writes so far, the last one first. -/
  journal : List JournalEntry
  /-- The events so far, the first one first. -/
  events : List Event
  header : BlockHeader
  /-- The id of the hub. -/
  ownChain : ChainId

namespace Context

/-- A request at its beginning. -/
def start (store : Store) (header : BlockHeader) (ownChain : ChainId) : Context :=
  ⟨store, [], [], header, ownChain⟩

/-- The time of the block in seconds. -/
def now (c : Context) : UInt64 := c.header.time

/-- Writes a place, or empties it when there is nothing to write. -/
def write (c : Context) (slot : Slot) (value : Option slot.Value) : Context :=
  { c with
    store := c.store.put slot value
    journal := ⟨slot, c.store.get slot⟩ :: c.journal }

/-- Adds an event. -/
def emit (c : Context) (event : Event) : Context := { c with events := c.events ++ [event] }

/-- The present point of the request. -/
def snapshot (c : Context) : Snapshot := ⟨c.journal.length, c.events.length⟩

/-- Undoes the newest `count` journal entries, and returns the entries that are left, too. -/
def undo : (count : Nat) → Store → List JournalEntry → Store × List JournalEntry
  | 0, store, journal => (store, journal)
  | _ + 1, store, [] => (store, [])
  | count + 1, store, entry :: journal =>
    undo count (store.put entry.slot entry.previous) journal

/-- Undoes every write and drops every event after a snapshot. -/
def restore (c : Context) (s : Snapshot) : Context :=
  let (store, journal) := undo (c.journal.length - s.journal) c.store c.journal
  { c with store := store, journal := journal, events := c.events.take s.events }

end Context

/-- A computation on a request in progress. -/
abbrev HubM := EStateM (Failure HubError) Context

namespace HubM

/-- Refuses. -/
def refuse {α : Type} (e : HubError) : HubM α := throw (.error e)

/-- Aborts. -/
def abort {α : Type} : HubM α := throw .abort

/-- A computation that does not touch the context. -/
def ofAttempt {α : Type} : Attempt HubError α → HubM α
  | .ok a => pure a
  | .error failure => throw failure

/-- The record in a place. -/
def get? (slot : Slot) : HubM (Option slot.Value) := return (← get).store.get slot

/-- The record in a place that must not be empty. -/
def load (slot : Slot) : HubM slot.Value := do
  match ← get? slot with
  | some value => return value
  | none => refuse (.host .recordMissing)

/-- Writes a record. -/
def save (slot : Slot) (value : slot.Value) : HubM Unit :=
  modify fun c => c.write slot (some value)

/-- Empties a place. -/
def erase (slot : Slot) : HubM Unit := modify fun c => c.write slot none

/-- Writes a cell of a module. A cell cannot hold the empty byte string. -/
def setCell (key : String) (value : Bytes) : HubM Unit :=
  if value.isEmpty then abort else save (.cell key) value

/-- Adds an event. -/
def emit (event : Event) : HubM Unit := modify fun c => c.emit event

/-- The present point of the request. -/
def snapshot : HubM Snapshot := return (← get).snapshot

/-- Undoes everything after a snapshot. -/
def restore (s : Snapshot) : HubM Unit := modify fun c => c.restore s

/-- Runs a computation and turns a refusal into a value. Its writes and events stay; an abort goes
on. -/
def attempt {α : Type} (x : HubM α) : HubM (Except HubError α) := fun c =>
  match x c with
  | .ok a c => .ok (.ok a) c
  | .error (.error e) c => .ok (.error e) c
  | .error .abort c => .error .abort c

/-- Runs a computation for its effects and tells whether it was not refused. -/
def succeeds (x : HubM Unit) : HubM Bool := do
  match ← attempt x with
  | .ok () => return true
  | .error _ => return false

/-- Runs computations in order up to the first refusal, and tells whether there was none. -/
def allSucceed : List (HubM Unit) → HubM Bool
  | [] => return true
  | x :: rest => do if ← succeeds x then allSucceed rest else return false

end HubM

end ChainHub
