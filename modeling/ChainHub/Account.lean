import ChainHub.Chain

/-!
# Chain accounts

Model of `ChainAccount`, `ChainStatus`, `LastCertificate`, `LIVENESS_LIMIT`, `is_account_live` and
`is_stale_for_termination`.

The hub keeps an account of every registered chain: its name, its status, and the last certificate
that was accepted from it.

A chain stays live by having certificates accepted. An active chain whose last certificate is older
than the limit no longer receives messages. A chain that is registered but not yet active still
counts as live; it is stale, and may be terminated, once its registration is older than the limit.
-/

namespace ChainHub

/-- Where a chain stands. -/
inductive ChainStatus
  /-- No certificate has been accepted yet. -/
  | registered
  | active
  | terminated
deriving DecidableEq, Inhabited

namespace ChainStatus

/-- The number of a status in events. -/
def code : ChainStatus → Nat
  | .registered => 0
  | .active => 1
  | .terminated => 2

/-- The word for a status in answers. -/
def word : ChainStatus → String
  | .registered => "registered"
  | .active => "active"
  | .terminated => "terminated"

/-- The status that a word stands for. -/
def ofWord? (word : String) : Option ChainStatus :=
  [registered, active, terminated].find? fun s => s.word = word

end ChainStatus

/-- What is kept of the last certificate that was accepted from a chain (`LastCertificate`). -/
structure CertificateSummary where
  height : UInt64
  /-- In seconds. -/
  timestamp : UInt64
  stateRoot : Digest
  validatorsHash : Digest
deriving DecidableEq, Inhabited

/-- The account of a registered chain. -/
structure ChainAccount where
  name : String
  status : ChainStatus
  last : CertificateSummary
deriving DecidableEq, Inhabited

/-- After this many seconds without a certificate a chain is no longer live: thirty days
(`LIVENESS_LIMIT`). -/
def livenessLimit : Nat := 30 * 24 * 60 * 60

namespace ChainAccount

/-- How many seconds ago the last certificate was made; none if it is from the future. -/
def age (account : ChainAccount) (now : UInt64) : Nat := now.toNat - account.last.timestamp.toNat

/-- Whether the chain can exchange messages (`is_account_live`). -/
def isLive (account : ChainAccount) (now : UInt64) : Bool :=
  match account.status with
  | .terminated => false
  | .active => account.age now ≤ livenessLimit
  | .registered => true

/-- Whether anyone may terminate the chain (`is_stale_for_termination`). -/
def isStale (account : ChainAccount) (now : UInt64) : Bool :=
  match account.status with
  | .terminated => false
  | .active => !account.isLive now
  | .registered => livenessLimit < account.age now

end ChainAccount

end ChainHub
