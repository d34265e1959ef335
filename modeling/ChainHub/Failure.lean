/-!
# Failures

A computation ends without a result in one of two ways. It is refused for a reason that its caller
can act on, or it runs into a limit of the machine it is meant for, such as a count that does not
fit into 64 bits. An abort cannot be caught: it ends the whole transaction.
-/

namespace ChainHub

/-- How a computation ends without a result. -/
inductive Failure (ε : Type)
  | error (reason : ε)
  | abort
deriving DecidableEq, Inhabited

namespace Failure

/-- The failure with its reason put into a wider type. -/
def map {ε δ : Type} (f : ε → δ) : Failure ε → Failure δ
  | .error reason => .error (f reason)
  | .abort => .abort

end Failure

/-- A computation that may be refused or aborted. -/
abbrev Attempt (ε α : Type) := Except (Failure ε) α

namespace Attempt

/-- Refuses. -/
def refuse {ε α : Type} (reason : ε) : Attempt ε α := .error (.error reason)

/-- Aborts. -/
def abort {ε α : Type} : Attempt ε α := .error .abort

/-- A computation that cannot be aborted, with its reason put into a wider type. -/
def ofExcept {ε δ α : Type} (f : ε → δ) : Except ε α → Attempt δ α
  | .ok a => .ok a
  | .error reason => refuse (f reason)

/-- A computation that cannot be aborted. -/
def lift {ε α : Type} : Except ε α → Attempt ε α := ofExcept fun e => e

/-- A computation whose only failure is an abort. -/
def ofOption {ε α : Type} : Option α → Attempt ε α
  | some a => .ok a
  | none => abort

/-- A value that has to be there. -/
def require {ε α : Type} (reason : ε) : Option α → Attempt ε α
  | some a => .ok a
  | none => refuse reason

end Attempt

end ChainHub
