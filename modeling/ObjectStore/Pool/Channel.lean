import ObjectStore.Duration
import ObjectStore.Signature

/-!
# Channels

A channel is a connection that carries one request after another, with the signer of its requests.
-/

namespace ObjectStore

/-- A connection to the endpoint. Times are nanoseconds on the clock of its pool. -/
structure Channel where
  id : Nat
  /-- Whether the other end keeps it open. -/
  isOpen : Bool := true
  /-- When a request was sent on it last, or when it was given back. -/
  lastUsed : Nat
  /-- How many requests were sent on it. -/
  useCount : Nat := 0
  /-- A request was sent whose response is not read to its end. -/
  unread : Bool := false
  signer : Signer := .fresh
  deriving Repr, DecidableEq, Inhabited

namespace Channel

/-- A channel that was opened now. -/
def opened (id now : Nat) : Channel := { id, lastUsed := now }

/-- A request is sent. -/
def sent (c : Channel) (now : Nat) : Channel :=
  { c with lastUsed := now, useCount := c.useCount + 1, unread := true }

/-- The response of the last request is read to its end. -/
def answered (c : Channel) : Channel := { c with unread := false }

/-- Whether an idle channel may be leased again: it is open, and it has not been idle for longer
than the limit. -/
def isReusable (maxIdle : Option Duration) (now : Nat) (c : Channel) : Bool :=
  c.isOpen &&
    match maxIdle with
    | none => true
    | some limit => now - c.lastUsed ≤ limit.nanos

end Channel

end ObjectStore
