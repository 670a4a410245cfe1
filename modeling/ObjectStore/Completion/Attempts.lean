import ObjectStore.Completion
import ObjectStore.Pool.Simulation

/-!
# Completions of several attempts

One completion that is told of event after event, each with a channel of its own from a pool. Where
no channel is to be had for a response, the completion is told of that failure in its place.
-/

namespace ObjectStore

open Http

/-- A completion with the pool of its channels. -/
structure Attempts where
  pool : PoolSimulation
  completion : Completion
  /-- The number of the next user of the pool. -/
  fresh : Nat := 1

namespace Attempts

/-- Lease a channel for the next event. -/
def lease (a : Attempts) : Option Acquired × Attempts :=
  let (outcome, pool) := a.pool.acquire a.fresh
  (outcome, { a with pool, fresh := a.fresh + 1 })

/-- The user of the last lease. -/
def lastUser (a : Attempts) : Nat := a.fresh - 1

/-- Something arrives at the completion, and the lease that comes with it ends. -/
def arrive (a : Attempts) (arrival : Arrival) : Attempts :=
  let (lease, completion) := a.completion.arrive arrival
  match lease with
  | none => { a with completion }
  | some (user, how) => { a with pool := a.pool.change (·.dispose user how), completion }

/-- A response comes on a channel. -/
def respond (a : Attempts) (r : Response) : Attempts :=
  match a.lease with
  | (some (.ok _), a) => a.arrive (.response r a.lastUser)
  | (some (.error e), a) => a.arrive (.failure (.pool e) none)
  | (none, a) => a

/-- An attempt fails, with a channel if one is to be had, or without. -/
def fail (a : Attempts) (e : OperationError) (onChannel : Bool) : Attempts :=
  if onChannel then
    let a := a.lease.2
    a.arrive (.failure e (some a.lastUser))
  else a.arrive (.failure e none)

/-- An attempt is called off. -/
def cancel (a : Attempts) : Attempts := a.arrive .cancellation

/-- Look for the result. -/
def receive (a : Attempts) : Receipt × Attempts :=
  let (receipt, completion) := a.completion.receive
  (receipt, { a with completion })

end Attempts

end ObjectStore
