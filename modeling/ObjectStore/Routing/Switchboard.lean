import ObjectStore.Completion
import ObjectStore.Pool.Simulation
import ObjectStore.Routing

/-!
# Switchboards

Sinks with names on the channels of a pool. What a sink is told is a notice; a sink that is told
of a response gives its channel back, and in all other cases the channel is closed.
-/

namespace ObjectStore

open Http

/-- What a sink is told. -/
inductive Notice
  | response (sink : String) (status channel : Nat)
  | failure (sink : String) (e : OperationError) (channel : Nat)
  | cancelled (sink : String)
  deriving Repr, DecidableEq

/-- The routes of the channels of a pool. -/
structure Switchboard where
  pool : PoolSimulation
  routes : Routes String := {}
  /-- The channels behind the guards that are kept under names. -/
  guards : List (String × Nat) := []
  /-- The leased channels with their users. -/
  leases : List (Nat × Nat) := []
  /-- The number of the next user. -/
  fresh : Nat := 1

namespace Switchboard

/-- Lease a channel. -/
def acquire (b : Switchboard) : Option Acquired × Switchboard :=
  let (outcome, pool) := b.pool.acquire b.fresh
  let leases :=
    match outcome with
    | some (.ok c) => (c.id, b.fresh) :: b.leases
    | _ => b.leases
  (outcome, { b with pool, leases, fresh := b.fresh + 1 })

/-- Drop the guard under a name. Tells whether there is one. -/
def dropGuard (b : Switchboard) (name : String) : Bool × Switchboard :=
  match b.guards.lookup name with
  | none => (false, b)
  | some channel =>
      (true, { b with
        routes := b.routes.dropGuard channel
        guards := b.guards.filter (·.1 != name) })

/-- Attach a sink to a channel, and then keep its guard in place of the one under its name. -/
def attach (b : Switchboard) (channel : Nat) (sink : String) : Switchboard :=
  let (_, b) := { b with routes := b.routes.attach channel sink }.dropGuard sink
  { b with guards := (sink, channel) :: b.guards }

/-- Take the sink of a channel out. -/
def detach (b : Switchboard) (channel : Nat) : Option String × Switchboard :=
  let (owner, routes) := b.routes.detach channel
  (owner, { b with routes })

/-- Take the sink of a channel out and tell it that nothing will come. -/
def cancel (b : Switchboard) (channel : Nat) : Option Notice × Switchboard :=
  let (owner, b) := b.detach channel
  (owner.map .cancelled, b)

/-- Route what arrives on a leased channel to its sink. The channel goes with it; without a sink
it is closed. -/
def route (b : Switchboard) (channel : Nat) (notice : String → Notice) (whenOwned : Disposal) :
    Option (Option Notice × Switchboard) :=
  (b.leases.lookup channel).map fun user =>
    let (owner, b) := b.detach channel
    let disposal := if owner.isSome then whenOwned else .close
    (owner.map notice, { b with
      pool := b.pool.change (·.dispose user disposal)
      leases := b.leases.filter (·.1 != channel) })

/-- A response arrives. -/
def respond (b : Switchboard) (channel : Nat) (r : Response) :
    Option (Option Notice × Switchboard) :=
  b.route channel (.response · r.status channel) .release

/-- An exchange fails. -/
def fail (b : Switchboard) (channel : Nat) (e : OperationError) :
    Option (Option Notice × Switchboard) :=
  b.route channel (.failure · e channel) .close

end Switchboard

end ObjectStore
