import ObjectStore.Pool.Simulation

/-!
# Tenants

Users of a pool who go by names. Under a name there is at most one lease and at most one request
that is still to be collected; a new lease takes the place of the old one, whose channel is closed.
-/

namespace ObjectStore

/-- A pool with the names of its users. -/
structure Tenants where
  pool : PoolSimulation
  leases : List (String × Nat) := []
  requests : List (String × Nat) := []
  /-- The number of the next user. -/
  fresh : Nat := 1

namespace Tenants

/-- The names other than one. -/
def without (name : String) (users : List (String × Nat)) : List (String × Nat) :=
  users.filter (·.1 != name)

/-- Keep the lease of a user under a name. -/
def keep (t : Tenants) (name : String) (user : Nat) : Tenants :=
  let pool :=
    match t.leases.lookup name with
    | some old => t.pool.change (·.close old)
    | none => t.pool
  { t with pool, leases := (name, user) :: without name t.leases }

/-- What a user has got; a lease is kept under a name. -/
def collect (t : Tenants) (name : String) (user : Nat) : Option Acquired × Tenants :=
  match t.pool.outcome? user with
  | some (.ok c) => (some (.ok c), t.keep name user)
  | other => (other, t)

/-- Ask for a channel and wait for the answer. -/
def acquire (t : Tenants) (name : String) : Option Acquired × Tenants :=
  let user := t.fresh
  { t with pool := (t.pool.acquire user).2, fresh := user + 1 }.collect name user

/-- Ask for a channel; the answer is collected later. -/
def request (t : Tenants) (name : String) : Tenants :=
  let user := t.fresh
  { t with
    pool := t.pool.start user
    requests := (name, user) :: without name t.requests
    fresh := user + 1 }

/-- Wait for the answer to a request, if there is one under the name. -/
def await (t : Tenants) (name : String) : Option (Option Acquired × Tenants) :=
  (t.requests.lookup name).map fun user =>
    { t with
      pool := t.pool.await user
      requests := without name t.requests }.collect name user

/-- Take a request back. -/
def abandon (t : Tenants) (name : String) : Tenants :=
  match t.requests.lookup name with
  | none => t
  | some user =>
      { t with
        pool := t.pool.change (·.abandon user)
        requests := without name t.requests }

/-- The lease under a name ends. Tells whether there is one. -/
def finish (t : Tenants) (name : String) (f : Pool → Nat → Pool) : Bool × Tenants :=
  match t.leases.lookup name with
  | none => (false, t)
  | some user =>
      (true, { t with
        pool := t.pool.change fun p => f p user
        leases := without name t.leases })

/-- Give the channel under a name back. -/
def release (t : Tenants) (name : String) : Bool × Tenants := t.finish name Pool.release

/-- Close the channel under a name. -/
def close (t : Tenants) (name : String) : Bool × Tenants := t.finish name Pool.close

end Tenants

end ObjectStore
