import ObjectStore.Completion

/-!
# Deliveries

A completion with the pool of the channels that come to it and with its receiver, on whom the
completion, the other users of the pool and the receiver act in any order.
-/

namespace ObjectStore

/-- A completion, the pool of its channels, and what its receiver has found. -/
structure Delivery where
  pool : Pool
  completion : Completion
  found : List Receipt := []

namespace Delivery

/-- A completion that nothing has come to, and a pool without users. -/
def ofConfig (config : PoolConfig) (parser : Parser) : Delivery :=
  { pool := .ofConfig config, completion := .ofParser parser }

/-- Something arrives at the completion, and the lease that comes with it ends. -/
def arrive (d : Delivery) (arrival : Arrival) : Delivery :=
  let (lease, completion) := d.completion.arrive arrival
  match lease with
  | none => { d with completion }
  | some (user, how) => { d with pool := d.pool.dispose user how, completion }

/-- The receiver looks for the result. -/
def look (d : Delivery) : Delivery :=
  let (receipt, completion) := d.completion.receive
  { d with completion, found := d.found ++ [receipt] }

/-- The steps of a delivery. Those of the pool are of all users, the other end and the clock. -/
inductive Event
  | arrival (arrival : Arrival)
  | look
  | pool (e : Pool.Event)

/-- One step. -/
def step (d : Delivery) : Event → Delivery
  | .arrival arrival => d.arrive arrival
  | .look => d.look
  | .pool e => { d with pool := (d.pool.step e).2 }

/-- The delivery after some steps. -/
def run (d : Delivery) (events : List Event) : Delivery := events.foldl step d

theorem run_append (d : Delivery) (a b : List Event) : d.run (a ++ b) = (d.run a).run b :=
  List.foldl_append

theorem run_cons (d : Delivery) (e : Event) (rest : List Event) :
    d.run (e :: rest) = (d.step e).run rest := rfl

end Delivery

end ObjectStore
