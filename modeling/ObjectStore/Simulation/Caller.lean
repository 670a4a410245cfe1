import ObjectStore.Simulation

/-!
# Callers

A caller asks a simulated client for one thing after another. It keeps jobs that go on meanwhile
under names, and remembers the last page of a listing for the page after it.
-/

namespace ObjectStore

/-- A client with the one who uses it. -/
structure Caller where
  simulation : Simulation
  /-- The jobs that were started and not collected. -/
  jobs : List (String × Nat) := []
  page : Listing := {}
  /-- Something was set in motion that a job under a name may still be busy with. -/
  unsettled : Bool := false

namespace Caller

/-- Ask for something and wait for the result. -/
def perform (c : Caller) (call : Call) : Result × Caller :=
  let (results, simulation) := c.simulation.perform [call]
  let result := results.headD (.error .closed)
  match result with
  | .ok (.listing page) => (result, { c with simulation, page })
  | _ => (result, { c with simulation })

/-- Ask for the page after a page, which is remembered, or after the last one. -/
def performNext (c : Caller) (page : Option Listing) : Result × Caller :=
  let page := page.getD c.page
  { c with page }.perform (.listNext c.simulation.client.options page)

/-- Start a job under a name, and wait until its request has come to the service, or until it
waits for a channel if that is enough, or until it is done. -/
def start (c : Caller) (name : String) (call : Call) (untilPending : Bool) : Caller :=
  let j := c.simulation.fresh
  let arrived := c.simulation.arrived
  let simulation := (c.simulation.submit j call).goOnUntil fun s =>
    (s.client.result? j).isSome || arrived < s.arrived
      || (untilPending && 0 < s.client.transport.pool.pending)
  { c with simulation, jobs := (name, j) :: c.jobs.filter (·.1 != name) }

/-- Wait for the result of a job, and give its name up. -/
def finish (c : Caller) (name : String) (j : Nat) : Result × Caller :=
  let simulation := c.simulation.await [j]
  let jobs := c.jobs.filter (·.1 != name)
  ((simulation.results [j]).headD (.error .closed),
    { c with simulation, jobs, unsettled := c.unsettled && !jobs.isEmpty })

/-- Wait for the result of the job under a name, if there is one. -/
def await (c : Caller) (name : String) : Option (Result × Caller) :=
  (c.jobs.lookup name).map (c.finish name)

/-- Call the job under a name off, if there is one. -/
def cancel (c : Caller) (name : String) : Option Caller :=
  (c.jobs.lookup name).map fun j =>
    { c with simulation := c.simulation.cancel j, unsettled := true }

/-- Drop the job under a name and wait until it is over. Tells whether there is one. -/
def drop (c : Caller) (name : String) : Bool × Caller :=
  match c.jobs.lookup name with
  | none => (false, c)
  | some j => (true, ({ c with simulation := c.simulation.cancel j }.finish name j).2)

/-- The service gives the answers that it holds back. -/
def release (c : Caller) : Caller :=
  { c with simulation := c.simulation.release, unsettled := !c.jobs.isEmpty }

/-- Close the client. -/
def close (c : Caller) : Caller := { c with simulation := c.simulation.close }

/-- What a caller may come to next. -/
inductive Asks (c : Caller) : Caller → Prop
  | perform (call : Call) : Asks c (c.perform call).2
  | performNext (page : Option Listing) : Asks c (c.performNext page).2
  | start (name : String) (call : Call) (untilPending : Bool) :
      Asks c (c.start name call untilPending)
  | await {name : String} {result : Result} {next : Caller}
      (h : c.await name = some (result, next)) : Asks c next
  | cancel {name : String} {next : Caller} (h : c.cancel name = some next) : Asks c next
  | drop (name : String) : Asks c (c.drop name).2
  | release : Asks c c.release
  | close : Asks c c.close

end Caller

end ObjectStore
