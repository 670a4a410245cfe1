import ObjectStore.Admission
import ObjectStore.Call
import ObjectStore.Retry
import ObjectStore.Transport

/-!
# The client

A client carries out jobs. A job tries its request, once or more often: each attempt is let in by
the limiter, dispatched on the transport, and gives its permit back when its result is known;
after a failure that may pass the job pauses and tries again. A job can be called off at any
time, which it notices while it waits. Closing the client ends the jobs that wait.
-/

namespace ObjectStore

/-- Where a job stands. -/
inductive Progress
  /-- Before an attempt. -/
  | ready
  /-- In an attempt, which holds a permit. -/
  | trying (dispatch : Nat)
  /-- Between two attempts. -/
  | pausing (stop : Nat)
  | done (result : Result)

/-- One operation of a client. -/
structure Job where
  request : Request
  parser : Parser
  failures : Nat := 0
  /-- It was called off. -/
  calledOff : Bool := false
  progress : Progress := .ready

/-- A client between two steps. -/
structure Client where
  transport : Transport
  limiter : Limiter
  policy : RetryPolicy
  options : ListingOptions
  jobs : Registry Job := .empty
  /-- The number of the next dispatch. -/
  nextDispatch : Nat := 0
  isClosed : Bool := false

namespace Client

/-- A client of settings that a client can work with. -/
def ofConfig (c : ClientConfig) (source : CredentialsSource) (epoch : Calendar.Instant) :
    Except OperationError Client := do
  c.validate.mapError .config
  let transport ← (Transport.ofConfig c source epoch).mapError .config
  return { transport, limiter := .ofLimit c.maxInFlight, policy := .ofConfig c,
           options := c.options }

def now (c : Client) : Nat := c.transport.pool.now

def progress? (c : Client) (j : Nat) : Option Progress := (c.jobs.find? j).map (·.progress)

/-- The result of a job that is done. -/
def result? (c : Client) (j : Nat) : Option Result :=
  match c.progress? j with
  | some (.done r) => some r
  | _ => none

/-- A job goes on. -/
def enter (c : Client) (j : Nat) (progress : Progress) : Client :=
  { c with jobs := c.jobs.modify j fun x => { x with progress } }

/-- A new job. A closed client does nothing for it. -/
def submit (c : Client) (j : Nat) (call : Call) : Client :=
  if c.jobs.contains j then c
  else
    let job : Job :=
      match call with
      | .ready result => { request := default, parser := .deleted, progress := .done result }
      | .send request parser =>
          { request, parser, progress := if c.isClosed then .done (.error .closed) else .ready }
    { c with jobs := c.jobs.set j job }

/-- An attempt is over: the job is done, or it pauses before the next attempt. -/
def conclude (c : Client) (j : Nat) (result : Result) : Client :=
  match c.jobs.find? j with
  | none => c
  | some job =>
      match result with
      | .ok _ => c.enter j (.done result)
      | .error e =>
          let failures := job.failures + 1
          let progress :=
            if c.policy.shouldRetry failures e then
              .pausing (RetryPolicy.wake c.now (c.policy.delay failures))
            else .done result
          { c with jobs := c.jobs.set j { job with failures, progress } }

/-- Begin an attempt. -/
def attempt (c : Client) (j : Nat) : Client :=
  match c.jobs.find? j with
  | some ⟨request, parser, _, _, .ready⟩ =>
      match c.limiter.enter with
      | (.error e, limiter) => { c with limiter }.conclude j (.error (.admission e))
      | (.ok _, limiter) =>
          let d := c.nextDispatch
          { c with
            limiter
            transport := c.transport.register d request parser
            nextDispatch := d + 1 }.enter j (.trying d)
  | _ => c

/-- How an attempt with a result gives its permit back. -/
def leaving : Result → Leaving
  | .ok _ => .success
  | .error _ => .ignored

/-- Take the result of an attempt whose dispatch has ended. -/
def collect (c : Client) (j : Nat) : Client :=
  match c.progress? j with
  | some (.trying d) =>
      match c.transport.result? d with
      | none => c
      | some result =>
          { c with
            limiter := c.limiter.leave (leaving result)
            transport := c.transport.forget d }.conclude j result
  | _ => c

/-- The pause of a job is over. -/
def wake (c : Client) (j : Nat) : Client :=
  match c.progress? j with
  | some (.pausing stop) => if stop ≤ c.now then c.enter j .ready else c
  | _ => c

/-- Call a job off. -/
def cancel (c : Client) (j : Nat) : Client :=
  { c with jobs := c.jobs.modify j fun x => { x with calledOff := true } }

/-- A job notices that it was called off: in a pause it is done, in an attempt the dispatch ends. -/
def heed (c : Client) (j : Nat) : Client :=
  match c.jobs.find? j with
  | some ⟨_, _, _, true, .pausing _⟩ => c.enter j (.done (.error .cancelled))
  | some ⟨_, _, _, true, .trying d⟩ => { c with transport := c.transport.cancel d }
  | _ => c

/-- Refuse new jobs and close the pool. -/
def close (c : Client) : Client :=
  if c.isClosed then c
  else { c with isClosed := true, transport := c.transport.onPool Pool.shutdown }

/-- Whether a dispatch waits, so that it can be dropped. -/
def waits (t : Transport) (d : Nat) : Bool :=
  match t.phase? d with
  | some .acquiring | some (.exchanging _ _) => true
  | _ => false

/-- A job of a closed client is dropped while it waits. -/
def abort (c : Client) (j : Nat) : Client :=
  if !c.isClosed then c
  else
    match c.progress? j with
    | some .ready | some (.pausing _) => c.enter j (.done (.error .closed))
    | some (.trying d) =>
        if waits c.transport d then
          { c with
            limiter := c.limiter.leave .ignored
            transport := (c.transport.drop d).forget d }.enter j (.done (.error .closed))
        else c
    | _ => c

/-- The steps of a transport that a client leaves to the endpoint, the clock and the dispatches
themselves. -/
def isFree : Transport.Event → Bool
  | .register _ _ _ | .cancel _ | .drop _ | .forget _ | .shutdown => false
  | _ => true

/-- The steps of a client. -/
inductive Event
  | submit (j : Nat) (call : Call)
  | attempt (j : Nat)
  | transport (e : Transport.Event)
  | collect (j : Nat)
  | wake (j : Nat)
  | cancel (j : Nat)
  | heed (j : Nat)
  | close
  | abort (j : Nat)

/-- One step. -/
def step (c : Client) : Event → Client
  | .submit j call => c.submit j call
  | .attempt j => c.attempt j
  | .transport e => if isFree e then { c with transport := c.transport.step e } else c
  | .collect j => c.collect j
  | .wake j => c.wake j
  | .cancel j => c.cancel j
  | .heed j => c.heed j
  | .close => c.close
  | .abort j => c.abort j

/-- The client after some steps. -/
def run (c : Client) (events : List Event) : Client := events.foldl step c

end Client

end ObjectStore
