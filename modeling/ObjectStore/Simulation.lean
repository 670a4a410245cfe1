import ObjectStore.Client
import ObjectStore.Endpoint
import ObjectStore.Pool.Simulation

/-!
# Simulations

A client on a clock that runs only when nothing else can happen, against a network and a service
that follow a script. Of the steps that are possible the one of the oldest job is taken, so that a
simulation has one course, which is a run of the client. The program goes by simulations in which
the network is out of reach and the script is empty; the others show what a client does with a
service that answers, hangs up, holds its answers back or is silent.
-/

namespace ObjectStore

/-- A client with its surroundings. -/
structure Simulation where
  client : Client
  network : Network
  script : List Scripted := []
  reaper : Option Reaper
  /-- How many of the requests that went out have come to the service. -/
  arrived : Nat := 0
  /-- The answers that the service holds back, by dispatch. -/
  held : List (Sent × Scripted) := []

namespace Simulation

/-- A client that was just made. -/
def ofClient (client : Client) (network : Network) (script : List Scripted) : Simulation :=
  { client, network, script, reaper := Reaper.ofPool client.transport.pool }

/-- The next step of a dispatch that needs nothing from outside. -/
def dispatchStep (t : Transport) (d : Nat) : Option Transport.Event :=
  match t.phase? d with
  | some .acquiring =>
      match t.pool.stage? d with
      | none => some (.acquire d)
      | some .granted => some (.resume d)
      | some (.waiting deadline) =>
          if t.pool.isClosed then some (.resume d)
          else if deadline ≤ t.pool.now then some (.acquireExpired d)
          else none
      | some (.connecting _) | some (.leased _) => none
  | some (.leased _) => some (.send d)
  | some (.exchanging _ deadline) => if deadline ≤ t.pool.now then some (.expire d) else none
  | some (.settled _ _) => some (.route d)
  | some (.routed _ _ _) => some (.tell d)
  | some (.parsing _ _ _) => some (.parse d)
  | some (.returning _) => some (.finish d)
  | some .ended | none => none

/-- The next step of a job that needs nothing from outside. -/
def jobStep (c : Client) (j : Nat) (job : Job) : Option Client.Event :=
  match job.progress with
  | .done _ => none
  | .ready => some (if c.isClosed then .abort j else .attempt j)
  | .pausing stop =>
      if c.isClosed then some (.abort j)
      else if job.calledOff then some (.heed j)
      else if stop ≤ c.now then some (.wake j)
      else none
  | .trying d =>
      if c.isClosed && Client.waits c.transport d then some (.abort j)
      else if job.calledOff && Client.waits c.transport d then some (.heed j)
      else if (c.transport.result? d).isSome then some (.collect j)
      else (dispatchStep c.transport d).map .transport

/-- What the network does for a job that waits for a connection. -/
def networkStep (network : Network) (c : Client) (job : Job) : Option Client.Event :=
  match job.progress with
  | .trying d =>
      match c.transport.pool.stage? d, network.failure? c.transport.pool.config.address with
      | some (.connecting _), none => some (.transport (.connected d))
      | some (.connecting _), some cause => some (.transport (.refused d cause))
      | _, _ => none
  | _ => none

/-- The first step that some job or the network takes now. -/
def next? (s : Simulation) : Option Client.Event :=
  s.client.jobs.entries.findSome? fun (j, job) =>
    (jobStep s.client j job).orElse fun _ => networkStep s.network s.client job

/-- The steps by which an answer comes to the client. -/
def answering (sent : Sent) (a : Scripted) : List Transport.Event :=
  match a.deed with
  | .hangUp => [.peerClosed sent.channel, .failure sent.dispatch .channelInactive]
  | .garble => [.peerClosed sent.channel, .failure sent.dispatch .transport]
  | .ignore => []
  | .answer | .hold =>
      (if a.closes then [.peerClosed sent.channel] else [])
        ++ [if 0 < a.lacking then .failure sent.dispatch .transport
            else .response sent.dispatch a.response]

/-- Let steps of the transport happen. -/
def take (s : Simulation) (events : List Transport.Event) : Simulation :=
  { s with client := events.foldl (fun c e => c.step (.transport e)) s.client }

/-- The service gets the request that went out first of those that it has not got. -/
def arrive (s : Simulation) : Option Simulation :=
  match s.client.transport.sent.reverse.drop s.arrived with
  | [] => none
  | sent :: _ =>
      let (answer, script) := takeAnswer sent.request s.script
      let s := { s with script, arrived := s.arrived + 1 }
      match answer.deed with
      | .hold => some { s with held := s.held ++ [(sent, answer)] }
      | _ => some (s.take (answering sent answer))

/-- The service gives the answers that it holds back. -/
def release (s : Simulation) : Simulation :=
  s.held.foldl (fun s h => s.take (answering h.1 h.2)) { s with held := [] }

/-- One step that takes no time. -/
def now? (s : Simulation) : Option Simulation :=
  match s.next? with
  | some e => some { s with client := s.client.step e }
  | none => s.arrive

/-- The deadline of a job that waits. -/
def deadlineOf (c : Client) (job : Job) : Option Nat :=
  match job.progress with
  | .pausing stop => some stop
  | .trying d =>
      match c.transport.phase? d, c.transport.pool.stage? d with
      | some (.exchanging _ deadline), _ => some deadline
      | some .acquiring, some (.waiting deadline) => some deadline
      | _, _ => none
  | _ => none

/-- The first deadline of all. -/
def deadline? (s : Simulation) : Option Nat :=
  (s.client.jobs.values.filterMap (deadlineOf s.client)).min?

/-- Let the clock run up to a time. -/
def runTo (s : Simulation) (time : Nat) : Simulation :=
  let (reaper, pool) :=
    match s.reaper with
    | some r => r.runTo s.client.transport.pool time
    | none => (none, { s.client.transport.pool with now := time })
  { s with
    reaper
    client := { s.client with transport := { s.client.transport with pool } } }

/-- One step, or else the time until the first deadline. -/
def step? (s : Simulation) : Option Simulation :=
  s.now?.orElse fun _ => s.deadline?.map s.runTo

/-- Go on until something is the case or nothing happens any more; `fuel` bounds the steps. -/
def goOn (stop : Simulation → Bool) : Nat → Simulation → Simulation
  | 0, s => s
  | fuel + 1, s =>
      if stop s then s
      else
        match s.step? with
        | none => s
        | some s => goOn stop fuel s

/-- A number of steps that is enough for all jobs: an attempt has about twenty steps. -/
def fuel (s : Simulation) : Nat :=
  (s.client.jobs.size + 1) * (s.client.policy.maxRetries + 2) * 32

def goOnUntil (s : Simulation) (stop : Simulation → Bool) : Simulation := goOn stop s.fuel s

/-- Take the steps that take no time. -/
def settle (s : Simulation) : Simulation := s.goOnUntil fun s => s.now?.isNone

/-- A new job for a call. -/
def submit (s : Simulation) (j : Nat) (call : Call) : Simulation :=
  { s with client := s.client.submit j call }

/-- Wait until jobs are done. -/
def await (s : Simulation) (jobs : List Nat) : Simulation :=
  s.goOnUntil fun s => jobs.all fun j => (s.client.result? j).isSome

/-- The results of jobs. A job without a result will not get one. -/
def results (s : Simulation) (jobs : List Nat) : List Result :=
  jobs.map fun j => (s.client.result? j).getD (.error .closed)

/-- The number of the next job. -/
def fresh (s : Simulation) : Nat := s.client.jobs.keys.foldl max 0 + 1

/-- Call a job off. -/
def cancel (s : Simulation) (j : Nat) : Simulation := { s with client := s.client.cancel j }

/-- Carry out calls at the same time, and wait for their results. -/
def perform (s : Simulation) (calls : List Call) : List Result × Simulation :=
  let jobs := List.range' s.fresh calls.length
  let s := (jobs.zip calls).foldl (fun s jc => s.submit jc.1 jc.2) s
  let s := s.await jobs
  (s.results jobs, s)

/-- Close the client, and wait until its jobs are done. -/
def close (s : Simulation) : Simulation :=
  { s with client := s.client.step .close }.settle

/-- The requests that came to the service, in their order. -/
def requests (s : Simulation) : List WireRequest :=
  (s.client.transport.sent.reverse.take s.arrived).map (·.request)

end Simulation

end ObjectStore
