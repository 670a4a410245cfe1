import ObjectStore.Completion
import ObjectStore.Pool
import ObjectStore.Request
import ObjectStore.Routing

/-!
# Transport

One attempt of a request is a dispatch: it leases a channel, signs the request, makes its sink
the owner of the channel, sends, waits for the response, hands the outcome to the owner of the
channel, and takes its attachment back. Many dispatches are under way at once and take their
steps in any order; each step here is one that nothing else can interrupt. The sink of a dispatch
and its lease have the number of the dispatch.
-/

namespace ObjectStore

open Http

/-- How an exchange ends. -/
inductive Outcome
  | response (r : Response)
  | failure (e : OperationError)
  | cancelled
  deriving Repr, DecidableEq

/-- Where a dispatch stands. -/
inductive Phase
  /-- It has no channel yet. -/
  | acquiring
  /-- It has a channel. -/
  | leased (channel : Nat)
  /-- Its request is sent, and the response must be there by a deadline. -/
  | exchanging (channel deadline : Nat)
  /-- The exchange is over. -/
  | settled (channel : Nat) (outcome : Outcome)
  /-- The owner of the channel is taken out of the routes. -/
  | routed (channel : Nat) (owner : Option Nat) (outcome : Outcome)
  /-- The channel is disposed of, and the response is still to be parsed for the owner. -/
  | parsing (channel owner : Nat) (r : Response)
  /-- The owner knows. Only the attachment is left. -/
  | returning (channel : Nat)
  | ended
  deriving Repr, DecidableEq

/-- One attempt of a request. -/
structure Dispatch where
  request : Request
  phase : Phase := .acquiring
  deriving Repr

/-- A request that went out. -/
structure Sent where
  dispatch : Nat
  channel : Nat
  request : WireRequest
  deriving Repr

/-- The dispatches on one endpoint, with what they share. -/
structure Transport where
  pool : Pool
  routes : Routes Nat := {}
  host : String
  port : Nat
  requestTimeout : Duration
  maxContentLength : Nat
  source : CredentialsSource
  /-- The environment in which the credentials are asked for. -/
  environment : Environment := {}
  /-- The date at time 0 of the clock of the pool. -/
  epoch : Calendar.Instant
  dispatches : Registry Dispatch := .empty
  sinks : Registry Completion := .empty
  /-- The requests that went out, the last one first. -/
  sent : List Sent := []

namespace Transport

/-- The transport of a client. -/
def ofConfig (c : ClientConfig) (source : CredentialsSource) (epoch : Calendar.Instant) :
    Except ConfigError Transport := do
  let (host, port) ← c.address
  let config ← PoolConfig.ofClientConfig c
  return { pool := .ofConfig config, host, port, requestTimeout := c.requestTimeout,
           maxContentLength := c.maxContentLength, source, epoch }

/-- The date. -/
def date (t : Transport) : Calendar.Instant :=
  let nanos := t.epoch.nanos + t.pool.now
  ⟨t.epoch.seconds + (nanos / 1000000000 : Nat), nanos % 1000000000⟩

def phase? (t : Transport) (d : Nat) : Option Phase := (t.dispatches.find? d).map (·.phase)

/-- A dispatch goes on to another phase. -/
def enter (t : Transport) (d : Nat) (phase : Phase) : Transport :=
  { t with dispatches := t.dispatches.modify d fun x => { x with phase } }

/-- Tell a sink. -/
def notify (t : Transport) (sink : Nat) (f : Completion → Completion) : Transport :=
  { t with sinks := t.sinks.modify sink f }

/-- Change the pool. -/
def onPool (t : Transport) (f : Pool → Pool) : Transport := { t with pool := f t.pool }

/-- A dispatch begins, with a sink of its own. -/
def register (t : Transport) (d : Nat) (request : Request) (parser : Parser) : Transport :=
  if t.dispatches.contains d then t
  else
    { t with
      dispatches := t.dispatches.set d { request }
      sinks := t.sinks.set d (.ofParser parser) }

/-- A step of the pool for a dispatch without a channel. Without a channel to come, the failure is
told and the dispatch ends. -/
def acquiring (t : Transport) (d : Nat) (step : Pool → Reply × Pool) : Transport :=
  match t.phase? d with
  | some .acquiring =>
      let (reply, pool) := step t.pool
      let t := { t with pool }
      match reply with
      | .leased c => t.enter d (.leased c.id)
      | .failed e => (t.notify d (·.onFailure (.pool e))).enter d .ended
      | .nothing | .waiting | .connecting => t
  | _ => t

/-- The channel that a dispatch has leased. -/
def channel? (t : Transport) (d : Nat) : Option Channel :=
  match t.pool.stage? d with
  | some (.leased c) => some c
  | _ => none

/-- Sign the request of a dispatch with the signer of its channel. -/
def signed (t : Transport) (c : Channel) (request : Request) :
    SignedHeaders × Channel × CredentialsSource :=
  let (credentials, source) := t.source.poll t.environment
  let (headers, signer) := c.signer.sign request.signingInput credentials t.date
  (headers, { c with signer }, source)

/-- Send the request of a dispatch on its channel. A request that cannot be written costs the
channel. A dispatch whose sink has a result already gives its channel back. -/
def send (t : Transport) (d : Nat) : Transport :=
  match t.phase? d, t.dispatches.find? d, t.channel? d with
  | some (.leased channel), some x, some c =>
      if ((t.sinks.find? d).map (·.claimed)).getD false then
        (t.onPool (·.release d)).enter d .ended
      else
        let (headers, c, source) := t.signed c x.request
        let t := { t with source, pool := t.pool.put d (.leased c) }
        match x.request.toWire (x.request.virtualHost t.host t.port) headers with
        | .error e => ((t.onPool (·.close d)).notify d (·.onFailure e)).enter d .ended
        | .ok wire =>
            { t with
              routes := t.routes.attach channel d
              pool := t.pool.send d
              sent := ⟨d, channel, wire⟩ :: t.sent }.enter d
              (.exchanging channel (t.pool.now + t.requestTimeout.nanos))
  | _, _, _ => t

/-- The exchange of a dispatch is over. -/
def settle (t : Transport) (d : Nat) (outcome : Outcome) : Transport :=
  match t.phase? d with
  | some (.exchanging channel _) => t.enter d (.settled channel outcome)
  | _ => t

/-- A response has come. Of one that is too long the rest is not read. -/
def receive (t : Transport) (d : Nat) (r : Response) : Transport :=
  match t.phase? d with
  | some (.exchanging _ _) =>
      if t.maxContentLength < r.body.length then
        t.settle d (.failure (.bodyTooLarge t.maxContentLength))
      else (t.onPool (·.received d)).settle d (.response r)
  | _ => t

/-- The response has not come by the deadline. -/
def expire (t : Transport) (d : Nat) : Transport :=
  match t.phase? d with
  | some (.exchanging _ deadline) =>
      if deadline ≤ t.pool.now then t.settle d (.failure (.timeout t.requestTimeout)) else t
  | _ => t

/-- A dispatch is called off. It notices while it waits for a channel or for a response. -/
def cancel (t : Transport) (d : Nat) : Transport :=
  match t.phase? d with
  | some .acquiring =>
      ((t.onPool (·.abandon d)).notify d Completion.onCancel).enter d .ended
  | some (.exchanging _ _) => t.settle d .cancelled
  | _ => t

/-- Take the owner of the channel out of the routes. -/
def route (t : Transport) (d : Nat) : Transport :=
  match t.phase? d with
  | some (.settled channel outcome) =>
      let (owner, routes) := t.routes.detach channel
      { t with routes }.enter d (.routed channel owner outcome)
  | _ => t

/-- Dispose of the channel of a dispatch. -/
def dispose (t : Transport) (d : Nat) (how : Disposal) : Transport := t.onPool (·.dispose d how)

/-- Tell the owner of the outcome, and dispose of the channel. Without an owner the channel is
closed. -/
def tell (t : Transport) (d : Nat) : Transport :=
  match t.phase? d with
  | some (.routed channel (some owner) (.response r)) =>
      let t := t.dispose d (Completion.disposal r)
      match t.sinks.find? owner with
      | none => t.enter d (.returning channel)
      | some c =>
          let (first, c) := c.claim
          { t with sinks := t.sinks.set owner c }.enter d
            (if first then .parsing channel owner r else .returning channel)
  | some (.routed channel (some owner) (.failure e)) =>
      ((t.dispose d .close).notify owner (·.onFailure e)).enter d (.returning channel)
  | some (.routed channel (some owner) .cancelled) =>
      ((t.notify owner Completion.onCancel).dispose d .close).enter d (.returning channel)
  | some (.routed channel none _) => (t.dispose d .close).enter d (.returning channel)
  | _ => t

/-- Parse the response and deliver what it says to the owner. -/
def parse (t : Transport) (d : Nat) : Transport :=
  match t.phase? d with
  | some (.parsing channel owner r) =>
      (t.notify owner fun c => c.deliver (c.parser.complete r)).enter d (.returning channel)
  | _ => t

/-- Drop the attachment, the last step of a dispatch. -/
def finish (t : Transport) (d : Nat) : Transport :=
  match t.phase? d with
  | some (.returning channel) => { t with routes := t.routes.dropGuard channel }.enter d .ended
  | _ => t

/-- A dispatch is dropped while it waits. It tells nobody. -/
def drop (t : Transport) (d : Nat) : Transport :=
  match t.phase? d with
  | some .acquiring => (t.onPool (·.abandon d)).enter d .ended
  | some (.exchanging channel _) =>
      ({ t with routes := t.routes.dropGuard channel }.onPool (·.close d)).enter d .ended
  | _ => t

/-- The result of a dispatch that has ended. A sink that was never told stands for a
cancellation. -/
def result? (t : Transport) (d : Nat) : Option Result :=
  match t.phase? d with
  | some .ended => some (((t.sinks.find? d).bind (·.delivered)).getD (.error .cancelled))
  | _ => none

/-- Forget a dispatch that has ended. -/
def forget (t : Transport) (d : Nat) : Transport :=
  match t.phase? d with
  | some .ended => { t with dispatches := t.dispatches.erase d, sinks := t.sinks.erase d }
  | _ => t

/-- The steps of a transport. -/
inductive Event
  | register (d : Nat) (request : Request) (parser : Parser)
  | acquire (d : Nat)
  | resume (d : Nat)
  | acquireExpired (d : Nat)
  | connected (d : Nat)
  | refused (d : Nat) (cause : String)
  | handshakeFailed (d : Nat)
  | connectExpired (d : Nat)
  | send (d : Nat)
  | response (d : Nat) (r : Response)
  | failure (d : Nat) (e : OperationError)
  | expire (d : Nat)
  | cancel (d : Nat)
  | route (d : Nat)
  | tell (d : Nat)
  | parse (d : Nat)
  | finish (d : Nat)
  | drop (d : Nat)
  | forget (d : Nat)
  | peerClosed (channel : Nat)
  | advance (nanos : Nat)
  | evict
  | shutdown

/-- One step. -/
def step (t : Transport) : Event → Transport
  | .register d request parser => t.register d request parser
  | .acquire d => t.acquiring d (·.start d)
  | .resume d => t.acquiring d (·.resume d)
  | .acquireExpired d => t.acquiring d (·.expire d)
  | .connected d => t.acquiring d (·.connected d)
  | .refused d cause => t.acquiring d (·.refused d cause)
  | .handshakeFailed d => t.acquiring d (·.connectFailed d .handshake)
  | .connectExpired d => t.acquiring d (·.connectExpired d)
  | .send d => t.send d
  | .response d r => t.receive d r
  | .failure d e => t.settle d (.failure e)
  | .expire d => t.expire d
  | .cancel d => t.cancel d
  | .route d => t.route d
  | .tell d => t.tell d
  | .parse d => t.parse d
  | .finish d => t.finish d
  | .drop d => t.drop d
  | .forget d => t.forget d
  | .peerClosed channel => t.onPool (·.peerClosed channel)
  | .advance nanos => t.onPool (·.advance nanos)
  | .evict => t.onPool fun p => p.evict.2
  | .shutdown => t.onPool Pool.shutdown

/-- The transport after some steps. -/
def run (t : Transport) (events : List Event) : Transport := events.foldl step t

end Transport

end ObjectStore
