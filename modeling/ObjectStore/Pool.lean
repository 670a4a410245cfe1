import ObjectStore.ClientConfig
import ObjectStore.Pool.Channel
import ObjectStore.Registry

/-!
# The channel pool

A pool leases channels to users. A lease needs one of a fixed number of permits. A user who finds
none waits, first come first served, for a bounded time and among a bounded number of others. A
user with a permit gets the channel that was given back last, if it is still good, and otherwise
waits for a new connection. Each operation is one step on a state of plain data, so that users
take their steps in any order.
-/

namespace ObjectStore

/-- The limits of a pool. -/
structure PoolConfig where
  /-- Host and port of the endpoint. -/
  address : String
  maxConnections : Nat
  maxPending : Nat
  acquireTimeout : Duration
  connectTimeout : Duration
  /-- How long an idle channel stays good; always when none. -/
  maxIdle : Option Duration
  deriving Repr, DecidableEq, Inhabited

/-- Where a user of a pool stands. -/
inductive Stage
  /-- Waits for a permit until a deadline. -/
  | waiting (deadline : Nat)
  /-- Was handed a permit and has not noticed yet. -/
  | granted
  /-- Has a permit and waits for a connection until a deadline. -/
  | connecting (deadline : Nat)
  /-- Has a channel. -/
  | leased (channel : Channel)
  deriving Repr, DecidableEq

/-- Whether a user waits for a permit. -/
def Stage.isWaiting : Stage → Bool
  | .waiting _ => true
  | .granted | .connecting _ | .leased _ => false

/-- Change the channel of a lease. -/
def Stage.mapChannel (f : Channel → Channel) : Stage → Stage
  | .leased c => .leased (f c)
  | other => other

/-- The counters that a pool shows. -/
structure PoolStats where
  created : Nat
  reused : Nat
  closed : Nat
  acquired : Nat
  idle : Nat
  pending : Nat
  deriving Repr, DecidableEq

/-- A pool between two steps. -/
structure Pool where
  config : PoolConfig
  /-- The clock, in nanoseconds. -/
  now : Nat := 0
  /-- Permits that no user holds. -/
  free : Nat
  /-- Channels that no user has, the one given back last first. -/
  idle : List Channel := []
  /-- The users in the order in which they came. -/
  users : Registry Stage := .empty
  nextId : Nat := 1
  isClosed : Bool := false
  pending : Nat := 0
  acquired : Nat := 0
  created : Nat := 0
  reused : Nat := 0
  closed : Nat := 0
  deriving Repr, Inhabited

/-- What a user learns from a step. -/
inductive Reply
  /-- Nothing: the step does not concern the user. -/
  | nothing
  | waiting
  | connecting
  | leased (channel : Channel)
  | failed (e : PoolError)
  deriving Repr, DecidableEq

/-- What becomes of the channel of a lease that ends. -/
inductive Disposal
  | release
  | close
  deriving Repr, DecidableEq

/-- The limits of the pool of a client. -/
def PoolConfig.ofClientConfig (c : ClientConfig) : Except ConfigError PoolConfig :=
  c.address.map fun (host, port) =>
    { address := host ++ ":" ++ toString port
      maxConnections := c.maxConnections
      maxPending := c.maxPendingAcquires
      acquireTimeout := c.acquireTimeout
      connectTimeout := c.connectTimeout
      maxIdle := c.maxIdleTime }

namespace Pool

/-- A pool without users and channels. -/
def ofConfig (config : PoolConfig) : Pool := { config, free := config.maxConnections }

def stats (p : Pool) : PoolStats :=
  ⟨p.created, p.reused, p.closed, p.acquired, p.idle.length, p.pending⟩

def stage? (p : Pool) (user : Nat) : Option Stage := p.users.find? user

/-- Put a user into a stage. -/
def put (p : Pool) (user : Nat) (stage : Stage) : Pool :=
  { p with users := p.users.set user stage }

/-- A user goes. -/
def remove (p : Pool) (user : Nat) : Pool := { p with users := p.users.erase user }

/-- A permit comes back: the first user who waits gets it. In a closed pool nobody waits for it
any more. -/
def giveBack (p : Pool) : Pool :=
  if p.isClosed then { p with free := p.free + 1 }
  else
    match p.users.findKey? Stage.isWaiting with
    | some user => p.put user .granted
    | none => { p with free := p.free + 1 }

/-- The first good channel, the channels after it, and the number of those dropped before it. -/
def takeIdle (good : Channel → Bool) : List Channel → Option Channel × List Channel × Nat
  | [] => (none, [], 0)
  | c :: rest =>
      if good c then (some c, rest, 0)
      else
        let (found, left, dropped) := takeIdle good rest
        (found, left, dropped + 1)

/-- A user who holds a permit gets an idle channel or begins to connect. -/
def proceed (p : Pool) (user : Nat) : Reply × Pool :=
  match takeIdle (Channel.isReusable p.config.maxIdle p.now) p.idle with
  | (some c, idle, dropped) =>
      (.leased c, { p with
        idle, closed := p.closed + dropped, reused := p.reused + 1,
        acquired := p.acquired + 1 }.put user (.leased c))
  | (none, idle, dropped) =>
      (.connecting, { p with idle, closed := p.closed + dropped }.put user
        (.connecting (p.now + p.config.connectTimeout.nanos)))

/-- A new user asks for a channel. -/
def start (p : Pool) (user : Nat) : Reply × Pool :=
  if (p.stage? user).isSome then (.nothing, p)
  else if p.isClosed then (.failed .closed, p)
  else if 0 < p.free then { p with free := p.free - 1 }.proceed user
  else if p.config.maxPending < p.pending + 1 then
    (.failed (.tooManyPending p.config.maxPending), p)
  else
    (.waiting, { p with pending := p.pending + 1 }.put user
      (.waiting (p.now + p.config.acquireTimeout.nanos)))

/-- A user who waits looks again: for a permit that was handed over, and whether the pool is
closed. The end of the pool counts more than a permit. -/
def resume (p : Pool) (user : Nat) : Reply × Pool :=
  match p.stage? user with
  | some .granted =>
      let p := { p with pending := p.pending - 1 }
      if p.isClosed then (.failed .closed, (p.remove user).giveBack) else p.proceed user
  | some (.waiting _) =>
      if p.isClosed then
        (.failed .closed, { p with pending := p.pending - 1 }.remove user)
      else (.waiting, p)
  | _ => (.nothing, p)

/-- A user has waited for a permit until the deadline. -/
def expire (p : Pool) (user : Nat) : Reply × Pool :=
  match p.stage? user with
  | some (.waiting deadline) =>
      if p.isClosed then p.resume user
      else if deadline ≤ p.now then
        (.failed (.acquireTimeout p.config.acquireTimeout),
          { p with pending := p.pending - 1 }.remove user)
      else (.waiting, p)
  | _ => (.nothing, p)

/-- The connection of a user is there. -/
def connected (p : Pool) (user : Nat) : Reply × Pool :=
  match p.stage? user with
  | some (.connecting _) =>
      let c := Channel.opened p.nextId p.now
      (.leased c, { p with
        nextId := p.nextId + 1, created := p.created + 1,
        acquired := p.acquired + 1 }.put user (.leased c))
  | _ => (.nothing, p)

/-- The connection of a user is not made. -/
def connectFailed (p : Pool) (user : Nat) (e : PoolError) : Reply × Pool :=
  match p.stage? user with
  | some (.connecting _) => (.failed e, (p.remove user).giveBack)
  | _ => (.nothing, p)

/-- The connection of a user is refused or cannot be made. -/
def refused (p : Pool) (user : Nat) (cause : String) : Reply × Pool :=
  p.connectFailed user (.connect p.config.address cause)

/-- A user has waited for a connection until the deadline. -/
def connectExpired (p : Pool) (user : Nat) : Reply × Pool :=
  match p.stage? user with
  | some (.connecting deadline) =>
      if deadline ≤ p.now then
        p.connectFailed user (.connectTimeout p.config.address p.config.connectTimeout)
      else (.connecting, p)
  | _ => (.nothing, p)

/-- A lease ends: the channel is pooled if the pool and the channel are open, and closed
otherwise. -/
def release (p : Pool) (user : Nat) : Pool :=
  match p.stage? user with
  | some (.leased c) =>
      let p := { p with acquired := p.acquired - 1 }.remove user
      if p.isClosed || !c.isOpen then { p with closed := p.closed + 1 }.giveBack
      else { p with idle := { c with lastUsed := p.now } :: p.idle }.giveBack
  | _ => p

/-- A lease ends and its channel is closed. -/
def close (p : Pool) (user : Nat) : Pool :=
  match p.stage? user with
  | some (.leased _) =>
      ({ p with acquired := p.acquired - 1, closed := p.closed + 1 }.remove user).giveBack
  | _ => p

/-- A lease ends in one of the two ways. -/
def dispose (p : Pool) (user : Nat) : Disposal → Pool
  | .release => p.release user
  | .close => p.close user

/-- A user goes away in any stage. -/
def abandon (p : Pool) (user : Nat) : Pool :=
  match p.stage? user with
  | some (.waiting _) => { p with pending := p.pending - 1 }.remove user
  | some .granted => ({ p with pending := p.pending - 1 }.remove user).giveBack
  | some (.connecting _) => (p.remove user).giveBack
  | some (.leased _) => p.close user
  | none => p

/-- Change the channel of a lease. -/
def update (p : Pool) (user : Nat) (f : Channel → Channel) : Pool :=
  { p with users := p.users.modify user (Stage.mapChannel f) }

/-- A user sends a request on the leased channel. -/
def send (p : Pool) (user : Nat) : Pool := p.update user (·.sent p.now)

/-- A user has read the response to its end. -/
def received (p : Pool) (user : Nat) : Pool := p.update user Channel.answered

/-- The other end closes a channel. -/
def peerClosed (p : Pool) (id : Nat) : Pool :=
  let lose (c : Channel) : Channel := if c.id = id then { c with isOpen := false } else c
  { p with idle := p.idle.map lose, users := p.users.mapValues (Stage.mapChannel lose) }

/-- Time passes. -/
def advance (p : Pool) (nanos : Nat) : Pool := { p with now := p.now + nanos }

/-- Close the idle channels that are no longer good. -/
def evict (p : Pool) : Nat × Pool :=
  let kept := p.idle.filter (Channel.isReusable p.config.maxIdle p.now)
  let removed := p.idle.length - kept.length
  (removed, { p with idle := kept, closed := p.closed + removed })

/-- Close the pool and its idle channels. Leased channels are closed when their leases end. -/
def shutdown (p : Pool) : Pool :=
  if p.isClosed then p
  else { p with isClosed := true, idle := [], closed := p.closed + p.idle.length }

/-- The steps of a pool. -/
inductive Event
  | start (user : Nat)
  | resume (user : Nat)
  | expire (user : Nat)
  | connected (user : Nat)
  | refused (user : Nat) (cause : String)
  | handshakeFailed (user : Nat)
  | connectExpired (user : Nat)
  | send (user : Nat)
  | received (user : Nat)
  | release (user : Nat)
  | close (user : Nat)
  | abandon (user : Nat)
  | peerClosed (channel : Nat)
  | advance (nanos : Nat)
  | evict
  | shutdown
  deriving Repr, DecidableEq

/-- One step, with what the user learns. -/
def step (p : Pool) : Event → Reply × Pool
  | .start user => p.start user
  | .resume user => p.resume user
  | .expire user => p.expire user
  | .connected user => p.connected user
  | .refused user cause => p.refused user cause
  | .handshakeFailed user => p.connectFailed user .handshake
  | .connectExpired user => p.connectExpired user
  | .send user => (.nothing, p.send user)
  | .received user => (.nothing, p.received user)
  | .release user => (.nothing, p.release user)
  | .close user => (.nothing, p.close user)
  | .abandon user => (.nothing, p.abandon user)
  | .peerClosed channel => (.nothing, p.peerClosed channel)
  | .advance nanos => (.nothing, p.advance nanos)
  | .evict => (.nothing, p.evict.2)
  | .shutdown => (.nothing, p.shutdown)

/-- The pool after some steps. -/
def run (p : Pool) (events : List Event) : Pool := events.foldl (fun p e => (p.step e).2) p

end Pool

end ObjectStore
