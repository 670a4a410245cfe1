import ObjectStore.Network
import ObjectStore.Pool.Reaper

/-!
# Pools over a network

A pool whose users take their steps as soon as they can, over a network on which connections are
made or fail at once, on a clock that runs only while somebody waits.
-/

namespace ObjectStore

/-- What a user has got. -/
abbrev Acquired := Except PoolError Channel

/-- A pool with its surroundings. -/
structure PoolSimulation where
  pool : Pool
  network : Network
  reaper : Option Reaper := none
  /-- Whether a reaper was started that nobody has waited for. -/
  reaping : Bool := false
  /-- What users have got, the last one first. -/
  outcomes : List (Nat × Acquired) := []

namespace PoolSimulation

/-- What a user does next of itself. -/
def userStep (network : Network) (p : Pool) (user : Nat) : Stage → Option Pool.Event
  | .waiting deadline =>
      if p.isClosed then some (.resume user)
      else if deadline ≤ p.now then some (.expire user)
      else none
  | .granted => some (.resume user)
  | .connecting _ =>
      match network.failure? p.config.address with
      | none => some (.connected user)
      | some cause => some (.refused user cause)
  | .leased _ => none

/-- A step of a user, with what the user has got by it. -/
def take (s : PoolSimulation) (user : Nat) (e : Pool.Event) : PoolSimulation :=
  let (reply, pool) := s.pool.step e
  let s := { s with pool }
  match reply with
  | .leased c => { s with outcomes := (user, .ok c) :: s.outcomes }
  | .failed e => { s with outcomes := (user, .error e) :: s.outcomes }
  | _ => s

/-- The first step that some user takes now. -/
def next? (s : PoolSimulation) : Option (Nat × Pool.Event) :=
  s.pool.users.entries.findSome? fun (user, stage) =>
    (userStep s.network s.pool user stage).map (user, ·)

/-- Take steps that take no time; `fuel` bounds them. -/
def settleFor : Nat → PoolSimulation → PoolSimulation
  | 0, s => s
  | fuel + 1, s =>
      match s.next? with
      | none => s
      | some (user, e) => settleFor fuel (s.take user e)

/-- Take the steps that take no time: a user has at most three of them. -/
def settle (s : PoolSimulation) : PoolSimulation := s.settleFor (3 * s.pool.users.size + 1)

/-- The deadline of a user who waits for a permit. -/
def deadlineOf : Stage → Option Nat
  | .waiting deadline => some deadline
  | .granted | .connecting _ | .leased _ => none

/-- Let the clock run up to a time, with the ticks of the reaper. -/
def tickTo (s : PoolSimulation) (time : Nat) : PoolSimulation :=
  match s.reaper with
  | none => { s with pool := { s.pool with now := max time s.pool.now } }
  | some r =>
      let (reaper, pool) := r.runTo s.pool (max time s.pool.now)
      { s with reaper, pool }

/-- The deadlines up to a time, the first one first. -/
def deadlines (s : PoolSimulation) (time : Nat) : List Nat :=
  ((s.pool.users.values.filterMap deadlineOf).filter (· ≤ time)).mergeSort

/-- Let the clock run up to a time; users whose deadlines lie on the way take their steps. -/
def runTo (s : PoolSimulation) (time : Nat) : PoolSimulation :=
  ((s.deadlines time).foldl (fun s deadline => (s.tickTo deadline).settle) s).tickTo time |>.settle

/-- A user asks for a channel. -/
def start (s : PoolSimulation) (user : Nat) : PoolSimulation := (s.take user (.start user)).settle

/-- A user waits until the answer is there. -/
def await (s : PoolSimulation) (user : Nat) : PoolSimulation :=
  match (s.pool.stage? user).bind deadlineOf with
  | none => s
  | some deadline => s.runTo deadline

/-- What a user has got. -/
def outcome? (s : PoolSimulation) (user : Nat) : Option Acquired := s.outcomes.lookup user

/-- A user asks for a channel and waits until the answer is there. -/
def acquire (s : PoolSimulation) (user : Nat) : Option Acquired × PoolSimulation :=
  let s := (s.start user).await user
  (s.outcome? user, s)

/-- A change of the pool, and what users do then. -/
def change (s : PoolSimulation) (f : Pool → Pool) : PoolSimulation :=
  { s with pool := f s.pool }.settle

/-- Time passes. -/
def wait (s : PoolSimulation) (nanos : Nat) : PoolSimulation := s.runTo (s.pool.now + nanos)

/-- Close the idle channels that are no longer good, and count them. -/
def evict (s : PoolSimulation) : Nat × PoolSimulation :=
  (s.pool.evict.1, s.change fun p => p.evict.2)

/-- The other end closes every channel. -/
def disconnect (s : PoolSimulation) : PoolSimulation :=
  s.change fun p => (List.range p.nextId).foldl Pool.peerClosed p

/-- Let a reaper sweep the pool from now on. -/
def startReaper (s : PoolSimulation) : PoolSimulation :=
  { s with reaper := Reaper.ofPool s.pool, reaping := true }

/-- Wait for one more tick of the reaper. Tells whether it is over then; nothing is told when no
reaper was started since the last time. -/
def awaitReaper (s : PoolSimulation) : Option Bool × PoolSimulation :=
  if !s.reaping then (none, s)
  else
    let s := { s with reaping := false }
    match s.reaper with
    | none => (some true, s)
    | some r =>
        let s := s.runTo r.next
        (some s.reaper.isNone, s)

end PoolSimulation

end ObjectStore
