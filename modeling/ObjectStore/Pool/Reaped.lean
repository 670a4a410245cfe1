import ObjectStore.Pool.Reaper

/-!
# Pools with a reaper

A pool and its reaper on one clock, which does not run past a tick before the tick is there. Users
take their steps at any time between two ticks, also at the instant of a tick.
-/

namespace ObjectStore

/-- A pool with its reaper, as long as this one goes on. -/
structure Reaped where
  pool : Pool
  reaper : Option Reaper

/-- One tick: the pool is swept, or the reaper stops since the pool is closed. -/
def Reaper.tick (r : Reaper) (p : Pool) : Reaped :=
  if p.isClosed then ⟨p, none⟩ else ⟨p.evict.2, some { r with next := r.next + r.period }⟩

namespace Reaped

/-- A pool without users and channels, whose reaper was just started. -/
def ofConfig (config : PoolConfig) : Reaped := ⟨.ofConfig config, Reaper.ofPool (.ofConfig config)⟩

/-- What may come next. -/
inductive Move
  | step (e : Pool.Event)
  | tick
  deriving Repr, DecidableEq

/-- Whether a move closes the idle channels that are no longer good: at a tick, or because a user
asks for it. -/
def Move.isSweep : Move → Bool
  | .tick => true
  | .step e => e = .evict

/-- The state after a move. There is none where the clock would run past a tick, or where no tick
is due. -/
def move? (s : Reaped) : Move → Option Reaped
  | .step e =>
      let pool := (s.pool.step e).2
      if s.reaper.all fun r => pool.now ≤ r.next then some { s with pool } else none
  | .tick =>
      match s.reaper with
      | none => none
      | some r => if s.pool.now = r.next then some (r.tick s.pool) else none

/-- The state after some moves. -/
def run? (s : Reaped) (moves : List Move) : Option Reaped := moves.foldlM move? s

/-- Since when a channel is idle, for one who looks at the numbers of the idle channels after each
move. -/
inductive IdleSince (start : Reaped) (id : Nat) : List Move → Nat → Prop
  | enters {moves : List Move} {m : Move} {s t : Reaped} (hrun : start.run? moves = some s)
      (hmove : s.move? m = some t) (hbefore : id ∉ s.pool.idle.map (·.id))
      (hafter : id ∈ t.pool.idle.map (·.id)) : IdleSince start id (moves ++ [m]) t.pool.now
  | stays {moves : List Move} {m : Move} {t : Reaped} {time : Nat}
      (h : IdleSince start id moves time) (hrun : start.run? (moves ++ [m]) = some t)
      (hafter : id ∈ t.pool.idle.map (·.id)) : IdleSince start id (moves ++ [m]) time

end Reaped

end ObjectStore
