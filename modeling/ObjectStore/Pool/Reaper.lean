import ObjectStore.Pool

/-!
# The reaper

A reaper sweeps a pool at every tick of a period, the longest time that a channel may be idle,
and stops with the first tick after the pool is closed. Where idle channels stay good for ever
there is no reaper.
-/

namespace ObjectStore

/-- A reaper between two ticks. -/
structure Reaper where
  period : Nat
  /-- When the next tick is. -/
  next : Nat
  period_pos : 0 < period

namespace Reaper

/-- The reaper of a pool. -/
def ofPool (p : Pool) : Option Reaper :=
  match p.config.maxIdle with
  | none => none
  | some limit =>
      if h : 0 < limit.nanos then some ⟨limit.nanos, p.now + limit.nanos, h⟩ else none

/-- Let the clock of a pool run up to a time, with the ticks on the way. Tells whether the reaper
goes on. -/
def runTo (r : Reaper) (p : Pool) (time : Nat) : Option Reaper × Pool :=
  if time < r.next then (some r, { p with now := time })
  else
    let p := { p with now := r.next }
    if p.isClosed then (none, { p with now := time })
    else runTo { r with next := r.next + r.period } p.evict.2 time
termination_by time + 1 - r.next
decreasing_by
  have := r.period_pos
  omega

end Reaper

end ObjectStore
