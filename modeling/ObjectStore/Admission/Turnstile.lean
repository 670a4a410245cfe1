import ObjectStore.Admission
import ObjectStore.Registry

/-!
# Turnstiles

A limiter with the permits that it gave out. The holder of a permit parts with it once: with the
word that the attempt succeeded, with the word that its outcome is to be ignored, or without a
word. Each of the three ends in the drop of the permit, which counts what was not counted yet and
gives the place back.
-/

namespace ObjectStore

/-- What an attempt holds that was let in. -/
structure Permit where
  /-- Whether a place among a limited number comes back with it. -/
  hasPlace : Bool
  /-- Whether the outcome of the attempt is counted already. -/
  recorded : Bool := false
  deriving Repr, DecidableEq

/-- How the holder of a permit parts with it. -/
inductive Parting
  | success
  | ignore
  | drop
  deriving Repr, DecidableEq

/-- How an attempt leaves whose permit is parted with. -/
def Parting.leaving : Parting → Leaving
  | .success => .success
  | .ignore | .drop => .ignored

namespace Limiter

/-- Let an attempt in and give it a permit, or refuse it at once. -/
def tryAcquire (l : Limiter) : Except AdmissionError Permit × Limiter :=
  match l.enter with
  | (.error e, l) => (.error e, l)
  | (.ok _, l) => (.ok { hasPlace := l.free.isSome }, l)

/-- The word of a holder is counted, and the permit remembers that. -/
def record (l : Limiter) (permit : Permit) : Parting → Permit × Limiter
  | .success =>
      ({ permit with recorded := true },
        { l with stats := { l.stats with succeeded := l.stats.succeeded + 1 } })
  | .ignore =>
      ({ permit with recorded := true },
        { l with stats := { l.stats with ignored := l.stats.ignored + 1 } })
  | .drop => (permit, l)

/-- A permit is dropped. An attempt of whose outcome nothing was said counts as ignored. -/
def drop (l : Limiter) (permit : Permit) : Limiter :=
  { l with
    free := if permit.hasPlace then l.free.map (· + 1) else l.free
    stats := { l.stats with
      inFlight := l.stats.inFlight - 1
      ignored := if permit.recorded then l.stats.ignored else l.stats.ignored + 1 } }

/-- The holder of a permit parts with it. -/
def part (l : Limiter) (permit : Permit) (how : Parting) : Limiter :=
  (l.record permit how).2.drop (l.record permit how).1

end Limiter

/-- A limiter between two calls, with the permits that it gave out. -/
structure Turnstile where
  limiter : Limiter
  /-- The permits that are outstanding, under the numbers of their attempts. -/
  held : Registry Permit := .empty
  /-- The attempts whose permits are gone, the last one first, and how they were parted with. -/
  gone : List (Nat × Parting) := []
  /-- The number of the attempt that is let in next. -/
  next : Nat := 0
  deriving Repr

namespace Turnstile

def ofLimit (limit : Nat) : Turnstile := { limiter := .ofLimit limit }

/-- An attempt asks to be let in. -/
def acquire (t : Turnstile) : Except AdmissionError Permit × Turnstile :=
  match t.limiter.tryAcquire with
  | (.error e, limiter) => (.error e, { t with limiter })
  | (.ok permit, limiter) =>
      (.ok permit, { t with limiter, held := t.held.set t.next permit, next := t.next + 1 })

/-- The permit of an attempt is parted with, if it is outstanding. -/
def part (t : Turnstile) (number : Nat) (how : Parting) : Turnstile :=
  match t.held.find? number with
  | none => t
  | some permit =>
      { t with
        limiter := t.limiter.part permit how
        held := t.held.erase number
        gone := (number, how) :: t.gone }

/-- The calls around a limiter. -/
inductive Event
  | acquire
  | part (number : Nat) (how : Parting)
  deriving Repr, DecidableEq

def step (t : Turnstile) : Event → Turnstile
  | .acquire => t.acquire.2
  | .part number how => t.part number how

/-- The turnstile after some calls. -/
def run (t : Turnstile) (events : List Event) : Turnstile := events.foldl step t

end Turnstile

end ObjectStore
