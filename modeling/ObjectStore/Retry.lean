import ObjectStore.ClientConfig

/-!
# Retries

How often an operation is tried and how long the pauses are: after the n-th failure n units,
while the failures are below the bound and another attempt may help. A run of attempts on a clock
is told by its trace.
-/

namespace ObjectStore

/-- How often to try, and the unit of the pauses. -/
structure RetryPolicy where
  maxRetries : Nat
  unit : Duration
  deriving Repr, DecidableEq

/-- One attempt: how it ends, and after how many nanoseconds. -/
structure Trial (α : Type) where
  outcome : Except OperationError α
  takes : Nat := 0

/-- The trace of a run: number and start of each attempt, the pauses between them, and when and
how the run ends. Times are nanoseconds on the clock of the run. -/
structure RetryTrace (α : Type) where
  attempts : List (Nat × Nat)
  pauses : List Duration
  ended : Nat
  outcome : Except OperationError α

namespace RetryPolicy

def ofConfig (c : ClientConfig) : RetryPolicy := ⟨c.maxRetries, c.retryBackoff⟩

/-- Whether there is an attempt after so many failures, the last of them given. -/
def shouldRetry (p : RetryPolicy) (failures : Nat) (e : OperationError) : Bool :=
  failures < p.maxRetries && e.isRetryable

/-- The pause after so many failures. -/
def delay (p : RetryPolicy) (failures : Nat) : Duration := p.unit.times failures

/-- The longest time that a timer runs: thirty years of 365 days, in nanoseconds. -/
def longestPause : Nat := 946080000000000000

/-- When a pause ends that begins now: timers fire on whole milliseconds. -/
def wake (now : Nat) (pause : Duration) : Nat :=
  (now + min pause.nanos longestPause + 999999) / 1000000 * 1000000

/-- When a run that pauses from `now` to `stop` is called off: a call that came earlier is
noticed when the pause begins, and a call as the pause ends comes too late. -/
def calledOff (cancelAt : Option Nat) (now stop : Nat) : Option Nat :=
  cancelAt.bind fun t => if t < stop then some (max t now) else none

/-- The attempts after so many failures. An attempt runs to its end; a call to stop is noticed
in the pauses. -/
def runFrom {α : Type} (p : RetryPolicy) (trial : Nat → Trial α) (cancelAt : Option Nat)
    (failures now : Nat) : RetryTrace α :=
  let number := failures + 1
  let ended := now + (trial number).takes
  match (trial number).outcome with
  | .ok a => ⟨[(number, now)], [], ended, .ok a⟩
  | .error e =>
      if _h : p.shouldRetry number e = true then
        let pause := p.delay number
        let next := wake ended pause
        match calledOff cancelAt ended next with
        | some t => ⟨[(number, now)], [pause], t, .error .cancelled⟩
        | none =>
            let rest := p.runFrom trial cancelAt number next
            ⟨(number, now) :: rest.attempts, pause :: rest.pauses, rest.ended, rest.outcome⟩
      else ⟨[(number, now)], [], ended, .error e⟩
termination_by p.maxRetries - failures
decreasing_by
  simp only [shouldRetry, Bool.and_eq_true, decide_eq_true_eq] at _h
  omega

/-- A run from its first attempt at time 0. -/
def run {α : Type} (p : RetryPolicy) (trial : Nat → Trial α) (cancelAt : Option Nat) :
    RetryTrace α :=
  p.runFrom trial cancelAt 0 0

end RetryPolicy

end ObjectStore
