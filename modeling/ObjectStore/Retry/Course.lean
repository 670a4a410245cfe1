import ObjectStore.Retry

/-!
# The course of retries

Which attempt of a run is the last one, and when each attempt starts, said without the run. Beside
it stands the run with its failures counted in 32 bits, which is lost when the counter has no next
number.
-/

namespace ObjectStore

variable {α : Type}

/-- Whether another attempt cannot help: there is a value, or a failure that will not pass. -/
def Trial.isFinal (t : Trial α) : Bool :=
  match t.outcome with
  | .ok _ => true
  | .error e => e.retryClass == .fatal

namespace RetryPolicy

/-- The greatest number of attempts. -/
def bound (p : RetryPolicy) : Nat := max 1 p.maxRetries

/-- The number of the last attempt: that of the first one after which no other can help, if there is
one within the bound, and the bound otherwise. -/
def lastAttempt (p : RetryPolicy) (trial : Nat → Trial α) : Nat :=
  ((List.range' 1 p.bound).find? fun k => (trial k).isFinal).getD p.bound

/-- When the attempt after so many failures starts. -/
def startAfter (p : RetryPolicy) (trial : Nat → Trial α) : Nat → Nat
  | 0 => 0
  | k + 1 => wake (p.startAfter trial k + (trial (k + 1)).takes) (p.delay (k + 1))

/-- The attempts after so many failures, which are counted in 32 bits. Nothing is left of them when
the counter has no next number. -/
def countedFrom (p : RetryPolicy) (trial : Nat → Trial α) (cancelAt : Option Nat)
    (failures now : Nat) : Option (RetryTrace α) :=
  if _hn : failures + 1 < word32 then
    let number := failures + 1
    let ended := now + (trial number).takes
    match (trial number).outcome with
    | .ok a => some ⟨[(number, now)], [], ended, .ok a⟩
    | .error e =>
        if _h : p.shouldRetry number e = true then
          let pause := p.delay number
          let next := wake ended pause
          match calledOff cancelAt ended next with
          | some t => some ⟨[(number, now)], [pause], t, .error .cancelled⟩
          | none =>
              (p.countedFrom trial cancelAt number next).map fun rest =>
                ⟨(number, now) :: rest.attempts, pause :: rest.pauses, rest.ended, rest.outcome⟩
        else some ⟨[(number, now)], [], ended, .error e⟩
  else none
termination_by p.maxRetries - failures
decreasing_by
  simp only [shouldRetry, Bool.and_eq_true, decide_eq_true_eq] at _h
  omega

/-- A run with its failures counted in 32 bits. -/
def counted (p : RetryPolicy) (trial : Nat → Trial α) (cancelAt : Option Nat) :
    Option (RetryTrace α) :=
  p.countedFrom trial cancelAt 0 0

end RetryPolicy

end ObjectStore
