import ObjectStore.Client
import ObjectStore.Transport.Course

/-!
# The course of a client

What can be seen of the steps of a client from outside: which calls are answered at once, and which
attempts begin. And where a job notices that it was called off: while it waits for a channel or for
a response, and between two attempts.
-/

namespace ObjectStore

/-- The dispatch of the attempt that a job is in. -/
def Progress.dispatch? : Progress → Option Nat
  | .trying d => some d
  | .ready | .pausing _ | .done _ => none

/-- Whether a job is in an attempt, which holds a permit. -/
def Progress.isTrying (p : Progress) : Bool := p.dispatch?.isSome

/-- Whether a job has succeeded. -/
def Progress.isSuccess : Progress → Bool
  | .done (.ok _) => true
  | .done (.error _) | .ready | .trying _ | .pausing _ => false

namespace Client

/-- What can be seen of a step of a client. -/
inductive Report
  | nothing
  /-- A job is done without a request. -/
  | answered (job : Nat) (result : Result)
  /-- An attempt of a job begins. It has a dispatch if it is let in. -/
  | began (job : Nat) (dispatch : Option Nat)

def Report.isAttempt : Report → Bool
  | .began _ _ => true
  | .nothing | .answered _ _ => false

/-- Whether a job succeeds without a request. -/
def Report.isAnswer : Report → Bool
  | .answered _ (.ok _) => true
  | .answered _ (.error _) | .nothing | .began _ _ => false

/-- What can be seen of a step. -/
def report (c : Client) : Event → Report
  | .submit j (.ready result) => if c.jobs.contains j then .nothing else .answered j result
  | .attempt j =>
      match c.progress? j, c.limiter.enter.1 with
      | some .ready, .ok _ => .began j (some c.nextDispatch)
      | some .ready, .error _ => .began j none
      | _, _ => .nothing
  | _ => .nothing

/-- What can be seen of a run. -/
def reports (c : Client) : List Event → List Report
  | [] => []
  | e :: rest => c.report e :: (c.step e).reports rest

/-- The dispatch of the attempt that a job is in, if the job is there and in an attempt. -/
def trying? (c : Client) (j : Nat) : Option Nat := (c.progress? j).bind Progress.dispatch?

/-- The job whose step an event is. -/
def Event.job? : Event → Option Nat
  | .submit j _ | .attempt j | .collect j | .wake j | .cancel j | .heed j | .abort j => some j
  | .transport _ | .close => none

/-- Whether an event is a step of a job, or of a dispatch of it. -/
def Event.concerns (j : Nat) (d : Option Nat) : Event → Bool
  | .transport e => e.dispatch?.isSome && e.dispatch? == d
  | e => e.job? == some j

/-- Where a job notices that it was called off. -/
inductive Suspension
  /-- A dispatch waits for a permit of the pool or for a connection. -/
  | acquiring (dispatch : Nat)
  /-- A dispatch waits for the response on a channel. -/
  | exchanging (dispatch channel : Nat)
  /-- The job waits before its next attempt. -/
  | pausing
  deriving Repr, DecidableEq

def Suspension.dispatch? : Suspension → Option Nat
  | .acquiring d | .exchanging d _ => some d
  | .pausing => none

/-- Where a job waits, if it does. -/
def suspension? (c : Client) (j : Nat) : Option Suspension :=
  match c.progress? j with
  | some (.trying d) =>
      match c.transport.phase? d with
      | some .acquiring => some (.acquiring d)
      | some (.exchanging channel _) => some (.exchanging d channel)
      | _ => none
  | some (.pausing _) => some .pausing
  | _ => none

/-- The steps with which a job comes to its end after it has noticed that it was called off: its
dispatch takes its sink out of the routes, tells it, and drops its attachment, and the job collects
the result. -/
def Suspension.lastSteps (j : Nat) : Suspension → List Event
  | .acquiring _ => [.collect j]
  | .exchanging d _ =>
      [.transport (.route d), .transport (.tell d), .transport (.finish d), .collect j]
  | .pausing => []

end Client

end ObjectStore
