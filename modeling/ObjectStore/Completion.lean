import ObjectStore.Answer
import ObjectStore.Pool

/-!
# Completions

A completion turns what happens to one attempt into its result. It is told of a response, a
failure or a cancellation, and the first of them alone counts. With a response or a failure comes
the channel of the attempt, which is pooled or closed in any case.
-/

namespace ObjectStore

open Http

/-- The result of an attempt. -/
abbrev Result := Except OperationError Answer

/-- What the receiver of a result finds. -/
inductive Receipt
  /-- No result yet. -/
  | nothing
  | result (r : Result)
  /-- No result any more. -/
  | gone

/-- What a completion is told of, with the user of the pool whose lease comes with it. -/
inductive Arrival
  | response (r : Response) (user : Nat)
  | failure (e : OperationError) (user : Option Nat)
  | cancellation

/-- The state of a completion and of its receiver. -/
structure Completion where
  parser : Parser
  /-- Something has happened that counts. -/
  claimed : Bool := false
  /-- The result, once it is delivered. -/
  delivered : Option Result := none
  /-- The receiver has taken the result. -/
  taken : Bool := false

namespace Completion

def ofParser (parser : Parser) : Completion := { parser }

/-- Claim the right to deliver; only the first claim has it. -/
def claim (c : Completion) : Bool × Completion := (!c.claimed, { c with claimed := true })

/-- Deliver a result. A second delivery does nothing. -/
def deliver (c : Completion) (r : Result) : Completion :=
  if c.delivered.isSome then c else { c with delivered := some r }

/-- What becomes of the channel of a response. -/
def disposal (r : Response) : Disposal := if r.keepAlive then .release else .close

/-- A response has come. Its channel is disposed of before it is parsed. -/
def onResponse (c : Completion) (r : Response) : Disposal × Completion :=
  match c.claim with
  | (true, c) => (disposal r, c.deliver (c.parser.complete r))
  | (false, c) => (disposal r, c)

/-- The attempt has failed. Its channel, if it has one, is closed. -/
def onFailure (c : Completion) (e : OperationError) : Completion :=
  match c.claim with
  | (true, c) => c.deliver (.error e)
  | (false, c) => c

/-- The attempt is called off. -/
def onCancel (c : Completion) : Completion := c.onFailure .cancelled

/-- Something arrives: the lease that ends with it, and the completion afterwards. -/
def arrive (c : Completion) : Arrival → Option (Nat × Disposal) × Completion
  | .response r user => let (how, c) := c.onResponse r; (some (user, how), c)
  | .failure e user => (user.map (·, .close), c.onFailure e)
  | .cancellation => (none, c.onCancel)

/-- The receiver looks for the result and takes it. -/
def receive (c : Completion) : Receipt × Completion :=
  match c.delivered with
  | none => (.nothing, c)
  | some r => if c.taken then (.gone, c) else (.result r, { c with taken := true })

/-- What the receiver finds when nothing can be delivered any more. -/
def receiveLast (c : Completion) : Receipt :=
  match c.receive.1 with
  | .nothing => .gone
  | found => found

end Completion

end ObjectStore
