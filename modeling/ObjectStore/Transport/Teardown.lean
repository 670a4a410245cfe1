import ObjectStore.Transport.Course

/-!
# Dispatches that are dropped in two parts

A transport some of whose dispatches are being dropped. A dispatch that is dropped while it waits
for its response loses the guard of its attachment first and its channel after that; others may take
their steps between the two.
-/

namespace ObjectStore

/-- An attach call: the dispatch, the channel, and the owner that the channel had. -/
structure AttachCall where
  dispatch : Nat
  channel : Nat
  found : Option Nat
  deriving Repr, DecidableEq

/-- A transport some of whose dispatches are being dropped, with the attach calls so far. -/
structure Teardown where
  transport : Transport
  /-- The dispatches that have lost their guards, and not yet their channels. -/
  falling : List Nat := []
  /-- The attach calls, the last one first. -/
  calls : List AttachCall := []

namespace Teardown

/-- A transport none of whose dispatches is being dropped. -/
def ofTransport (t : Transport) : Teardown := { transport := t }

/-- What may come next. -/
inductive Moment
  /-- A step of a dispatch, of the pool or of the clock. -/
  | step (e : Transport.Event)
  /-- A dispatch is dropped while it waits for its response: its guard goes first. -/
  | loseGuard (d : Nat)
  /-- A dispatch that has lost its guard loses its channel. -/
  | loseChannel (d : Nat)

/-- The attach call of a step. -/
def attaching (t : Transport) (e : Transport.Event) : Option AttachCall :=
  match t.report e with
  | .sent d channel _ => some ⟨d, channel, t.routes.owner? channel⟩
  | _ => none

/-- A step of a transport. -/
def take (s : Teardown) (e : Transport.Event) : Teardown :=
  { s with
    transport := s.transport.step e
    calls := (attaching s.transport e).toList ++ s.calls }

/-- The guard of a dispatch that is attached to a channel goes. -/
def dropGuard (s : Teardown) (d channel : Nat) : Teardown :=
  { s with
    transport := { s.transport with routes := s.transport.routes.dropGuard channel }
    falling := d :: s.falling }

/-- The channel of a dispatch goes, and the dispatch has ended. -/
def dropChannel (s : Teardown) (d : Nat) : Teardown :=
  { s with
    transport := (s.transport.onPool (·.close d)).enter d .ended
    falling := s.falling.filter (· != d) }

/-- A dispatch that is being dropped takes no steps any more. -/
def step (s : Teardown) (m : Moment) : Teardown :=
  match m with
  | .step e => if s.falling.any (e.dispatch? == some ·) then s else s.take e
  | .loseGuard d =>
      match s.transport.phase? d with
      | some (.exchanging channel _) =>
          if s.falling.contains d then s else s.dropGuard d channel
      | _ => s
  | .loseChannel d => if s.falling.contains d then s.dropChannel d else s

def run (s : Teardown) (moments : List Moment) : Teardown := moments.foldl step s

/-- The dispatch that was attached last to a channel. -/
def attachedLast? (s : Teardown) (channel : Nat) : Option Nat :=
  (s.calls.find? (·.channel == channel)).map (·.dispatch)

end Teardown

end ObjectStore
