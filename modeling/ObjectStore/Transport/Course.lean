import ObjectStore.Transport

/-!
# The course of a transport

What can be seen of the steps of a transport from outside: which dispatches begin, get a channel,
send their request and are decided, and which sinks are told. And whose step an event is.
-/

namespace ObjectStore

open Http

/-- What can be seen of a step of a transport. -/
inductive Report
  /-- Nothing. -/
  | nothing
  /-- A dispatch begins, with a sink that reads responses in a certain way. -/
  | registered (dispatch : Nat) (parser : Parser)
  /-- A dispatch gets a channel. -/
  | leased (dispatch channel : Nat)
  /-- A dispatch is decided before it has sent anything, and its sink is told at once. -/
  | refused (dispatch : Nat) (outcome : Outcome)
  /-- A request is sent on a channel, to which the sink of the dispatch is attached. -/
  | sent (dispatch channel : Nat) (request : WireRequest)
  /-- The exchange of a dispatch on a channel is over. A response has been read to its end. -/
  | settled (dispatch channel : Nat) (outcome : Outcome)
  /-- A sink is told of the outcome of an exchange. -/
  | told (sink : Nat) (outcome : Outcome)
  /-- The outcome of the exchange of a dispatch is dropped, for its channel has no owner. -/
  | unowned (dispatch : Nat) (outcome : Outcome)
  /-- A dispatch drops the guard of its attachment, which takes out a sink if there is one. -/
  | detached (dispatch : Nat) (sink : Option Nat)
  /-- A dispatch is dropped while it waits. -/
  | dropped (dispatch : Nat)
  /-- A dispatch is forgotten. -/
  | forgotten (dispatch : Nat)

/-- The dispatch or the sink that a report is about. -/
def Report.subject? : Report → Option Nat
  | .nothing => none
  | .registered d _ | .leased d _ | .refused d _ | .sent d _ _ | .settled d _ _ | .told d _
  | .unowned d _ | .detached d _ | .dropped d | .forgotten d => some d

/-- The sink that a guard takes out of the routes. -/
def Report.taken? : Report → Option Nat
  | .detached _ sink => sink
  | .nothing | .registered _ _ | .leased _ _ | .refused _ _ | .sent _ _ _ | .settled _ _ _
  | .told _ _ | .unowned _ _ | .dropped _ | .forgotten _ => none

namespace Transport

/-- The step of the pool that a step of a dispatch without a channel stands for. -/
def Event.acquisition? : Event → Option (Nat × (Pool → Reply × Pool))
  | .acquire d => some (d, (·.start d))
  | .resume d => some (d, (·.resume d))
  | .acquireExpired d => some (d, (·.expire d))
  | .connected d => some (d, (·.connected d))
  | .refused d cause => some (d, (·.refused d cause))
  | .handshakeFailed d => some (d, (·.connectFailed d .handshake))
  | .connectExpired d => some (d, (·.connectExpired d))
  | _ => none

/-- The request of a dispatch with a channel as it is written now, if its sink still waits. -/
def written? (t : Transport) (d : Nat) : Option (Except OperationError WireRequest) :=
  match t.phase? d, t.dispatches.find? d, t.channel? d with
  | some (.leased _), some x, some c =>
      if ((t.sinks.find? d).map (·.claimed)).getD false then none
      else some (x.request.toWire (x.request.virtualHost t.host t.port) (t.signed c x.request).1)
  | _, _, _ => none

/-- How a response that has come ends an exchange: one that is too long is a failure. -/
def accepted (t : Transport) (r : Response) : Outcome :=
  if t.maxContentLength < r.body.length then .failure (.bodyTooLarge t.maxContentLength)
  else .response r

/-- What can be seen of a step of a dispatch that asks for a channel. -/
def acquired (t : Transport) (d : Nat) (f : Pool → Reply × Pool) : Report :=
  match t.phase? d, (f t.pool).1 with
  | some .acquiring, .leased c => .leased d c.id
  | some .acquiring, .failed e => .refused d (.failure (.pool e))
  | _, _ => .nothing

/-- What can be seen of a step. -/
def report (t : Transport) : Event → Report
  | .register d _ parser =>
      if t.dispatches.contains d then .nothing else .registered d parser
  | .send d =>
      match t.phase? d, t.written? d with
      | some (.leased _), some (.error e) => .refused d (.failure e)
      | some (.leased c), some (.ok wire) => .sent d c wire
      | _, _ => .nothing
  | .response d r =>
      match t.phase? d with
      | some (.exchanging c _) => .settled d c (t.accepted r)
      | _ => .nothing
  | .failure d e =>
      match t.phase? d with
      | some (.exchanging c _) => .settled d c (.failure e)
      | _ => .nothing
  | .expire d =>
      match t.phase? d with
      | some (.exchanging c deadline) =>
          if deadline ≤ t.pool.now then .settled d c (.failure (.timeout t.requestTimeout))
          else .nothing
      | _ => .nothing
  | .cancel d =>
      match t.phase? d with
      | some .acquiring => .refused d .cancelled
      | some (.exchanging c _) => .settled d c .cancelled
      | _ => .nothing
  | .tell d =>
      match t.phase? d with
      | some (.routed _ (some owner) outcome) => .told owner outcome
      | some (.routed _ none outcome) => .unowned d outcome
      | _ => .nothing
  | .finish d =>
      match t.phase? d with
      | some (.returning c) => .detached d (t.routes.owner? c)
      | _ => .nothing
  | .drop d =>
      match t.phase? d with
      | some .acquiring | some (.exchanging _ _) => .dropped d
      | _ => .nothing
  | .forget d =>
      match t.phase? d with
      | some .ended => .forgotten d
      | _ => .nothing
  | e =>
      match e.acquisition? with
      | none => .nothing
      | some (d, f) => t.acquired d f

/-- What can be seen of a run. -/
def reports (t : Transport) : List Event → List Report
  | [] => []
  | e :: rest => t.report e :: (t.step e).reports rest

/-- The dispatch whose step an event is. -/
def Event.dispatch? : Event → Option Nat
  | .register d _ _ | .acquire d | .resume d | .acquireExpired d | .connected d | .refused d _
  | .handshakeFailed d | .connectExpired d | .send d | .response d _ | .failure d _ | .expire d
  | .cancel d | .route d | .tell d | .parse d | .finish d | .drop d | .forget d => some d
  | .peerClosed _ | .advance _ | .evict | .shutdown => none

/-- The requests that a dispatch has sent, the last one first. -/
def sentBy (t : Transport) (d : Nat) : List Sent := t.sent.filter (·.dispatch == d)

end Transport

end ObjectStore
