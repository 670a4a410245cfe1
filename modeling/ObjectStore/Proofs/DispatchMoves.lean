import ObjectStore.Proofs.PoolLeases
import ObjectStore.Transport.Course

/-!
# Moves of dispatches

What one step of a transport does, as a move, which relates the state before it to the state after
it. The lemma `step_move` joins the moves with the reports. What holds after every run is proved by
cases on the moves, and what is said of the course of a run is said of its reports.
-/

namespace ObjectStore

open Http

/-- The error that an outcome without a response stands for. -/
def Outcome.error? : Outcome → Option OperationError
  | .response _ => none
  | .failure e => some e
  | .cancelled => some .cancelled

/-- The channel that a dispatch in a phase has leased. -/
def Phase.held? : Phase → Option Nat
  | .leased c | .exchanging c _ | .settled c _ | .routed c _ _ => some c
  | .acquiring | .parsing _ _ _ | .returning _ | .ended => none

/-- The channel to which a dispatch in a phase is attached. -/
def Phase.attached? : Phase → Option Nat
  | .exchanging c _ | .settled c _ => some c
  | .acquiring | .leased _ | .routed _ _ _ | .parsing _ _ _ | .returning _ | .ended => none

/-- The sink that a dispatch in a phase is about to tell. -/
def Phase.addressee? : Phase → Option Nat
  | .routed _ owner _ => owner
  | .parsing _ owner _ => some owner
  | .acquiring | .leased _ | .exchanging _ _ | .settled _ _ | .returning _ | .ended => none

/-- Whether the channel of a dispatch may be pooled in a phase. -/
def Phase.mayPool : Phase → Bool
  | .leased _ => true
  | .routed _ _ (.response r) => r.keepAlive
  | .routed _ _ (.failure _) | .routed _ _ .cancelled | .acquiring | .exchanging _ _
  | .settled _ _ | .parsing _ _ _ | .returning _ | .ended => false

namespace Transport

variable {t : Transport} {d : Nat}

/-- The transport after a dispatch has sent a request on the channel it has leased. -/
def sentOn (t : Transport) (d channel : Nat) (c : Channel) (request : Request)
    (wire : WireRequest) : Transport :=
  { t with
    source := (t.signed c request).2.2
    routes := t.routes.attach channel d
    pool := (t.pool.put d (.leased (t.signed c request).2.1)).send d
    sent := ⟨d, channel, wire⟩ :: t.sent }.enter d
    (.exchanging channel (t.pool.now + t.requestTimeout.nanos))

/-! ## Runs and their reports -/

theorem run_append_cons (t : Transport) (es : List Event) (e : Event) (fs : List Event) :
    t.run (es ++ e :: fs) = ((t.run es).step e).run fs := List.foldl_append

theorem reports_append (t : Transport) (es fs : List Event) :
    t.reports (es ++ fs) = t.reports es ++ (t.run es).reports fs := by
  induction es generalizing t with
  | nil => rfl
  | cons e rest ih => exact congrArg (t.report e :: ·) (ih (t.step e))

/-! ## Moves -/

/-- What a step of a dispatch that shows as a report does to a transport. A step that changes
nothing but the pool, and no lease there, is a step of any dispatch. -/
inductive Move (t : Transport) (d : Nat) : Report → Transport → Prop
  | nothing : Move t d .nothing t
  | pool {p : Pool} (hp : t.pool.Keeps p) : Move t d .nothing { t with pool := p }
  | registered {request : Request} {parser : Parser} (hd : t.phase? d = none) :
      Move t d (.registered d parser)
        { t with
          dispatches := t.dispatches.set d { request }
          sinks := t.sinks.set d (.ofParser parser) }
  | leased {c : Channel} {p : Pool} (hd : t.phase? d = some .acquiring)
      (hp : Pool.Gains d c t.pool p) :
      Move t d (.leased d c.id) ({ t with pool := p }.enter d (.leased c.id))
  | refused {q : Phase} {outcome : Outcome} {e : OperationError} {s : CredentialsSource}
      {p : Pool} (hd : t.phase? d = some q) (hq : q = .acquiring ∨ ∃ c, q = .leased c)
      (he : outcome.error? = some e) (hp : Pool.Leaves d t.pool p) :
      Move t d (.refused d outcome)
        (({ t with source := s, pool := p }.notify d (·.onFailure e)).enter d .ended)
  | withheld {c : Nat} {x : Completion} {p : Pool} (hd : t.phase? d = some (.leased c))
      (hx : t.sinks.find? d = some x) (hclaimed : x.claimed = true)
      (hp : Pool.Leaves d t.pool p ∨ Pool.Pools d t.pool p) :
      Move t d .nothing ({ t with pool := p }.enter d .ended)
  | sent {c deadline : Nat} {wire : WireRequest} {s : CredentialsSource} {p : Pool}
      (hd : t.phase? d = some (.leased c)) (hp : Pool.Marks d true t.pool p) :
      Move t d (.sent d c wire)
        ({ t with
            source := s
            routes := t.routes.attach c d
            pool := p
            sent := ⟨d, c, wire⟩ :: t.sent }.enter d (.exchanging c deadline))
  | answered {c deadline : Nat} {r : Response} {p : Pool}
      (hd : t.phase? d = some (.exchanging c deadline)) (hp : Pool.Marks d false t.pool p) :
      Move t d (.settled d c (.response r))
        ({ t with pool := p }.enter d (.settled c (.response r)))
  | failed {c deadline : Nat} {outcome : Outcome} {e : OperationError}
      (hd : t.phase? d = some (.exchanging c deadline)) (he : outcome.error? = some e) :
      Move t d (.settled d c outcome) (t.enter d (.settled c outcome))
  | routed {c : Nat} {outcome : Outcome} (hd : t.phase? d = some (.settled c outcome)) :
      Move t d .nothing
        ({ t with routes := (t.routes.detach c).2 }.enter d
          (.routed c (t.routes.owner? c) outcome))
  | toldResponse {c owner : Nat} {r : Response} {x : Completion} {p : Pool}
      (hd : t.phase? d = some (.routed c (some owner) (.response r)))
      (hx : t.sinks.find? owner = some x)
      (hp : Pool.Leaves d t.pool p ∨ (r.keepAlive = true ∧ Pool.Pools d t.pool p)) :
      Move t d (.told owner (.response r))
        ({ t with pool := p, sinks := t.sinks.set owner x.claim.2 }.enter d
          (if x.claim.1 then .parsing c owner r else .returning c))
  | toldNobody {c owner : Nat} {r : Response} {p : Pool}
      (hd : t.phase? d = some (.routed c (some owner) (.response r)))
      (hx : t.sinks.find? owner = none)
      (hp : Pool.Leaves d t.pool p ∨ (r.keepAlive = true ∧ Pool.Pools d t.pool p)) :
      Move t d (.told owner (.response r)) ({ t with pool := p }.enter d (.returning c))
  | toldError {c owner : Nat} {outcome : Outcome} {e : OperationError} {p : Pool}
      (hd : t.phase? d = some (.routed c (some owner) outcome)) (he : outcome.error? = some e)
      (hp : Pool.Leaves d t.pool p) :
      Move t d (.told owner outcome)
        (({ t with pool := p }.notify owner (·.onFailure e)).enter d (.returning c))
  | unowned {c : Nat} {outcome : Outcome} {p : Pool}
      (hd : t.phase? d = some (.routed c none outcome)) (hp : Pool.Leaves d t.pool p) :
      Move t d (.unowned d outcome) ({ t with pool := p }.enter d (.returning c))
  | parsed {c owner : Nat} {r : Response} (hd : t.phase? d = some (.parsing c owner r)) :
      Move t d .nothing
        ((t.notify owner fun x => x.deliver (x.parser.complete r)).enter d (.returning c))
  | detached {c : Nat} (hd : t.phase? d = some (.returning c)) :
      Move t d (.detached d (t.routes.owner? c))
        ({ t with routes := t.routes.dropGuard c }.enter d .ended)
  | droppedEarly {p : Pool} (hd : t.phase? d = some .acquiring)
      (hp : Pool.Leaves d t.pool p) :
      Move t d (.dropped d) ({ t with pool := p }.enter d .ended)
  | droppedLate {c deadline : Nat} {p : Pool} (hd : t.phase? d = some (.exchanging c deadline))
      (hp : Pool.Leaves d t.pool p) :
      Move t d (.dropped d) ({ t with routes := t.routes.dropGuard c, pool := p }.enter d .ended)
  | forgotten (hd : t.phase? d = some .ended) :
      Move t d (.forgotten d)
        { t with dispatches := t.dispatches.erase d, sinks := t.sinks.erase d }

/-- What a step of a dispatch does to the pool. -/
inductive PoolMove (t : Transport) (d : Nat) (p : Pool) : Prop
  | keeps (h : t.pool.Keeps p)
  | marks {unread : Bool} (h : Pool.Marks d unread t.pool p)
  | leaves (h : Pool.Leaves d t.pool p)
  | pools {q : Phase} (hd : t.phase? d = some q) (hq : q.mayPool = true)
      (h : Pool.Pools d t.pool p)
  | gains {c : Channel} (h : Pool.Gains d c t.pool p)

theorem Move.poolMove {r : Report} {t' : Transport} (hm : t.Move d r t') :
    t.PoolMove d t'.pool := by
  cases hm with
  | nothing | registered | failed | routed | parsed | detached | forgotten =>
      exact .keeps (Pool.Keeps.refl _)
  | pool hp => exact .keeps hp
  | leased _ hp => exact .gains hp
  | sent _ hp => exact .marks hp
  | answered _ hp => exact .marks hp
  | refused _ _ _ hp => exact .leaves hp
  | withheld hd _ _ hp =>
      rcases hp with hp | hp
      · exact .leaves hp
      · exact .pools hd rfl hp
  | toldResponse hd _ hp =>
      rcases hp with hp | ⟨hkeep, hp⟩
      · exact .leaves hp
      · exact .pools hd hkeep hp
  | toldNobody hd _ hp =>
      rcases hp with hp | ⟨hkeep, hp⟩
      · exact .leaves hp
      · exact .pools hd hkeep hp
  | toldError _ _ hp => exact .leaves hp
  | unowned _ hp => exact .leaves hp
  | droppedEarly _ hp => exact .leaves hp
  | droppedLate _ hp => exact .leaves hp

/-- The requests that went out are those of which there is a report. -/
theorem Move.sent_cases {r : Report} {t' : Transport} (hm : t.Move d r t') :
    t'.sent = t.sent ∨ ∃ c wire, r = .sent d c wire ∧ t'.sent = ⟨d, c, wire⟩ :: t.sent := by
  cases hm with
  | sent => exact Or.inr ⟨_, _, rfl, rfl⟩
  | _ => exact Or.inl rfl

theorem channel?_eq (t : Transport) (d : Nat) : t.channel? d = t.pool.lease? d := by
  unfold channel? Pool.lease?
  cases t.pool.stage? d with
  | none => rfl
  | some s => cases s <;> rfl

theorem leasing_of_acquisition {e : Event} {f : Pool → Reply × Pool}
    (h : e.acquisition? = some (d, f)) (p : Pool) : Pool.Leasing d p (f p).1 (f p).2 := by
  cases e <;>
    simp only [Event.acquisition?, Option.some.injEq, Prod.mk.injEq, reduceCtorEq] at h <;>
    obtain ⟨rfl, rfl⟩ := h
  · exact Pool.leasing_start p _
  · exact Pool.leasing_resume p _
  · exact Pool.leasing_expire p _
  · exact Pool.leasing_connected p _
  · exact Pool.leasing_connectFailed p _ _
  · exact Pool.leasing_connectFailed p _ _
  · exact Pool.leasing_connectExpired p _

theorem move_acquiring {f : Pool → Reply × Pool}
    (hf : ∀ p, Pool.Leasing d p (f p).1 (f p).2) (t : Transport) :
    Move t d (t.acquired d f) (t.acquiring d f) := by
  have hl := hf t.pool
  by_cases hd : t.phase? d = some .acquiring
  · cases hfp : f t.pool with
    | mk reply p =>
        rw [hfp] at hl
        cases reply with
        | leased c =>
            simp only [acquired, acquiring, hd, hfp]
            cases hl with
            | waits hfinal _ => cases hfinal
            | leases hp => exact .leased hd hp
        | failed e =>
            simp only [acquired, acquiring, hd, hfp]
            cases hl with
            | waits hfinal _ => cases hfinal
            | fails hp => exact .refused (s := t.source) hd (Or.inl rfl) rfl hp
        | nothing | waiting | connecting =>
            simp only [acquired, acquiring, hd, hfp]
            cases hl with
            | waits _ hp => exact .pool hp
  · have hreport : t.acquired d f = .nothing := by
      unfold acquired
      split <;> first | rfl | contradiction
    have hstep : t.acquiring d f = t := by
      unfold acquiring
      split
      · contradiction
      · rfl
    rw [hreport, hstep]
    exact .nothing

theorem move_of_acquisition {e : Event} {f : Pool → Reply × Pool}
    (h : e.acquisition? = some (d, f)) (t : Transport) : Move t d (t.report e) (t.step e) := by
  have hmove := move_acquiring (leasing_of_acquisition h) t
  cases e <;>
    simp only [Event.acquisition?, Option.some.injEq, Prod.mk.injEq, reduceCtorEq] at h <;>
    obtain ⟨rfl, rfl⟩ := h <;> exact hmove

theorem move_register (t : Transport) (d : Nat) (request : Request) (parser : Parser) :
    Move t d (t.report (.register d request parser)) (t.register d request parser) := by
  simp only [report, register]
  split
  · exact .nothing
  · rename_i hd
    apply Move.registered
    have hnone : t.dispatches.find? d = none := by
      apply Registry.find?_eq_none.2
      simpa [Registry.contains] using hd
    simp [phase?, hnone]

/-- A sink that has a result is there. -/
private theorem exists_of_claimed {t : Transport} {d : Nat}
    (h : ((t.sinks.find? d).map (·.claimed)).getD false = true) :
    ∃ x, t.sinks.find? d = some x ∧ x.claimed = true := by
  cases hx : t.sinks.find? d with
  | none => simp [hx] at h
  | some x => exact ⟨x, rfl, by simpa [hx] using h⟩

/-- A request that can be written goes out if the sink still waits. -/
theorem send_of_written {t : Transport} {d channel : Nat} {x : Dispatch} {c : Channel}
    {wire : WireRequest} (hd : t.phase? d = some (.leased channel))
    (hx : t.dispatches.find? d = some x) (hc : t.channel? d = some c)
    (hclaimed : ((t.sinks.find? d).map (·.claimed)).getD false = false)
    (hw : x.request.toWire (x.request.virtualHost t.host t.port) (t.signed c x.request).1 =
      .ok wire) :
    t.send d = t.sentOn d channel c x.request wire ∧
      t.report (.send d) = .sent d channel wire := by
  constructor
  · simp only [send, sentOn, hd, hx, hc, hclaimed, hw]
    rfl
  · simp only [report, written?, hd, hx, hc, hclaimed, hw]
    rfl

/-- A dispatch with a channel sends its request, unless its sink has a result or the request
cannot be written. -/
theorem move_send_leased {t : Transport} {d channel : Nat} {x : Dispatch} {c : Channel}
    (hd : t.phase? d = some (.leased channel)) (hx : t.dispatches.find? d = some x)
    (hlease : t.pool.lease? d = some c) : Move t d (t.report (.send d)) (t.send d) := by
  have hc : t.channel? d = some c := by rw [channel?_eq, hlease]
  have hput : t.pool.Keeps (t.pool.put d (.leased (t.signed c x.request).2.1)) :=
    Pool.keeps_put_leased hlease rfl
  cases hclaimed : ((t.sinks.find? d).map (·.claimed)).getD false with
  | true =>
      obtain ⟨y, hy, hyclaimed⟩ := exists_of_claimed hclaimed
      simp only [report, send, written?, hd, hx, hc, hclaimed, if_true]
      exact .withheld hd hy hyclaimed (Pool.release_cases t.pool d)
  | false =>
      cases hw : x.request.toWire (x.request.virtualHost t.host t.port)
          (t.signed c x.request).1 with
      | error e =>
          simp only [report, send, written?, hd, hx, hc, hclaimed, hw]
          have hleaves := Pool.leaves_close (t.pool.put d (.leased (t.signed c x.request).2.1)) d
          refine .refused hd (Or.inr ⟨channel, rfl⟩) rfl ⟨?_, hleaves.idle, hleaves.nextId⟩
          intro v
          rw [hleaves.view, hput.view]
      | ok wire =>
          obtain ⟨hsend, hreport⟩ := send_of_written hd hx hc hclaimed hw
          rw [hsend, hreport, sentOn]
          have hmarks := Pool.marks_send (t.pool.put d (.leased (t.signed c x.request).2.1)) d
          refine .sent hd ⟨?_, hmarks.idle, hmarks.nextId⟩
          intro v
          rw [hmarks.view, hput.view, hput.view]

theorem move_send (t : Transport) (d : Nat) : Move t d (t.report (.send d)) (t.send d) := by
  cases hd : t.phase? d with
  | none => simpa only [report, send, hd] using Move.nothing
  | some q =>
      cases q with
      | leased channel =>
          cases hx : t.dispatches.find? d with
          | none => simpa only [report, send, written?, hd, hx] using Move.nothing
          | some x =>
              cases hc : t.channel? d with
              | none => simpa only [report, send, written?, hd, hx, hc] using Move.nothing
              | some c => exact move_send_leased hd hx (by rw [← channel?_eq, hc])
      | _ => simpa only [report, send, hd] using Move.nothing

theorem move_response (t : Transport) (d : Nat) (r : Response) :
    Move t d (t.report (.response d r)) (t.receive d r) := by
  cases hd : t.phase? d with
  | none => simpa only [report, receive, hd] using Move.nothing
  | some q =>
      cases q with
      | exchanging c deadline =>
          by_cases hlong : t.maxContentLength < r.body.length
          · simpa only [report, receive, settle, accepted, hd, hlong, if_true] using
              Move.failed hd rfl
          · have hd' : (t.onPool (·.received d)).phase? d = some (.exchanging c deadline) := hd
            simp only [report, receive, settle, accepted, hd, hd', hlong, if_false]
            exact .answered hd (Pool.marks_received t.pool d)
      | _ => simpa only [report, receive, hd] using Move.nothing

theorem move_failure (t : Transport) (d : Nat) (e : OperationError) :
    Move t d (t.report (.failure d e)) (t.settle d (.failure e)) := by
  cases hd : t.phase? d with
  | none => simpa only [report, settle, hd] using Move.nothing
  | some q =>
      cases q with
      | exchanging c deadline => simpa only [report, settle, hd] using Move.failed hd rfl
      | _ => simpa only [report, settle, hd] using Move.nothing

theorem move_expire (t : Transport) (d : Nat) :
    Move t d (t.report (.expire d)) (t.expire d) := by
  cases hd : t.phase? d with
  | none => simpa only [report, expire, hd] using Move.nothing
  | some q =>
      cases q with
      | exchanging c deadline =>
          by_cases hlate : deadline ≤ t.pool.now
          · simpa only [report, expire, settle, hd, hlate, if_true] using Move.failed hd rfl
          · simpa only [report, expire, hd, hlate, if_false] using Move.nothing
      | _ => simpa only [report, expire, hd] using Move.nothing

theorem move_cancel (t : Transport) (d : Nat) :
    Move t d (t.report (.cancel d)) (t.cancel d) := by
  cases hd : t.phase? d with
  | none => simpa only [report, cancel, hd] using Move.nothing
  | some q =>
      cases q with
      | acquiring =>
          simp only [report, cancel, hd]
          exact .refused (s := t.source) hd (Or.inl rfl) rfl (Pool.leaves_abandon t.pool d)
      | exchanging c deadline => simpa only [report, cancel, settle, hd] using Move.failed hd rfl
      | _ => simpa only [report, cancel, hd] using Move.nothing

theorem move_route (t : Transport) (d : Nat) : Move t d (t.report (.route d)) (t.route d) := by
  change Move t d .nothing (t.route d)
  cases hd : t.phase? d with
  | none => simpa only [route, hd] using Move.nothing
  | some q =>
      cases q with
      | settled c outcome =>
          simp only [route, hd]
          exact .routed hd
      | _ => simpa only [route, hd] using Move.nothing

/-- The channel of a response is pooled only if the response allows it. -/
theorem dispose_response (p : Pool) (d : Nat) (r : Response) :
    Pool.Leaves d p (p.dispose d (Completion.disposal r)) ∨
      (r.keepAlive = true ∧ Pool.Pools d p (p.dispose d (Completion.disposal r))) := by
  by_cases hkeep : r.keepAlive = true
  · rw [Completion.disposal, if_pos hkeep]
    exact (Pool.release_cases p d).imp id fun h => ⟨hkeep, h⟩
  · rw [Completion.disposal, if_neg hkeep]
    exact Or.inl (Pool.leaves_close p d)

theorem move_tell (t : Transport) (d : Nat) : Move t d (t.report (.tell d)) (t.tell d) := by
  cases hd : t.phase? d with
  | none => simpa only [report, tell, hd] using Move.nothing
  | some q =>
      cases q with
      | routed c owner outcome =>
          cases owner with
          | none =>
              simp only [report, tell, hd]
              exact .unowned hd (Pool.leaves_close t.pool d)
          | some owner =>
              cases outcome with
              | response r =>
                  cases hx : t.sinks.find? owner with
                  | none =>
                      simpa only [report, tell, hd, dispose, onPool, hx] using
                        Move.toldNobody hd hx (dispose_response t.pool d r)
                  | some x =>
                      simpa only [report, tell, hd, dispose, onPool, hx] using
                        Move.toldResponse hd hx (dispose_response t.pool d r)
              | failure e =>
                  simp only [report, tell, hd]
                  exact .toldError hd rfl (Pool.leaves_close t.pool d)
              | cancelled =>
                  simp only [report, tell, hd]
                  exact .toldError hd rfl (Pool.leaves_close t.pool d)
      | _ => simpa only [report, tell, hd] using Move.nothing

theorem move_parse (t : Transport) (d : Nat) : Move t d (t.report (.parse d)) (t.parse d) := by
  change Move t d .nothing (t.parse d)
  cases hd : t.phase? d with
  | none => simpa only [parse, hd] using Move.nothing
  | some q =>
      cases q with
      | parsing c owner r => simpa only [parse, hd] using Move.parsed hd
      | _ => simpa only [parse, hd] using Move.nothing

theorem move_finish (t : Transport) (d : Nat) :
    Move t d (t.report (.finish d)) (t.finish d) := by
  cases hd : t.phase? d with
  | none => simpa only [report, finish, hd] using Move.nothing
  | some q =>
      cases q with
      | returning c => simpa only [report, finish, hd] using Move.detached hd
      | _ => simpa only [report, finish, hd] using Move.nothing

theorem move_drop (t : Transport) (d : Nat) : Move t d (t.report (.drop d)) (t.drop d) := by
  cases hd : t.phase? d with
  | none => simpa only [report, drop, hd] using Move.nothing
  | some q =>
      cases q with
      | acquiring =>
          simp only [report, drop, hd]
          exact .droppedEarly hd (Pool.leaves_abandon t.pool d)
      | exchanging c deadline =>
          simp only [report, drop, hd]
          exact .droppedLate hd (Pool.leaves_close t.pool d)
      | _ => simpa only [report, drop, hd] using Move.nothing

theorem move_forget (t : Transport) (d : Nat) :
    Move t d (t.report (.forget d)) (t.forget d) := by
  cases hd : t.phase? d with
  | none => simpa only [report, forget, hd] using Move.nothing
  | some q =>
      cases q with
      | ended => simpa only [report, forget, hd] using Move.forgotten hd
      | _ => simpa only [report, forget, hd] using Move.nothing

/-- Each step makes the move that it shows. -/
theorem step_move (t : Transport) (e : Event) : ∃ d, Move t d (t.report e) (t.step e) := by
  cases e with
  | register d request parser => exact ⟨d, move_register t d request parser⟩
  | acquire d | resume d | acquireExpired d | connected d | refused d _ | handshakeFailed d
  | connectExpired d => exact ⟨d, move_of_acquisition rfl t⟩
  | send d => exact ⟨d, move_send t d⟩
  | response d r => exact ⟨d, move_response t d r⟩
  | failure d e => exact ⟨d, move_failure t d e⟩
  | expire d => exact ⟨d, move_expire t d⟩
  | cancel d => exact ⟨d, move_cancel t d⟩
  | route d => exact ⟨d, move_route t d⟩
  | tell d => exact ⟨d, move_tell t d⟩
  | parse d => exact ⟨d, move_parse t d⟩
  | finish d => exact ⟨d, move_finish t d⟩
  | drop d => exact ⟨d, move_drop t d⟩
  | forget d => exact ⟨d, move_forget t d⟩
  | peerClosed c => exact ⟨0, .pool (Pool.keeps_peerClosed t.pool c)⟩
  | advance nanos => exact ⟨0, .pool (Pool.keeps_advance t.pool nanos)⟩
  | evict => exact ⟨0, .pool (Pool.keeps_evict t.pool)⟩
  | shutdown => exact ⟨0, .pool (Pool.keeps_shutdown t.pool)⟩

end Transport

end ObjectStore
