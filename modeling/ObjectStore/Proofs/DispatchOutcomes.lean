import ObjectStore.Proofs.DispatchInvariant
import ObjectStore.Proofs.SignedRequests

/-!
# Outcomes of dispatches

Whether a dispatch that returns has told its sink. From the reports of a run a ledger is kept for
each dispatch. A dispatch that has returned was decided exactly once, and it has told its sink
exactly that, exactly once, unless the guard of another dispatch took its sink out of the routes.
A guard knows its channel only, and it is dropped after the channel was given back; so this can
happen to a dispatch that leased the same channel in between.
-/

namespace ObjectStore

instance : DecidableEq Result
  | .ok a, .ok b => decidable_of_iff (a = b) (by rw [Except.ok.injEq])
  | .error e, .error f => decidable_of_iff (e = f) (by rw [Except.error.injEq])
  | .ok _, .error _ | .error _, .ok _ => isFalse nofun

/-- The result that an outcome stands for. -/
def Outcome.result (parser : Parser) : Outcome → Result
  | .response r => parser.complete r
  | .failure e => .error e
  | .cancelled => .error .cancelled

theorem Outcome.result_of_error {outcome : Outcome} {e : OperationError}
    (h : outcome.error? = some e) (parser : Parser) : outcome.result parser = .error e := by
  cases outcome with
  | response r => cases h
  | failure e' => exact congrArg Except.error (Option.some.inj h)
  | cancelled => exact congrArg Except.error (Option.some.inj h)

/-- What was reported of a dispatch since it began. -/
structure Ledger where
  /-- How the sink of the dispatch reads responses. -/
  parser : Option Parser := none
  /-- How the dispatch was decided: by its own exchange, or before it had one. -/
  verdicts : List Outcome := []
  /-- What the sink was told. -/
  notices : List Outcome := []
  /-- What was dropped because the channel had no owner. -/
  unowned : List Outcome := []
  /-- The guard of another dispatch took the sink out of the routes. -/
  robbed : Bool := false
  /-- The dispatch was dropped while it waited. -/
  dropped : Bool := false
  deriving Repr, DecidableEq

/-- A report goes into the ledger of a dispatch. -/
def Ledger.note (d : Nat) (l : Ledger) : Report → Ledger
  | .registered v parser => if v = d then { parser := some parser } else l
  | .refused v outcome =>
      if v = d then
        { l with verdicts := outcome :: l.verdicts, notices := outcome :: l.notices }
      else l
  | .settled v _ outcome => if v = d then { l with verdicts := outcome :: l.verdicts } else l
  | .told sink outcome => if sink = d then { l with notices := outcome :: l.notices } else l
  | .unowned v outcome => if v = d then { l with unowned := outcome :: l.unowned } else l
  | .detached g sink => if g ≠ d ∧ sink = some d then { l with robbed := true } else l
  | .dropped v => if v = d then { l with dropped := true } else l
  | .nothing | .leased _ _ | .sent _ _ _ | .forgotten _ => l

/-- A report about another dispatch, from which nothing is taken, leaves a ledger as it is. -/
theorem Ledger.note_of_other {d : Nat} {r : Report} (hsubject : r.subject? ≠ some d)
    (htaken : r.taken? ≠ some d) (l : Ledger) : l.note d r = l := by
  cases r with
  | nothing | leased | sent | forgotten => rfl
  | detached g sink => exact if_neg fun h => htaken h.2
  | registered v _ | refused v _ | settled v _ _ | told v _ | unowned v _ | dropped v =>
      exact if_neg fun h => hsubject (congrArg some h)

theorem Ledger.note_of_taken {d : Nat} {r : Report} (hsubject : r.subject? ≠ some d)
    (htaken : r.taken? = some d) (l : Ledger) : l.note d r = { l with robbed := true } := by
  cases r with
  | detached g sink => exact if_pos ⟨fun h => hsubject (congrArg some h), htaken⟩
  | _ => cases htaken

/-- The ledger of a dispatch after some reports. -/
def Ledger.ofReports (d : Nat) (reports : List Report) : Ledger := reports.foldl (note d) {}

namespace Transport

variable {t t' : Transport} {d g : Nat}

/-- The sink and the ledger of a dispatch that was decided: the sink was told, or the outcome was
dropped because another dispatch had taken the sink out of the routes. -/
inductive Returned (parser : Parser) : Option Completion → Ledger → Prop
  | told (outcome : Outcome) :
      Returned parser
        (some { parser, claimed := true, delivered := some (outcome.result parser) })
        { parser := some parser, verdicts := [outcome], notices := [outcome] }
  | lost (outcome : Outcome) :
      Returned parser (some (.ofParser parser))
        { parser := some parser, verdicts := [outcome], unowned := [outcome], robbed := true }

theorem returned_told {parser : Parser} {sink : Option Completion} {l : Ledger}
    (outcome : Outcome) (hsink : sink =
      some { parser, claimed := true, delivered := some (outcome.result parser) })
    (hl : l = { parser := some parser, verdicts := [outcome], notices := [outcome] }) :
    Returned parser sink l := by
  rw [hsink, hl]
  exact .told outcome

theorem returned_lost {parser : Parser} {outcome : Outcome} {sink : Option Completion} {l : Ledger}
    (hsink : sink = some (.ofParser parser))
    (hl : l = { parser := some parser, verdicts := [outcome], unowned := [outcome],
                robbed := true }) : Returned parser sink l := by
  rw [hsink, hl]
  exact .lost outcome

/-- What the ledger of a dispatch says in each phase. -/
def Agrees (t : Transport) (d : Nat) (parser : Parser) (l : Ledger) : Phase → Prop
  | .acquiring | .leased _ =>
      t.sinks.find? d = some (.ofParser parser) ∧ l = { parser := some parser }
  | .exchanging c _ =>
      t.sinks.find? d = some (.ofParser parser) ∧ ∃ robbed,
        t.routes.owner? c = (if robbed then none else some d) ∧
        l = { parser := some parser, robbed }
  | .settled c outcome =>
      t.sinks.find? d = some (.ofParser parser) ∧ ∃ robbed,
        t.routes.owner? c = (if robbed then none else some d) ∧
        l = { parser := some parser, verdicts := [outcome], robbed }
  | .routed _ owner outcome =>
      t.sinks.find? d = some (.ofParser parser) ∧ ∃ robbed,
        owner = (if robbed then none else some d) ∧
        l = { parser := some parser, verdicts := [outcome], robbed }
  | .parsing _ _ r =>
      t.sinks.find? d = some { parser, claimed := true } ∧
        l = { parser := some parser, verdicts := [.response r], notices := [.response r] }
  | .returning _ => Returned parser (t.sinks.find? d) l
  | .ended => l.dropped = true ∨ Returned parser (t.sinks.find? d) l

/-- The ledger of a dispatch agrees with the dispatch. -/
def Records (t : Transport) (d : Nat) (l : Ledger) : Prop :=
  ∀ q, t.phase? d = some q → ∃ parser, t.Agrees d parser l q

/-- A step of another dispatch takes the sink out of the routes, or leaves the ledger as it is. -/
theorem Records.frame {l : Ledger} {r : Report} (h : t.Records d l) (hf : Frame d t r t') :
    t'.Records d (l.note d r) := by
  intro q hq
  rw [hf.phase] at hq
  obtain ⟨parser, hagrees⟩ := h q hq
  refine ⟨parser, ?_⟩
  by_cases htaken : r.taken? = some d
  · -- Only a dispatch that is attached has a sink on the routes to lose.
    obtain ⟨c, hattached, hnone⟩ := hf.taken htaken
    rw [Ledger.note_of_taken hf.subject htaken]
    rw [attached?_of_phase hq] at hattached
    cases q with
    | exchanging c' deadline =>
        obtain rfl := Option.some.inj hattached
        obtain ⟨hsink, robbed, howner, rfl⟩ := hagrees
        exact ⟨hf.sink.trans hsink, true, hnone, rfl⟩
    | settled c' outcome =>
        obtain rfl := Option.some.inj hattached
        obtain ⟨hsink, robbed, howner, rfl⟩ := hagrees
        exact ⟨hf.sink.trans hsink, true, hnone, rfl⟩
    | _ => cases hattached
  · rw [Ledger.note_of_other hf.subject htaken]
    cases q with
    | exchanging c deadline =>
        obtain ⟨hsink, robbed, howner, hl⟩ := hagrees
        exact ⟨hf.sink.trans hsink, robbed,
          (hf.owner c (attached?_of_phase hq) htaken).trans howner, hl⟩
    | settled c outcome =>
        obtain ⟨hsink, robbed, howner, hl⟩ := hagrees
        exact ⟨hf.sink.trans hsink, robbed,
          (hf.owner c (attached?_of_phase hq) htaken).trans howner, hl⟩
    | acquiring | leased | routed | parsing | returning | ended =>
        simpa only [Agrees, hf.sink] using hagrees

theorem records_enter {q q' : Phase} {l : Ledger} (parser : Parser) (hd : t.phase? d = some q)
    (h : (t.enter d q').Agrees d parser l q') : (t.enter d q').Records d l := by
  intro p hp
  rw [phase?_enter_of_some hd, if_pos rfl] at hp
  cases hp
  exact ⟨parser, h⟩

/-- The owner that a routed dispatch found is its own sink. -/
theorem owner_of_not_robbed {robbed : Bool} {owner : Nat}
    (h : some owner = if robbed then none else some d) : robbed = false ∧ owner = d := by
  cases robbed with
  | false => exact ⟨rfl, Option.some.inj h⟩
  | true => cases h

/-- A sink that has no result is told of a failure. -/
theorem notify_failure {parser : Parser} {outcome : Outcome} {e : OperationError}
    (hsink : t.sinks.find? d = some (.ofParser parser)) (he : outcome.error? = some e) :
    (t.notify d (·.onFailure e)).sinks.find? d =
      some { parser, claimed := true, delivered := some (outcome.result parser) } := by
  rw [find?_notify, if_pos rfl, hsink, Outcome.result_of_error he]
  rfl

theorem Records.move {l : Ledger} {r : Report} (h : t.Records d l) (hs : t.Sound)
    (hm : t.Move d r t') : t'.Records d (l.note d r) := by
  cases hm with
  | nothing => exact h
  | pool hp => exact h
  | @registered request parser hd =>
      intro q hq
      rw [phase?_set rfl, if_pos rfl] at hq
      cases hq
      exact ⟨parser, (t.sinks.find?_set d _ d).trans (if_pos rfl), if_pos rfl⟩
  | leased hd hp =>
      obtain ⟨parser, hagrees⟩ := h _ hd
      exact records_enter parser hd hagrees
  | @refused q outcome e s p hd hq he hp =>
      obtain ⟨parser, hagrees⟩ := h _ hd
      have hfresh : t.sinks.find? d = some (.ofParser parser) ∧ l = { parser := some parser } := by
        rcases hq with rfl | ⟨c, rfl⟩ <;> exact hagrees
      obtain ⟨hsink, rfl⟩ := hfresh
      have hnotify := notify_failure (t := { t with source := s, pool := p }) hsink he
      exact records_enter parser hd (Or.inr (returned_told outcome hnotify (if_pos rfl)))
  | withheld hd hx hclaimed hp =>
      obtain ⟨parser, hsink, -⟩ := h _ hd
      rw [hx] at hsink
      cases hsink
      cases hclaimed
  | @sent c deadline wire s p hd hp =>
      obtain ⟨parser, hsink, rfl⟩ := h _ hd
      refine records_enter parser hd ⟨hsink, false, ?_, rfl⟩
      exact (t.routes.owner?_attach c d c).trans (if_pos rfl)
  | answered hd hp =>
      obtain ⟨parser, hsink, robbed, howner, rfl⟩ := h _ hd
      exact records_enter parser hd ⟨hsink, robbed, howner, if_pos rfl⟩
  | failed hd he =>
      obtain ⟨parser, hsink, robbed, howner, rfl⟩ := h _ hd
      exact records_enter parser hd ⟨hsink, robbed, howner, if_pos rfl⟩
  | routed hd =>
      obtain ⟨parser, hsink, robbed, howner, rfl⟩ := h _ hd
      exact records_enter parser hd ⟨hsink, robbed, howner, rfl⟩
  | @toldResponse c owner r x p hd hx hp =>
      obtain ⟨parser, hsink, robbed, howner, rfl⟩ := h _ hd
      obtain ⟨rfl, rfl⟩ := owner_of_not_robbed howner
      obtain rfl : x = .ofParser parser := Option.some.inj (hx.symm.trans hsink)
      -- The sink has no result yet, so its claim is the first one.
      rw [if_pos (show (Completion.ofParser parser).claim.1 = true from rfl)]
      refine records_enter parser hd ⟨?_, if_pos rfl⟩
      exact (t.sinks.find?_set owner _ owner).trans (if_pos rfl)
  | toldNobody hd hx hp =>
      obtain ⟨parser, hsink, robbed, howner, -⟩ := h _ hd
      obtain ⟨-, rfl⟩ := owner_of_not_robbed howner
      rw [hx] at hsink
      cases hsink
  | @toldError c owner outcome e p hd he hp =>
      obtain ⟨parser, hsink, robbed, howner, rfl⟩ := h _ hd
      obtain ⟨rfl, rfl⟩ := owner_of_not_robbed howner
      have hnotify := notify_failure (t := { t with pool := p }) hsink he
      exact records_enter parser hd (returned_told outcome hnotify (if_pos rfl))
  | @unowned c outcome p hd hp =>
      obtain ⟨parser, hsink, robbed, howner, rfl⟩ := h _ hd
      cases robbed with
      | false => cases howner
      | true => exact records_enter parser hd (returned_lost hsink (if_pos rfl))
  | @parsed c owner r hd =>
      obtain rfl := hs.addressee d owner (addressee?_of_phase hd)
      obtain ⟨parser, hsink, rfl⟩ := h _ hd
      have hnotify : (t.notify owner fun x => x.deliver (x.parser.complete r)).sinks.find? owner =
          some { parser, claimed := true, delivered := some (parser.complete r) } := by
        rw [find?_notify, if_pos rfl, hsink]
        rfl
      exact records_enter parser hd (returned_told (.response r) hnotify rfl)
  | detached hd =>
      obtain ⟨parser, hreturned⟩ := h _ hd
      refine records_enter parser hd (Or.inr ?_)
      rw [Ledger.note, if_neg fun hne => hne.1 rfl]
      exact hreturned
  | droppedEarly hd hp =>
      obtain ⟨parser, -⟩ := h _ hd
      refine records_enter parser hd (Or.inl ?_)
      rw [Ledger.note, if_pos rfl]
  | droppedLate hd hp =>
      obtain ⟨parser, -⟩ := h _ hd
      refine records_enter parser hd (Or.inl ?_)
      rw [Ledger.note, if_pos rfl]
  | forgotten hd =>
      intro q hq
      rw [phase?_erase rfl, if_pos rfl] at hq
      cases hq

theorem Records.step {l : Ledger} (h : t.Records d l) (hs : t.Sound) (e : Event) :
    (t.step e).Records d (l.note d (t.report e)) := by
  obtain ⟨g, hm⟩ := t.step_move e
  by_cases hg : d = g
  · exact h.move hs (hg ▸ hm)
  · exact h.frame (hs.frame hm hg)

theorem Records.run {l : Ledger} (h : t.Records d l) (hs : t.Sound) (events : List Event) :
    (t.run events).Records d ((t.reports events).foldl (Ledger.note d) l) :=
  hs.run_fold (P := fun t l => t.Records d l) (fun _ _ e hs h => h.step hs e) h events

/-- The ledger of a dispatch after a run. -/
def ledger (t : Transport) (d : Nat) (events : List Event) : Ledger :=
  .ofReports d (t.reports events)

theorem records_ofConfig {c : ClientConfig} {source : CredentialsSource}
    {epoch : Calendar.Instant} (h : ofConfig c source epoch = .ok t) (events : List Event)
    (d : Nat) : (t.run events).Records d (t.ledger d events) := by
  refine Records.run ?_ (Sound.ofConfig h) events
  intro q hq
  rw [phase?, (ofConfig_eq_ok h).2.2, Registry.find?_empty] at hq
  cases hq

/-- A dispatch that has returned was decided exactly once. If no other guard has taken its sink
out of the routes, the sink was told this outcome and nothing else, and the result is that of the
outcome. Otherwise the outcome was dropped, the sink was told nothing, and the result is that of a
cancellation. -/
theorem returned_outcome {c : ClientConfig} {source : CredentialsSource}
    {epoch : Calendar.Instant} (h : ofConfig c source epoch = .ok t) (events : List Event)
    {d : Nat} (hended : (t.run events).phase? d = some .ended)
    (hdropped : (t.ledger d events).dropped = false) :
    ∃ parser outcome,
      (t.ledger d events).parser = some parser ∧ (t.ledger d events).verdicts = [outcome] ∧
      if (t.ledger d events).robbed then
        (t.ledger d events).notices = [] ∧ (t.ledger d events).unowned = [outcome] ∧
          (t.run events).result? d = some (.error .cancelled)
      else
        (t.ledger d events).notices = [outcome] ∧ (t.ledger d events).unowned = [] ∧
          (t.run events).result? d = some (outcome.result parser) := by
  obtain ⟨parser, hagrees⟩ := records_ofConfig h events d _ hended
  rcases hagrees with hd | hreturned
  · rw [hdropped] at hd
    cases hd
  have hresult : (t.run events).result? d =
      some ((((t.run events).sinks.find? d).bind (·.delivered)).getD (.error .cancelled)) := by
    simp only [result?, hended]
  rw [hresult]
  generalize t.ledger d events = l at hreturned
  generalize (t.run events).sinks.find? d = sink at hreturned
  cases hreturned with
  | told outcome => exact ⟨parser, outcome, rfl, rfl, rfl, rfl, rfl⟩
  | lost outcome => exact ⟨parser, outcome, rfl, rfl, rfl, rfl, rfl⟩

/-! ## A guard that is dropped late -/

/-- Whether a step calls a dispatch off or drops it. -/
def Event.callsOff : Event → Bool
  | .cancel _ | .drop _ => true
  | _ => false

/-- What both dispatches of the run ask for. -/
def deletion : Request := { operation := .delete, bucket := "bucket", target := "/key" }

/-- Two dispatches begin, and the first leases the only channel. -/
def firstLeases : List Event :=
  [.register 1 deletion .deleted, .register 2 deletion .deleted,
   .acquire 1, .acquire 2, .connected 1]

/-- The first is answered and gives the channel back, and the second leases it. -/
def secondLeases : List Event :=
  [.response 1 { status := 204 }, .route 1, .tell 1, .resume 2]

/-- The first drops its guard, and only then the second is answered. -/
def guardDropped : List Event :=
  [.parse 1, .finish 1, .response 2 { status := 204 }, .route 2, .tell 2, .finish 2]

/-- Two dispatches on a single connection. The second leases the channel that the first has given
back, and sends its request, before the first has dropped its guard. -/
def lateGuard : List Event :=
  firstLeases ++ .send 1 :: (secondLeases ++ .send 2 :: guardDropped)

/-- The transport after the first dispatch has sent its request. -/
def firstSent : Transport :=
  (single.run firstLeases).sentSigned 1 1 (.opened 1 0) deletion { path := "/key" }

/-- The channel that the second dispatch has leased. -/
def handedOn : Channel := ((firstSent.run secondLeases).channel? 2).getD default

/-- The transport after the second dispatch has sent its request. -/
def secondSent : Transport :=
  (firstSent.run secondLeases).sentSigned 2 1 handedOn deletion { path := "/key" }

theorem parse_deletion : Http.Target.parse deletion.target = .ok { path := "/key" } := rfl

theorem send_first : (single.run firstLeases).send 1 = firstSent ∧
    ∃ wire, (single.run firstLeases).report (.send 1) = .sent 1 1 wire := by
  apply send_signed _ _ _ _ parse_deletion
  all_goals decide +kernel

theorem send_second : (firstSent.run secondLeases).send 2 = secondSent ∧
    ∃ wire, (firstSent.run secondLeases).report (.send 2) = .sent 2 1 wire := by
  have hc : (firstSent.run secondLeases).channel? 2 = some handedOn := by
    have hsome : ((firstSent.run secondLeases).channel? 2).isSome = true := by decide +kernel
    obtain ⟨c, hc⟩ := Option.isSome_iff_exists.1 hsome
    rw [handedOn, hc]
    rfl
  apply send_signed _ _ hc _ parse_deletion
  all_goals decide +kernel

theorem run_lateGuard : single.run lateGuard = secondSent.run guardDropped := by
  have hfirst : (single.run firstLeases).step (.send 1) = firstSent := send_first.1
  have hsecond : (firstSent.run secondLeases).step (.send 2) = secondSent := send_second.1
  rw [lateGuard, run_append_cons, hfirst, run_append_cons, hsecond]

/-- A request that was sent leaves no trace in a ledger. -/
theorem ledger_lateGuard (d : Nat) : single.ledger d lateGuard =
    .ofReports d (single.reports firstLeases ++ firstSent.reports secondLeases ++
      secondSent.reports guardDropped) := by
  have hfirst : (single.run firstLeases).step (.send 1) = firstSent := send_first.1
  have hsecond : (firstSent.run secondLeases).step (.send 2) = secondSent := send_second.1
  obtain ⟨wire₁, hwire₁⟩ := send_first.2
  obtain ⟨wire₂, hwire₂⟩ := send_second.2
  rw [ledger, lateGuard, reports_append, reports, hfirst, hwire₁, reports_append, reports, hsecond,
    hwire₂]
  simp only [Ledger.ofReports, List.foldl_append, List.foldl_cons, Ledger.note]

theorem ledger_lateGuard_one : single.ledger 1 lateGuard =
    { parser := some .deleted, verdicts := [.response { status := 204 }],
      notices := [.response { status := 204 }] } := by
  rw [ledger_lateGuard]
  decide +kernel

theorem ledger_lateGuard_two : single.ledger 2 lateGuard =
    { parser := some .deleted, verdicts := [.response { status := 204 }],
      unowned := [.response { status := 204 }], robbed := true } := by
  rw [ledger_lateGuard]
  decide +kernel

theorem ended_lateGuard : ∀ d ∈ [1, 2], (single.run lateGuard).phase? d = some .ended := by
  rw [run_lateGuard]
  decide +kernel

/-- Both dispatches of the run have returned. -/
theorem returned_outcome_lateGuard : ofConfig singleConnection fixedSource ⟨0, 0⟩ = .ok single ∧
    ∀ d ∈ [1, 2], (single.run lateGuard).phase? d = some .ended ∧
      (single.ledger d lateGuard).dropped = false ∧
      ∃ parser outcome,
        (single.ledger d lateGuard).parser = some parser ∧
        (single.ledger d lateGuard).verdicts = [outcome] ∧
        if (single.ledger d lateGuard).robbed then
          (single.ledger d lateGuard).notices = [] ∧
            (single.ledger d lateGuard).unowned = [outcome] ∧
            (single.run lateGuard).result? d = some (.error .cancelled)
        else
          (single.ledger d lateGuard).notices = [outcome] ∧
            (single.ledger d lateGuard).unowned = [] ∧
            (single.run lateGuard).result? d = some (outcome.result parser) := by
  refine ⟨ofConfig_single, ?_⟩
  intro d hd
  have hended := ended_lateGuard d hd
  have hdropped : (single.ledger d lateGuard).dropped = false := by
    simp only [List.mem_cons, List.not_mem_nil, or_false] at hd
    rcases hd with rfl | rfl
    · rw [ledger_lateGuard_one]
    · rw [ledger_lateGuard_two]
  exact ⟨hended, hdropped, returned_outcome ofConfig_single lateGuard hended hdropped⟩

/-- A response is lost to a guard that is dropped late, and a dispatch that nobody called off has
the result of a cancellation. -/
theorem late_guard_loses_response :
    lateGuard.any Event.callsOff = false ∧
    ofConfig singleConnection fixedSource ⟨0, 0⟩ = .ok single ∧
      (single.run lateGuard).phase? 2 = some .ended ∧
      (single.ledger 2 lateGuard).verdicts = [.response { status := 204 }] ∧
      (single.ledger 2 lateGuard).notices = [] ∧
      (single.ledger 2 lateGuard).unowned = [.response { status := 204 }] ∧
      (single.run lateGuard).result? 2 = some (.error .cancelled) := by
  rw [ledger_lateGuard_two, run_lateGuard]
  refine ⟨rfl, ofConfig_single, ?_, rfl, rfl, rfl, ?_⟩
  · decide +kernel
  · decide +kernel

end Transport

end ObjectStore
