import Mathlib.Logic.Relation
import ObjectStore.CommandLine.Session
import ObjectStore.Proofs.Clocks
import ObjectStore.Simulation.Caller

/-!
# Simulated runs

A simulation decides which step comes next, by the clock, the network and the script of the service.
It takes no steps but those of the client: what comes of it is a run of the client, on a clock that
never goes back and does not run past a tick of the reaper. So what holds after every run of a
client holds after whatever is asked of a simulated one, and after every command.
-/

namespace ObjectStore

/-! ## The clock -/

namespace Client

/-- A client with another state of its pool. -/
def withPool (c : Client) (p : Pool) : Client :=
  { c with transport := { c.transport with pool := p } }

theorem step_advance (c : Client) {p : Pool} {time : Nat} (h : p.now ≤ time) :
    (c.withPool p).step (.transport (.advance (time - p.now))) =
      c.withPool { p with now := time } := by
  have htime : p.now + (time - p.now) = time := Nat.add_sub_of_le h
  rw [← congrArg (fun now => c.withPool { p with now }) htime]
  rfl

/-- To let the clock run up to a time, with the ticks on the way, is a run of the client. -/
theorem run_runTo (c : Client) (r : Reaper) (p : Pool) (time : Nat) (hahead : p.now ≤ r.next)
    (hnow : p.now ≤ time) :
    (∀ next ∈ (r.runTo p time).1, (r.runTo p time).2.now ≤ next.next) ∧
      ∃ events, c.withPool (r.runTo p time).2 = (c.withPool p).run events := by
  -- By the ticks that are left: none, the one that finds the pool closed, or one and the later ones.
  fun_induction Reaper.runTo r p time with
  | case1 r p hearly =>
      refine ⟨?_, [.transport (.advance (time - p.now))], (step_advance c hnow).symm⟩
      rintro next ⟨⟩
      exact Nat.le_of_lt hearly
  | case2 r p hlate q hclosed =>
      exact ⟨nofun, [.transport (.advance (time - p.now))], (step_advance c hnow).symm⟩
  | case3 r p hlate q hopen ih =>
      obtain ⟨hnext, later, hlater⟩ := ih (Nat.le_add_right _ _) (Nat.le_of_not_lt hlate)
      refine ⟨hnext, .transport (.advance (r.next - p.now)) :: .transport .evict :: later, ?_⟩
      rw [hlater, run, run, List.foldl_cons, step_advance c hahead]
      rfl

end Client

namespace Simulation

/-- The clock is not past the next tick of the reaper. -/
def Ahead (s : Simulation) : Prop := ∀ r ∈ s.reaper, s.client.now ≤ r.next

/-- A simulation goes on to another one by a run of its client. -/
def Follows (s s' : Simulation) : Prop :=
  s.Ahead → s'.Ahead ∧ ∃ events, s'.client = s.client.run events

variable {s s' s'' : Simulation}

theorem Follows.refl (s : Simulation) : Follows s s := fun h => ⟨h, [], rfl⟩

theorem Follows.trans (h : Follows s s') (h' : Follows s' s'') : Follows s s'' := by
  intro hs
  obtain ⟨hs', events, hevents⟩ := h hs
  obtain ⟨hs'', later, hlater⟩ := h' hs'
  refine ⟨hs'', events ++ later, ?_⟩
  rw [hlater, hevents, Client.run, Client.run, Client.run, List.foldl_append]

theorem Follows.foldl {A : Type} {f : Simulation → A → Simulation}
    (h : ∀ s a, Follows s (f s a)) (items : List A) (s : Simulation) :
    Follows s (items.foldl f s) := by
  induction items generalizing s with
  | nil => exact .refl s
  | cons a rest ih => exact (h s a).trans (ih (f s a))

/-- Steps that take no time, between two ticks. -/
theorem follows_of_run {events : List Client.Event} (hreaper : s'.reaper = s.reaper)
    (hclient : s'.client = s.client.run events) (htime : ∀ e ∈ events, e.takesTime = false) :
    Follows s s' := by
  intro hs
  refine ⟨?_, events, hclient⟩
  intro r hr
  rw [hclient, Client.now_run htime]
  exact hs r (hreaper ▸ hr)

theorem follows_of_step {e : Client.Event} (hreaper : s'.reaper = s.reaper)
    (hclient : s'.client = s.client.step e) (htime : e.takesTime = false) : Follows s s' := by
  have hrun : s'.client = s.client.run [e] := hclient
  exact follows_of_run hreaper hrun (List.forall_mem_singleton.2 htime)

/-! ## Steps that take no time -/

theorem takesTime_of_dispatchStep {t : Transport} {d : Nat} {e : Transport.Event}
    (h : dispatchStep t d = some e) : e.takesTime = false := by
  unfold dispatchStep at h
  repeat' split at h
  all_goals cases h <;> rfl

theorem takesTime_of_jobStep {c : Client} {j : Nat} {job : Job} {e : Client.Event}
    (h : jobStep c j job = some e) : e.takesTime = false := by
  unfold jobStep at h
  split at h
  · cases h
  · split at h <;> cases h <;> rfl
  · repeat' split at h
    all_goals cases h <;> rfl
  · split at h
    · cases h
      rfl
    split at h
    · cases h
      rfl
    split at h
    · cases h
      rfl
    · obtain ⟨x, hx, rfl⟩ := Option.map_eq_some_iff.1 h
      exact takesTime_of_dispatchStep hx

theorem takesTime_of_networkStep {network : Network} {c : Client} {job : Job} {e : Client.Event}
    (h : networkStep network c job = some e) : e.takesTime = false := by
  unfold networkStep at h
  repeat' split at h
  all_goals cases h <;> rfl

theorem takesTime_of_next? {e : Client.Event} (h : s.next? = some e) : e.takesTime = false := by
  obtain ⟨⟨j, job⟩, -, hstep⟩ := List.exists_of_findSome?_eq_some h
  simp only at hstep
  cases hjob : jobStep s.client j job with
  | some own =>
      rw [hjob] at hstep
      cases hstep
      exact takesTime_of_jobStep hjob
  | none =>
      rw [hjob] at hstep
      exact takesTime_of_networkStep hstep

theorem takesTime_of_answering {sent : Sent} {a : Scripted} {e : Transport.Event}
    (h : e ∈ answering sent a) : e.takesTime = false := by
  have htakes : (answering sent a).all (!·.takesTime) = true := by
    unfold answering
    cases a.deed <;> cases a.closes <;> by_cases hlacking : 0 < a.lacking <;>
      simp [hlacking, Transport.Event.takesTime]
  simpa using List.all_eq_true.1 htakes e h

theorem follows_take (s : Simulation) {events : List Transport.Event}
    (h : ∀ e ∈ events, e.takesTime = false) : Follows s (s.take events) := by
  have hrun : (s.take events).client = s.client.run (events.map .transport) := by
    rw [Client.run, List.foldl_map]
    rfl
  refine follows_of_run rfl hrun ?_
  intro e he
  obtain ⟨x, hx, rfl⟩ := List.mem_map.1 he
  exact h x hx

/-- Nothing that the service does with a request, by whatever script, is more than a run. -/
theorem follows_arrive (h : s.arrive = some s') : Follows s s' := by
  unfold arrive at h
  split at h
  · cases h
  · simp only at h
    split at h
    · cases h
      exact .refl s
    · cases h
      exact follows_take _ fun _ => takesTime_of_answering

theorem follows_release (s : Simulation) : Follows s s.release :=
  Follows.foldl (fun s _ => follows_take s fun _ => takesTime_of_answering) s.held
    { s with held := [] }

theorem follows_now? (h : s.now? = some s') : Follows s s' := by
  unfold now? at h
  split at h
  · cases h
    exact follows_of_step rfl rfl (takesTime_of_next? ‹_›)
  · exact follows_arrive h

/-! ## Time -/

/-- A dispatch that takes no step now has not waited too long for its response. -/
theorem now_le_of_exchanging {t : Transport} {d channel deadline : Nat}
    (hphase : t.phase? d = some (.exchanging channel deadline)) (h : dispatchStep t d = none) :
    t.pool.now ≤ deadline := by
  unfold dispatchStep at h
  simp only [hphase, ite_eq_right_iff, reduceCtorEq] at h
  exact Nat.le_of_not_le h

/-- Nor for a permit. -/
theorem now_le_of_waiting {t : Transport} {d deadline : Nat}
    (hphase : t.phase? d = some .acquiring) (hstage : t.pool.stage? d = some (.waiting deadline))
    (h : dispatchStep t d = none) : t.pool.now ≤ deadline := by
  unfold dispatchStep at h
  simp only [hphase, hstage] at h
  split at h
  · cases h
  split at h
  · cases h
  · exact Nat.le_of_not_le ‹_›

/-- The deadline of a job that takes no step now is still to come. -/
theorem now_le_deadlineOf {c : Client} {j : Nat} {job : Job} {time : Nat}
    (hstep : jobStep c j job = none) (h : deadlineOf c job = some time) : c.now ≤ time := by
  unfold jobStep at hstep
  unfold deadlineOf at h
  cases hprogress : job.progress with
  | ready | done result =>
      rw [hprogress] at h
      cases h
  | pausing stop =>
      simp only [hprogress, Option.some.injEq] at h hstep
      repeat' split at hstep
      all_goals cases hstep
      omega
  | trying d =>
      simp only [hprogress] at h hstep
      have hdispatch : dispatchStep c.transport d = none := by
        repeat' split at hstep
        all_goals try cases hstep
        exact Option.map_eq_none_iff.1 hstep
      split at h
      · cases h
        exact now_le_of_exchanging ‹_› hdispatch
      · cases h
        exact now_le_of_waiting ‹_› ‹_› hdispatch
      · cases h

theorem now_le_deadline {time : Nat} (hnow : s.now? = none) (h : s.deadline? = some time) :
    s.client.now ≤ time := by
  have hnext : s.next? = none := by
    unfold now? at hnow
    split at hnow
    · cases hnow
    · assumption
  obtain ⟨job, hvalue, hdeadline⟩ := List.mem_filterMap.1 (List.min?_mem h)
  obtain ⟨⟨j, job⟩, hmem, rfl⟩ := List.mem_map.1 hvalue
  have hstep := List.findSome?_eq_none_iff.1 hnext (j, job) hmem
  cases hjob : jobStep s.client j job with
  | some e =>
      simp only [hjob] at hstep
      cases hstep
  | none => exact now_le_deadlineOf hjob hdeadline

/-- The clock stops for each tick on its way. -/
theorem follows_runTo {time : Nat} (h : s.client.now ≤ time) : Follows s (s.runTo time) := by
  intro hs
  cases hreaper : s.reaper with
  | none =>
      have hrun : s.runTo time =
          { s with client := s.client.withPool { s.client.transport.pool with now := time } } := by
        simp only [runTo, hreaper]
        rfl
      rw [hrun]
      refine ⟨?_, [.transport (.advance (time - s.client.now))],
        (s.client.step_advance (p := s.client.transport.pool) h).symm⟩
      intro r hr
      rw [hreaper] at hr
      cases hr
  | some r =>
      obtain ⟨hnext, hevents⟩ :=
        s.client.run_runTo r s.client.transport.pool time (hs r hreaper) h
      have hrun : s.runTo time =
          { s with
            reaper := (r.runTo s.client.transport.pool time).1
            client := s.client.withPool (r.runTo s.client.transport.pool time).2 } := by
        simp only [runTo, hreaper]
        rfl
      rw [hrun]
      exact ⟨hnext, hevents⟩

theorem follows_step? (h : s.step? = some s') : Follows s s' := by
  unfold step? at h
  cases hnow : s.now? with
  | some next =>
      rw [hnow] at h
      cases h
      exact follows_now? hnow
  | none =>
      rw [hnow] at h
      obtain ⟨time, htime, rfl⟩ := Option.map_eq_some_iff.1 h
      exact follows_runTo (now_le_deadline hnow htime)

/-! ## Whole courses -/

theorem follows_goOn (stop : Simulation → Bool) (fuel : Nat) (s : Simulation) :
    Follows s (goOn stop fuel s) := by
  induction fuel generalizing s with
  | zero => exact .refl s
  | succ fuel ih =>
      rw [goOn]
      split
      · exact .refl s
      split
      · exact .refl s
      · exact (follows_step? ‹_›).trans (ih _)

theorem follows_submit (s : Simulation) (j : Nat) (call : Call) : Follows s (s.submit j call) :=
  follows_of_step (e := .submit j call) rfl rfl rfl

theorem follows_await (s : Simulation) (jobs : List Nat) : Follows s (s.await jobs) :=
  follows_goOn _ s.fuel s

theorem follows_perform (s : Simulation) (calls : List Call) : Follows s (s.perform calls).2 :=
  (Follows.foldl (fun (s : Simulation) (jc : Nat × Call) => follows_submit s jc.1 jc.2) _ s).trans
    (follows_await _ _)

theorem follows_cancel (s : Simulation) (j : Nat) : Follows s (s.cancel j) :=
  follows_of_step (e := .cancel j) rfl rfl rfl

theorem follows_close (s : Simulation) : Follows s s.close := by
  have hclose : Follows s { s with client := s.client.step .close } :=
    follows_of_step (e := .close) rfl rfl rfl
  exact hclose.trans (follows_goOn _ _ _)

theorem ahead_ofClient (c : Client) (network : Network) (script : List Scripted) :
    (ofClient c network script).Ahead := by
  intro r hr
  change r ∈ Reaper.ofPool c.transport.pool at hr
  unfold Reaper.ofPool at hr
  split at hr
  · cases hr
  · split at hr
    · cases hr
      exact Nat.le_add_right _ _
    · cases hr

end Simulation

/-! ## Callers -/

namespace Caller

open Simulation

variable {c next : Caller}

theorem follows_perform (c : Caller) (call : Call) :
    Follows c.simulation (c.perform call).2.simulation := by
  unfold perform
  simp only
  split <;> exact Simulation.follows_perform c.simulation [call]

theorem follows_finish (c : Caller) (name : String) (j : Nat) :
    Follows c.simulation (c.finish name j).2.simulation :=
  follows_await c.simulation [j]

theorem follows_drop (c : Caller) (name : String) :
    Follows c.simulation (c.drop name).2.simulation := by
  unfold drop
  split
  · exact .refl c.simulation
  · exact (follows_cancel c.simulation _).trans
      (follows_finish { c with simulation := c.simulation.cancel _ } name _)

theorem Asks.follows (h : Asks c next) : Follows c.simulation next.simulation := by
  cases h with
  | perform call => exact follows_perform c call
  | performNext page => exact follows_perform { c with page := page.getD c.page } _
  | start name call untilPending =>
      exact (follows_submit c.simulation _ call).trans (follows_goOn _ _ _)
  | @await name result next h =>
      obtain ⟨j, -, hfinish⟩ := Option.map_eq_some_iff.1 h
      exact congrArg (·.2.simulation) hfinish ▸ follows_finish c name j
  | cancel h =>
      obtain ⟨j, -, rfl⟩ := Option.map_eq_some_iff.1 h
      exact follows_cancel c.simulation j
  | drop name => exact follows_drop c name
  | release => exact follows_release c.simulation
  | close => exact follows_close c.simulation

/-- Whatever a caller asks for, one thing after another, and whatever the service answers by its
script, the client takes a run. -/
theorem run_of_asks {client : Client} {network : Network} {script : List Scripted}
    (h : Relation.ReflTransGen Asks { simulation := .ofClient client network script } c) :
    ∃ events, c.simulation.client = client.run events := by
  have hfollows : Follows (.ofClient client network script) c.simulation := by
    induction h with
    | refl => exact .refl _
    | tail _ hasks ih => exact ih.trans hasks.follows
  exact (hfollows (ahead_ofClient client network script)).2

end Caller

/-! ## Commands -/

namespace CommandLine

open Simulation

namespace Session

theorem follows_answer (s : Session) (q : Question) :
    Follows s.simulation (s.answer q).2.simulation := by
  cases q with
  | calls calls => exact follows_perform s.simulation calls
  | read file => exact .refl s.simulation
  | write file content =>
      simp only [answer]
      split <;> exact .refl s.simulation

theorem follows_goOn (options : ListingOptions) (fuel : Nat) (s : Session) (t : Turn) :
    Follows s.simulation (goOn options fuel s t).2.simulation := by
  induction fuel generalizing s t with
  | zero => exact .refl s.simulation
  | succ fuel ih =>
      rw [goOn]
      simp only
      split
      · exact .refl s.simulation
      · rename_i question wait hnext
        have hanswer := follows_answer
          { s with stdout := s.stdout ++ t.stdout, stderr := s.stderr ++ t.stderr } question
        exact hanswer.trans (ih _ _)

/-- What becomes of the client in a command is a run of the client, also when it is closed. -/
theorem follows_run (s : Session) (command : Command) :
    Follows s.simulation (s.run command).2.simulation :=
  (follows_goOn _ _ s _).trans (follows_close _)

end Session

/-- Whatever the network does and the service answers by its script, the requests of a command line
that come to the service are the first ones that a run of its client has sent. -/
theorem requests_of_run (i : Invocation) (surroundings : Surroundings) {client : Client}
    (h : clientOf surroundings.directory.read surroundings.environment surroundings.epoch i.config
      i.profile = .ok client) :
    ∃ events n, (i.run surroundings).requests =
      ((client.run events).transport.sent.reverse.take n).map (·.request) := by
  let s : Session :=
    ⟨.ofClient client surroundings.network surroundings.script, surroundings.directory, [], []⟩
  obtain ⟨-, events, hevents⟩ := s.follows_run i.command
    (ahead_ofClient client surroundings.network surroundings.script)
  have hrequests : (i.run surroundings).requests = (s.run i.command).2.simulation.requests := by
    rw [Invocation.run, h]
  refine ⟨events, (s.run i.command).2.simulation.arrived, ?_⟩
  rw [hrequests, requests, hevents]
  rfl

end CommandLine

end ObjectStore
