import ObjectStore.Client.Course
import ObjectStore.Proofs.DispatchMoves

/-!
# Moves of jobs

What one step of a client does, as a relation between the client before and after: the jobs, the
permits and the dispatches change together. The lemma `step_move` opens the operations of a client
once and for all; what holds after every run is proved by cases on the moves.
-/

namespace ObjectStore

/-- Whether a job stands between two attempts, before the first one or after a failure. -/
def Progress.isBetween : Progress → Bool
  | .ready | .pausing _ => true
  | .trying _ | .done _ => false

theorem Progress.dispatch?_of_isBetween {p : Progress} (h : p.isBetween = true) :
    p.dispatch? = none := by
  cases p with
  | ready | pausing => rfl
  | trying | done => cases h

namespace Client

variable {c : Client} {j : Nat} {job : Job}

/-- How an attempt with a result leaves a job: done, or before another attempt if that may help. -/
inductive Concluded (policy : RetryPolicy) (job : Job) : Result → Progress → Prop
  | finished {result : Result} : Concluded policy job result (.done result)
  | again {e : OperationError} {stop : Nat}
      (h : policy.shouldRetry (job.failures + 1) e = true) :
      Concluded policy job (.error e) (.pausing stop)

/-- After an attempt a job has no dispatch. -/
theorem Concluded.dispatch? {policy : RetryPolicy} {result : Result} {q : Progress}
    (h : Concluded policy job result q) : q.dispatch? = none := by
  cases h with
  | finished => rfl
  | again => rfl

theorem progress?_eq (hj : c.jobs.find? j = some job) : c.progress? j = some job.progress := by
  rw [progress?, hj]
  rfl

/-- What a step of a job does to a client. -/
inductive Move (c : Client) (j : Nat) : Report → Client → Prop
  | nothing : Move c j .nothing c
  | called : Move c j .nothing (c.cancel j)
  | submitted {job : Job} (hj : c.jobs.find? j = none)
      (hnew : job.progress = .ready ∨ ∃ e, job.progress = .done (.error e)) :
      Move c j .nothing { c with jobs := c.jobs.set j job }
  | answered {job : Job} {result : Result} (hj : c.jobs.find? j = none)
      (hnew : job.progress = .done result) :
      Move c j (.answered j result) { c with jobs := c.jobs.set j job }
  | refused {job job' : Job} {e : OperationError} (hj : c.jobs.find? j = some job)
      (hold : job.progress = .ready) (hfree : c.limiter.free = some 0)
      (hnew : Concluded c.policy job (.error e) job'.progress) :
      Move c j (.began j none)
        { c with limiter := c.limiter.rejected, jobs := c.jobs.set j job' }
  | admitted {job job' : Job} {request : Request} {parser : Parser} {free : Option Nat}
      (hj : c.jobs.find? j = some job) (hold : job.progress = .ready)
      (hfree : c.limiter.free = free.map (· + 1)) (hnew : job'.progress = .trying c.nextDispatch) :
      Move c j (.began j (some c.nextDispatch))
        { c with
          limiter := c.limiter.admitted free
          transport := c.transport.register c.nextDispatch request parser
          nextDispatch := c.nextDispatch + 1
          jobs := c.jobs.set j job' }
  | collected {d : Nat} {job job' : Job} {result : Result} (hj : c.jobs.find? j = some job)
      (hold : job.progress = .trying d) (hresult : c.transport.result? d = some result)
      (hnew : Concluded c.policy job result job'.progress) :
      Move c j .nothing
        { c with
          limiter := c.limiter.leave (leaving result)
          transport := c.transport.forget d
          jobs := c.jobs.set j job' }
  | moved {job job' : Job} (hj : c.jobs.find? j = some job)
      (hold : job.progress.isBetween = true)
      (hnew : job'.progress = .ready ∨ ∃ e, job'.progress = .done (.error e)) :
      Move c j .nothing { c with jobs := c.jobs.set j job' }
  | calledOff {d : Nat} {job : Job} (hj : c.jobs.find? j = some job)
      (hold : job.progress = .trying d) :
      Move c j .nothing { c with transport := c.transport.cancel d }
  | aborted {d : Nat} {job job' : Job} (hj : c.jobs.find? j = some job)
      (hold : job.progress = .trying d) (hwaits : waits c.transport d = true)
      (hnew : job'.progress = .done (.error .closed)) :
      Move c j .nothing
        { c with
          limiter := c.limiter.leave .ignored
          transport := (c.transport.drop d).forget d
          jobs := c.jobs.set j job' }

/-- What a step of a job does to the dispatches is a run of the transport. It is about the dispatch
that the job tries, or registers the next one. -/
theorem Move.transport_run {r : Report} {c' : Client} (hm : c.Move j r c') :
    ∃ events, c'.transport = c.transport.run events ∧ ∀ e ∈ events, isFree e = false ∧
      (e.dispatch? = c.trying? j ∧ (∀ d request parser, e ≠ .register d request parser) ∨
        e.dispatch? = some c.nextDispatch) := by
  have htrying {d : Nat} {job : Job} (hj : c.jobs.find? j = some job)
      (hold : job.progress = .trying d) : some d = c.trying? j := by
    rw [trying?, progress?_eq hj, hold]
    rfl
  cases hm with
  | nothing | called | submitted | answered | refused | moved =>
      exact ⟨[], rfl, fun e he => absurd he List.not_mem_nil⟩
  | @admitted job job' request parser =>
      refine ⟨[.register c.nextDispatch request parser], rfl, ?_⟩
      intro e he
      obtain rfl := List.mem_singleton.1 he
      exact ⟨rfl, Or.inr rfl⟩
  | @collected d job job' result hj hold =>
      refine ⟨[.forget d], rfl, ?_⟩
      intro e he
      obtain rfl := List.mem_singleton.1 he
      exact ⟨rfl, Or.inl ⟨htrying hj hold, fun _ _ _ he => by cases he⟩⟩
  | @calledOff d job hj hold =>
      refine ⟨[.cancel d], rfl, ?_⟩
      intro e he
      obtain rfl := List.mem_singleton.1 he
      exact ⟨rfl, Or.inl ⟨htrying hj hold, fun _ _ _ he => by cases he⟩⟩
  | @aborted d job job' hj hold =>
      refine ⟨[.drop d, .forget d], rfl, ?_⟩
      intro e he
      rcases List.mem_cons.1 he with rfl | he
      · exact ⟨rfl, Or.inl ⟨htrying hj hold, fun _ _ _ he => by cases he⟩⟩
      · obtain rfl := List.mem_singleton.1 he
        exact ⟨rfl, Or.inl ⟨htrying hj hold, fun _ _ _ he => by cases he⟩⟩

/-- A step of a job that is done leaves it as it is. -/
theorem Move.of_done {r : Report} {c' : Client} {result : Result} (hm : c.Move j r c')
    (hdone : c.progress? j = some (.done result)) : c' = c ∨ c' = c.cancel j := by
  cases hm with
  | nothing => exact Or.inl rfl
  | called => exact Or.inr rfl
  | submitted hj | answered hj =>
      rw [progress?, hj] at hdone
      cases hdone
  | refused hj hold | admitted hj hold | collected hj hold | calledOff hj hold
  | aborted hj hold =>
      rw [progress?_eq hj, hold] at hdone
      cases hdone
  | moved hj hold =>
      rw [progress?_eq hj] at hdone
      rw [Option.some.inj hdone] at hold
      cases hold

/-- What a step does to a job in an attempt. -/
inductive Tried (c : Client) (j d : Nat) : Client → Prop
  | nothing : Tried c j d c
  | called : Tried c j d (c.cancel j)
  | calledOff : Tried c j d { c with transport := c.transport.cancel d }
  | collected {job job' : Job} {result : Result} (hresult : c.transport.result? d = some result)
      (hnew : Concluded c.policy job result job'.progress) :
      Tried c j d
        { c with
          limiter := c.limiter.leave (leaving result)
          transport := c.transport.forget d
          jobs := c.jobs.set j job' }
  | aborted {job' : Job} (hwaits : waits c.transport d = true) :
      Tried c j d
        { c with
          limiter := c.limiter.leave .ignored
          transport := (c.transport.drop d).forget d
          jobs := c.jobs.set j job' }

theorem Move.of_trying {r : Report} {c' : Client} {d : Nat} (hm : c.Move j r c')
    (htrying : c.progress? j = some (.trying d)) : c.Tried j d c' := by
  cases hm with
  | nothing => exact .nothing
  | called => exact .called
  | submitted hj | answered hj =>
      rw [progress?, hj] at htrying
      cases htrying
  | refused hj hold | admitted hj hold =>
      rw [progress?_eq hj, hold] at htrying
      cases htrying
  | moved hj hold =>
      rw [progress?_eq hj] at htrying
      rw [Option.some.inj htrying] at hold
      cases hold
  | collected hj hold hresult hnew =>
      rw [progress?_eq hj, hold] at htrying
      obtain rfl := Progress.trying.inj (Option.some.inj htrying)
      exact .collected hresult hnew
  | calledOff hj hold =>
      rw [progress?_eq hj, hold] at htrying
      obtain rfl := Progress.trying.inj (Option.some.inj htrying)
      exact .calledOff
  | aborted hj hold hwaits =>
      rw [progress?_eq hj, hold] at htrying
      obtain rfl := Progress.trying.inj (Option.some.inj htrying)
      exact .aborted hwaits

/-! ## Operations of a client -/

theorem enter_eq (hj : c.jobs.find? j = some job) (q : Progress) :
    c.enter j q = { c with jobs := c.jobs.set j { job with progress := q } } := by
  rw [enter, Registry.modify, hj]

theorem find?_of_progress? {q : Progress} (h : c.progress? j = some q) :
    ∃ job, c.jobs.find? j = some job ∧ job.progress = q :=
  Option.map_eq_some_iff.1 h

/-- The end of an attempt leaves a job done or pausing. -/
theorem conclude_eq (hj : c.jobs.find? j = some job) (result : Result) :
    ∃ job' : Job, c.conclude j result = { c with jobs := c.jobs.set j job' } ∧
      Concluded c.policy job result job'.progress := by
  unfold conclude
  simp only [hj]
  cases result with
  | ok a => exact ⟨_, enter_eq hj _, .finished⟩
  | error e =>
      simp only
      refine ⟨_, rfl, ?_⟩
      split
      · rename_i hretry
        exact .again hretry
      · exact .finished

theorem move_submit (c : Client) (j : Nat) (call : Call) :
    c.Move j (c.report (.submit j call)) (c.submit j call) := by
  unfold submit
  by_cases hcontains : c.jobs.contains j = true
  · rw [if_pos hcontains]
    cases call with
    | ready result =>
        rw [report, if_pos hcontains]
        exact .nothing
    | send request parser => exact .nothing
  · have hj : c.jobs.find? j = none := by
      apply Registry.find?_eq_none.2
      simpa [Registry.contains] using hcontains
    rw [if_neg hcontains]
    cases call with
    | ready result =>
        rw [report, if_neg hcontains]
        exact .answered hj rfl
    | send request parser =>
        refine .submitted hj ?_
        simp only
        split
        · exact Or.inr ⟨_, rfl⟩
        · exact Or.inl rfl

/-- A limiter lets an attempt in with a permit, if it has permits, or refuses it. -/
theorem enter_cases (l : Limiter) :
    (∃ free, l.free = free.map (· + 1) ∧ l.enter = (.ok (), l.admitted free)) ∨
      (l.free = some 0 ∧ l.enter = (.error (.limitExceeded l.limit), l.rejected)) := by
  unfold Limiter.enter
  cases hfree : l.free with
  | none => exact Or.inl ⟨none, rfl, rfl⟩
  | some n =>
      cases n with
      | zero => exact Or.inr ⟨rfl, rfl⟩
      | succ n => exact Or.inl ⟨some n, rfl, rfl⟩

theorem move_attempt (c : Client) (j : Nat) :
    c.Move j (c.report (.attempt j)) (c.attempt j) := by
  cases hj : c.jobs.find? j with
  | none =>
      have hprogress : c.progress? j = none := by rw [progress?, hj]; rfl
      simp only [report, attempt, hj, hprogress]
      exact .nothing
  | some job =>
      have hprogress := progress?_eq hj
      obtain ⟨request, parser, failures, off, progress⟩ := job
      cases progress with
      | ready =>
          rcases enter_cases c.limiter with ⟨free, hfree, henter⟩ | ⟨hfree, henter⟩
          · simp only [report, attempt, hj, hprogress, henter]
            rw [enter_eq (c := { c with
              limiter := c.limiter.admitted free
              transport := c.transport.register c.nextDispatch request parser
              nextDispatch := c.nextDispatch + 1 }) hj]
            exact .admitted hj rfl hfree rfl
          · simp only [report, attempt, hj, hprogress, henter]
            obtain ⟨job', heq, hnew⟩ := conclude_eq (c := { c with limiter := c.limiter.rejected })
              hj (.error (.admission (.limitExceeded c.limiter.limit)))
            rw [heq]
            exact .refused hj rfl hfree hnew
      | trying | pausing | done =>
          simp only [report, attempt, hj, hprogress]
          exact .nothing

theorem move_collect (c : Client) (j : Nat) : c.Move j .nothing (c.collect j) := by
  unfold collect
  split
  · rename_i d hprogress
    obtain ⟨job, hj, hold⟩ := find?_of_progress? hprogress
    split
    · exact .nothing
    · rename_i result hresult
      obtain ⟨job', heq, hnew⟩ := conclude_eq (c := { c with
        limiter := c.limiter.leave (leaving result)
        transport := c.transport.forget d }) hj result
      rw [heq]
      exact .collected hj hold hresult hnew
  · exact .nothing

theorem move_wake (c : Client) (j : Nat) : c.Move j .nothing (c.wake j) := by
  unfold wake
  split
  · rename_i stop hprogress
    obtain ⟨job, hj, hold⟩ := find?_of_progress? hprogress
    split
    · rw [enter_eq hj]
      exact .moved hj (by rw [hold]; rfl) (Or.inl rfl)
    · exact .nothing
  · exact .nothing

theorem move_heed (c : Client) (j : Nat) : c.Move j .nothing (c.heed j) := by
  unfold heed
  split
  · rename_i hj
    rw [enter_eq hj]
    exact .moved hj rfl (Or.inr ⟨_, rfl⟩)
  · rename_i hj
    exact .calledOff hj rfl
  · exact .nothing

theorem move_abort (c : Client) (j : Nat) : c.Move j .nothing (c.abort j) := by
  unfold abort
  split
  · exact .nothing
  split
  · rename_i hprogress
    obtain ⟨job, hj, hold⟩ := find?_of_progress? hprogress
    rw [enter_eq hj]
    exact .moved hj (by rw [hold]; rfl) (Or.inr ⟨_, rfl⟩)
  · rename_i hprogress
    obtain ⟨job, hj, hold⟩ := find?_of_progress? hprogress
    rw [enter_eq hj]
    exact .moved hj (by rw [hold]; rfl) (Or.inr ⟨_, rfl⟩)
  · rename_i d hprogress
    obtain ⟨job, hj, hold⟩ := find?_of_progress? hprogress
    split
    · rename_i hwaits
      rw [enter_eq (c := { c with
        limiter := c.limiter.leave .ignored
        transport := (c.transport.drop d).forget d }) hj]
      exact .aborted hj hold hwaits rfl
    · exact .nothing
  · exact .nothing

/-- A step of a job is the move that it shows. -/
theorem step_move {e : Event} (h : e.job? = some j) (c : Client) :
    c.Move j (c.report e) (c.step e) := by
  cases e with
  | submit k call =>
      obtain rfl := Option.some.inj h
      exact c.move_submit k call
  | attempt k =>
      obtain rfl := Option.some.inj h
      exact c.move_attempt k
  | collect k =>
      obtain rfl := Option.some.inj h
      exact c.move_collect k
  | wake k =>
      obtain rfl := Option.some.inj h
      exact c.move_wake k
  | cancel k =>
      obtain rfl := Option.some.inj h
      exact .called
  | heed k =>
      obtain rfl := Option.some.inj h
      exact c.move_heed k
  | abort k =>
      obtain rfl := Option.some.inj h
      exact c.move_abort k
  | transport | close => cases h

/-- A step of the transport, if it is left to the dispatches. -/
theorem step_transport (c : Client) (x : Transport.Event) :
    c.step (.transport x) = c ∨
      isFree x = true ∧ c.step (.transport x) = { c with transport := c.transport.step x } := by
  by_cases hfree : isFree x = true
  · exact Or.inr ⟨hfree, if_pos hfree⟩
  · exact Or.inl (if_neg hfree)

/-- A step of no job is a step of the transport alone, or none. -/
theorem step_of_no_job {e : Event} (h : e.job? = none) (c : Client) :
    c.report e = .nothing ∧ (c.step e = c ∨ ∃ x closed,
      c.step e = { c with transport := c.transport.step x, isClosed := closed } ∧
        (x = .shutdown ∨ e = .transport x ∧ isFree x = true)) := by
  cases e with
  | transport x =>
      refine ⟨rfl, ?_⟩
      rcases c.step_transport x with hstep | ⟨hfree, hstep⟩
      · exact Or.inl hstep
      · exact Or.inr ⟨x, c.isClosed, hstep, Or.inr ⟨rfl, hfree⟩⟩
  | close =>
      refine ⟨rfl, ?_⟩
      simp only [step, close]
      split
      · exact Or.inl rfl
      · exact Or.inr ⟨.shutdown, true, rfl, Or.inl rfl⟩
  | submit | attempt | collect | wake | cancel | heed | abort => cases h

end Client

end ObjectStore
