import ObjectStore.Proofs.ClientJobs

/-!
# Accounts of a client

What a client holds for its jobs. Each permit of the limiter belongs to an attempt that is under
way, and each user of the pool and each owner of a channel to the dispatch of one; so a job that is
done holds nothing, and a client without unfinished jobs is at rest. The counters of the limiter
tell how often jobs were tried, and how often with success. A job that is done without a request
takes no part in them.
-/

namespace ObjectStore

theorem Progress.outside_of_isBetween {p : Progress} (h : p.isBetween = true) :
    (some p).any Progress.isTrying = false ∧ (some p).any Progress.isSuccess = false := by
  cases p with
  | ready | pausing => exact ⟨rfl, rfl⟩
  | trying | done => cases h

namespace Client

variable {c c' : Client} {j : Nat} {job : Job} {log : List Report}

theorem Concluded.isSuccess_error {policy : RetryPolicy} {e : OperationError} {q : Progress}
    (h : Concluded policy job (.error e) q) : q.isSuccess = false := by
  cases h with
  | finished => rfl
  | again => rfl

/-- The permit of an attempt counts as a success if the job succeeds with it. -/
theorem Concluded.isSuccess_iff {policy : RetryPolicy} {result : Result} {q : Progress}
    (h : Concluded policy job result q) : q.isSuccess = true ↔ leaving result = .success := by
  cases result with
  | ok a =>
      cases h with
      | finished => exact ⟨fun _ => rfl, fun _ => rfl⟩
  | error e =>
      rw [h.isSuccess_error]
      exact ⟨nofun, nofun⟩

/-! ## Permits and counters -/

/-- The number of jobs in an attempt. -/
def underWay (c : Client) : Nat := c.jobs.count fun job => job.progress.isTrying

/-- The number of jobs that have succeeded. -/
def successes (c : Client) : Nat := c.jobs.count fun job => job.progress.isSuccess

theorem underWay_set (h : c'.jobs = c.jobs.set j job) :
    c'.underWay + ((c.progress? j).any Progress.isTrying).toNat =
      c.underWay + job.progress.isTrying.toNat := by
  rw [underWay, h, progress?, Option.any_map]
  exact Registry.count_set _ _ _ _

theorem successes_set (h : c'.jobs = c.jobs.set j job) :
    c'.successes + ((c.progress? j).any Progress.isSuccess).toNat =
      c.successes + job.progress.isSuccess.toNat := by
  rw [successes, h, progress?, Option.any_map]
  exact Registry.count_set _ _ _ _

/-- What the counters say after an attempt has left. -/
theorem leave_stats (l : Limiter) (how : Leaving) :
    (l.leave how).stats =
      { l.stats with
        inFlight := l.stats.inFlight - 1
        succeeded := l.stats.succeeded + (how == .success).toNat
        ignored := l.stats.ignored + (how == .ignored).toNat } := by
  cases how with
  | success => rfl
  | ignored => rfl

/-- What the counters of the limiter of a client say after a run that showed as a log. -/
structure Tallied (limit : Nat) (c : Client) (log : List Report) : Prop where
  inFlight : c.limiter.stats.inFlight = c.underWay
  admitted : c.limiter.stats.admitted =
    c.limiter.stats.succeeded + c.limiter.stats.ignored + c.limiter.stats.inFlight
  attempts : c.limiter.stats.admitted + c.limiter.stats.rejected = log.countP Report.isAttempt
  successes : c.limiter.stats.succeeded + log.countP Report.isAnswer = c.successes
  permits : c.limiter.free.map (· + c.limiter.stats.inFlight) = (Limiter.ofLimit limit).free

namespace Tallied

variable {limit : Nat}

/-- A step without an attempt and without an answer, after which as many jobs are in an attempt and
have succeeded as before. -/
theorem same (h : Tallied limit c log) (hlimiter : c'.limiter = c.limiter)
    (hway : c'.underWay = c.underWay) (hsuccesses : c'.successes = c.successes) :
    Tallied limit c' (log ++ [.nothing]) where
  inFlight := by rw [hlimiter, hway, h.inFlight]
  admitted := by rw [hlimiter, h.admitted]
  attempts := by rw [hlimiter, h.attempts, List.countP_append]; rfl
  successes := by rw [hlimiter, hsuccesses, ← h.successes, List.countP_append]; rfl
  permits := by rw [hlimiter, h.permits]

/-- A job that is in no attempt and has not succeeded stays so. -/
theorem outside {job' : Job} (h : Tallied limit c log) (hlimiter : c'.limiter = c.limiter)
    (hjobs : c'.jobs = c.jobs.set j job')
    (hold : (c.progress? j).any Progress.isTrying = false ∧
      (c.progress? j).any Progress.isSuccess = false)
    (hnew : job'.progress.isTrying = false ∧ job'.progress.isSuccess = false) :
    Tallied limit c' (log ++ [.nothing]) := by
  have hway := underWay_set hjobs
  have hsuccesses := successes_set hjobs
  rw [hold.1, hnew.1] at hway
  rw [hold.2, hnew.2] at hsuccesses
  exact h.same hlimiter hway hsuccesses

/-- A job is done at once. -/
theorem answered {job' : Job} {result : Result} (h : Tallied limit c log)
    (hlimiter : c'.limiter = c.limiter) (hjobs : c'.jobs = c.jobs.set j job')
    (hold : c.progress? j = none) (hnew : job'.progress = .done result) :
    Tallied limit c' (log ++ [.answered j result]) := by
  have hway := underWay_set hjobs
  have hsuccesses := successes_set hjobs
  have hbefore := h.successes
  rw [hold, hnew] at hway hsuccesses
  refine ⟨?_, ?_, ?_, ?_, ?_⟩
  · rw [hlimiter, h.inFlight]
    exact hway.symm
  · rw [hlimiter, h.admitted]
  · rw [hlimiter, h.attempts, List.countP_append]
    rfl
  · rw [hlimiter, List.countP_append]
    cases result with
    | ok a =>
        simp only [Option.any_none, Bool.toNat_false, Progress.isSuccess, Bool.toNat_true]
          at hsuccesses
        simp only [List.countP_singleton, Report.isAnswer, if_true]
        omega
    | error e =>
        simp only [Option.any_none, Bool.toNat_false, Progress.isSuccess] at hsuccesses
        simp only [List.countP_singleton, Report.isAnswer, Bool.false_eq_true, if_false]
        omega
  · rw [hlimiter, h.permits]

/-- An attempt is refused. -/
theorem refused {job' : Job} (h : Tallied limit c log) (hlimiter : c'.limiter = c.limiter.rejected)
    (hjobs : c'.jobs = c.jobs.set j job') (hold : c.progress? j = some .ready)
    (hnew : job'.progress.isTrying = false ∧ job'.progress.isSuccess = false) :
    Tallied limit c' (log ++ [.began j none]) := by
  have hway := underWay_set hjobs
  have hsuccesses := successes_set hjobs
  rw [hold, hnew.1] at hway
  rw [hold, hnew.2] at hsuccesses
  refine ⟨?_, ?_, ?_, ?_, ?_⟩
  · rw [hlimiter]
    exact h.inFlight.trans hway.symm
  · rw [hlimiter]
    exact h.admitted
  · rw [hlimiter, List.countP_append, ← h.attempts]
    rfl
  · rw [hlimiter, List.countP_append]
    exact h.successes.trans hsuccesses.symm
  · rw [hlimiter]
    exact h.permits

/-- An attempt is let in. -/
theorem entered {job' : Job} {d : Nat} {free : Option Nat} (h : Tallied limit c log)
    (hfree : c.limiter.free = free.map (· + 1)) (hlimiter : c'.limiter = c.limiter.admitted free)
    (hjobs : c'.jobs = c.jobs.set j job') (hold : c.progress? j = some .ready)
    (hnew : job'.progress = .trying d) : Tallied limit c' (log ++ [.began j (some d)]) := by
  have hway := underWay_set hjobs
  have hsuccesses := successes_set hjobs
  rw [hold, hnew] at hway hsuccesses
  refine ⟨?_, ?_, ?_, ?_, ?_⟩
  · rw [hlimiter]
    exact (congrArg (· + 1) h.inFlight).trans hway.symm
  · rw [hlimiter]
    exact congrArg (· + 1) h.admitted
  · rw [hlimiter, List.countP_append, ← h.attempts]
    exact Nat.add_right_comm _ _ _
  · rw [hlimiter, List.countP_append]
    exact h.successes.trans hsuccesses.symm
  · have hpermits := h.permits
    rw [hfree, Option.map_map] at hpermits
    rw [hlimiter, ← hpermits]
    change free.map (· + (c.limiter.stats.inFlight + 1)) = _
    congr 1
    funext n
    simp only [Function.comp_apply]
    omega

/-- An attempt is over. Its permit is given back, and counts as a success if the job succeeds. -/
theorem left {job' : Job} {d : Nat} {how : Leaving} (h : Tallied limit c log)
    (hlimiter : c'.limiter = c.limiter.leave how) (hjobs : c'.jobs = c.jobs.set j job')
    (hold : c.progress? j = some (.trying d)) (hnew : job'.progress.isTrying = false)
    (hhow : job'.progress.isSuccess = true ↔ how = .success) :
    Tallied limit c' (log ++ [.nothing]) := by
  have hway := underWay_set hjobs
  have hsuccesses := successes_set hjobs
  rw [hold, hnew] at hway
  rw [hold] at hsuccesses
  change c'.underWay + 1 = c.underWay at hway
  change c'.successes = c.successes + _ at hsuccesses
  have hwon : job'.progress.isSuccess = (how == .success) := by
    rw [Bool.eq_iff_iff, beq_iff_eq]
    exact hhow
  have hone : (how == .success).toNat + (how == .ignored).toNat = 1 := by
    cases how <;> rfl
  have hinFlight := h.inFlight
  have hadmitted := h.admitted
  have hbefore := h.successes
  rw [hwon] at hsuccesses
  constructor
  · rw [hlimiter, leave_stats]
    change c.limiter.stats.inFlight - 1 = c'.underWay
    omega
  · rw [hlimiter, leave_stats]
    change c.limiter.stats.admitted = c.limiter.stats.succeeded + (how == .success).toNat +
      (c.limiter.stats.ignored + (how == .ignored).toNat) + (c.limiter.stats.inFlight - 1)
    omega
  · rw [hlimiter, leave_stats, List.countP_append]
    exact h.attempts
  · rw [hlimiter, leave_stats, List.countP_append]
    change c.limiter.stats.succeeded + (how == .success).toNat + log.countP Report.isAnswer = _
    omega
  · rw [hlimiter, leave_stats, ← h.permits]
    change (c.limiter.free.map (· + 1)).map (· + (c.limiter.stats.inFlight - 1)) = _
    rw [Option.map_map]
    congr 1
    funext n
    simp only [Function.comp_apply]
    omega

theorem move {r : Report} (h : Tallied limit c log) (hm : c.Move j r c') :
    Tallied limit c' (log ++ [r]) := by
  cases hm with
  | nothing => exact h.same rfl rfl rfl
  | called =>
      have hcount (p : Job → Bool) (hp : ∀ x : Job, p { x with calledOff := true } = p x) :
          (c.cancel j).jobs.count p = c.jobs.count p := Registry.count_modify p _ hp c.jobs j
      exact h.same rfl (hcount _ fun _ => rfl) (hcount _ fun _ => rfl)
  | submitted hj hnew =>
      refine h.outside rfl rfl (by rw [progress?, hj]; exact ⟨rfl, rfl⟩) ?_
      rcases hnew with hnew | ⟨e, hnew⟩ <;> rw [hnew] <;> exact ⟨rfl, rfl⟩
  | answered hj hnew => exact h.answered rfl rfl (by rw [progress?, hj]; rfl) hnew
  | refused hj hold hfree hnew =>
      refine h.refused rfl rfl (by rw [progress?_eq hj, hold]) ⟨?_, ?_⟩
      · rw [Progress.isTrying, hnew.dispatch?]
        rfl
      · exact hnew.isSuccess_error
  | admitted hj hold hfree hnew =>
      exact h.entered hfree rfl rfl (by rw [progress?_eq hj, hold]) hnew
  | calledOff => exact h.same rfl rfl rfl
  | collected hj hold hresult hnew =>
      refine h.left rfl rfl (by rw [progress?_eq hj, hold]) ?_ ?_
      · rw [Progress.isTrying, hnew.dispatch?]
        rfl
      · exact hnew.isSuccess_iff
  | moved hj hold hnew =>
      refine h.outside rfl rfl ?_ ?_
      · rw [progress?_eq hj]
        exact Progress.outside_of_isBetween hold
      · rcases hnew with hnew | ⟨e, hnew⟩ <;> rw [hnew] <;> exact ⟨rfl, rfl⟩
  | aborted hj hold hwaits hnew =>
      refine h.left rfl rfl (by rw [progress?_eq hj, hold]) (by rw [hnew]; rfl) ?_
      rw [hnew]
      constructor
      · exact fun h => absurd h Bool.false_ne_true
      · intro h
        cases h

theorem step (h : Tallied limit c log) (e : Event) :
    Tallied limit (c.step e) (log ++ [c.report e]) := by
  cases hjob : e.job? with
  | some j => exact h.move (step_move hjob c)
  | none =>
      obtain ⟨hreport, hstep | ⟨x, closed, hstep, -⟩⟩ := step_of_no_job hjob c
      · rw [hreport, hstep]
        exact h.same rfl rfl rfl
      · rw [hreport, hstep]
        exact h.same rfl rfl rfl

theorem run (h : Tallied limit c log) (events : List Event) :
    Tallied limit (c.run events) (log ++ c.reports events) := by
  induction events generalizing c log with
  | nil => rwa [reports, List.append_nil]
  | cons e rest ih =>
      have hrest := ih (h.step e)
      rwa [List.append_assoc] at hrest

end Tallied

theorem Tallied.ofConfig {config : ClientConfig} {source : CredentialsSource}
    {epoch : Calendar.Instant} (h : Client.ofConfig config source epoch = .ok c) :
    Tallied config.maxInFlight c [] := by
  obtain ⟨-, hlimiter, hjobs⟩ := ofConfig_eq_ok h
  have hcount (p : Job → Bool) : c.jobs.count p = 0 := by
    rw [hjobs]
    rfl
  refine ⟨?_, ?_, ?_, ?_, ?_⟩
  · rw [hlimiter, underWay, hcount]
    rfl
  · rw [hlimiter]
    rfl
  · rw [hlimiter]
    rfl
  · rw [hlimiter, Client.successes, hcount]
    rfl
  · rw [hlimiter]
    simp [Limiter.ofLimit]

/-! ## Clients at rest -/

/-- A job with a result is in no attempt. -/
theorem trying?_of_result {r : Result} (h : c.result? j = some r) : c.trying? j = none := by
  unfold result? at h
  rw [trying?]
  split at h
  · rename_i hprogress
    rw [hprogress]
    rfl
  · cases h

/-- A client whose jobs are all done has nobody in its pool and nobody in its routes. -/
theorem Regular.rest {limits : PoolConfig} (h : Regular limits c log)
    (hdone : ∀ j ∈ c.jobs.keys, (c.result? j).isSome = true) :
    c.underWay = 0 ∧ (∀ p, c.transport.pool.users.count p = 0) ∧
      c.transport.routes.isEmpty = true := by
  have htrying (j d : Nat) : c.trying? j ≠ some d := by
    intro hj
    by_cases hmem : j ∈ c.jobs.keys
    · obtain ⟨r, hr⟩ := Option.isSome_iff_exists.1 (hdone j hmem)
      rw [trying?_of_result hr] at hj
      cases hj
    · rw [trying?, progress?, Registry.find?_eq_none.2 hmem] at hj
      cases hj
  have hnothing (d : Nat) := h.left_nothing fun k => htrying k d
  refine ⟨?_, fun p => ?_, ?_⟩
  · refine Registry.count_eq_zero fun j job hj => ?_
    have hnone := htrying j
    rw [trying?_of_find? hj] at hnone
    cases hd : job.progress.dispatch? with
    | none => rw [Progress.isTrying, hd]; rfl
    | some d => exact absurd hd (hnone d)
  · refine Registry.count_eq_zero fun d s hs => ?_
    have hstage : c.transport.pool.stage? d = some s := hs
    rw [(hnothing d).2.1] at hstage
    cases hstage
  · have hentries : c.transport.routes.sinks.entries = [] := by
      refine Registry.entries_eq_nil fun channel => ?_
      cases howner : c.transport.routes.owner? channel with
      | none => exact howner
      | some d => exact absurd howner ((hnothing d).2.2 channel)
    rw [Routes.isEmpty, Registry.isEmpty, hentries]
    rfl

/-- After every run of a client: of the attempts of a job with a result nothing is left, no user of
the pool, no owner of a channel and no permit, for the permits in use are those of the attempts
under way. When all jobs are done, the pool and the limiter are at rest, all channels are closed or
idle, each attempt let in has succeeded or was ignored, and each attempt was let in or refused. The
successes are those of the jobs that were not answered at once. -/
theorem run_settles {config : ClientConfig} {source : CredentialsSource}
    {epoch : Calendar.Instant} {c₀ : Client} (h : ofConfig config source epoch = .ok c₀)
    (events : List Event) :
    let c := c₀.run events
    let log := c₀.reports events
    let pool := c.transport.pool
    let stats := c.limiter.stats
    (∀ j r, c.result? j = some r → ∀ d, .began j (some d) ∈ log →
      pool.stage? d = none ∧ (∀ channel, c.transport.routes.owner? channel ≠ some d) ∧
        c.transport.phase? d = none ∧ ∀ k, c.trying? k ≠ some d) ∧
      stats.inFlight = c.underWay ∧
      ((∀ j ∈ c.jobs.keys, (c.result? j).isSome = true) →
        pool.acquired = 0 ∧ pool.pending = 0 ∧ stats.inFlight = 0 ∧
          c.transport.routes.isEmpty = true ∧
          pool.created = pool.closed + pool.idle.length ∧
          stats.admitted = stats.succeeded + stats.ignored ∧
          stats.succeeded + log.countP Report.isAnswer = c.successes ∧
          stats.admitted + stats.rejected = log.countP Report.isAttempt) := by
  intro c log pool stats
  have hregular : Regular c₀.transport.pool.config c log := (Regular.ofConfig h).run events
  have htallied : Tallied config.maxInFlight c log := (Tallied.ofConfig h).run events
  refine ⟨?_, htallied.inFlight, ?_⟩
  · intro j r hr d hd
    have halone := (hregular.attended.begun j d hd).2
    have htrying (k : Nat) : c.trying? k ≠ some d := by
      intro hk
      rw [halone k hk, trying?_of_result hr] at hk
      cases hk
    obtain ⟨hphase, hstage, howner⟩ := hregular.left_nothing htrying
    exact ⟨hstage, howner, hphase, htrying⟩
  · intro hdone
    obtain ⟨hway, husers, hroutes⟩ := hregular.rest hdone
    obtain ⟨leases, haccounts⟩ := hregular.orderly.balanced.accounts
    have hacquired : pool.acquired = 0 := haccounts.acquired.trans (husers _)
    have hinFlight : stats.inFlight = 0 := htallied.inFlight.trans hway
    refine ⟨hacquired, ?_, hinFlight, hroutes, ?_, ?_, htallied.successes, htallied.attempts⟩
    · exact hregular.orderly.balanced.counted.trans (husers _)
    · have hchannels := haccounts.channels
      rwa [hacquired, Nat.add_zero] at hchannels
    · have hadmitted := htallied.admitted
      rwa [hinFlight, Nat.add_zero] at hadmitted

/-! ## Two jobs of a client -/

/-- A client with a single connection. -/
def single : Client where
  transport := .single
  limiter := .ofLimit Transport.singleConnection.maxInFlight
  policy := .ofConfig Transport.singleConnection
  options := Transport.singleConnection.options

theorem ofConfig_single :
    ofConfig Transport.singleConnection Transport.fixedSource ⟨0, 0⟩ = .ok single := rfl

/-- The last page of a listing, and the call for the page after it. -/
def afterLastPage : Call := .listNext single.options { bucket := "photos" }

/-- An object is deleted, and the dispatch gets a channel. -/
def deletionBegins : List Event :=
  [.submit 1 (.send Transport.deletion .deleted), .attempt 1, .transport (.acquire 0),
    .transport (.connected 0)]

/-- The service answers, and the page after the last one is asked for. -/
def deletionEnds : List Event :=
  [.transport (.response 0 { status := 204 }), .transport (.route 0), .transport (.tell 0),
    .transport (.parse 0), .transport (.finish 0), .collect 1, .submit 2 afterLastPage]

/-- An object is deleted, and the page after the last one is asked for. -/
def deletionAndPage : List Event := deletionBegins ++ .transport (.send 0) :: deletionEnds

/-- The client after the request for the deletion is sent. -/
def deletionSent : Client :=
  { single.run deletionBegins with
    transport := (single.run deletionBegins).transport.sentSigned 0 1 (.opened 1 0)
      Transport.deletion { path := "/key" } }

theorem send_deletion :
    (single.run deletionBegins).step (.transport (.send 0)) = deletionSent := by
  have hsend : (single.run deletionBegins).transport.send 0 =
      (single.run deletionBegins).transport.sentSigned 0 1 (.opened 1 0) Transport.deletion
        { path := "/key" } := by
    refine (Transport.send_signed ?_ ?_ ?_ ?_ Transport.parse_deletion ?_ ?_).1
    all_goals decide +kernel
  exact congrArg (fun transport => { single.run deletionBegins with transport }) hsend

theorem run_deletionAndPage : single.run deletionAndPage = deletionSent.run deletionEnds := by
  rw [deletionAndPage, run, List.foldl_append, List.foldl_cons]
  exact congrArg (run · deletionEnds) send_deletion

/-- Both jobs of the run are done, and the client is at rest. -/
theorem run_settles_deletionAndPage :
    ofConfig Transport.singleConnection Transport.fixedSource ⟨0, 0⟩ = .ok single ∧
      let c := single.run deletionAndPage
      (∀ j ∈ c.jobs.keys, (c.result? j).isSome = true) ∧
        c.transport.pool.stage? 0 = none ∧ c.transport.pool.acquired = 0 ∧
        c.limiter.stats.admitted = 1 ∧ c.limiter.stats.succeeded = 1 ∧ c.successes = 2 ∧
        c.limiter.stats.succeeded + (single.reports deletionAndPage).countP Report.isAnswer =
          c.successes := by
  have hdone : ∀ j ∈ (single.run deletionAndPage).jobs.keys,
      ((single.run deletionAndPage).result? j).isSome = true := by
    rw [run_deletionAndPage]
    decide +kernel
  obtain ⟨-, -, hrest⟩ := run_settles ofConfig_single deletionAndPage
  obtain ⟨hacquired, -, -, -, -, -, hsuccesses, -⟩ := hrest hdone
  refine ⟨ofConfig_single, hdone, ?_, hacquired, ?_, ?_, ?_, hsuccesses⟩
  · rw [run_deletionAndPage]
    decide +kernel
  · rw [run_deletionAndPage]
    decide +kernel
  · rw [run_deletionAndPage]
    decide +kernel
  · rw [run_deletionAndPage]
    decide +kernel

/-- The page after the last one is an operation that succeeds without an attempt, so the successes
of the limiter are not those of the operations. -/
theorem page_succeeds_unadmitted :
    ofConfig Transport.singleConnection Transport.fixedSource ⟨0, 0⟩ = .ok single ∧
      let c := single.run [.submit 1 afterLastPage]
      (∀ j ∈ c.jobs.keys, (c.result? j).isSome = true) ∧
        c.successes = 1 ∧ c.limiter.stats.succeeded = 0 := by
  refine ⟨ofConfig_single, ?_⟩
  decide

end Client

end ObjectStore
