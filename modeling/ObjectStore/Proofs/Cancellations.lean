import ObjectStore.Proofs.JobEndings

/-!
# Cancellations

What becomes of a job that is called off while it waits: for a permit of the pool, for a connection,
for a response, or between two attempts. Until it notices, it waits where it is, whatever others do.
When it notices, it gives back what it had asked the pool for, and goes its way to the end.
-/

namespace ObjectStore

namespace Client

variable {c c' : Client} {j d : Nat} {job : Job} {log : List Report} {limits : PoolConfig}
  {e : Event} {s : Suspension}

/-! ## Jobs that wait -/

/-- A job waits in a certain place. -/
inductive Suspended (c : Client) (j : Nat) : Suspension → Prop
  | acquiring {d : Nat} (hj : c.progress? j = some (.trying d))
      (hd : c.transport.phase? d = some .acquiring) : Suspended c j (.acquiring d)
  | exchanging {d channel deadline : Nat} (hj : c.progress? j = some (.trying d))
      (hd : c.transport.phase? d = some (.exchanging channel deadline)) :
      Suspended c j (.exchanging d channel)
  | pausing {stop : Nat} (hj : c.progress? j = some (.pausing stop)) : Suspended c j .pausing

theorem suspended_of_suspension? (h : c.suspension? j = some s) : Suspended c j s := by
  unfold suspension? at h
  split at h
  · rename_i d hj
    split at h
    · rename_i hd
      obtain rfl := Option.some.inj h
      exact .acquiring hj hd
    · rename_i channel deadline hd
      obtain rfl := Option.some.inj h
      exact .exchanging hj hd
    · cases h
  · rename_i stop hj
    obtain rfl := Option.some.inj h
    exact .pausing hj
  · cases h

namespace Suspended

/-- A job whose progress stays, and whose dispatch stays in its phase, waits on. -/
theorem congr (h : Suspended c j s) (hprogress : c'.progress? j = c.progress? j)
    (hphase : ∀ d, s.dispatch? = some d → c'.transport.phase? d = c.transport.phase? d) :
    Suspended c' j s := by
  cases h with
  | acquiring hj hd => exact .acquiring (hprogress.trans hj) ((hphase _ rfl).trans hd)
  | exchanging hj hd => exact .exchanging (hprogress.trans hj) ((hphase _ rfl).trans hd)
  | pausing hj => exact .pausing (hprogress.trans hj)

/-- The dispatch of a job that waits is the one that it tries. -/
theorem trying? (h : Suspended c j s) : c.trying? j = s.dispatch? := by
  rw [Client.trying?]
  cases h with
  | acquiring hj | exchanging hj | pausing hj =>
      rw [hj]
      rfl

theorem began (h : Suspended c j s) (hc : Regular limits c log) (hd : s.dispatch? = some d) :
    .began j (some d) ∈ log :=
  hc.attended.logged j d (h.trying?.trans hd)

/-- A job that waits is there, and can be called off. -/
theorem job_calledOff (h : Suspended c j s) :
    ∃ job, (c.cancel j).jobs.find? j = some job ∧ job.calledOff = true := by
  have hsome : ∃ q, c.progress? j = some q := by
    cases h with
    | acquiring hj | exchanging hj | pausing hj => exact ⟨_, hj⟩
  obtain ⟨q, hq⟩ := hsome
  obtain ⟨job, hjob, -⟩ := find?_of_progress? hq
  refine ⟨{ job with calledOff := true }, ?_, rfl⟩
  rw [cancel, Registry.find?_modify, if_pos rfl, hjob]
  rfl

/-- A job that waits begins nothing and sends nothing. -/
theorem passive (h : Suspended c j s) (hc : Regular limits c log) : Passive c j log where
  not_ready := by
    cases h with
    | acquiring hj | exchanging hj | pausing hj =>
        rw [hj]
        exact nofun
  not_leased d channel hbegan hleased := by
    rcases hc.phase_of_began hbegan with hnone | htrying
    · rw [hnone] at hleased
      cases hleased
    · rw [h.trying?] at htrying
      cases h with
      | acquiring _ hd | exchanging _ hd =>
          obtain rfl := Option.some.inj htrying
          rw [hd] at hleased
          cases hleased
      | pausing => cases htrying

/-- A step that does not concern the job leaves it where it waits. -/
theorem step (h : Suspended c j s) (hc : Regular limits c log)
    (he : e.concerns j s.dispatch? = false) : Suspended (c.step e) j s := by
  refine h.congr (progress?_step (Event.job?_of_concerns he) c) fun d hd => ?_
  rw [hd] at he
  exact (hc.apart (h.began hc hd) he).phase

theorem run {events : List Event} (h : Suspended c j s) (hc : Regular limits c log)
    (he : ∀ e ∈ events, e.concerns j s.dispatch? = false) :
    Suspended (c.run events) j s ∧ (c.run events).jobs.find? j = c.jobs.find? j ∧
      Quiet j log c (c.run events) (c.reports events) := by
  induction events generalizing c log with
  | nil => exact ⟨h, rfl, .refl j log c⟩
  | cons e rest ih =>
      have hfirst := he e List.mem_cons_self
      obtain ⟨hsuspended, hfind, hquiet⟩ := ih (h.step hc hfirst) (hc.step e)
        fun x hx => he x (List.mem_cons_of_mem e hx)
      refine ⟨hsuspended, hfind.trans (find?_step (Event.job?_of_concerns hfirst) c), ?_⟩
      exact ((h.passive hc).step e).trans hquiet

end Suspended

/-! ## Jobs that notice -/

/-- A job that was called off notices it in an attempt: the dispatch is called off. -/
theorem heed_trying (hj : c.progress? j = some (.trying d)) (hjob : c.jobs.find? j = some job)
    (hoff : job.calledOff = true) :
    c.step (.heed j) = { c with transport := c.transport.cancel d } := by
  obtain ⟨request, parser, failures, off, progress⟩ := job
  obtain rfl : off = true := hoff
  obtain rfl : progress = .trying d := Option.some.inj ((progress?_eq hjob).symm.trans hj)
  simp only [step, heed, hjob]

/-- A job that was called off notices it in a pause: it is done. -/
theorem heed_pausing {stop : Nat} (hj : c.progress? j = some (.pausing stop))
    (hjob : c.jobs.find? j = some job) (hoff : job.calledOff = true) :
    (c.step (.heed j)).progress? j = some (.done (.error .cancelled)) := by
  obtain ⟨request, parser, failures, off, progress⟩ := job
  obtain rfl : off = true := hoff
  obtain rfl : progress = .pausing stop := Option.some.inj ((progress?_eq hjob).symm.trans hj)
  have hheed : c.step (.heed j) = c.enter j (.done (.error .cancelled)) := by
    simp only [step, heed, hjob]
  rw [hheed, enter_eq hjob, progress?, Registry.find?_set, if_pos rfl]
  rfl

/-- A dispatch that is called off while it waits for a channel goes away from the pool. -/
theorem cancel_acquiring {t : Transport} (hd : t.phase? d = some .acquiring) :
    t.cancel d =
      ((t.onPool (·.abandon d)).notify d Completion.onCancel).enter d .ended := by
  simp only [Transport.cancel, hd]

/-- A dispatch that is called off while it waits for a response keeps its channel for now. -/
theorem cancel_exchanging {t : Transport} {channel deadline : Nat}
    (hd : t.phase? d = some (.exchanging channel deadline)) :
    t.cancel d = t.enter d (.settled channel .cancelled) := by
  simp only [Transport.cancel, Transport.settle, hd]

/-- A job that notices that it was called off is on its way to the end. -/
theorem Suspended.ending (h : Suspended c j s) (hc : Regular limits c log)
    (hjob : c.jobs.find? j = some job) (hoff : job.calledOff = true) :
    Ending (c.step (.heed j)) j (s.lastSteps j) := by
  cases h with
  | pausing hj => exact .finished (heed_pausing hj hjob hoff)
  | @acquiring d hj hd =>
      obtain ⟨l, hrecords⟩ := hc.records d
      rw [heed_trying hj hjob hoff, cancel_acquiring hd]
      refine Ending.way (d := d) (q := .ended) hj (.enter hd .ended ?_)
      rw [Transport.find?_notify, if_pos rfl]
      exact (hrecords.hushed hd (Or.inl rfl)).onCancel
  | @exchanging d channel deadline hj hd =>
      obtain ⟨l, hrecords⟩ := hc.records d
      rw [heed_trying hj hjob hoff, cancel_exchanging hd]
      exact Ending.way (d := d) (q := .settled channel .cancelled) hj
        (.enter hd (.settled channel) (hrecords.hushed hd (Or.inr ⟨channel, deadline, rfl⟩)))

/-- A job that notices is in its attempt still, if it was in one. -/
theorem Suspended.trying?_heed (h : Suspended c j s) (hjob : c.jobs.find? j = some job)
    (hoff : job.calledOff = true) : (c.step (.heed j)).trying? j = s.dispatch? := by
  have htrying := h.trying?
  cases h with
  | acquiring hj | exchanging hj =>
      rw [heed_trying hj hjob hoff]
      exact htrying
  | pausing hj =>
      rw [Client.trying?, heed_pausing hj hjob hoff]
      rfl

/-- A job that notices while its dispatch waits for a channel: the dispatch is no longer a user of
the pool, it is not pending and has no permit, and no permit is lost. -/
theorem Suspended.gives_back (h : Suspended c j (.acquiring d)) (hc : Regular limits c log)
    (hjob : c.jobs.find? j = some job) (hoff : job.calledOff = true) :
    let pool := c.transport.pool
    let pool' := (c.step (.heed j)).transport.pool
    pool'.stage? d = none ∧
      pool'.pending + ((pool.stage? d).any Stage.isPending).toNat = pool.pending ∧
      pool'.free + pool'.users.count Stage.holdsPermit =
        pool.free + pool.users.count Stage.holdsPermit := by
  intro pool pool'
  cases h with
  | acquiring hj hd =>
      have hpool : pool' = pool.abandon d := by
        change (c.step (.heed j)).transport.pool = _
        rw [heed_trying hj hjob hoff, cancel_acquiring hd]
        rfl
      have hbalanced := hc.orderly.balanced
      have hafter : pool'.Balanced limits := (hc.step (.heed j)).orderly.balanced
      refine ⟨?_, ?_, hafter.permits.trans hbalanced.permits.symm⟩
      · rw [hpool, Pool.stage?_abandon]
      · rw [hpool]
        exact hbalanced.counted.abandon_pending d

/-- A job that notices while its dispatch waits for a response: nobody but the dispatch has the
channel, and the channel is not idle. -/
theorem Suspended.keeps_channel {channel : Nat} (h : Suspended c j (.exchanging d channel))
    (hc : Regular limits c log) (hjob : c.jobs.find? j = some job)
    (hoff : job.calledOff = true) :
    (c.step (.heed j)).transport.pool.leaseId? d = some channel ∧
      Transport.Withdrawn (c.step (.heed j)).transport.pool channel d := by
  cases h with
  | exchanging hj hd =>
      have hsound := (hc.step (.heed j)).sound
      rw [heed_trying hj hjob hoff, cancel_exchanging hd] at hsound ⊢
      have hheld : (c.transport.enter d (.settled channel .cancelled)).held? d = some channel :=
        Transport.held?_of_phase ((Transport.phase?_enter_of_some hd d).trans (if_pos rfl))
      exact ⟨(hsound.lease d).trans hheld, hsound.withdrawn hheld⟩

/-- A job is called off while it waits. Others may take steps before it notices, and any steps may
follow. The only result it can have is the cancellation, and it has it after the steps that its
dispatch has still to take, which wait for nobody. From the cancellation on no attempt of it begins,
and none of its dispatches sends a request. If it was in an attempt, this ends with the permit given
back as ignored. In a pause it is done as soon as it notices. A dispatch without a channel is then
no longer a user of the pool: it is not pending and has no permit, and none is lost. The channel of
an exchange is not pooled and goes to nobody else; the lease ends with its close, and it has ended
when the job is done. To drop what awaits the result is to call the job off. -/
theorem called_off_ends {config : ClientConfig} {source : CredentialsSource}
    {epoch : Calendar.Instant} {c₀ : Client} (h : ofConfig config source epoch = .ok c₀)
    {before between : List Event} {j : Nat} {s : Suspension}
    (hs : (c₀.run before).suspension? j = some s)
    (hbetween : ∀ e ∈ between, e.concerns j s.dispatch? = false) (rest : List Event) :
    let waiting := c₀.run before
    let found := waiting.run (.cancel j :: between)
    let noticed := found.step (.heed j)
    let c := noticed.run rest
    (∀ r, c.result? j = some r → r = .error .cancelled) ∧
      ((s.lastSteps j).Sublist rest → c.result? j = some (.error .cancelled)) ∧
      (∀ dispatch, .began j dispatch ∉
        waiting.reports (.cancel j :: (between ++ .heed j :: rest))) ∧
      (∀ d, .began j (some d) ∈ c₀.reports before →
        c.transport.sentBy d = waiting.transport.sentBy d) ∧
      noticed.trying? j = s.dispatch? ∧
      (∀ e, (c.step e).trying? j ≠ c.trying? j →
        (c.step e).result? j = some (.error .cancelled) ∧
          (c.step e).limiter = c.limiter.leave .ignored) ∧
      (s = .pausing → noticed.result? j = some (.error .cancelled)) ∧
      (∀ d, s = .acquiring d →
        let pool := found.transport.pool
        let pool' := noticed.transport.pool
        pool'.stage? d = none ∧
          pool'.pending + ((pool.stage? d).any Stage.isPending).toNat = pool.pending ∧
          pool'.free + pool'.users.count Stage.holdsPermit =
            pool.free + pool.users.count Stage.holdsPermit) ∧
      ∀ d channel, s = .exchanging d channel →
        let pool := c.transport.pool
        noticed.transport.pool.leaseId? d = some channel ∧ channel ∉ pool.idleIds ∧
          (∀ user, pool.leaseId? user = some channel → user = d ∧ c.result? j = none) ∧
          ∀ e, (c.step e).transport.pool.leaseId? d ≠ pool.leaseId? d →
            (c.step e).transport.pool = pool.close d := by
  intro waiting found noticed c
  have hregular : Regular c₀.transport.pool.config waiting (c₀.reports before) :=
    (Regular.ofConfig h).run before
  have hwaiting : Suspended waiting j s := suspended_of_suspension? hs
  have hcalled : Suspended (waiting.cancel j) j s :=
    hwaiting.congr (progress?_cancel waiting j j) fun _ _ => rfl
  have hcalledRegular := hregular.step (.cancel j)
  obtain ⟨hfound, hfind, hbetweenQuiet⟩ := hcalled.run hcalledRegular hbetween
  obtain ⟨job, hjob, hoff⟩ := hwaiting.job_calledOff
  have hfoundJob : found.jobs.find? j = some job := hfind.trans hjob
  have hfoundRegular := hcalledRegular.run between
  have hending : Ending noticed j (s.lastSteps j) := hfound.ending hfoundRegular hfoundJob hoff
  have hnoticedRegular := hfoundRegular.step (.heed j)
  obtain ⟨⟨l, hend⟩, hrestQuiet⟩ := hending.run hnoticedRegular rest
  have hquiet : Quiet j (c₀.reports before) waiting c
      (waiting.reports (.cancel j :: (between ++ .heed j :: rest))) := by
    have hcancel := (hwaiting.passive hregular).step (.cancel j)
    have hheed := (hfound.passive hfoundRegular).step (.heed j)
    rw [reports, reports_append, reports]
    exact hcancel.trans (hbetweenQuiet.trans (hheed.trans hrestQuiet))
  have hregularEnd := hnoticedRegular.run rest
  refine ⟨fun r hr => hend.result hr, ?_, hquiet.begins, hquiet.sends,
    hfound.trying?_heed hfoundJob hoff, ?_, ?_, ?_, ?_⟩
  · intro hsteps
    exact (hending.run_ends hnoticedRegular hsteps).result_of_nil rfl
  · intro e hleft
    exact hend.leaves hleft
  · rintro rfl
    exact hending.result_of_nil rfl
  · rintro d rfl
    exact hfound.gives_back hfoundRegular hfoundJob hoff
  · rintro d channel rfl
    obtain ⟨hlease, hwithdrawn⟩ := hfound.keeps_channel hfoundRegular hfoundJob hoff
    have hbegan := hfound.began hfoundRegular rfl
    have hafter := hending.withdrawn_run hnoticedRegular (List.mem_append_left _ hbegan)
      hwithdrawn rest
    have hbeganEnd := List.mem_append_left (noticed.reports rest)
      (List.mem_append_left [found.report (.heed j)] hbegan)
    refine ⟨hlease, hafter.idle, fun user huser => ?_, ?_⟩
    · obtain rfl := hafter.lease user huser
      exact ⟨rfl, hregularEnd.result?_of_lease hbeganEnd huser⟩
    · intro e hleft
      exact hend.closes hregularEnd hbeganEnd hleft

/-- An object is deleted, and the service is yet to answer. -/
def deletionWaits : List Event := deletionBegins ++ [.transport (.send 0)]

theorem run_deletionWaits : single.run deletionWaits = deletionSent := by
  rw [deletionWaits, run, List.foldl_append]
  exact send_deletion

/-- The deletion is called off, and the page after the last one is asked for before it notices. -/
theorem called_off_ends_deletion :
    ofConfig Transport.singleConnection Transport.fixedSource ⟨0, 0⟩ = .ok single ∧
      (single.run deletionWaits).suspension? 1 = some (.exchanging 0 1) ∧
      (∀ e ∈ [Event.submit 2 afterLastPage], e.concerns 1 (some 0) = false) ∧
      let found := (single.run deletionWaits).run [.cancel 1, .submit 2 afterLastPage]
      let c := (found.step (.heed 1)).run ((Suspension.exchanging 0 1).lastSteps 1)
      c.result? 1 = some (.error .cancelled) ∧
        c.transport.sentBy 0 = (single.run deletionWaits).transport.sentBy 0 ∧
        ∀ user, c.transport.pool.leaseId? user ≠ some 1 := by
  have hs : (single.run deletionWaits).suspension? 1 = some (.exchanging 0 1) := by
    rw [run_deletionWaits]
    decide +kernel
  have hbetween : ∀ e ∈ [Event.submit 2 afterLastPage],
      e.concerns 1 (Suspension.exchanging 0 1).dispatch? = false := by
    intro e he
    obtain rfl := List.mem_singleton.1 he
    rfl
  have hbegan : .began 1 (some 0) ∈ single.reports deletionWaits :=
    List.mem_cons_of_mem _ List.mem_cons_self
  obtain ⟨-, hends, -, hsends, -, -, -, -, hchannel⟩ := called_off_ends ofConfig_single hs hbetween
    ((Suspension.exchanging 0 1).lastSteps 1)
  have hresult := hends (List.Sublist.refl _)
  refine ⟨ofConfig_single, hs, hbetween, hresult, hsends 0 hbegan, ?_⟩
  intro user huser
  obtain ⟨-, hnone⟩ := (hchannel 0 1 rfl).2.2.1 user huser
  rw [hresult] at hnone
  cases hnone

end Client

end ObjectStore
