import ObjectStore.Proofs.ClientAccounts
import ObjectStore.Proofs.DispatchEndings

/-!
# Endings of jobs

The way to the end of a job that has noticed that it was called off. It is a fixed list of steps.
Whatever others do in between, no step but the next one of the list takes the job further, no
attempt begins and no request is sent, and at the end of the list the job is done.
-/

namespace ObjectStore

namespace Client

variable {c c' : Client} {j d : Nat} {log : List Report} {limits : PoolConfig} {e : Event}
  {l : List Event}

/-! ## Steps of others -/

theorem Event.job?_of_concerns {d : Option Nat} (he : e.concerns j d = false) :
    e.job? ≠ some j := by
  cases e with
  | transport | close => exact nofun
  | submit | attempt | collect | wake | cancel | heed | abort =>
      intro hj
      simp [concerns, hj] at he

/-- A step that concerns a dispatch of a job is a step of the job or of the dispatch. -/
theorem Event.concerns_cases (j d : Nat) (e : Event) :
    e.concerns j (some d) = false ∨ e.job? = some j ∨
      ∃ x, e = .transport x ∧ x.dispatch? = some d := by
  cases e with
  | transport x =>
      by_cases hx : x.dispatch? = some d
      · exact Or.inr (Or.inr ⟨x, rfl, hx⟩)
      · exact Or.inl (by simp [concerns, hx])
  | close => exact Or.inl rfl
  | submit k | attempt k | collect k | wake k | cancel k | heed k | abort k =>
      by_cases hk : k = j
      · exact Or.inr (Or.inl (congrArg some hk))
      · exact Or.inl (by simp [concerns, job?, hk])

/-- A step of a job leaves the other jobs as they are. -/
theorem Move.find?_of_ne {r : Report} {k : Nat} (hm : c.Move k r c') (hne : j ≠ k) :
    c'.jobs.find? j = c.jobs.find? j := by
  cases hm with
  | nothing | calledOff => rfl
  | called => exact (Registry.find?_modify ..).trans (if_neg hne)
  | submitted | answered | refused | admitted | collected | moved | aborted =>
      exact (Registry.find?_set ..).trans (if_neg hne)

theorem find?_step (he : e.job? ≠ some j) (c : Client) :
    (c.step e).jobs.find? j = c.jobs.find? j := by
  cases hjob : e.job? with
  | some k => exact (step_move hjob c).find?_of_ne fun hjk => he (hjk ▸ hjob)
  | none =>
      obtain ⟨-, hstep | ⟨x, closed, hstep, -⟩⟩ := step_of_no_job hjob c
      · rw [hstep]
      · rw [hstep]

theorem progress?_step (he : e.job? ≠ some j) (c : Client) :
    (c.step e).progress? j = c.progress? j := by
  rw [progress?, find?_step he, progress?]

/-- A step that does not concern a dispatch of a job is no step of this dispatch. -/
theorem Regular.transport_apart (h : Regular limits c log) (hd : .began j (some d) ∈ log)
    (he : e.concerns j (some d) = false) :
    ∃ events, (c.step e).transport = c.transport.run events ∧
      ∀ x ∈ events, x.dispatch? ≠ some d := by
  obtain ⟨hlt, halone⟩ := h.attended.begun j d hd
  cases hjob : e.job? with
  | some k =>
      obtain ⟨events, htransport, hevents⟩ := (step_move hjob c).transport_run
      refine ⟨events, htransport, fun x hx hxd => ?_⟩
      rcases (hevents x hx).2 with ⟨htrying, -⟩ | hnext
      · have hk := halone k (htrying.symm.trans hxd)
        exact Event.job?_of_concerns he (hk ▸ hjob)
      · rw [hxd] at hnext
        exact Nat.ne_of_lt hlt (Option.some.inj hnext)
  | none =>
      obtain ⟨-, hstep | ⟨x, closed, hstep, hx⟩⟩ := step_of_no_job hjob c
      · exact ⟨[], by rw [hstep]; rfl, fun x hx => absurd hx List.not_mem_nil⟩
      · refine ⟨[x], by rw [hstep]; rfl, fun y hy => ?_⟩
        obtain rfl := List.mem_singleton.1 hy
        rcases hx with rfl | ⟨rfl, -⟩
        · exact nofun
        · intro hyd
          simp [Event.concerns, hyd] at he

theorem Regular.apart (h : Regular limits c log) (hd : .began j (some d) ∈ log)
    (he : e.concerns j (some d) = false) : c.transport.Apart d (c.step e).transport := by
  obtain ⟨events, htransport, hevents⟩ := h.transport_apart hd he
  rw [htransport]
  exact h.sound.apart_run hevents

/-- Only a dispatch with a channel sends a request. -/
theorem sentBy_step (e : Event) (hd : ∀ channel, c.transport.phase? d ≠ some (.leased channel)) :
    (c.step e).transport.sentBy d = c.transport.sentBy d := by
  cases hjob : e.job? with
  | some k =>
      obtain ⟨events, htransport, hevents⟩ := (step_move hjob c).transport_run
      have hsent : (c.step e).transport.sent = c.transport.sent := by
        rw [htransport]
        refine Transport.sent_run_of_ne fun x hx v hxv => ?_
        have hfree := (hevents x hx).1
        rw [hxv] at hfree
        cases hfree
      rw [Transport.sentBy, hsent, Transport.sentBy]
  | none =>
      obtain ⟨-, hstep | ⟨x, closed, hstep, -⟩⟩ := step_of_no_job hjob c
      · rw [hstep]
      · rw [hstep]
        exact Transport.sentBy_step x hd

/-- Only an attempt of a job that stands before one begins. -/
theorem ready_of_began {dispatch : Option Nat} (h : c.report e = .began j dispatch) :
    c.progress? j = some .ready := by
  cases e with
  | submit k call =>
      cases call with
      | ready result =>
          simp only [report] at h
          split at h <;> cases h
      | send request parser => cases h
  | attempt k =>
      simp only [report] at h
      split at h
      · rename_i hprogress _
        obtain ⟨rfl, -⟩ := Report.began.inj h
        exact hprogress
      · rename_i hprogress _
        obtain ⟨rfl, -⟩ := Report.began.inj h
        exact hprogress
      · cases h
  | transport | collect | wake | cancel | heed | close | abort => cases h

/-- To forget a dispatch is left to the client. -/
theorem report_ne_forgotten {t : Transport} {x : Transport.Event} (hx : isFree x = true) :
    t.report x ≠ .forgotten d := by
  intro h
  have hforget : x = .forget d := Transport.event_of_report h
  rw [hforget] at hx
  cases hx

/-- A dispatch that a job began is gone, or the job is still trying it. -/
theorem Regular.phase_of_began (h : Regular limits c log) (hd : .began j (some d) ∈ log) :
    c.transport.phase? d = none ∨ c.trying? j = some d := by
  by_cases hj : c.trying? j = some d
  · exact Or.inr hj
  · refine Or.inl (h.left_nothing fun k hk => ?_).1
    rw [(h.attended.begun j d hd).2 k hk] at hk
    exact hj hk

/-- A job whose dispatch has a channel has no result yet. -/
theorem Regular.result?_of_lease {channel : Nat} (h : Regular limits c log)
    (hd : .began j (some d) ∈ log) (hlease : c.transport.pool.leaseId? d = some channel) :
    c.result? j = none := by
  have hheld : c.transport.held? d = some channel := (h.sound.lease d).symm.trans hlease
  rcases h.phase_of_began hd with hnone | htrying
  · rw [Transport.held?, hnone] at hheld
    cases hheld
  · cases hr : c.result? j with
    | none => rfl
    | some r =>
        rw [trying?_of_result hr] at htrying
        cases htrying

/-! ## Stretches without a new attempt -/

theorem reports_append (c : Client) (first second : List Event) :
    c.reports (first ++ second) = c.reports first ++ (c.run first).reports second := by
  induction first generalizing c with
  | nil => rfl
  | cons e rest ih => exact congrArg (c.report e :: ·) (ih (c.step e))

/-- In a stretch of a run no attempt of a job begins, and none that began sends a request. -/
structure Quiet (j : Nat) (log : List Report) (c c' : Client) (shown : List Report) : Prop where
  begins : ∀ dispatch, .began j dispatch ∉ shown
  sends : ∀ d, .began j (some d) ∈ log → c'.transport.sentBy d = c.transport.sentBy d

theorem Quiet.refl (j : Nat) (log : List Report) (c : Client) : Quiet j log c c [] :=
  ⟨nofun, fun _ _ => rfl⟩

/-- Two stretches, one after the other. -/
theorem Quiet.trans {c'' : Client} {first second : List Report} (h : Quiet j log c c' first)
    (h' : Quiet j (log ++ first) c' c'' second) : Quiet j log c c'' (first ++ second) where
  begins dispatch hd := by
    rcases List.mem_append.1 hd with hd | hd
    · exact h.begins dispatch hd
    · exact h'.begins dispatch hd
  sends d hd := (h'.sends d (List.mem_append_left _ hd)).trans (h.sends d hd)

/-- A job that is about to begin no attempt and to send no request. -/
structure Passive (c : Client) (j : Nat) (log : List Report) : Prop where
  not_ready : c.progress? j ≠ some .ready
  not_leased : ∀ d channel, .began j (some d) ∈ log →
    c.transport.phase? d ≠ some (.leased channel)

theorem Passive.step (h : c.Passive j log) (e : Event) :
    Quiet j log c (c.step e) [c.report e] where
  begins _ hd := h.not_ready (ready_of_began (List.mem_singleton.1 hd).symm)
  sends d hd := sentBy_step e fun channel => h.not_leased d channel hd

/-! ## The way to the end -/

/-- A cancellation is not tried again. -/
theorem Concluded.eq_done {policy : RetryPolicy} {job : Job} {q : Progress}
    (h : Concluded policy job (.error .cancelled) q) : q = .done (.error .cancelled) := by
  cases h with
  | finished => rfl
  | again hretry => simp [RetryPolicy.shouldRetry, OperationError.isRetryable,
      OperationError.retryClass] at hretry

/-- A job that has noticed that it was called off, with the steps that it still takes. -/
inductive Ending (c : Client) (j : Nat) : List Event → Prop
  | finished (h : c.progress? j = some (.done (.error .cancelled))) : Ending c j []
  | way {d : Nat} {q : Phase} (hj : c.progress? j = some (.trying d))
      (hd : c.transport.Surrenders d q) :
      Ending c j ((Transport.lastSteps d q).map .transport ++ [.collect j])

namespace Ending

theorem not_ready (h : Ending c j l) : c.progress? j ≠ some .ready := by
  cases h with
  | finished h =>
      rw [h]
      exact nofun
  | way hj =>
      rw [hj]
      exact nofun

theorem result (h : Ending c j l) {r : Result} (hr : c.result? j = some r) :
    r = .error .cancelled := by
  unfold result? at hr
  cases h with
  | finished h =>
      rw [h] at hr
      exact (Option.some.inj hr).symm
  | way hj =>
      rw [hj] at hr
      cases hr

/-- Without steps to come the job is done. -/
theorem result_of_nil (h : Ending c j l) (hl : l = []) :
    c.result? j = some (.error .cancelled) := by
  cases h with
  | finished h => rw [result?, h]
  | way => simp at hl

/-- What became of the exchange of a dispatch that the job began. -/
theorem calledOff {q : Phase} (h : Ending c j l) (hc : Regular limits c log)
    (hd : .began j (some d) ∈ log) (hq : c.transport.phase? d = some q) :
    Transport.CalledOff q := by
  rcases hc.phase_of_began hd with hnone | htrying
  · rw [hnone] at hq
    cases hq
  · rw [trying?] at htrying
    cases h with
    | finished h =>
        rw [h] at htrying
        cases htrying
    | way hj hsurrenders =>
        rw [hj] at htrying
        obtain rfl := Option.some.inj htrying
        rw [hsurrenders.phase] at hq
        exact Option.some.inj hq ▸ hsurrenders.calledOff

/-- A step of the job itself: it comes to its end, with the permit of the attempt given back, or it
stays where it is. To the pool it does nothing. -/
theorem own_step (h : Ending c j l) (hjob : e.job? = some j) :
    (c.step e).transport.pool = c.transport.pool ∧
      ((Ending (c.step e) j l ∧ (c.step e).trying? j = c.trying? j) ∨
        (Ending (c.step e) j [] ∧ (c.step e).limiter = c.limiter.leave .ignored)) := by
  have hm := step_move hjob c
  generalize c.step e = c' at hm
  have hcalled : (c.cancel j).trying? j = c.trying? j := by
    rw [trying?, progress?_cancel, trying?]
  cases h with
  | finished h =>
      rcases hm.of_done h with rfl | rfl
      · exact ⟨rfl, Or.inl ⟨.finished h, rfl⟩⟩
      · exact ⟨rfl, Or.inl ⟨.finished ((progress?_cancel c j j).trans h), hcalled⟩⟩
  | @way d q hj hd =>
      cases hm.of_trying hj with
      | nothing => exact ⟨rfl, Or.inl ⟨.way hj hd, rfl⟩⟩
      | called => exact ⟨rfl, Or.inl ⟨.way ((progress?_cancel c j j).trans hj) hd, hcalled⟩⟩
      | calledOff =>
          rw [hd.not_waiting.2]
          exact ⟨rfl, Or.inl ⟨.way hj hd, rfl⟩⟩
      | collected hresult hnew =>
          obtain ⟨-, rfl⟩ := hd.result hresult
          refine ⟨c.transport.pool_forget d, Or.inr ⟨.finished ?_, rfl⟩⟩
          rw [progress?, Registry.find?_set, if_pos rfl, Option.map_some, hnew.eq_done]
      | aborted hwaits =>
          rw [hd.not_waiting.1] at hwaits
          cases hwaits

/-- A step of others leaves the rest of the way as it is, unless it is the next step of the
dispatch. -/
theorem other_step (h : Ending c j l) (hc : Regular limits c log) (hjob : e.job? ≠ some j) :
    ∃ l', Ending (c.step e) j l' ∧ (l' = l ∨ l' = l.tail) := by
  have hprogress := progress?_step hjob c
  cases h with
  | finished h => exact ⟨[], .finished (hprogress.trans h), Or.inl rfl⟩
  | @way d q hj hd =>
      have hbegan : .began j (some d) ∈ log :=
        hc.attended.logged j d (by rw [trying?, hj]; rfl)
      rcases Event.concerns_cases j d e with he | he | ⟨x, rfl, hx⟩
      · exact ⟨_, .way (hprogress.trans hj) (hd.apart (hc.apart hbegan he)), Or.inl rfl⟩
      · exact absurd he hjob
      · rcases c.step_transport x with hstep | ⟨hfree, hstep⟩
        · rw [hstep]
          exact ⟨_, .way hj hd, Or.inl rfl⟩
        · obtain ⟨q', hd', hsteps⟩ :=
            hd.move hc.sound (Transport.step_move_of (Or.inl hx) c.transport)
              (report_ne_forgotten hfree)
          rw [hstep]
          refine ⟨_, .way hj hd', ?_⟩
          rcases hsteps with hsteps | hsteps
          · exact Or.inl (by rw [hsteps])
          · rw [hsteps]
            cases Transport.lastSteps d q with
            | nil => exact Or.inl rfl
            | cons => exact Or.inr rfl

/-- The next step of the way leads on. -/
theorem next {rest : List Event} (h : Ending c j l) (hc : Regular limits c log)
    (hl : l = e :: rest) : Ending (c.step e) j rest := by
  cases h with
  | finished => cases hl
  | @way d q hj hd =>
      cases hsteps : Transport.lastSteps d q with
      | nil =>
          rw [hsteps] at hl
          obtain ⟨rfl, rfl⟩ := List.cons.inj hl
          obtain rfl := hd.calledOff.ended_of_lastSteps hsteps
          obtain ⟨job, hfind, -⟩ := find?_of_progress? hj
          simp only [step, collect, hj, hd.result_ended]
          obtain ⟨job', heq, hnew⟩ := conclude_eq (c := { c with
            limiter := c.limiter.leave .ignored
            transport := c.transport.forget d }) hfind (.error .cancelled)
          refine .finished ?_
          rw [leaving, heq, progress?, Registry.find?_set, if_pos rfl, Option.map_some,
            hnew.eq_done]
      | cons x xs =>
          rw [hsteps] at hl
          obtain ⟨rfl, rfl⟩ := List.cons.inj hl
          obtain ⟨hx, hfree⟩ := hd.calledOff.of_mem_lastSteps (hsteps ▸ List.mem_cons_self)
          have hstep : c.step (.transport x) = { c with transport := c.transport.step x } :=
            if_pos hfree
          obtain ⟨q', hd', -⟩ :=
            hd.move hc.sound (Transport.step_move_of (Or.inl hx) c.transport)
              (report_ne_forgotten hfree)
          rw [hstep, ← hd.next hsteps hd'.phase]
          exact .way hj hd'

/-- Each step leaves the rest of the way as it is, takes the next step of it, or ends it. -/
theorem step (h : Ending c j l) (hc : Regular limits c log) (e : Event) :
    ∃ l', Ending (c.step e) j l' ∧ (l' = l ∨ l' = l.tail ∨ l' = []) := by
  by_cases hjob : e.job? = some j
  · obtain ⟨-, ⟨h', -⟩ | ⟨h', -⟩⟩ := h.own_step hjob
    · exact ⟨l, h', Or.inl rfl⟩
    · exact ⟨[], h', Or.inr (Or.inr rfl)⟩
  · obtain ⟨l', h', hl | hl⟩ := h.other_step hc hjob
    · exact ⟨l', h', Or.inl hl⟩
    · exact ⟨l', h', Or.inr (Or.inl hl)⟩

/-- A job on its way to the end begins nothing and sends nothing. -/
theorem passive (h : Ending c j l) (hc : Regular limits c log) : Passive c j log where
  not_ready := h.not_ready
  not_leased d channel hd hq := by
    cases h.calledOff hc hd hq

/-- A run that holds the steps of the way leads to its end. -/
theorem run_ends {events : List Event} (h : Ending c j l) (hc : Regular limits c log)
    (hsteps : l.Sublist events) : Ending (c.run events) j [] := by
  -- What is left of the way stays a part of what is left of the run: no step lengthens it.
  induction events generalizing c l log with
  | nil =>
      obtain rfl := List.sublist_nil.1 hsteps
      exact h
  | cons e rest ih =>
      cases hsteps with
      | cons _ hrest =>
          obtain ⟨l', h', hl⟩ := h.step hc e
          refine ih h' (hc.step e) ?_
          rcases hl with rfl | rfl | rfl
          · exact hrest
          · exact (List.tail_sublist l).trans hrest
          · exact List.nil_sublist rest
      | cons_cons _ hrest => exact ih (h.next hc rfl) (hc.step e) hrest

theorem run (h : Ending c j l) (hc : Regular limits c log) (events : List Event) :
    (∃ l', Ending (c.run events) j l') ∧ Quiet j log c (c.run events) (c.reports events) := by
  induction events generalizing c l log with
  | nil => exact ⟨⟨l, h⟩, .refl j log c⟩
  | cons e rest ih =>
      obtain ⟨l', h', -⟩ := h.step hc e
      obtain ⟨hend, hquiet⟩ := ih h' (hc.step e)
      exact ⟨hend, ((h.passive hc).step e).trans hquiet⟩

/-- The attempt of a job on its way to the end ends with the cancellation of the job, and its permit
is given back. -/
theorem leaves (h : Ending c j l) (hleft : (c.step e).trying? j ≠ c.trying? j) :
    (c.step e).result? j = some (.error .cancelled) ∧
      (c.step e).limiter = c.limiter.leave .ignored := by
  by_cases hjob : e.job? = some j
  · obtain ⟨-, ⟨-, hsame⟩ | ⟨hend, hlimiter⟩⟩ := h.own_step hjob
    · exact absurd hsame hleft
    · exact ⟨hend.result_of_nil rfl, hlimiter⟩
  · refine absurd ?_ hleft
    rw [trying?, progress?_step hjob, trying?]

/-! ## Its channel -/

/-- The channel of a dispatch on its way to the end stays with it until it is closed. -/
theorem withdrawn_step {channel : Nat} (h : Ending c j l) (hc : Regular limits c log)
    (hd : .began j (some d) ∈ log) (hw : Transport.Withdrawn c.transport.pool channel d)
    (e : Event) : Transport.Withdrawn (c.step e).transport.pool channel d := by
  rcases Event.concerns_cases j d e with he | he | ⟨x, rfl, -⟩
  · obtain ⟨events, htransport, hevents⟩ := hc.transport_apart hd he
    rw [htransport]
    exact hw.run hc.sound (fun q hq => h.calledOff hc hd hq) hevents
  · rwa [(h.own_step he).1]
  · rcases c.step_transport x with hstep | ⟨-, hstep⟩
    · rwa [hstep]
    · rw [hstep]
      exact hw.step (fun q hq => h.calledOff hc hd hq) x

theorem withdrawn_run {channel : Nat} (h : Ending c j l) (hc : Regular limits c log)
    (hd : .began j (some d) ∈ log) (hw : Transport.Withdrawn c.transport.pool channel d)
    (events : List Event) : Transport.Withdrawn (c.run events).transport.pool channel d := by
  induction events generalizing c l log with
  | nil => exact hw
  | cons e rest ih =>
      obtain ⟨l', h', -⟩ := h.step hc e
      exact ih h' (hc.step e) (List.mem_append_left _ hd) (h.withdrawn_step hc hd hw e)

/-- The lease of a dispatch on its way to the end ends with the close of its channel. -/
theorem closes (h : Ending c j l) (hc : Regular limits c log) (hd : .began j (some d) ∈ log)
    (hleft : (c.step e).transport.pool.leaseId? d ≠ c.transport.pool.leaseId? d) :
    (c.step e).transport.pool = c.transport.pool.close d := by
  rcases Event.concerns_cases j d e with he | he | ⟨x, rfl, hx⟩
  · refine absurd ?_ hleft
    have hphase := (hc.apart hd he).phase
    rw [(hc.step e).sound.lease, hc.sound.lease, Transport.held?, hphase, Transport.held?]
  · rw [(h.own_step he).1] at hleft
    exact absurd rfl hleft
  · rcases c.step_transport x with hstep | ⟨-, hstep⟩
    · rw [hstep] at hleft
      exact absurd rfl hleft
    · rw [hstep] at hleft ⊢
      rcases Transport.pool_step_of_calledOff (fun q hq => h.calledOff hc hd hq) hx with hp | hp
      · exact absurd (congrArg (Pool.leaseId? · d) hp) hleft
      · exact hp

end Ending

end Client

end ObjectStore
