import ObjectStore.Proofs.ClientMoves
import ObjectStore.Proofs.DispatchTurns

/-!
# Jobs and their dispatches

Who answers for the dispatches of a client. Each dispatch that is there belongs to the attempt of
one job, and it is the job that began it; so a job that is in no attempt has no dispatch, and the
dispatches of a client are those of its attempts.
-/

namespace ObjectStore

theorem Transport.isSome_of_step {t : Transport} {e : Transport.Event} {v : Nat}
    (he : ∀ request parser, e ≠ .register v request parser)
    (h : ((t.step e).phase? v).isSome = true) : (t.phase? v).isSome = true := by
  cases hv : t.phase? v with
  | none =>
      rw [absent_step hv he] at h
      cases h
  | some q => rfl

namespace Client

variable {c c' : Client} {j : Nat} {job : Job} {log : List Report} {limits : PoolConfig}

theorem trying?_of_find? (hj : c.jobs.find? j = some job) :
    c.trying? j = job.progress.dispatch? := by
  rw [trying?, progress?_eq hj]
  rfl

theorem trying?_set (h : c'.jobs = c.jobs.set j job) (k : Nat) :
    c'.trying? k = if k = j then job.progress.dispatch? else c.trying? k := by
  rw [trying?, progress?, h, Registry.find?_set]
  split
  · rfl
  · rfl

/-- To call a job off is no progress of it. -/
theorem progress?_cancel (c : Client) (j k : Nat) : (c.cancel j).progress? k = c.progress? k := by
  rw [progress?, cancel, Registry.find?_modify]
  split
  · rename_i hk
    rw [hk, progress?]
    cases c.jobs.find? j <;> rfl
  · rfl

/-- The job and the dispatch of an attempt that is let in. -/
def Report.entry? : Report → Option (Nat × Nat)
  | .began j (some d) => some (j, d)
  | .began _ none | .nothing | .answered _ _ => none

/-- What holds of the jobs of a client after a run that showed as a log: each dispatch belongs to a
job that tries it, and to the job that began it. -/
structure Attended (c : Client) (log : List Report) : Prop where
  present : ∀ d, (c.transport.phase? d).isSome = true → ∃ j, c.trying? j = some d
  logged : ∀ j d, c.trying? j = some d → .began j (some d) ∈ log
  begun : ∀ j d, .began j (some d) ∈ log →
    d < c.nextDispatch ∧ ∀ k, c.trying? k = some d → k = j

namespace Attended

/-- A step after which each job tries what it has tried. -/
theorem same {r : Report} (h : c.Attended log) (htrying : ∀ k, c'.trying? k = c.trying? k)
    (hphase : ∀ d, (c'.transport.phase? d).isSome = true → (c.transport.phase? d).isSome = true)
    (hnext : c'.nextDispatch = c.nextDispatch) (hr : r.entry? = none) :
    c'.Attended (log ++ [r]) where
  present d hd := by
    obtain ⟨j, hj⟩ := h.present d (hphase d hd)
    exact ⟨j, (htrying j).trans hj⟩
  logged j d hj := List.mem_append_left _ (h.logged j d ((htrying j).symm.trans hj))
  begun j d hd := by
    rcases List.mem_append.1 hd with hd | hd
    · obtain ⟨hlt, halone⟩ := h.begun j d hd
      exact ⟨hnext ▸ hlt, fun k hk => halone k ((htrying k).symm.trans hk)⟩
    · have hentry := congrArg Report.entry? (List.mem_singleton.1 hd)
      rw [hr] at hentry
      cases hentry

/-- A job outside an attempt stays outside. -/
theorem outside {r : Report} {job' : Job} (h : c.Attended log)
    (hold : c.trying? j = none) (hnew : job'.progress.dispatch? = none)
    (hjobs : c'.jobs = c.jobs.set j job') (htransport : c'.transport = c.transport)
    (hnext : c'.nextDispatch = c.nextDispatch) (hr : r.entry? = none) :
    c'.Attended (log ++ [r]) := by
  refine h.same (fun k => ?_) (fun d hd => htransport ▸ hd) hnext hr
  rw [trying?_set hjobs]
  split
  · rename_i hk
    rw [hk, hold, hnew]
  · rfl

/-- An attempt begins. -/
theorem entered {job' : Job} {request : Request} {parser : Parser} (h : c.Attended log)
    (hold : c.trying? j = none) (hnew : job'.progress = .trying c.nextDispatch)
    (hjobs : c'.jobs = c.jobs.set j job')
    (htransport : c'.transport = c.transport.register c.nextDispatch request parser)
    (hnext : c'.nextDispatch = c.nextDispatch + 1) :
    c'.Attended (log ++ [.began j (some c.nextDispatch)]) := by
  have htrying (k : Nat) :
      c'.trying? k = if k = j then some c.nextDispatch else c.trying? k := by
    rw [trying?_set hjobs, hnew]
    rfl
  have hother {k d : Nat} (hk : c.trying? k = some d) : k ≠ j ∧ d ≠ c.nextDispatch := by
    constructor
    · rintro rfl
      rw [hold] at hk
      cases hk
    · exact Nat.ne_of_lt (h.begun k d (h.logged k d hk)).1
  refine ⟨fun d hd => ?_, fun k d hk => ?_, fun k d hd => ?_⟩
  · by_cases hdn : d = c.nextDispatch
    · exact ⟨j, by rw [htrying, if_pos rfl, hdn]⟩
    · have hsome : (c.transport.phase? d).isSome = true := by
        rw [htransport] at hd
        refine Transport.isSome_of_step (e := .register c.nextDispatch request parser) ?_ hd
        rintro _ _ heq
        cases heq
        exact hdn rfl
      obtain ⟨k, hk⟩ := h.present d hsome
      exact ⟨k, by rw [htrying, if_neg (hother hk).1, hk]⟩
  · rw [htrying] at hk
    split at hk
    · rename_i hkj
      rw [hkj, ← Option.some.inj hk]
      exact List.mem_append_right _ (List.mem_singleton_self _)
    · exact List.mem_append_left _ (h.logged k d hk)
  · rw [hnext]
    rcases List.mem_append.1 hd with hd | hd
    · obtain ⟨hlt, halone⟩ := h.begun k d hd
      refine ⟨Nat.lt_succ_of_lt hlt, fun i hi => ?_⟩
      rw [htrying] at hi
      split at hi
      · exact absurd (Option.some.inj hi).symm (Nat.ne_of_lt hlt)
      · exact halone i hi
    · obtain ⟨rfl, hdn⟩ := Report.began.inj (List.mem_singleton.1 hd)
      obtain rfl := Option.some.inj hdn
      refine ⟨Nat.lt_succ_self _, fun i hi => ?_⟩
      rw [htrying] at hi
      split at hi
      · assumption
      · exact absurd rfl (hother hi).2

/-- An attempt is over, and its dispatch is forgotten. -/
theorem left {d : Nat} {job' : Job} (h : c.Attended log) (hold : c.trying? j = some d)
    (hnew : job'.progress.dispatch? = none) (hjobs : c'.jobs = c.jobs.set j job')
    (hgone : c'.transport.phase? d = none)
    (hphase : ∀ v, (c'.transport.phase? v).isSome = true → (c.transport.phase? v).isSome = true)
    (hnext : c'.nextDispatch = c.nextDispatch) : c'.Attended (log ++ [.nothing]) := by
  have htrying (k : Nat) : c'.trying? k = if k = j then none else c.trying? k := by
    rw [trying?_set hjobs, hnew]
  have hbefore {k v : Nat} (hk : c'.trying? k = some v) : c.trying? k = some v := by
    rw [htrying] at hk
    split at hk
    · cases hk
    · exact hk
  refine ⟨fun v hv => ?_, fun k v hk => ?_, fun k v hv => ?_⟩
  · obtain ⟨k, hk⟩ := h.present v (hphase v hv)
    refine ⟨k, ?_⟩
    rw [htrying, if_neg, hk]
    rintro rfl
    rw [hold] at hk
    obtain rfl := Option.some.inj hk
    rw [hgone] at hv
    cases hv
  · exact List.mem_append_left _ (h.logged k v (hbefore hk))
  · rcases List.mem_append.1 hv with hv | hv
    · obtain ⟨hlt, halone⟩ := h.begun k v hv
      exact ⟨hnext ▸ hlt, fun i hi => halone i (hbefore hi)⟩
    · cases List.mem_singleton.1 hv

theorem move {r : Report} (h : c.Attended log) (hm : c.Move j r c') :
    c'.Attended (log ++ [r]) := by
  cases hm with
  | nothing => exact h.same (fun _ => rfl) (fun _ hd => hd) rfl rfl
  | called =>
      refine h.same (fun k => ?_) (fun _ hd => hd) rfl rfl
      rw [trying?, progress?_cancel, trying?]
  | submitted hj hnew =>
      refine h.outside (by rw [trying?, progress?, hj]; rfl) ?_ rfl rfl rfl rfl
      rcases hnew with hnew | ⟨e, hnew⟩ <;> rw [hnew] <;> rfl
  | answered hj hnew =>
      refine h.outside (by rw [trying?, progress?, hj]; rfl) ?_ rfl rfl rfl rfl
      rw [hnew]
      rfl
  | refused hj hold hfree hnew =>
      exact h.outside (by rw [trying?_of_find? hj, hold]; rfl) hnew.dispatch? rfl rfl rfl rfl
  | admitted hj hold hfree hnew =>
      exact h.entered (by rw [trying?_of_find? hj, hold]; rfl) hnew rfl rfl rfl
  | @collected d job job' result hj hold hresult hnew =>
      refine h.left (by rw [trying?_of_find? hj, hold]; rfl) hnew.dispatch? rfl ?_ (fun v hv => ?_)
        rfl
      · exact Transport.phase?_forget (Transport.ended_of_result hresult)
      · exact Transport.isSome_of_step (e := .forget d) (fun _ _ he => by cases he) hv
  | moved hj hold hnew =>
      refine h.outside ?_ ?_ rfl rfl rfl rfl
      · rw [trying?_of_find? hj]
        exact Progress.dispatch?_of_isBetween hold
      · rcases hnew with hnew | ⟨e, hnew⟩ <;> rw [hnew] <;> rfl
  | @calledOff d job hj hold =>
      exact h.same (fun _ => rfl)
        (fun v hv => Transport.isSome_of_step (e := .cancel d) (fun _ _ he => by cases he) hv)
        rfl rfl
  | @aborted d job job' hj hold hwaits hnew =>
      refine h.left (by rw [trying?_of_find? hj, hold]; rfl) (by rw [hnew]; rfl) rfl ?_
        (fun v hv => ?_) rfl
      · exact Transport.phase?_forget (Transport.phase?_drop hwaits)
      · exact Transport.isSome_of_step (e := .drop d) (fun _ _ he => by cases he)
          (Transport.isSome_of_step (e := .forget d) (fun _ _ he => by cases he) hv)

theorem step (h : c.Attended log) (e : Event) : (c.step e).Attended (log ++ [c.report e]) := by
  cases hjob : e.job? with
  | some j => exact h.move (step_move hjob c)
  | none =>
      obtain ⟨hreport, hstep | ⟨x, closed, hstep, hx⟩⟩ := step_of_no_job hjob c
      · rw [hreport, hstep]
        exact h.same (fun _ => rfl) (fun _ hd => hd) rfl rfl
      · rw [hreport, hstep]
        refine h.same (fun _ => rfl) (fun d hd => Transport.isSome_of_step ?_ hd) rfl rfl
        rintro request parser rfl
        rcases hx with hx | ⟨-, hfree⟩
        · cases hx
        · cases hfree

end Attended

/-- What a step does to the dispatches is a run of the transport. -/
theorem transport_step (c : Client) (e : Event) :
    ∃ events, (c.step e).transport = c.transport.run events := by
  cases hjob : e.job? with
  | some j =>
      obtain ⟨events, htransport, -⟩ := (step_move hjob c).transport_run
      exact ⟨events, htransport⟩
  | none =>
      obtain ⟨-, hstep | ⟨x, closed, hstep, -⟩⟩ := step_of_no_job hjob c
      · exact ⟨[], by rw [hstep]; rfl⟩
      · exact ⟨[x], by rw [hstep]; rfl⟩

/-! ## What holds after every run -/

/-- What holds of a client after a run that showed as a log. -/
structure Regular (limits : PoolConfig) (c : Client) (log : List Report) : Prop where
  sound : c.transport.Sound
  orderly : c.transport.Orderly limits
  records : ∀ d, ∃ l, c.transport.Records d l
  attended : c.Attended log

/-- A client begins with a transport and a limiter of its own, and without jobs. -/
theorem ofConfig_eq_ok {config : ClientConfig} {source : CredentialsSource}
    {epoch : Calendar.Instant} (h : ofConfig config source epoch = .ok c) :
    Transport.ofConfig config source epoch = .ok c.transport ∧
      c.limiter = .ofLimit config.maxInFlight ∧ c.jobs = .empty := by
  unfold ofConfig at h
  cases hvalid : config.validate with
  | error e =>
      rw [hvalid] at h
      cases h
  | ok _ =>
      rw [hvalid] at h
      cases ht : Transport.ofConfig config source epoch with
      | error e =>
          rw [ht] at h
          cases h
      | ok t =>
          rw [ht] at h
          cases h
          exact ⟨rfl, rfl, rfl⟩

namespace Regular

theorem ofConfig {config : ClientConfig} {source : CredentialsSource} {epoch : Calendar.Instant}
    (h : Client.ofConfig config source epoch = .ok c) :
    Regular c.transport.pool.config c [] := by
  obtain ⟨ht, -, hjobs⟩ := ofConfig_eq_ok h
  have hphase (d : Nat) : c.transport.phase? d = none := by
    rw [Transport.phase?, (Transport.ofConfig_eq_ok ht).2.2, Registry.find?_empty]
    rfl
  have htrying (k : Nat) : c.trying? k = none := by
    rw [trying?, progress?, hjobs, Registry.find?_empty]
    rfl
  refine ⟨.ofConfig ht, .ofConfig ht, fun d => ⟨{}, ?_⟩, ⟨?_, ?_, ?_⟩⟩
  · intro q hq
    rw [hphase] at hq
    cases hq
  · intro d hd
    rw [hphase] at hd
    cases hd
  · intro k d hk
    rw [htrying] at hk
    cases hk
  · intro k d hd
    cases hd

theorem step (h : Regular limits c log) (e : Event) :
    Regular limits (c.step e) (log ++ [c.report e]) := by
  obtain ⟨events, htransport⟩ := c.transport_step e
  refine ⟨?_, ?_, fun d => ?_, h.attended.step e⟩
  · rw [htransport]
    exact h.sound.run events
  · rw [htransport]
    exact h.orderly.run events
  · obtain ⟨l, hl⟩ := h.records d
    rw [htransport]
    exact ⟨_, hl.run h.sound events⟩

theorem run (h : Regular limits c log) (events : List Event) :
    Regular limits (c.run events) (log ++ c.reports events) := by
  induction events generalizing c log with
  | nil => rwa [reports, List.append_nil]
  | cons e rest ih =>
      have hrest := ih (h.step e)
      rwa [List.append_assoc] at hrest

/-- A dispatch that no job tries is not there, and nothing is left of it. -/
theorem left_nothing {d : Nat} (h : Regular limits c log) (hd : ∀ k, c.trying? k ≠ some d) :
    c.transport.phase? d = none ∧ c.transport.pool.stage? d = none ∧
      ∀ channel, c.transport.routes.owner? channel ≠ some d := by
  have hphase : c.transport.phase? d = none := by
    cases hphase : c.transport.phase? d with
    | none => rfl
    | some q =>
        obtain ⟨k, hk⟩ := h.attended.present d (by rw [hphase]; rfl)
        exact absurd hk (hd k)
  have hheld : c.transport.held? d = none := by rw [Transport.held?, hphase]; rfl
  refine ⟨hphase, h.sound.left_nothing h.orderly hheld ?_⟩
  rw [hphase]
  exact (Option.some_ne_none _).symm

end Regular

end Client

end ObjectStore
