import ObjectStore.Retry.Course

/-!
# Runs of retries

A run makes the attempts up to the last one, in turn, and ends as the last one ends. After each of
the others it asks for a pause of as many units as there were failures, or for the longest duration.
What the timer makes of a pause is another matter: it fires on whole milliseconds, and after thirty
years at most.
-/

namespace ObjectStore

namespace RetryPolicy

variable {α : Type} {p : RetryPolicy} {trial : Nat → Trial α}

/-! ## The last attempt -/

theorem one_le_bound (p : RetryPolicy) : 1 ≤ p.bound := Nat.le_max_left 1 p.maxRetries

/-- The last attempt is the first one after which no other can help, or the one at the bound. -/
theorem lastAttempt_spec (p : RetryPolicy) (trial : Nat → Trial α) :
    1 ≤ p.lastAttempt trial ∧ p.lastAttempt trial ≤ p.bound ∧
      (∀ k, 1 ≤ k → k < p.lastAttempt trial → (trial k).isFinal = false) ∧
      ((trial (p.lastAttempt trial)).isFinal = true ∨ p.lastAttempt trial = p.bound) := by
  have hone := p.one_le_bound
  unfold lastAttempt
  cases hfind : (List.range' 1 p.bound).find? fun k => (trial k).isFinal with
  | none =>
      rw [List.find?_range'_eq_none] at hfind
      refine ⟨hone, Nat.le_refl _, ?_, Or.inr rfl⟩
      intro k hk hlt
      rw [Option.getD_none] at hlt
      simpa using hfind k hk (by omega)
  | some n =>
      rw [List.find?_range'_eq_some, List.mem_range'_1] at hfind
      obtain ⟨hfinal, hrange, hbefore⟩ := hfind
      refine ⟨hrange.1, by simp only [Option.getD_some]; omega, ?_, Or.inl hfinal⟩
      intro k hk hlt
      simpa using hbefore k hk hlt

theorem shouldRetry_iff {failures : Nat} {e : OperationError} :
    p.shouldRetry failures e = true ↔ failures < p.maxRetries ∧ e.retryClass ≠ .fatal := by
  simp [shouldRetry, OperationError.isRetryable]

/-- After an attempt before the last one there is another. -/
theorem exists_retry {k : Nat} (hk : 1 ≤ k) (h : k < p.lastAttempt trial) :
    ∃ e, (trial k).outcome = .error e ∧ p.shouldRetry k e = true := by
  obtain ⟨-, hbound, hbefore, -⟩ := p.lastAttempt_spec trial
  have hfinal := hbefore k hk h
  cases ho : (trial k).outcome with
  | ok a => simp [Trial.isFinal, ho] at hfinal
  | error e =>
      refine ⟨e, rfl, shouldRetry_iff.2 ⟨?_, by simpa [Trial.isFinal, ho] using hfinal⟩⟩
      unfold bound at hbound
      omega

/-- After the last attempt there is no other. -/
theorem no_retry {e : OperationError} (ho : (trial (p.lastAttempt trial)).outcome = .error e) :
    p.shouldRetry (p.lastAttempt trial) e = false := by
  obtain ⟨-, -, -, hlast⟩ := p.lastAttempt_spec trial
  rw [Bool.eq_false_iff]
  intro hretry
  obtain ⟨hlt, hclass⟩ := shouldRetry_iff.1 hretry
  rcases hlast with hfinal | hbound
  · exact hclass (by simpa [Trial.isFinal, ho] using hfinal)
  · have hle : p.maxRetries ≤ p.bound := Nat.le_max_right 1 p.maxRetries
    omega

/-! ## The course of a run -/

/-- The trace of the attempts after so many failures, up to the last one. -/
def courseFrom (p : RetryPolicy) (trial : Nat → Trial α) (failures : Nat) : RetryTrace α :=
  let n := p.lastAttempt trial
  ⟨(List.range' (failures + 1) (n - failures)).map fun k => (k, p.startAfter trial (k - 1)),
    (List.range' (failures + 1) (n - failures - 1)).map p.delay,
    p.startAfter trial (n - 1) + (trial n).takes, (trial n).outcome⟩

theorem runFrom_eq_courseFrom {failures : Nat} (h : failures < p.lastAttempt trial) :
    p.runFrom trial none failures (p.startAfter trial failures) = p.courseFrom trial failures := by
  -- The induction is on the attempts that are still to come.
  induction hleft : p.lastAttempt trial - failures - 1 generalizing failures with
  | zero =>
      have hlast : p.lastAttempt trial = failures + 1 := by omega
      have hone : p.lastAttempt trial - failures = 1 := by omega
      rw [runFrom, courseFrom, hleft, hone]
      simp only [List.range'_one, List.map_cons, List.map_nil, List.range'_zero]
      cases ho : (trial (failures + 1)).outcome with
      | ok a => simp [hlast, ho]
      | error e =>
          have hno := no_retry (hlast ▸ ho)
          rw [hlast] at hno
          simp [hlast, ho, hno]
  | succ left ih =>
      have hnext : failures + 1 < p.lastAttempt trial := by omega
      obtain ⟨e, ho, hretry⟩ := exists_retry (Nat.le_add_left 1 failures) hnext
      have hrest := ih hnext (by omega)
      rw [startAfter] at hrest
      have hmore : p.lastAttempt trial - failures = p.lastAttempt trial - (failures + 1) + 1 := by
        omega
      have hpauses : p.lastAttempt trial - failures - 1 =
          p.lastAttempt trial - (failures + 1) - 1 + 1 := by omega
      rw [runFrom, courseFrom, hpauses, hmore, List.range'_succ, List.range'_succ]
      simp only [ho, hretry, dif_pos, calledOff, Option.bind_none, hrest, courseFrom,
        List.map_cons, Nat.add_sub_cancel]

/-- A run is its course from the first attempt. -/
theorem run_eq_courseFrom (p : RetryPolicy) (trial : Nat → Trial α) :
    p.run trial none = p.courseFrom trial 0 :=
  runFrom_eq_courseFrom (p.lastAttempt_spec trial).1

/-! ## Pauses and timers -/

/-- A timer fires at the first whole millisecond after a pause, or after the longest time that it
runs. -/
theorem wake_spec (now : Nat) (pause : Duration) :
    1000000 ∣ wake now pause ∧ now + min pause.nanos longestPause ≤ wake now pause ∧
      wake now pause < now + min pause.nanos longestPause + 1000000 := by
  unfold wake
  refine ⟨Nat.dvd_mul_left _ _, ?_, ?_⟩
  · omega
  · omega

/-! ## Counters of 32 bits -/

/-- The numbers up to the bound have 32 bits. -/
theorem bound_lt (hp : p.maxRetries < word32) : p.bound < word32 :=
  Nat.max_lt.2 ⟨by decide, hp⟩

/-- Before the bound the counter always has a next number. -/
theorem countedFrom_eq (hp : p.maxRetries < word32) (cancelAt : Option Nat) {failures now : Nat}
    (h : failures < p.bound) :
    p.countedFrom trial cancelAt failures now = some (p.runFrom trial cancelAt failures now) := by
  have hbound := bound_lt hp
  induction hleft : p.bound - failures generalizing failures now with
  | zero => omega
  | succ left ih =>
      rw [countedFrom, runFrom, dif_pos (by omega)]
      cases ho : (trial (failures + 1)).outcome with
      | ok a => simp only [ho]
      | error e =>
          by_cases hretry : p.shouldRetry (failures + 1) e = true
          · -- A failure that is followed by another attempt lies before the bound.
            have hnext : failures + 1 < p.bound :=
              Nat.lt_of_lt_of_le (shouldRetry_iff.1 hretry).1 (Nat.le_max_right ..)
            simp only [ho, hretry, dif_pos, ih hnext (by omega)]
            cases calledOff cancelAt (now + (trial (failures + 1)).takes)
                (wake (now + (trial (failures + 1)).takes) (p.delay (failures + 1))) <;> rfl
          · simp only [ho, hretry, Bool.false_eq_true, dif_neg, not_false_eq_true]

/-- A run ends with the last attempt. The attempts are numbered from 1 to the last one and no others
are made; the result is that of the last one; the pause asked for after each of the others is as
many units as there were failures, or the longest duration. The next attempt starts when the timer
of the pause fires: at a whole millisecond, the first one after the pause or after thirty years. No
number of a failure or an attempt has more than 32 bits. -/
theorem run_course (hp : p.maxRetries < word32) (trial : Nat → Trial α) :
    let n := p.lastAttempt trial
    let trace := p.run trial none
    (trace.attempts = (List.range' 1 n).map fun k => (k, p.startAfter trial (k - 1))) ∧
      trace.outcome = (trial n).outcome ∧
      trace.ended = p.startAfter trial (n - 1) + (trial n).takes ∧
      trace.pauses.map (·.nanos) =
        (List.range' 1 (n - 1)).map (fun k => min (k * p.unit.nanos) maxNanos) ∧
      (∀ k, 1 ≤ k → k < n →
        let pause := min (min (k * p.unit.nanos) maxNanos) longestPause
        let stop := p.startAfter trial (k - 1) + (trial k).takes + pause
        1000000 ∣ p.startAfter trial k ∧ stop ≤ p.startAfter trial k ∧
          p.startAfter trial k < stop + 1000000) ∧
      p.counted trial none = some trace := by
  intro n trace
  have htrace : trace = p.courseFrom trial 0 := p.run_eq_courseFrom trial
  have hdelay (k : Nat) : (p.delay k).nanos = min (k * p.unit.nanos) maxNanos := by
    rw [delay, Duration.times_nanos, Nat.mul_comm]
  refine ⟨?_, ?_, ?_, ?_, ?_, ?_⟩
  · rw [htrace]
    rfl
  · rw [htrace]
    rfl
  · rw [htrace]
    rfl
  · rw [htrace]
    simp only [courseFrom, List.map_map, Function.comp_def, hdelay]
    rfl
  · intro k hk hlt
    obtain ⟨m, rfl⟩ := Nat.exists_eq_add_of_le' hk
    have hwake := wake_spec (p.startAfter trial m + (trial (m + 1)).takes) (p.delay (m + 1))
    rw [hdelay] at hwake
    exact hwake
  · exact countedFrom_eq hp none p.one_le_bound

/-- Three failures that may pass, then one that will not. -/
def refusedAtLast : Nat → Trial Unit
  | 4 => ⟨.error (.service { status := 403, code := "AccessDenied" }), 0⟩
  | _ => ⟨.error (.service { status := 500, code := "InternalError" }), 5000000⟩

/-- Of five attempts that a policy allows four are made, and the units of the pauses add up. -/
theorem run_course_refusedAtLast :
    let p : RetryPolicy := ⟨5, Duration.ofParts 1 0⟩
    p.maxRetries < word32 ∧ p.lastAttempt refusedAtLast = 4 ∧
      (p.run refusedAtLast none).attempts =
        [(1, 0), (2, 1005000000), (3, 3010000000), (4, 6015000000)] ∧
      (p.run refusedAtLast none).pauses.map (·.nanos) = [1000000000, 2000000000, 3000000000] ∧
      (p.counted refusedAtLast none).isSome := by
  intro p
  have hp : p.maxRetries < word32 := by decide
  have hlast : p.lastAttempt refusedAtLast = 4 := by decide
  obtain ⟨hattempts, -, -, hpauses, -, hcounted⟩ := run_course hp refusedAtLast
  refine ⟨hp, hlast, ?_, ?_, ?_⟩
  · rw [hattempts, hlast]
    decide
  · rw [hpauses, hlast]
    decide
  · rw [hcounted]
    rfl

/-- A channel that is closed in every attempt. -/
def stalled (_ : Nat) : Trial Unit := ⟨.error .channelInactive, 0⟩

/-- A pause of thirty years and a second is cut short: the second attempt starts a second before the
pause is over. -/
theorem timer_cuts_pause :
    let p : RetryPolicy := ⟨2, Duration.ofParts 946080001 0⟩
    (p.run stalled none).attempts = [(1, 0), (2, 946080000000000000)] ∧
      min (1 * p.unit.nanos) maxNanos = 946080001000000000 := by
  intro p
  have hlast : p.lastAttempt stalled = 2 := by decide
  constructor
  · rw [run_eq_courseFrom, courseFrom, hlast]
    decide
  · decide

end RetryPolicy

end ObjectStore
