import ObjectStore.ClientConfig.WaitingTime

/-!
# Waiting times are cut to a word

A waiting time is read back in whole milliseconds, without what a word of 64 bits does not hold of
them. So it is the one that was set for durations below 2^64 milliseconds. An idle time of which no
milliseconds are left is none, however long it was.
-/

namespace ObjectStore

namespace Duration

/-- A word of milliseconds is below the largest duration. -/
theorem ofMillis_nanos {n : Nat} (h : n < word64) : (ofMillis n).nanos = n * 1000000 := by
  rw [ofMillis, cap_nanos]
  simp only [maxNanos, word64] at h ⊢
  omega

theorem ofMillis_inj {m n : Nat} (hm : m < word64) (hn : n < word64) :
    ofMillis m = ofMillis n ↔ m = n := by
  refine ⟨fun h => ?_, congrArg ofMillis⟩
  have hnanos := congrArg nanos h
  rw [ofMillis_nanos hm, ofMillis_nanos hn] at hnanos
  omega

end Duration

namespace WaitingTime

variable (w : WaitingTime) (c : ClientConfig) (d : Duration)

/-- What is left of a duration when it has been set. -/
theorem read?_set :
    w.read? (w.set c d) =
      if w = .maxIdleTime ∧ d.millis % word64 = 0 then none
      else some (.ofMillis (d.millis % word64)) := by
  cases w with
  | maxIdleTime =>
      by_cases h : d.millis % word64 = 0
      · simp [read?, set, ClientConfig.withMaxIdleTime, ClientConfig.maxIdleTime,
          ClientConfig.millisWord, h]
      · simp [read?, set, ClientConfig.withMaxIdleTime, ClientConfig.maxIdleTime,
          ClientConfig.millisWord, h, Nat.pos_of_ne_zero h]
  | connectTimeout => rfl
  | requestTimeout => rfl
  | acquireTimeout => rfl
  | retryBackoff => rfl

/-- What is left is what a word holds of the duration just when nothing was cut off, or when the
rest happens to be the greatest word. -/
theorem ofMillis_mod_eq_held_iff :
    Duration.ofMillis (d.millis % word64) = d.held ↔
      d.millis < word64 ∨ d.millis % word64 = word64 - 1 := by
  have hmod : d.millis % word64 < word64 := Nat.mod_lt _ (by decide)
  have hheld : min d.millis (word64 - 1) < word64 := by
    simp only [word64]
    omega
  rw [Duration.held, Duration.ofMillis_inj hmod hheld]
  simp only [word64] at hmod ⊢
  omega

/-- A waiting time is read back in whole milliseconds, less all multiples of 2^64 of them. It is the
nearest one that a word holds just when there are fewer, unless the rest is the greatest word. An
idle time is read back as none, so that channels never expire, just when no milliseconds are
left. -/
theorem set_reads_back :
    (w.read? (w.set c d)).elim 0 Duration.nanos = d.nanos / 1000000 % word64 * 1000000 ∧
    (w.read? (w.set c d) = some d.held ↔
      (d.millis < word64 ∨ d.millis % word64 = word64 - 1) ∧
        (w = .maxIdleTime → d.millis % word64 ≠ 0)) ∧
    (w.read? (w.set c d) = none ↔ w = .maxIdleTime ∧ d.millis % word64 = 0) := by
  have hmod : d.millis % word64 < word64 := Nat.mod_lt _ (by decide)
  have hmillis : d.nanos / 1000000 = d.millis := rfl
  rw [read?_set, hmillis]
  by_cases hnone : w = .maxIdleTime ∧ d.millis % word64 = 0
  · have hzero : d.millis % word64 * 1000000 = 0 := by rw [hnone.2, Nat.zero_mul]
    rw [if_pos hnone, Option.elim_none, hzero]
    exact ⟨rfl, iff_of_false nofun fun h => h.2 hnone.1 hnone.2, iff_of_true rfl hnone⟩
  · rw [if_neg hnone, Option.some_inj, ofMillis_mod_eq_held_iff, Option.elim_some]
    have hkept : w = .maxIdleTime → d.millis % word64 ≠ 0 := fun hw hzero => hnone ⟨hw, hzero⟩
    exact ⟨Duration.ofMillis_nanos hmod, (and_iff_left hkept).symm, iff_of_false nofun hnone⟩

/-- A long time to wait for an answer turns into 384 milliseconds. Idle times of half a millisecond
and of 2^64 milliseconds turn into none. -/
theorem long_times_wrap :
    requestTimeout.read? (requestTimeout.set {} (.ofParts 18446744073709552 0)) =
        some (.ofMillis 384) ∧
      (Duration.ofParts 18446744073709552 0).held = .ofMillis 18446744073709551615 ∧
      maxIdleTime.read? (maxIdleTime.set {} (.cap 500000)) = none ∧
      maxIdleTime.read? (maxIdleTime.set {} (.ofParts 18446744073709551 616000000)) = none := by
  decide

end WaitingTime

end ObjectStore
