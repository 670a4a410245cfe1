import ObjectStore.Admission.Turnstile
import ObjectStore.Proofs.Registries

/-!
# The accounts of a turnstile

A place is free or comes back with an outstanding permit, and each attempt that was let in has a
permit that is outstanding or gone, once. What is counted when a permit goes is what its holder
said, whichever of the three calls it was; so the counters follow from the two lists of permits.
-/

namespace ObjectStore

namespace Limiter

/-- A permit of which nothing is recorded goes as its attempt leaves. -/
theorem part_eq_leave (l : Limiter) (how : Parting) :
    l.part { hasPlace := l.free.isSome } how = l.leave how.leaving := by
  cases how <;> cases hfree : l.free <;>
    simp [part, record, drop, leave, count, hfree, Parting.leaving]

/-- An attempt is refused when no place is free, and takes a free place otherwise. -/
theorem tryAcquire_cases (l : Limiter) :
    (l.free = some 0 ∧ l.tryAcquire = (.error (.limitExceeded l.limit), l.rejected)) ∨
      ∃ free : Option Nat, l.free = free.map (· + 1) ∧
        l.tryAcquire = (.ok { hasPlace := l.free.isSome }, l.admitted free) := by
  unfold tryAcquire enter
  cases hfree : l.free with
  | none => exact .inr ⟨none, rfl, rfl⟩
  | some n =>
      cases n with
      | zero => exact .inl ⟨rfl, rfl⟩
      | succ n => exact .inr ⟨some n, rfl, rfl⟩

end Limiter

namespace Turnstile

variable {limit attempts : Nat} {t : Turnstile}

/-- The books of a turnstile with a given limit after so many attempts. -/
structure Regular (limit attempts : Nat) (t : Turnstile) : Prop where
  bound : t.limiter.limit = limit
  /-- A place is free or belongs to an outstanding permit. -/
  places : t.limiter.free.map (· + t.held.size) = (Limiter.ofLimit limit).free
  /-- Of no outstanding permit anything is recorded. -/
  permits : ∀ number permit, t.held.find? number = some permit →
    permit = { hasPlace := t.limiter.free.isSome }
  /-- The permits given out are outstanding or gone, each once. -/
  numbers : (t.held.keys ++ t.gone.map (·.1)).Perm (List.range t.next)
  inFlight : t.limiter.stats.inFlight = t.held.size
  admitted : t.limiter.stats.admitted = t.next
  succeeded : t.limiter.stats.succeeded = t.gone.countP (·.2 == .success)
  ignored : t.limiter.stats.ignored = t.gone.countP (·.2 != .success)
  attempts : t.limiter.stats.admitted + t.limiter.stats.rejected = attempts

namespace Regular

theorem ofLimit (limit : Nat) : Regular limit 0 (Turnstile.ofLimit limit) where
  bound := rfl
  places := by
    change (Limiter.ofLimit limit).free.map (· + 0) = _
    simp
  permits number permit h := by cases h
  numbers := .nil
  inFlight := rfl
  admitted := rfl
  succeeded := rfl
  ignored := rfl
  attempts := rfl

theorem next_not_mem (h : Regular limit attempts t) : t.next ∉ t.held.keys := by
  intro hmem
  have hrange := h.numbers.mem_iff.1 (List.mem_append_left _ hmem)
  exact absurd (List.mem_range.1 hrange) (Nat.lt_irrefl _)

theorem acquire (h : Regular limit attempts t) : Regular limit (attempts + 1) t.acquire.2 := by
  unfold Turnstile.acquire
  rcases t.limiter.tryAcquire_cases with ⟨-, hanswer⟩ | ⟨free, hfree, hanswer⟩
  · rw [hanswer]
    exact { h with attempts := congrArg (· + 1) h.attempts }
  · rw [hanswer]
    have hkeys := Registry.keys_set_of_new h.next_not_mem
      { hasPlace := t.limiter.free.isSome }
    have hsize : (t.held.set t.next { hasPlace := t.limiter.free.isSome }).size =
        t.held.size + 1 := by
      rw [Registry.size_eq_length_keys, hkeys, List.length_append, Registry.size_eq_length_keys]
      rfl
    have hsome : free.isSome = t.limiter.free.isSome := by rw [hfree, Option.isSome_map]
    refine {
      bound := h.bound
      places := ?_
      permits := ?_
      numbers := ?_
      inFlight := (congrArg (· + 1) h.inFlight).trans hsize.symm
      admitted := congrArg (· + 1) h.admitted
      succeeded := h.succeeded
      ignored := h.ignored
      attempts := ?_ }
    · have hplaces := h.places
      rw [hfree, Option.map_map] at hplaces
      rw [← hplaces]
      change free.map (· + _) = _
      rw [hsize]
      congr 1
      funext n
      simp only [Function.comp]
      omega
    · intro number permit hheld
      rw [Registry.find?_set] at hheld
      change permit = { hasPlace := free.isSome }
      rw [hsome]
      split at hheld
      · exact (Option.some.inj hheld).symm
      · exact h.permits number permit hheld
    · change ((t.held.set t.next _).keys ++ _).Perm (List.range (t.next + 1))
      rw [hkeys, List.append_assoc, List.singleton_append, List.range_succ]
      exact List.perm_middle.trans
        ((h.numbers.cons _).trans (List.perm_append_singleton _ _).symm)
    · change t.limiter.stats.admitted + 1 + t.limiter.stats.rejected = attempts + 1
      have := h.attempts
      omega

theorem part (h : Regular limit attempts t) (number : Nat) (how : Parting) :
    Regular limit attempts (t.part number how) := by
  unfold Turnstile.part
  split
  · exact h
  · next permit hheld =>
    rw [h.permits number permit hheld, Limiter.part_eq_leave]
    have hkeys := Registry.keys_perm_erase (Registry.mem_keys_of_find? hheld)
    have hsize : t.held.size = (t.held.erase number).size + 1 := by
      rw [Registry.size_eq_length_keys, hkeys.length_eq, Registry.size_eq_length_keys]
      rfl
    have hnumbers : ((t.held.erase number).keys ++ number :: t.gone.map (·.1)).Perm
        (List.range t.next) :=
      List.perm_middle.trans ((hkeys.symm.append_right _).trans h.numbers)
    refine {
      bound := h.bound
      places := ?_
      permits := ?_
      numbers := hnumbers
      inFlight := ?_
      admitted := ?_
      succeeded := ?_
      ignored := ?_
      attempts := ?_ }
    · rw [← h.places, hsize]
      change (t.limiter.free.map (· + 1)).map _ = _
      rw [Option.map_map]
      congr 1
      funext n
      simp only [Function.comp]
      omega
    · intro other permit hother
      rw [Registry.find?_erase] at hother
      change permit = { hasPlace := (t.limiter.free.map (· + 1)).isSome }
      rw [Option.isSome_map]
      split at hother
      · cases hother
      · exact h.permits other permit hother
    · have hinFlight := h.inFlight
      cases how <;> simp [Limiter.leave, Limiter.count, Parting.leaving] <;> omega
    · have hadmitted := h.admitted
      cases how <;> exact hadmitted
    · have hsucceeded := h.succeeded
      cases how <;> simp [Limiter.leave, Limiter.count, Parting.leaving, hsucceeded]
    · have hignored := h.ignored
      cases how <;> simp [Limiter.leave, Limiter.count, Parting.leaving, hignored]
    · have hattempts := h.attempts
      cases how <;> exact hattempts

theorem step (h : Regular limit attempts t) (e : Event) :
    Regular limit (attempts + [e].count .acquire) (t.step e) := by
  cases e with
  | acquire => exact h.acquire
  | part number how => exact h.part number how

theorem run (h : Regular limit attempts t) (events : List Event) :
    Regular limit (attempts + events.count .acquire) (t.run events) := by
  induction events generalizing attempts t with
  | nil => exact h
  | cons e rest ih =>
      have hrest := ih (h.step e)
      rw [Nat.add_assoc, ← List.count_append] at hrest
      exact hrest

/-- Without a limit there are no places, and with one the free places are what is left of it. -/
theorem free_cases (h : Regular limit attempts t) (hlimit : limit ≤ Limiter.maxPermits) :
    (limit = 0 ∧ t.limiter.free = none) ∨
      0 < limit ∧ ∃ free, t.limiter.free = some free ∧ free + t.held.size = limit := by
  have hplaces := h.places
  rcases Nat.eq_zero_or_pos limit with rfl | hpos
  · exact .inl ⟨rfl, Option.map_eq_none_iff.1 hplaces⟩
  · rw [Limiter.ofLimit, if_neg (Nat.ne_of_gt hpos), Nat.min_eq_left hlimit] at hplaces
    exact .inr ⟨hpos, Option.map_eq_some_iff.1 hplaces⟩

end Regular

/-! ## What the counters say -/

/-- The accounts of a turnstile with a given limit. -/
structure Accounts (limit : Nat) (t : Turnstile) : Prop where
  /-- As many attempts are in flight as permits are outstanding. -/
  inFlight : t.limiter.stats.inFlight = t.held.size
  within : 0 < limit → t.limiter.stats.inFlight ≤ limit
  /-- An attempt is refused just when there is a limit and it is reached. -/
  answer : t.acquire.1 =
    if 0 < limit ∧ t.limiter.stats.inFlight = limit then .error (.limitExceeded limit)
    else .ok { hasPlace := decide (0 < limit) }
  /-- A refused attempt changes nothing but the number of those that were refused. -/
  refused : ∀ e, t.acquire.1 = .error e →
    t.acquire.2 = { t with
      limiter := { t.limiter with
        stats := { t.limiter.stats with rejected := t.limiter.stats.rejected + 1 } } }
  admitted : t.limiter.stats.admitted =
    t.limiter.stats.inFlight + t.limiter.stats.succeeded + t.limiter.stats.ignored
  /-- Every attempt that was let in has a permit that is outstanding or gone, and only one. -/
  once : (t.held.keys ++ t.gone.map (·.1)).Perm (List.range t.limiter.stats.admitted)
  /-- The permits that are gone are counted by how they were parted with. -/
  succeeded : t.limiter.stats.succeeded = t.gone.countP (·.2 == .success)
  ignored : t.limiter.stats.ignored = t.gone.countP (·.2 != .success)
  /-- To part with an outstanding permit counts it, as one or the other. -/
  parts : ∀ number ∈ t.held.keys, ∀ how,
    (t.part number how).gone = (number, how) :: t.gone ∧
      (t.part number how).limiter.stats = { t.limiter.stats with
        inFlight := t.limiter.stats.inFlight - 1
        succeeded := t.limiter.stats.succeeded + (how == .success).toNat
        ignored := t.limiter.stats.ignored + (how != .success).toNat }

/-- What is gone was parted with as a success or not. -/
theorem length_parted (gone : List (Nat × Parting)) :
    gone.length = gone.countP (·.2 == .success) + gone.countP (·.2 != .success) := by
  rw [List.length_eq_countP_add_countP (·.2 == .success)]
  congr 2
  funext ⟨number, how⟩
  cases how <;> rfl

namespace Regular

theorem answer (h : Regular limit attempts t) (hlimit : limit ≤ Limiter.maxPermits) :
    t.acquire.1 =
      if 0 < limit ∧ t.limiter.stats.inFlight = limit then .error (.limitExceeded limit)
      else .ok { hasPlace := decide (0 < limit) } := by
  unfold Turnstile.acquire
  rcases t.limiter.tryAcquire_cases with ⟨hfull, hanswer⟩ | ⟨free, hfree, hanswer⟩
  · rw [hanswer, h.bound]
    rcases h.free_cases hlimit with ⟨-, hnone⟩ | ⟨hpos, n, hn, hsum⟩
    · rw [hnone] at hfull
      cases hfull
    · have hzero : n = 0 := Option.some.inj (hn.symm.trans hfull)
      rw [if_pos ⟨hpos, by rw [h.inFlight]; omega⟩]
  · rw [hanswer]
    rcases h.free_cases hlimit with ⟨rfl, hnone⟩ | ⟨hpos, n, hn, hsum⟩
    · rw [if_neg fun hreached => absurd hreached.1 (Nat.lt_irrefl 0), hnone]
      rfl
    · obtain ⟨m, -, hm⟩ := Option.map_eq_some_iff.1 (hfree.symm.trans hn)
      rw [if_neg fun hreached => ?_, hn, decide_eq_true hpos]
      · rfl
      · have hreached := hreached.2
        rw [h.inFlight] at hreached
        omega

theorem refused {e : AdmissionError} (he : t.acquire.1 = .error e) :
    t.acquire.2 = { t with limiter := t.limiter.rejected } := by
  unfold Turnstile.acquire at he ⊢
  rcases t.limiter.tryAcquire_cases with ⟨-, hanswer⟩ | ⟨free, -, hanswer⟩
  · rw [hanswer]
  · rw [hanswer] at he
    cases he

theorem parts (h : Regular limit attempts t) {number : Nat} (hheld : number ∈ t.held.keys)
    (how : Parting) :
    (t.part number how).gone = (number, how) :: t.gone ∧
      (t.part number how).limiter.stats = { t.limiter.stats with
        inFlight := t.limiter.stats.inFlight - 1
        succeeded := t.limiter.stats.succeeded + (how == .success).toNat
        ignored := t.limiter.stats.ignored + (how != .success).toNat } := by
  unfold Turnstile.part
  split
  · next hnone => exact absurd hheld (Registry.find?_eq_none.1 hnone)
  · next permit hpermit =>
    rw [h.permits number permit hpermit, Limiter.part_eq_leave]
    cases how <;> exact ⟨rfl, rfl⟩

theorem accounts (h : Regular limit attempts t) (hlimit : limit ≤ Limiter.maxPermits) :
    Accounts limit t where
  inFlight := h.inFlight
  within hpos := by
    rw [h.inFlight]
    rcases h.free_cases hlimit with ⟨rfl, -⟩ | ⟨-, n, -, hsum⟩
    · exact absurd hpos (Nat.lt_irrefl 0)
    · omega
  answer := h.answer hlimit
  refused e he := refused he
  admitted := by
    have hlength := h.numbers.length_eq
    rw [List.length_append, List.length_map, List.length_range, ← Registry.size_eq_length_keys,
      length_parted, ← h.inFlight, ← h.succeeded, ← h.ignored, ← h.admitted] at hlength
    omega
  once := h.admitted ▸ h.numbers
  succeeded := h.succeeded
  ignored := h.ignored
  parts number hheld how := h.parts hheld how

end Regular

/-- After any calls around a limiter, with a limit up to the greatest number of permits or without
one, its accounts hold, and every attempt was let in or refused. -/
theorem run_counts (limit : Nat) (hlimit : limit ≤ Limiter.maxPermits) (events : List Event) :
    let t := (ofLimit limit).run events
    Accounts limit t ∧
      t.limiter.stats.admitted + t.limiter.stats.rejected = events.count .acquire := by
  intro t
  have hregular := (Regular.ofLimit limit).run events
  exact ⟨hregular.accounts hlimit, hregular.attempts.trans (Nat.zero_add _)⟩

/-- The calls of a limiter of two: a third attempt is refused, one success makes room for it, and
the others are parted with by the word that they be ignored and by a drop. -/
def pairOfPlaces : List Event :=
  [.acquire, .acquire, .acquire, .part 0 .success, .acquire, .part 1 .ignore, .part 2 .drop]

theorem run_counts_pairOfPlaces :
    2 ≤ Limiter.maxPermits ∧ Accounts 2 ((ofLimit 2).run pairOfPlaces) ∧
      ((ofLimit 2).run pairOfPlaces).limiter.stats = ⟨0, 3, 1, 1, 2⟩ :=
  ⟨by decide, (run_counts 2 (by decide) pairOfPlaces).1, by decide⟩

end Turnstile

end ObjectStore
