import ObjectStore.Proofs.PoolStages

/-!
# The accounts of a pool

Every permit is free or held by a user past the wait, every channel that was opened is closed,
idle or leased, and there is never more than one channel for each permit. The last of these rests
on the rule that a user with a permit connects only when no idle channel is left: then the
channels are those of the users who hold permits. An acquire that fails or is abandoned leaves no
user behind who could hold a permit.
-/

namespace ObjectStore

/-- How many leases a reply grants. -/
def Reply.leases : Reply → Nat
  | .leased _ => 1
  | .nothing | .waiting | .connecting | .failed _ => 0

namespace Pool

/-- The number of leases granted in a run. -/
def leasesGranted (p : Pool) : List Event → Nat
  | [] => 0
  | e :: rest => (p.step e).1.leases + leasesGranted (p.step e).2 rest

/-- Channels that users have, and channels that they wait for. -/
def inUse (p : Pool) : Nat := p.users.count Stage.isLeased + p.users.count Stage.isConnecting

/-- The accounts of a pool with given limits after so many leases, while so many permits are on
their way from one place to another. -/
structure Accounts (limits : PoolConfig) (leases moving : Nat) (p : Pool) : Prop where
  config : p.config = limits
  permits : p.free + p.users.count Stage.holdsPermit + moving = limits.maxConnections
  room : p.idle.length + p.inUse ≤ limits.maxConnections
  acquired : p.acquired = p.users.count Stage.isLeased
  channels : p.created = p.closed + p.idle.length + p.acquired
  leases : p.created + p.reused = leases

variable {limits : PoolConfig} {n moving : Nat} {p : Pool} {user : Nat}

/-- Whoever has a channel or waits for one holds a permit. -/
theorem inUse_le_holders (p : Pool) : p.inUse ≤ p.users.count Stage.holdsPermit := by
  apply Registry.count_add_le
  intro s
  cases s <;> simp

/-- The three counts of stages when a user is put into another stage. -/
theorem counts_put (p : Pool) (user : Nat) (s : Stage) :
    (p.put user s).users.count Stage.holdsPermit + ((p.stage? user).any Stage.holdsPermit).toNat
        = p.users.count Stage.holdsPermit + s.holdsPermit.toNat ∧
      (p.put user s).users.count Stage.isLeased + ((p.stage? user).any Stage.isLeased).toNat
        = p.users.count Stage.isLeased + s.isLeased.toNat ∧
      (p.put user s).users.count Stage.isConnecting
          + ((p.stage? user).any Stage.isConnecting).toNat
        = p.users.count Stage.isConnecting + s.isConnecting.toNat :=
  ⟨Registry.count_set _ _ _ _, Registry.count_set _ _ _ _, Registry.count_set _ _ _ _⟩

/-- The three counts of stages when a user goes. -/
theorem counts_remove (p : Pool) (user : Nat) :
    (p.remove user).users.count Stage.holdsPermit + ((p.stage? user).any Stage.holdsPermit).toNat
        = p.users.count Stage.holdsPermit ∧
      (p.remove user).users.count Stage.isLeased + ((p.stage? user).any Stage.isLeased).toNat
        = p.users.count Stage.isLeased ∧
      (p.remove user).users.count Stage.isConnecting
          + ((p.stage? user).any Stage.isConnecting).toNat
        = p.users.count Stage.isConnecting :=
  ⟨Registry.count_erase _ _ _, Registry.count_erase _ _ _, Registry.count_erase _ _ _⟩

namespace Accounts

theorem ofConfig (config : PoolConfig) : Accounts config 0 0 (Pool.ofConfig config) where
  config := rfl
  permits := rfl
  room := Nat.zero_le _
  acquired := rfl
  channels := rfl
  leases := rfl

/-- The number of those who wait is no part of the accounts. -/
theorem withPending (h : Accounts limits n moving p) (k : Nat) :
    Accounts limits n moving { p with pending := k } :=
  ⟨h.config, h.permits, h.room, h.acquired, h.channels, h.leases⟩

/-- A user without a permit waits. -/
theorem wait (h : Accounts limits n moving p) (hs : p.stage? user = none) (deadline : Nat) :
    Accounts limits n moving (p.put user (.waiting deadline)) := by
  obtain ⟨hh, hl, hc⟩ := counts_put p user (.waiting deadline)
  simp only [hs, Option.any_none, Stage.holdsPermit_values, Stage.isLeased_values,
    Stage.isConnecting_values, Bool.toNat_false, Nat.add_zero] at hh hl hc
  refine ⟨h.config, ?_, ?_, ?_, h.channels, h.leases⟩
  · rw [hh]
    exact h.permits
  · rw [inUse, hl, hc]
    exact h.room
  · rw [hl]
    exact h.acquired

/-- A permit that was on its way is free again or goes to a user who waits. -/
theorem giveBack (h : Accounts limits n (moving + 1) p) :
    Accounts limits n moving p.giveBack := by
  have hp := h.permits
  rcases giveBack_cases p with hg | ⟨user, deadline, hs, hg⟩
  · rw [hg]
    exact ⟨h.config, by simp only; omega, h.room, h.acquired, h.channels, h.leases⟩
  · obtain ⟨hh, hl, hc⟩ := counts_put p user .granted
    simp only [hs, Option.any_some, Stage.holdsPermit_values, Stage.isLeased_values,
      Stage.isConnecting_values, Bool.toNat_false, Bool.toNat_true, Nat.add_zero] at hh hl hc
    rw [hg]
    refine ⟨h.config, ?_, ?_, ?_, h.channels, h.leases⟩
    · change p.free + _ + moving = _
      omega
    · rw [inUse, hl, hc]
      exact h.room
    · rw [hl]
      exact h.acquired

/-- A user who holds a permit gets an idle channel or begins to connect. The permit is one that
was on its way, or one that was handed over. -/
theorem proceed (h : Accounts limits n moving p)
    (hu : moving + ((p.stage? user).any Stage.holdsPermit).toNat = 1)
    (hl : (p.stage? user).any Stage.isLeased = false)
    (hc : (p.stage? user).any Stage.isConnecting = false) :
    Accounts limits (n + (p.proceed user).1.leases) 0 (p.proceed user).2 := by
  obtain ⟨hconfig, hpermits, hroom, hacquired, hchannels, hleases⟩ := h
  unfold Pool.proceed
  split
  · rename_i c left dropped ht
    obtain ⟨stale, hidle, rfl, -, -⟩ := takeIdle_eq_some ht
    have hlength := congrArg List.length hidle
    obtain ⟨kh, kl, kc⟩ := counts_put p user (.leased c)
    simp only [hl, hc, Stage.holdsPermit_values, Stage.isLeased_values,
      Stage.isConnecting_values, Bool.toNat_false, Bool.toNat_true, List.length_append,
      List.length_cons, inUse] at kh kl kc hlength hroom
    refine ⟨hconfig, ?_, ?_, ?_, ?_, ?_⟩
    · change p.free + (p.put user (.leased c)).users.count Stage.holdsPermit + 0 = _
      omega
    · change left.length + (p.put user (.leased c)).inUse ≤ _
      simp only [inUse]
      omega
    · change p.acquired + 1 = (p.put user (.leased c)).users.count Stage.isLeased
      omega
    · change p.created = p.closed + stale.length + left.length + (p.acquired + 1)
      omega
    · change p.created + (p.reused + 1) = n + 1
      omega
  · rename_i left dropped ht
    obtain ⟨rfl, rfl, -⟩ := takeIdle_eq_none ht
    obtain ⟨kh, kl, kc⟩ :=
      counts_put p user (.connecting (p.now + p.config.connectTimeout.nanos))
    simp only [hl, hc, Stage.holdsPermit_values, Stage.isLeased_values,
      Stage.isConnecting_values, Bool.toNat_false, Bool.toNat_true] at kh kl kc
    have hkept : p.free +
        (p.put user (.connecting (p.now + p.config.connectTimeout.nanos))).users.count
          Stage.holdsPermit = limits.maxConnections := by omega
    refine ⟨hconfig, hkept, ?_, ?_, ?_, hleases⟩
    · -- No idle channel is left: all channels belong to holders of permits.
      have hle := inUse_le_holders
        (p.put user (.connecting (p.now + p.config.connectTimeout.nanos)))
      change 0 + (p.put user (.connecting (p.now + p.config.connectTimeout.nanos))).inUse ≤ _
      omega
    · change p.acquired = (p.put user _).users.count Stage.isLeased
      omega
    · change p.created = p.closed + p.idle.length + 0 + p.acquired
      omega

/-- A user without a channel goes. The permit that the user may hold is on its way. -/
theorem remove (h : Accounts limits n moving p) (user : Nat)
    (hl : (p.stage? user).any Stage.isLeased = false) :
    Accounts limits n (moving + ((p.stage? user).any Stage.holdsPermit).toNat)
      (p.remove user) := by
  obtain ⟨hconfig, hpermits, hroom, hacquired, hchannels, hleases⟩ := h
  obtain ⟨kh, kl, kc⟩ := counts_remove p user
  simp only [hl, Bool.toNat_false, inUse] at kl hroom
  refine ⟨hconfig, ?_, ?_, ?_, hchannels, hleases⟩
  · change p.free + _ + _ = _
    omega
  · change p.idle.length + _ ≤ _
    simp only [inUse]
    omega
  · change p.acquired = _
    omega

/-- A lease ends, and its channel is closed or pooled. The permit is on its way. -/
theorem endLease (h : Accounts limits n 0 p) {c : Channel} (hs : p.stage? user = some (.leased c))
    {closed : Nat} {idle : List Channel} (hclosed : p.closed ≤ closed)
    (hsum : closed + idle.length = p.closed + p.idle.length + 1) :
    Accounts limits n 1
      ({ p with acquired := p.acquired - 1, closed, idle }.remove user) := by
  obtain ⟨hconfig, hpermits, hroom, hacquired, hchannels, hleases⟩ := h
  obtain ⟨kh, kl, kc⟩ := counts_remove p user
  simp only [hs, Option.any_some, Stage.holdsPermit_values, Stage.isLeased_values,
    Stage.isConnecting_values, Bool.toNat_false, Bool.toNat_true, inUse] at kh kl kc hroom
  refine ⟨hconfig, ?_, ?_, ?_, ?_, hleases⟩
  · change p.free + (p.remove user).users.count Stage.holdsPermit + 1 = _
    omega
  · change idle.length + (p.remove user).inUse ≤ _
    simp only [inUse]
    omega
  · change p.acquired - 1 = (p.remove user).users.count Stage.isLeased
    omega
  · change p.created = closed + idle.length + (p.acquired - 1)
    omega

theorem endClosed (h : Accounts limits n 0 p) {c : Channel}
    (hs : p.stage? user = some (.leased c)) :
    Accounts limits n 1
      ({ p with acquired := p.acquired - 1, closed := p.closed + 1 }.remove user) :=
  h.endLease hs (Nat.le_succ _) (Nat.add_right_comm _ _ _)

theorem start (h : Accounts limits n 0 p) (user : Nat) :
    Accounts limits (n + (p.start user).1.leases) 0 (p.start user).2 := by
  unfold Pool.start
  split
  · exact h
  · rename_i hs
    have hnone : p.stage? user = none := by simpa using hs
    split
    · exact h
    split
    · rename_i hfree
      have hp := h.permits
      have htaken : Accounts limits n 1 { p with free := p.free - 1 } :=
        ⟨h.config, by simp only; omega, h.room, h.acquired, h.channels, h.leases⟩
      have hstage : ({ p with free := p.free - 1 } : Pool).stage? user = none := hnone
      exact htaken.proceed (by simp [hstage]) (by simp [hstage]) (by simp [hstage])
    split
    · exact h
    · exact (h.withPending (p.pending + 1)).wait hnone _

theorem resume (h : Accounts limits n 0 p) (user : Nat) :
    Accounts limits (n + (p.resume user).1.leases) 0 (p.resume user).2 := by
  unfold Pool.resume
  split
  · rename_i hs
    have hstage : ({ p with pending := p.pending - 1 } : Pool).stage? user = some .granted := hs
    simp only
    split
    · have hr := h.remove user (by simp [hs])
      rw [hs] at hr
      exact (hr.withPending (p.pending - 1)).giveBack
    · exact (h.withPending (p.pending - 1)).proceed (by simp [hstage]) (by simp [hstage])
        (by simp [hstage])
  · rename_i deadline hs
    split
    · have hr := h.remove user (by simp [hs])
      rw [hs] at hr
      exact hr.withPending (p.pending - 1)
    · exact h
  · exact h

theorem expire (h : Accounts limits n 0 p) (user : Nat) :
    Accounts limits (n + (p.expire user).1.leases) 0 (p.expire user).2 := by
  unfold Pool.expire
  split
  · rename_i deadline hs
    split
    · exact h.resume user
    split
    · have hr := h.remove user (by simp [hs])
      rw [hs] at hr
      exact hr.withPending (p.pending - 1)
    · exact h
  · exact h

theorem connected (h : Accounts limits n 0 p) (user : Nat) :
    Accounts limits (n + (p.connected user).1.leases) 0 (p.connected user).2 := by
  unfold Pool.connected
  split
  · rename_i deadline hs
    obtain ⟨hconfig, hpermits, hroom, hacquired, hchannels, hleases⟩ := h
    obtain ⟨kh, kl, kc⟩ := counts_put p user (.leased (.opened p.nextId p.now))
    simp only [hs, Option.any_some, Stage.holdsPermit_values, Stage.isLeased_values,
      Stage.isConnecting_values, Bool.toNat_false, Bool.toNat_true, inUse] at kh kl kc hroom
    refine ⟨hconfig, ?_, ?_, ?_, ?_, ?_⟩
    · change p.free + (p.put user _).users.count Stage.holdsPermit + 0 = _
      omega
    · change p.idle.length + (p.put user (.leased (.opened p.nextId p.now))).inUse ≤ _
      simp only [inUse]
      omega
    · change p.acquired + 1 = (p.put user _).users.count Stage.isLeased
      omega
    · change p.created + 1 = p.closed + p.idle.length + (p.acquired + 1)
      omega
    · change p.created + 1 + p.reused = n + 1
      omega
  · exact h

theorem connectFailed (h : Accounts limits n 0 p) (user : Nat) (e : PoolError) :
    Accounts limits (n + (p.connectFailed user e).1.leases) 0 (p.connectFailed user e).2 := by
  unfold Pool.connectFailed
  split
  · rename_i deadline hs
    have hr := h.remove user (by simp [hs])
    rw [hs] at hr
    exact hr.giveBack
  · exact h

theorem connectExpired (h : Accounts limits n 0 p) (user : Nat) :
    Accounts limits (n + (p.connectExpired user).1.leases) 0 (p.connectExpired user).2 := by
  unfold Pool.connectExpired
  split
  · split
    · exact h.connectFailed user _
    · exact h
  · exact h

theorem release (h : Accounts limits n 0 p) (user : Nat) :
    Accounts limits n 0 (p.release user) := by
  unfold Pool.release
  split
  · rename_i c hs
    simp only
    split
    · exact (h.endClosed hs).giveBack
    · exact (h.endLease hs (Nat.le_refl _) rfl).giveBack
  · exact h

theorem close (h : Accounts limits n 0 p) (user : Nat) : Accounts limits n 0 (p.close user) := by
  unfold Pool.close
  split
  · rename_i c hs
    exact (h.endClosed hs).giveBack
  · exact h

theorem abandon (h : Accounts limits n 0 p) (user : Nat) :
    Accounts limits n 0 (p.abandon user) := by
  unfold Pool.abandon
  split
  · rename_i deadline hs
    have hr := h.remove user (by simp [hs])
    rw [hs] at hr
    exact hr.withPending (p.pending - 1)
  · rename_i hs
    have hr := h.remove user (by simp [hs])
    rw [hs] at hr
    exact (hr.withPending (p.pending - 1)).giveBack
  · rename_i deadline hs
    have hr := h.remove user (by simp [hs])
    rw [hs] at hr
    exact hr.giveBack
  · exact h.close user
  · exact h

/-- Changes of the channels themselves are no part of the accounts. -/
theorem changeChannels (h : Accounts limits n 0 p) {users : Registry Stage} {idle : List Channel}
    (hcount : ∀ q : Stage → Bool, (∀ f s, q (s.mapChannel f) = q s) →
      users.count q = p.users.count q)
    (hidle : idle.length = p.idle.length) : Accounts limits n 0 { p with users, idle } := by
  have hholders := hcount _ Stage.holdsPermit_mapChannel
  have hleased := hcount _ Stage.isLeased_mapChannel
  have hconnecting := hcount _ Stage.isConnecting_mapChannel
  refine ⟨h.config, ?_, ?_, ?_, ?_, h.leases⟩
  · rw [hholders]
    exact h.permits
  · rw [hidle, inUse, hleased, hconnecting]
    exact h.room
  · rw [hleased]
    exact h.acquired
  · rw [hidle]
    exact h.channels

theorem update (h : Accounts limits n 0 p) (user : Nat) (f : Channel → Channel) :
    Accounts limits n 0 (p.update user f) :=
  h.changeChannels (fun q hq => Registry.count_modify q _ (hq f) p.users user) rfl

theorem peerClosed (h : Accounts limits n 0 p) (id : Nat) :
    Accounts limits n 0 (p.peerClosed id) :=
  h.changeChannels (fun q hq => Registry.count_mapValues q _ (hq _) p.users)
    (List.length_map ..)

theorem evict (h : Accounts limits n 0 p) : Accounts limits n 0 p.evict.2 := by
  obtain ⟨hconfig, hpermits, hroom, hacquired, hchannels, hleases⟩ := h
  have hle := List.length_filter_le (Channel.isReusable p.config.maxIdle p.now) p.idle
  refine ⟨hconfig, hpermits, ?_, hacquired, ?_, hleases⟩
  · change (p.idle.filter _).length + p.inUse ≤ _
    omega
  · change p.created = p.closed + (p.idle.length - (p.idle.filter _).length)
      + (p.idle.filter _).length + p.acquired
    omega

theorem shutdown (h : Accounts limits n 0 p) : Accounts limits n 0 p.shutdown := by
  unfold Pool.shutdown
  split
  · exact h
  · obtain ⟨hconfig, hpermits, hroom, hacquired, hchannels, hleases⟩ := h
    refine ⟨hconfig, hpermits, ?_, hacquired, ?_, hleases⟩
    · change 0 + p.inUse ≤ _
      omega
    · change p.created = p.closed + p.idle.length + 0 + p.acquired
      omega

/-- Each step keeps the accounts. -/
theorem step (h : Accounts limits n 0 p) (e : Event) :
    Accounts limits (n + (p.step e).1.leases) 0 (p.step e).2 := by
  cases e with
  | start user => exact h.start user
  | resume user => exact h.resume user
  | expire user => exact h.expire user
  | connected user => exact h.connected user
  | refused user cause => exact h.connectFailed user _
  | handshakeFailed user => exact h.connectFailed user _
  | connectExpired user => exact h.connectExpired user
  | send user => exact h.update user _
  | received user => exact h.update user _
  | release user => exact h.release user
  | close user => exact h.close user
  | abandon user => exact h.abandon user
  | peerClosed id => exact h.peerClosed id
  | advance nanos => exact ⟨h.config, h.permits, h.room, h.acquired, h.channels, h.leases⟩
  | evict => exact h.evict
  | shutdown => exact h.shutdown

/-- Each run keeps the accounts. -/
theorem run (h : Accounts limits n 0 p) (events : List Event) :
    Accounts limits (n + p.leasesGranted events) 0 (p.run events) := by
  induction events generalizing n p with
  | nil => exact h
  | cons e rest ih =>
      have hr := ih (h.step e)
      rw [Nat.add_assoc] at hr
      exact hr

end Accounts

/-- After every run of a pool: idle, leased and connecting channels are at most as many as the
limit allows; every channel opened is closed, idle or leased; every lease was served by a new or
by an idle channel; and no permit is lost. -/
theorem run_accounts (config : PoolConfig) (events : List Event) :
    let p := (ofConfig config).run events
    p.idle.length + p.users.count Stage.isLeased + p.users.count Stage.isConnecting
        ≤ config.maxConnections ∧
      p.acquired = p.users.count Stage.isLeased ∧
      p.created = p.closed + p.idle.length + p.acquired ∧
      p.created + p.reused = (ofConfig config).leasesGranted events ∧
      p.free + p.users.count Stage.holdsPermit = config.maxConnections := by
  intro p
  have h := (Accounts.ofConfig config).run events
  refine ⟨?_, h.acquired, h.channels, ?_, h.permits⟩
  · rw [Nat.add_assoc]
    exact h.room
  · rw [h.leases, Nat.zero_add]

/-! ## Users who go -/

/-- A user who goes and hands a permit back stands nowhere any more: the permit is for another. -/
theorem stage?_remove_giveBack (p : Pool) (user : Nat) :
    (p.remove user).giveBack.stage? user = none := by
  rcases giveBack_cases (p.remove user) with h | ⟨w, deadline, hs, h⟩
  · rw [h]
    exact (p.stage?_remove user user).trans (if_pos rfl)
  · rw [h, stage?_put, if_neg, stage?_remove, if_pos rfl]
    rintro rfl
    rw [stage?_remove, if_pos rfl] at hs
    cases hs

/-- A user who goes away is no user any more. -/
theorem stage?_abandon (p : Pool) (user : Nat) : (p.abandon user).stage? user = none := by
  unfold abandon
  split
  · exact (stage?_remove _ user user).trans (if_pos rfl)
  · exact stage?_remove_giveBack _ user
  · exact stage?_remove_giveBack _ user
  · rename_i c hs
    unfold close
    rw [hs]
    exact stage?_remove_giveBack _ user
  · rename_i hs
    exact hs

/-- The user who may learn by a step that no channel is to be had. -/
def Event.asker? : Event → Option Nat
  | .start user | .resume user | .expire user | .connected user | .refused user _
  | .handshakeFailed user | .connectExpired user => some user
  | .send _ | .received _ | .release _ | .close _ | .abandon _ | .peerClosed _ | .advance _
  | .evict | .shutdown => none

/-- With a failure as the answer the user stands nowhere any more. -/
def GoneIfFailed (user : Nat) (r : Reply × Pool) : Prop :=
  ∀ cause, r.1 = .failed cause → r.2.stage? user = none

theorem goneIfFailed_proceed (p : Pool) (user : Nat) : GoneIfFailed user (p.proceed user) := by
  unfold proceed
  split <;> exact nofun

theorem goneIfFailed_start (p : Pool) (user : Nat) : GoneIfFailed user (p.start user) := by
  unfold start
  split
  · exact nofun
  · rename_i hs
    have hnone : p.stage? user = none := by simpa using hs
    split
    · exact fun _ _ => hnone
    split
    · exact goneIfFailed_proceed _ user
    split
    · exact fun _ _ => hnone
    · exact nofun

theorem goneIfFailed_resume (p : Pool) (user : Nat) : GoneIfFailed user (p.resume user) := by
  unfold resume
  split
  · simp only
    split
    · exact fun _ _ => stage?_remove_giveBack _ user
    · exact goneIfFailed_proceed _ user
  · split
    · exact fun _ _ => (stage?_remove _ user user).trans (if_pos rfl)
    · exact nofun
  · exact nofun

theorem goneIfFailed_expire (p : Pool) (user : Nat) : GoneIfFailed user (p.expire user) := by
  unfold expire
  split
  · split
    · exact goneIfFailed_resume p user
    split
    · exact fun _ _ => (stage?_remove _ user user).trans (if_pos rfl)
    · exact nofun
  · exact nofun

theorem goneIfFailed_connected (p : Pool) (user : Nat) : GoneIfFailed user (p.connected user) := by
  unfold connected
  split <;> exact nofun

theorem goneIfFailed_connectFailed (p : Pool) (user : Nat) (e : PoolError) :
    GoneIfFailed user (p.connectFailed user e) := by
  unfold connectFailed
  split
  · exact fun _ _ => stage?_remove_giveBack p user
  · exact nofun

theorem goneIfFailed_connectExpired (p : Pool) (user : Nat) :
    GoneIfFailed user (p.connectExpired user) := by
  unfold connectExpired
  split
  · split
    · exact goneIfFailed_connectFailed p user _
    · exact nofun
  · exact nofun

/-- Whoever learns that no channel is to be had stands nowhere in the pool any more. -/
theorem stage?_of_failed {e : Event} {cause : PoolError} (h : (p.step e).1 = .failed cause) :
    ∃ user, e.asker? = some user ∧ (p.step e).2.stage? user = none := by
  cases e with
  | start user => exact ⟨user, rfl, goneIfFailed_start p user cause h⟩
  | resume user => exact ⟨user, rfl, goneIfFailed_resume p user cause h⟩
  | expire user => exact ⟨user, rfl, goneIfFailed_expire p user cause h⟩
  | connected user => exact ⟨user, rfl, goneIfFailed_connected p user cause h⟩
  | refused user _ | handshakeFailed user =>
      exact ⟨user, rfl, goneIfFailed_connectFailed p user _ cause h⟩
  | connectExpired user => exact ⟨user, rfl, goneIfFailed_connectExpired p user cause h⟩
  | _ => cases h

/-- An acquire that fails or is abandoned, whatever it was waiting for, has left the pool, and every
permit is free or with a user who is still there. -/
theorem run_left (config : PoolConfig) (events : List Event) {e : Event} {user : Nat}
    (h : (∃ cause, (((ofConfig config).run events).step e).1 = .failed cause ∧
      e.asker? = some user) ∨ e = .abandon user) :
    let p := (((ofConfig config).run events).step e).2
    p.stage? user = none ∧ p.free + p.users.count Stage.holdsPermit = config.maxConnections := by
  refine ⟨?_, (((Accounts.ofConfig config).run events).step e).permits⟩
  rcases h with ⟨cause, hfailed, hasker⟩ | rfl
  · obtain ⟨v, hv, hgone⟩ := stage?_of_failed hfailed
    rw [Option.some.inj (hasker.symm.trans hv)]
    exact hgone
  · exact stage?_abandon _ user

end Pool

end ObjectStore
