import ObjectStore.Proofs.PoolAccounts
import ObjectStore.Proofs.PoolLeases

/-!
# Requests for channels

Which users ask a pool for a channel and have none yet, and that the pool counts those among them
who wait for a permit or have not noticed the one they were handed. A step of one user is no step
of the others: they ask afterwards if they asked before.
-/

namespace ObjectStore

namespace Stage

/-- The stages that a pool counts as pending. -/
def isPending : Stage → Bool
  | .waiting _ | .granted => true
  | .connecting _ | .leased _ => false

@[simp] theorem isPending_values :
    (∀ t, (waiting t).isPending = true) ∧ granted.isPending = true ∧
      (∀ t, (connecting t).isPending = false) ∧ ∀ c, (leased c).isPending = false :=
  ⟨fun _ => rfl, rfl, fun _ => rfl, fun _ => rfl⟩

theorem isPending_mapChannel (f : Channel → Channel) (s : Stage) :
    (s.mapChannel f).isPending = s.isPending := by
  cases s <;> rfl

end Stage

namespace Pool

variable {p : Pool} {user : Nat}

/-! ## The counter of pending users -/

/-- The number of users who wait for a permit or have not noticed theirs. -/
def queued (p : Pool) : Nat := p.users.count Stage.isPending

/-- The counter of a pool is the number of its pending users. -/
def Counted (p : Pool) : Prop := p.pending = p.queued

theorem queued_put (p : Pool) (user : Nat) (s : Stage) :
    (p.put user s).queued + ((p.stage? user).any Stage.isPending).toNat =
      p.queued + s.isPending.toNat :=
  Registry.count_set _ _ _ _

theorem queued_remove (p : Pool) (user : Nat) :
    (p.remove user).queued + ((p.stage? user).any Stage.isPending).toNat = p.queued :=
  Registry.count_erase _ _ _

/-- A user who is handed a permit stays pending. -/
@[simp] theorem giveBack_queued (p : Pool) : p.giveBack.queued = p.queued := by
  rcases giveBack_cases p with h | ⟨user, deadline, hs, h⟩
  · rw [h]
    rfl
  · have hput := p.queued_put user .granted
    rw [hs] at hput
    rw [h]
    exact Nat.add_right_cancel hput

@[simp] theorem proceed_pending (p : Pool) (user : Nat) :
    (p.proceed user).2.pending = p.pending := by
  unfold proceed
  split <;> rfl

/-- A user who goes on with a permit is no longer pending. -/
theorem proceed_queued (p : Pool) (user : Nat) :
    (p.proceed user).2.queued + ((p.stage? user).any Stage.isPending).toNat = p.queued := by
  unfold proceed
  split
  · exact p.queued_put user (.leased _)
  · exact p.queued_put user (.connecting _)

namespace Counted

theorem ofConfig (config : PoolConfig) : (Pool.ofConfig config).Counted := rfl

/-- A pending user is counted. -/
theorem pending_pos (h : p.Counted) {s : Stage} (hs : p.stage? user = some s)
    (hpending : s.isPending = true) : 1 ≤ p.pending := by
  have hremove := p.queued_remove user
  rw [hs, Option.any_some, hpending, Bool.toNat_true] at hremove
  rw [h]
  omega

/-- A user goes, and is counted no longer. -/
theorem remove (h : p.Counted) (user : Nat) :
    ({ p with pending := p.pending - ((p.stage? user).any Stage.isPending).toNat }.remove
      user).Counted := by
  have hremove := p.queued_remove user
  change p.pending - _ = (p.remove user).queued
  rw [h]
  omega

theorem giveBack (h : p.Counted) : p.giveBack.Counted := by
  rw [Counted, giveBack_pending, giveBack_queued]
  exact h

theorem start (h : p.Counted) (user : Nat) : (p.start user).2.Counted := by
  unfold Pool.start
  split
  · exact h
  · rename_i hs
    have hnone : p.stage? user = none := by simpa using hs
    split
    · exact h
    split
    · have hqueued := ({ p with free := p.free - 1 } : Pool).proceed_queued user
      have hstage : ({ p with free := p.free - 1 } : Pool).stage? user = none := hnone
      rw [hstage] at hqueued
      rw [Counted, proceed_pending]
      exact h.trans hqueued.symm
    split
    · exact h
    · have hqueued := p.queued_put user (.waiting (p.now + p.config.acquireTimeout.nanos))
      rw [hnone] at hqueued
      exact (congrArg (· + 1) h).trans hqueued.symm

theorem resume (h : p.Counted) (user : Nat) : (p.resume user).2.Counted := by
  unfold Pool.resume
  split
  · rename_i hs
    have hremove := h.remove user
    rw [hs] at hremove
    simp only
    split
    · exact hremove.giveBack
    · have hqueued := ({ p with pending := p.pending - 1 } : Pool).proceed_queued user
      have hstage : ({ p with pending := p.pending - 1 } : Pool).stage? user = some .granted := hs
      rw [hstage, Option.any_some, Stage.isPending_values.2.1, Bool.toNat_true] at hqueued
      have hq : ({ p with pending := p.pending - 1 } : Pool).queued = p.pending := h.symm
      rw [Counted, proceed_pending]
      change p.pending - 1 = _
      omega
  · rename_i deadline hs
    have hremove := h.remove user
    rw [hs] at hremove
    split
    · exact hremove
    · exact h
  · exact h

theorem expire (h : p.Counted) (user : Nat) : (p.expire user).2.Counted := by
  unfold Pool.expire
  split
  · rename_i deadline hs
    have hremove := h.remove user
    rw [hs] at hremove
    split
    · exact h.resume user
    split
    · exact hremove
    · exact h
  · exact h

theorem connected (h : p.Counted) (user : Nat) : (p.connected user).2.Counted := by
  unfold Pool.connected
  split
  · rename_i deadline hs
    have hqueued := p.queued_put user (.leased (.opened p.nextId p.now))
    rw [hs] at hqueued
    exact h.trans hqueued.symm
  · exact h

theorem connectFailed (h : p.Counted) (user : Nat) (e : PoolError) :
    (p.connectFailed user e).2.Counted := by
  unfold Pool.connectFailed
  split
  · rename_i deadline hs
    have hremove := h.remove user
    rw [hs] at hremove
    exact hremove.giveBack
  · exact h

theorem connectExpired (h : p.Counted) (user : Nat) : (p.connectExpired user).2.Counted := by
  unfold Pool.connectExpired
  split
  · split
    · exact h.connectFailed user _
    · exact h
  · exact h

theorem release (h : p.Counted) (user : Nat) : (p.release user).Counted := by
  unfold Pool.release
  split
  · rename_i c hs
    have hremove := h.remove user
    rw [hs] at hremove
    simp only
    split
    · exact Counted.giveBack hremove
    · exact Counted.giveBack hremove
  · exact h

theorem close (h : p.Counted) (user : Nat) : (p.close user).Counted := by
  unfold Pool.close
  split
  · rename_i c hs
    have hremove := h.remove user
    rw [hs] at hremove
    exact Counted.giveBack hremove
  · exact h

theorem abandon (h : p.Counted) (user : Nat) : (p.abandon user).Counted := by
  have hremove := h.remove user
  unfold Pool.abandon
  split
  · rename_i deadline hs
    rw [hs] at hremove
    exact hremove
  · rename_i hs
    rw [hs] at hremove
    exact hremove.giveBack
  · rename_i deadline hs
    rw [hs] at hremove
    exact hremove.giveBack
  · exact h.close user
  · exact h

/-- A user who goes away gives the place among the pending users back. -/
theorem abandon_pending (h : p.Counted) (user : Nat) :
    (p.abandon user).pending + ((p.stage? user).any Stage.isPending).toNat = p.pending := by
  unfold Pool.abandon
  split
  · rename_i deadline hs
    rw [hs]
    exact Nat.sub_add_cancel (h.pending_pos hs rfl)
  · rename_i hs
    rw [hs, giveBack_pending]
    exact Nat.sub_add_cancel (h.pending_pos hs rfl)
  · rename_i deadline hs
    rw [hs, giveBack_pending]
    rfl
  · rename_i c hs
    unfold Pool.close
    rw [hs, giveBack_pending]
    rfl
  · rename_i hs
    rw [hs]
    rfl

theorem update (h : p.Counted) (user : Nat) (f : Channel → Channel) :
    (p.update user f).Counted :=
  h.trans (Registry.count_modify _ _ (Stage.isPending_mapChannel f) p.users user).symm

theorem peerClosed (h : p.Counted) (id : Nat) : (p.peerClosed id).Counted :=
  h.trans (Registry.count_mapValues _ _ (Stage.isPending_mapChannel _) p.users).symm

theorem shutdown (h : p.Counted) : p.shutdown.Counted := by
  unfold Pool.shutdown
  split
  · exact h
  · exact h

/-- Each step keeps the count. -/
theorem step (h : p.Counted) (e : Event) : (p.step e).2.Counted := by
  cases e with
  | start user => exact h.start user
  | resume user => exact h.resume user
  | expire user => exact h.expire user
  | connected user => exact h.connected user
  | refused user cause => exact h.connectFailed user _
  | handshakeFailed user => exact h.connectFailed user _
  | connectExpired user => exact h.connectExpired user
  | send user => exact h.update user _
  | received user => exact h.update user _
  | release user => exact h.release user
  | close user => exact h.close user
  | abandon user => exact h.abandon user
  | peerClosed id => exact h.peerClosed id
  | advance nanos => exact h
  | evict => exact h
  | shutdown => exact h.shutdown

end Counted

/-- The accounts of a pool hold, and so does the count of its pending users. -/
structure Balanced (limits : PoolConfig) (p : Pool) : Prop where
  accounts : ∃ leases, Accounts limits leases 0 p
  counted : p.Counted

namespace Balanced

variable {limits : PoolConfig}

theorem ofConfig (config : PoolConfig) : Balanced config (Pool.ofConfig config) :=
  ⟨⟨0, Accounts.ofConfig config⟩, Counted.ofConfig config⟩

theorem step (h : Balanced limits p) (e : Event) : Balanced limits (p.step e).2 := by
  obtain ⟨leases, haccounts⟩ := h.accounts
  exact ⟨⟨_, haccounts.step e⟩, h.counted.step e⟩

theorem update (h : Balanced limits p) (user : Nat) (f : Channel → Channel) :
    Balanced limits (p.update user f) := by
  obtain ⟨leases, haccounts⟩ := h.accounts
  exact ⟨⟨leases, haccounts.update user f⟩, h.counted.update user f⟩

/-- No permit is lost. -/
theorem permits (h : Balanced limits p) :
    p.free + p.users.count Stage.holdsPermit = limits.maxConnections := by
  obtain ⟨leases, haccounts⟩ := h.accounts
  exact haccounts.permits

end Balanced

/-! ## Users who ask -/

/-- Whether a user asks for a channel and has none yet. -/
def asks (p : Pool) (user : Nat) : Bool := (p.stage? user).any fun s => !s.isLeased

@[simp] theorem asks_put (p : Pool) (user : Nat) (s : Stage) (v : Nat) :
    (p.put user s).asks v = if v = user then !s.isLeased else p.asks v :=
  any_stage?_put _ p user v s

@[simp] theorem asks_remove (p : Pool) (user v : Nat) :
    (p.remove user).asks v = if v = user then false else p.asks v :=
  any_stage?_remove _ p user v

@[simp] theorem asks_giveBack (p : Pool) (v : Nat) : p.giveBack.asks v = p.asks v :=
  any_stage?_giveBack _ p v fun _ => rfl

/-- A user goes and hands a permit back. -/
theorem asks_remove_giveBack (p : Pool) (user v : Nat) :
    (p.remove user).giveBack.asks v = if v = user then false else p.asks v :=
  (asks_giveBack _ v).trans (asks_remove p user v)

theorem asks_update (p : Pool) (user : Nat) (f : Channel → Channel) (v : Nat) :
    (p.update user f).asks v = p.asks v :=
  any_stage?_update _ p user v f fun s => congrArg (!·) (Stage.isLeased_mapChannel f s)

theorem asks_peerClosed (p : Pool) (id v : Nat) : (p.peerClosed id).asks v = p.asks v :=
  any_stage?_peerClosed _ p v id fun f s => congrArg (!·) (Stage.isLeased_mapChannel f s)

theorem asks_shutdown (p : Pool) (v : Nat) : p.shutdown.asks v = p.asks v := by
  unfold shutdown
  split <;> rfl

/-- A user with a channel asks for none. -/
theorem asks_of_leased {c : Channel} (hs : p.stage? user = some (.leased c)) :
    p.asks user = false := by
  rw [asks, hs]
  rfl

/-- The end of a lease is no request. -/
theorem asks_of_lease_ended {p' : Pool} {c : Channel} (hs : p.stage? user = some (.leased c))
    (hp : ∀ v, p'.asks v = if v = user then false else p.asks v) (v : Nat) :
    p'.asks v = p.asks v := by
  rw [hp]
  split
  · rename_i hv
    rw [hv, asks_of_leased hs]
  · rfl

theorem asks_release (p : Pool) (user v : Nat) : (p.release user).asks v = p.asks v := by
  unfold release
  split
  · rename_i c hs
    simp only
    split
    · refine asks_of_lease_ended hs (fun w => ?_) v
      exact (asks_giveBack _ w).trans (asks_remove { p with acquired := p.acquired - 1 } user w)
    · refine asks_of_lease_ended hs (fun w => ?_) v
      exact (asks_giveBack _ w).trans (asks_remove { p with acquired := p.acquired - 1 } user w)
  · rfl

theorem asks_close (p : Pool) (user v : Nat) : (p.close user).asks v = p.asks v := by
  unfold close
  split
  · rename_i c hs
    refine asks_of_lease_ended hs (fun w => ?_) v
    exact asks_remove_giveBack { p with acquired := p.acquired - 1, closed := p.closed + 1 } user w
  · rfl

theorem asks_dispose (p : Pool) (user : Nat) (how : Disposal) (v : Nat) :
    (p.dispose user how).asks v = p.asks v := by
  cases how with
  | release => exact asks_release p user v
  | close => exact asks_close p user v

theorem asks_abandon (p : Pool) (user v : Nat) :
    (p.abandon user).asks v = if v = user then false else p.asks v := by
  split
  · rename_i hv
    rw [hv, asks, stage?_abandon]
    rfl
  · rename_i hv
    unfold abandon
    split
    · exact (asks_remove { p with pending := p.pending - 1 } user v).trans (if_neg hv)
    · exact (asks_remove_giveBack { p with pending := p.pending - 1 } user v).trans (if_neg hv)
    · exact (asks_remove_giveBack p user v).trans (if_neg hv)
    · exact asks_close p user v
    · rfl

/-! ## Steps of a user who asks -/

/-- What a step of a user who asks for a channel means for the requests: those of the others stay,
and with a channel or a failure the request of the user is over. -/
structure Answers (user : Nat) (p : Pool) (reply : Reply) (p' : Pool) : Prop where
  others : ∀ v, v ≠ user → p'.asks v = p.asks v
  final : reply.isFinal = true → p'.asks user = false

theorem answers_waiting {reply : Reply} (hreply : reply.isFinal = false) :
    Answers user p reply p where
  others _ _ := rfl
  final h := by rw [hreply] at h; cases h

theorem answers_gone {reply : Reply} {p' : Pool}
    (hp : ∀ v, p'.asks v = if v = user then false else p.asks v) : Answers user p reply p' where
  others v hv := (hp v).trans (if_neg hv)
  final _ := (hp user).trans (if_pos rfl)

theorem answers_proceed (p : Pool) (user : Nat) :
    Answers user p (p.proceed user).1 (p.proceed user).2 := by
  unfold proceed
  split
  · rename_i c left dropped ht
    exact answers_gone fun v => asks_put _ user (.leased c) v
  · exact ⟨fun v hv => (asks_put _ user (.connecting _) v).trans (if_neg hv), nofun⟩

theorem answers_start (p : Pool) (user : Nat) :
    Answers user p (p.start user).1 (p.start user).2 := by
  unfold start
  split
  · exact answers_waiting rfl
  · rename_i hs
    have hnone : p.asks user = false := by
      have hs : p.stage? user = none := by simpa using hs
      rw [asks, hs]
      rfl
    split
    · exact ⟨fun _ _ => rfl, fun _ => hnone⟩
    split
    · have hanswers := answers_proceed { p with free := p.free - 1 } user
      exact ⟨hanswers.others, hanswers.final⟩
    split
    · exact ⟨fun _ _ => rfl, fun _ => hnone⟩
    · exact ⟨fun v hv => (asks_put _ user (.waiting _) v).trans (if_neg hv), nofun⟩

theorem answers_resume (p : Pool) (user : Nat) :
    Answers user p (p.resume user).1 (p.resume user).2 := by
  unfold resume
  split
  · simp only
    split
    · exact answers_gone (asks_remove_giveBack { p with pending := p.pending - 1 } user)
    · have hanswers := answers_proceed { p with pending := p.pending - 1 } user
      exact ⟨hanswers.others, hanswers.final⟩
  · split
    · exact answers_gone fun v => asks_remove { p with pending := p.pending - 1 } user v
    · exact answers_waiting rfl
  · exact answers_waiting rfl

theorem answers_expire (p : Pool) (user : Nat) :
    Answers user p (p.expire user).1 (p.expire user).2 := by
  unfold expire
  split
  · split
    · exact answers_resume p user
    split
    · exact answers_gone fun v => asks_remove { p with pending := p.pending - 1 } user v
    · exact answers_waiting rfl
  · exact answers_waiting rfl

theorem answers_connected (p : Pool) (user : Nat) :
    Answers user p (p.connected user).1 (p.connected user).2 := by
  unfold connected
  split
  · exact answers_gone fun v => asks_put _ user (.leased _) v
  · exact answers_waiting rfl

theorem answers_connectFailed (p : Pool) (user : Nat) (e : PoolError) :
    Answers user p (p.connectFailed user e).1 (p.connectFailed user e).2 := by
  unfold connectFailed
  split
  · exact answers_gone (asks_remove_giveBack p user)
  · exact answers_waiting rfl

theorem answers_connectExpired (p : Pool) (user : Nat) :
    Answers user p (p.connectExpired user).1 (p.connectExpired user).2 := by
  unfold connectExpired
  split
  · split
    · exact answers_connectFailed p user _
    · exact answers_waiting rfl
  · exact answers_waiting rfl

end Pool

end ObjectStore
