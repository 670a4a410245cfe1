import ObjectStore.Proofs.PoolRequests

/-!
# The queue of a pool

Users who find no free permit wait for one, as long as there is room among those who wait. Each
step of a pool lets one user into the queue, turns one away, ends the wait of one, or leaves the
queue alone; the counter of pending users moves with it. A wait ends in one of four ways, and only
a user who is granted a permit gets anything from the pool: in the other ways leases, idle
channels and the counters of channels stay, and a permit that was already handed over is handed on.

A user who was handed a permit and has not noticed is still in the queue: the place there is given
back when the user takes the next step.
-/

namespace ObjectStore

/-- Why the wait of a user is over. -/
inductive WaitEnd
  /-- The user goes on with a permit. -/
  | granted
  | timedOut
  /-- The pool is closed. -/
  | closed
  /-- The user went away. -/
  | dropped
  deriving DecidableEq

/-- What a user learns at the end of a wait. -/
def WaitEnd.Tells (limits : PoolConfig) : WaitEnd → Reply → Prop
  | .granted, reply => reply = .connecting ∨ ∃ channel, reply = .leased channel
  | .timedOut, reply => reply = .failed (.acquireTimeout limits.acquireTimeout)
  | .closed, reply => reply = .failed .closed
  | .dropped, reply => reply = .nothing

/-- Whether a reply tells that the queue was full or the wait too long. -/
def Reply.turnsAway : Reply → Bool
  | .failed (.tooManyPending _) | .failed (.acquireTimeout _) => true
  | .nothing | .waiting | .connecting | .leased _ | .failed _ => false

namespace Pool

variable {p p' : Pool} {user : Nat} {e : Event} {reply : Reply}

/-! ## Users in the queue -/

/-- Whether a user is in the queue. -/
def waits (p : Pool) (user : Nat) : Bool := (p.stage? user).any Stage.isPending

theorem waits_eq {stage : Option Stage} (hs : p.stage? user = stage) :
    p.waits user = stage.any Stage.isPending :=
  congrArg (Option.any Stage.isPending) hs

@[simp] theorem waits_put (p : Pool) (user : Nat) (s : Stage) (v : Nat) :
    (p.put user s).waits v = if v = user then s.isPending else p.waits v :=
  any_stage?_put _ p user v s

@[simp] theorem waits_remove (p : Pool) (user v : Nat) :
    (p.remove user).waits v = if v = user then false else p.waits v :=
  any_stage?_remove _ p user v

@[simp] theorem waits_giveBack (p : Pool) (v : Nat) : p.giveBack.waits v = p.waits v :=
  any_stage?_giveBack _ p v fun _ => rfl

/-- A user goes and hands a permit back. -/
theorem waits_remove_giveBack (p : Pool) (user v : Nat) :
    (p.remove user).giveBack.waits v = if v = user then false else p.waits v :=
  (waits_giveBack _ v).trans (waits_remove p user v)

theorem waits_update (p : Pool) (user : Nat) (f : Channel → Channel) (v : Nat) :
    (p.update user f).waits v = p.waits v :=
  any_stage?_update _ p user v f (Stage.isPending_mapChannel f)

theorem waits_peerClosed (p : Pool) (id v : Nat) : (p.peerClosed id).waits v = p.waits v :=
  any_stage?_peerClosed _ p v id Stage.isPending_mapChannel

/-- A user who goes on with a permit is in the queue no longer. -/
theorem waits_proceed (p : Pool) (user v : Nat) :
    (p.proceed user).2.waits v = if v = user then false else p.waits v := by
  unfold proceed
  split
  · exact waits_put _ user (.leased _) v
  · exact waits_put _ user (.connecting _) v

/-- A user who goes and is not in the queue leaves it as it is. -/
theorem waits_of_erased (hnew : p.waits user = false)
    (hp : ∀ v, p'.waits v = if v = user then false else p.waits v) (v : Nat) :
    p'.waits v = p.waits v := by
  rw [hp]
  split
  · rename_i hv
    rw [hv, hnew]
  · rfl

/-- Who waits or was handed a permit is in the queue. -/
theorem stage?_of_waits (h : p.waits user = true) :
    p.stage? user = some .granted ∨ ∃ deadline, p.stage? user = some (.waiting deadline) := by
  unfold waits at h
  cases hs : p.stage? user with
  | none => rw [hs] at h; cases h
  | some s =>
      rw [hs] at h
      cases s with
      | waiting deadline => exact .inr ⟨deadline, rfl⟩
      | granted => exact .inl rfl
      | connecting deadline => cases h
      | leased c => cases h

/-! ## What a step means for the queue -/

/-- The steps that end the wait of a user. -/
inductive EndsWait (p : Pool) (user : Nat) : Event → WaitEnd → Prop
  | granted (hstage : p.stage? user = some .granted) (hopen : p.isClosed = false) :
      EndsWait p user (.resume user) .granted
  | timedOut {deadline : Nat} (hstage : p.stage? user = some (.waiting deadline))
      (hopen : p.isClosed = false) (hlate : deadline ≤ p.now) :
      EndsWait p user (.expire user) .timedOut
  | closed (hwaits : p.waits user = true) (hclosed : p.isClosed = true) :
      EndsWait p user (.resume user) .closed
  | closedLate {deadline : Nat} (hstage : p.stage? user = some (.waiting deadline))
      (hclosed : p.isClosed = true) : EndsWait p user (.expire user) .closed
  | dropped (hwaits : p.waits user = true) : EndsWait p user (.abandon user) .dropped

/-- Only a permit that was handed to a user changes its place: it is free, or one of the
others who wait has got it. -/
inductive HandsOn (user : Nat) (p p' : Pool) : Prop
  | free (hfree : p'.free = p.free + 1) (hothers : ∀ v, v ≠ user → p'.stage? v = p.stage? v)
  | next {next deadline : Nat} (hnext : next ≠ user)
      (hstage : p.stage? next = some (.waiting deadline)) (hfree : p'.free = p.free)
      (hothers : ∀ v, v ≠ user → p'.stage? v = if v = next then some .granted else p.stage? v)

/-- A user goes and the rest of the pool stays as it was. -/
structure Spares (user : Nat) (p p' : Pool) : Prop where
  leases : ∀ v, p'.lease? v = p.lease? v
  idle : p'.idle = p.idle
  acquired : p'.acquired = p.acquired
  created : p'.created = p.created
  reused : p'.reused = p.reused
  closed : p'.closed = p.closed
  unhanded : p.stage? user ≠ some .granted →
    p'.free = p.free ∧ ∀ v, v ≠ user → p'.stage? v = p.stage? v
  handed : p.stage? user = some .granted → HandsOn user p p'

/-- What a step does to the queue: nothing, or it turns a user away, lets one in, or lets one
out. -/
inductive QueueMove (p : Pool) (e : Event) (reply : Reply) (p' : Pool) : Prop
  | stays (hnobody : ∀ user why, ¬ p.EndsWait user e why) (hwaits : ∀ v, p'.waits v = p.waits v)
      (hpending : p'.pending = p.pending) (hreply : reply.turnsAway = false)
  | rejects (user : Nat) (hevent : e = .start user) (hfull : p.config.maxPending ≤ p.pending)
      (hreply : reply = .failed (.tooManyPending p.config.maxPending)) (hsame : p' = p)
  | joins (user : Nat) (hevent : e = .start user) (hroom : p.pending < p.config.maxPending)
      (hreply : reply = .waiting) (hnew : p.waits user = false)
      (hwaits : ∀ v, p'.waits v = if v = user then true else p.waits v)
      (hpending : p'.pending = p.pending + 1)
  | leaves (user : Nat) (why : WaitEnd) (hends : p.EndsWait user e why)
      (hreply : why.Tells p.config reply)
      (hwaits : ∀ v, p'.waits v = if v = user then false else p.waits v)
      (hpending : p'.pending + 1 = p.pending) (hspares : why ≠ .granted → Spares user p p')

/-! ## Users who go -/

theorem lease?_of_waits (h : p.waits user = true) : p.lease? user = none := by
  rcases stage?_of_waits h with hs | ⟨deadline, hs⟩
  · rw [lease?, hs]
    rfl
  · rw [lease?, hs]
    rfl

/-- A user who waits goes, and the permits are not concerned. -/
theorem spares_remove {deadline : Nat} (hs : p.stage? user = some (.waiting deadline)) (k : Nat) :
    Spares user p ({ p with pending := k }.remove user) where
  leases v := by
    rw [lease?_remove]
    split
    · rename_i hv
      rw [hv, lease?_of_waits (waits_eq hs)]
    · rfl
  idle := rfl
  acquired := rfl
  created := rfl
  reused := rfl
  closed := rfl
  unhanded _ := ⟨rfl, fun v hv => (stage?_remove _ user v).trans (if_neg hv)⟩
  handed hgranted := by
    rw [hs] at hgranted
    cases hgranted

/-- A user goes who was handed a permit. -/
theorem handsOn_giveBack (p : Pool) (user k : Nat) :
    HandsOn user p ({ p with pending := k }.remove user).giveBack := by
  have hothers : ∀ v, v ≠ user → ({ p with pending := k }.remove user).stage? v = p.stage? v :=
    fun v hv => (stage?_remove _ user v).trans (if_neg hv)
  rcases giveBack_cases ({ p with pending := k }.remove user) with h | ⟨next, deadline, hs, h⟩
  · rw [h]
    exact .free rfl hothers
  · have hnext : next ≠ user := by
      rintro rfl
      rw [stage?_remove, if_pos rfl] at hs
      cases hs
    rw [h]
    refine .next hnext ((hothers next hnext).symm.trans hs) rfl fun v hv => ?_
    rw [stage?_put, hothers v hv]

theorem spares_giveBack (hs : p.stage? user = some .granted) (k : Nat) :
    Spares user p ({ p with pending := k }.remove user).giveBack where
  leases v := by
    rw [lease?_giveBack, lease?_remove]
    split
    · rename_i hv
      rw [hv, lease?_of_waits (waits_eq hs)]
    · rfl
  idle := giveBack_idle _
  acquired := giveBack_acquired _
  created := giveBack_created _
  reused := giveBack_reused _
  closed := giveBack_closed _
  unhanded hnot := absurd hs hnot
  handed _ := handsOn_giveBack p user k

/-! ## The steps of a pool -/

theorem proceed_tells (p : Pool) (user : Nat) (limits : PoolConfig) :
    WaitEnd.granted.Tells limits (p.proceed user).1 := by
  unfold proceed
  split
  · exact .inr ⟨_, rfl⟩
  · exact .inl rfl

theorem turnsAway_of_granted {limits : PoolConfig} (h : WaitEnd.granted.Tells limits reply) :
    reply.turnsAway = false := by
  rcases h with rfl | ⟨c, rfl⟩
  · rfl
  · rfl

/-- A step that changes nothing. -/
theorem queueMove_refl (hnobody : ∀ user why, ¬ p.EndsWait user e why)
    (hreply : reply.turnsAway = false) : QueueMove p e reply p :=
  .stays hnobody (fun _ => rfl) rfl hreply

theorem queueMove_start (p : Pool) (user : Nat) :
    QueueMove p (.start user) (p.start user).1 (p.start user).2 := by
  unfold start
  split
  · exact queueMove_refl nofun rfl
  · rename_i hs
    have hnew : p.waits user = false := waits_eq (by simpa using hs : p.stage? user = none)
    split
    · exact queueMove_refl nofun rfl
    split
    · exact .stays nofun (waits_of_erased hnew (waits_proceed _ user)) (proceed_pending _ user)
        (turnsAway_of_granted (proceed_tells _ user p.config))
    split
    · exact .rejects user rfl (by omega) rfl rfl
    · exact .joins user rfl (by omega) rfl hnew (waits_put _ user (.waiting _)) rfl

/-- A user who looks again before anything has happened goes on waiting. -/
theorem not_endsWait_resume {deadline : Nat} (hs : p.stage? user = some (.waiting deadline))
    (hopen : p.isClosed = false) (v : Nat) (why : WaitEnd) : ¬ p.EndsWait v (.resume user) why := by
  rintro (⟨hgranted, -⟩ | - | ⟨-, hclosed⟩ | -)
  · rw [hs] at hgranted
    cases hgranted
  · rw [hopen] at hclosed
    cases hclosed

theorem queueMove_resume (h : p.Counted) (user : Nat) :
    QueueMove p (.resume user) (p.resume user).1 (p.resume user).2 := by
  unfold resume
  split
  · rename_i hs
    have hback : p.pending - 1 + 1 = p.pending := Nat.sub_add_cancel (h.pending_pos hs rfl)
    simp only
    split
    · rename_i hclosed
      exact .leaves user .closed (.closed (waits_eq hs) hclosed) rfl
        (waits_remove_giveBack _ user)
        ((congrArg (· + 1) (giveBack_pending _)).trans hback) fun _ => spares_giveBack hs _
    · rename_i hopen
      exact .leaves user .granted (.granted hs (by simpa using hopen)) (proceed_tells _ user _)
        (waits_proceed _ user) ((congrArg (· + 1) (proceed_pending _ user)).trans hback)
        fun hnot => absurd rfl hnot
  · rename_i deadline hs
    split
    · rename_i hclosed
      exact .leaves user .closed (.closed (waits_eq hs) hclosed) rfl (waits_remove _ user)
        (Nat.sub_add_cancel (h.pending_pos hs rfl)) fun _ => spares_remove hs _
    · rename_i hopen
      exact queueMove_refl (not_endsWait_resume hs (by simpa using hopen)) rfl
  · rename_i hgranted hwaiting
    refine queueMove_refl ?_ rfl
    rintro v why (⟨hs, -⟩ | - | ⟨hwaits, -⟩ | -)
    · exact hgranted hs
    · rcases stage?_of_waits hwaits with hs | ⟨deadline, hs⟩
      · exact hgranted hs
      · exact hwaiting deadline hs

theorem queueMove_expire (h : p.Counted) (user : Nat) :
    QueueMove p (.expire user) (p.expire user).1 (p.expire user).2 := by
  unfold expire
  split
  · rename_i deadline hs
    have hback : p.pending - 1 + 1 = p.pending := Nat.sub_add_cancel (h.pending_pos hs rfl)
    split
    · rename_i hclosed
      have hresume : p.resume user =
          (.failed .closed, { p with pending := p.pending - 1 }.remove user) := by
        simp only [resume, hs, hclosed, if_true]
      rw [hresume]
      exact .leaves user .closed (.closedLate hs hclosed) rfl (waits_remove _ user) hback
        fun _ => spares_remove hs _
    · rename_i hopen
      split
      · rename_i hlate
        exact .leaves user .timedOut (.timedOut hs (by simpa using hopen) hlate) rfl
          (waits_remove _ user) hback fun _ => spares_remove hs _
      · rename_i hearly
        refine queueMove_refl ?_ rfl
        rintro v why (- | ⟨hsame, -, hlate⟩ | - | ⟨-, hclosed⟩)
        · cases Option.some.inj (hs.symm.trans hsame)
          exact hearly hlate
        · exact hopen hclosed
  · rename_i hwaiting
    refine queueMove_refl ?_ rfl
    rintro v why (- | ⟨hs, -⟩ | - | ⟨hs, -⟩)
    · exact hwaiting _ hs
    · exact hwaiting _ hs

/-- A user past the wait takes a step. -/
theorem queueMove_of_past {s : Stage} (hs : p.stage? user = some s) (hpast : s.isPending = false)
    (hnobody : ∀ user why, ¬ p.EndsWait user e why)
    (hwaits : ∀ v, p'.waits v = if v = user then false else p.waits v)
    (hpending : p'.pending = p.pending) (hreply : reply.turnsAway = false) :
    QueueMove p e reply p' :=
  .stays hnobody (waits_of_erased ((waits_eq hs).trans hpast) hwaits) hpending hreply

theorem queueMove_connected (p : Pool) (user : Nat) :
    QueueMove p (.connected user) (p.connected user).1 (p.connected user).2 := by
  unfold connected
  split
  · rename_i deadline hs
    exact queueMove_of_past hs rfl nofun (waits_put _ user (.leased _)) rfl rfl
  · exact queueMove_refl nofun rfl

theorem queueMove_connectFailed (e : Event) (hnobody : ∀ user why, ¬ p.EndsWait user e why)
    (user : Nat) {cause : PoolError} (hcause : (Reply.failed cause).turnsAway = false) :
    QueueMove p e (p.connectFailed user cause).1 (p.connectFailed user cause).2 := by
  unfold connectFailed
  split
  · rename_i deadline hs
    exact queueMove_of_past hs rfl hnobody
      (waits_remove_giveBack _ user) (giveBack_pending _) hcause
  · exact queueMove_refl hnobody rfl

theorem queueMove_connectExpired (p : Pool) (user : Nat) :
    QueueMove p (.connectExpired user) (p.connectExpired user).1 (p.connectExpired user).2 := by
  unfold connectExpired
  split
  · split
    · exact queueMove_connectFailed (.connectExpired user) nofun user rfl
    · exact queueMove_refl nofun rfl
  · exact queueMove_refl nofun rfl

theorem queueMove_release (p : Pool) (user : Nat) :
    QueueMove p (.release user) .nothing (p.release user) := by
  unfold release
  split
  · rename_i c hs
    simp only
    split
    · exact queueMove_of_past hs rfl nofun
        (fun v => (waits_giveBack _ v).trans (waits_remove p user v)) (giveBack_pending _) rfl
    · exact queueMove_of_past hs rfl nofun
        (fun v => (waits_giveBack _ v).trans (waits_remove p user v)) (giveBack_pending _) rfl
  · exact queueMove_refl nofun rfl

theorem queueMove_close (e : Event) (hnobody : ∀ user why, ¬ p.EndsWait user e why) (user : Nat) :
    QueueMove p e .nothing (p.close user) := by
  unfold close
  split
  · rename_i c hs
    exact queueMove_of_past hs rfl hnobody
      (waits_remove_giveBack _ user) (giveBack_pending _) rfl
  · exact queueMove_refl hnobody rfl

/-- Who is past the wait, or no user, cannot be dropped while waiting. -/
theorem not_endsWait_abandon (hnot : p.waits user = false) (v : Nat) (why : WaitEnd) :
    ¬ p.EndsWait v (.abandon user) why := by
  rintro (- | - | - | - | hwaits)
  rw [hnot] at hwaits
  cases hwaits

theorem queueMove_abandon (h : p.Counted) (user : Nat) :
    QueueMove p (.abandon user) .nothing (p.abandon user) := by
  unfold abandon
  split
  · rename_i deadline hs
    exact .leaves user .dropped (.dropped (waits_eq hs)) rfl (waits_remove _ user)
      (Nat.sub_add_cancel (h.pending_pos hs rfl)) fun _ => spares_remove hs _
  · rename_i hs
    exact .leaves user .dropped (.dropped (waits_eq hs)) rfl
      (waits_remove_giveBack _ user)
      ((congrArg (· + 1) (giveBack_pending _)).trans
        (Nat.sub_add_cancel (h.pending_pos hs rfl))) fun _ => spares_giveBack hs _
  · rename_i deadline hs
    exact queueMove_of_past hs rfl (not_endsWait_abandon (waits_eq hs))
      (waits_remove_giveBack p user) (giveBack_pending _) rfl
  · rename_i c hs
    exact queueMove_close _ (not_endsWait_abandon (waits_eq hs)) user
  · rename_i hs
    exact queueMove_refl (not_endsWait_abandon (waits_eq hs)) rfl

theorem queueMove_shutdown (p : Pool) : QueueMove p .shutdown .nothing p.shutdown := by
  unfold shutdown
  split
  · exact queueMove_refl nofun rfl
  · exact .stays nofun (fun _ => rfl) rfl rfl

/-- Each step of a pool that counts its users is a move of the queue. -/
theorem Counted.queueMove (h : p.Counted) (e : Event) :
    QueueMove p e (p.step e).1 (p.step e).2 := by
  cases e with
  | start user => exact queueMove_start p user
  | resume user => exact queueMove_resume h user
  | expire user => exact queueMove_expire h user
  | connected user => exact queueMove_connected p user
  | refused user cause => exact queueMove_connectFailed (.refused user cause) nofun user rfl
  | handshakeFailed user => exact queueMove_connectFailed (.handshakeFailed user) nofun user rfl
  | connectExpired user => exact queueMove_connectExpired p user
  | send user => exact .stays nofun (waits_update p user _) rfl rfl
  | received user => exact .stays nofun (waits_update p user _) rfl rfl
  | release user => exact queueMove_release p user
  | close user => exact queueMove_close (.close user) nofun user
  | abandon user => exact queueMove_abandon h user
  | peerClosed id => exact .stays nofun (waits_peerClosed p id) rfl rfl
  | advance nanos => exact .stays nofun (fun _ => rfl) rfl rfl
  | evict => exact .stays nofun (fun _ => rfl) rfl rfl
  | shutdown => exact queueMove_shutdown p

/-! ## Runs -/

/-- The queue of a pool with given limits between two steps. -/
structure Queues (limits : PoolConfig) (p : Pool) : Prop where
  counted : p.pending = p.queued
  bounded : p.pending ≤ limits.maxPending
  permits : p.free + p.users.count Stage.holdsPermit = limits.maxConnections
  /-- A new user who finds no permit in an open pool is turned away just when the queue is full. -/
  answer : ∀ user, p.stage? user = none → p.isClosed = false → p.free = 0 →
    (p.step (.start user)).1 =
      if p.queued = limits.maxPending then .failed (.tooManyPending limits.maxPending)
      else .waiting
  moves : ∀ e, QueueMove p e (p.step e).1 (p.step e).2

/-- No step overfills the queue. -/
theorem QueueMove.pending_le (h : QueueMove p e reply p')
    (hle : p.pending ≤ p.config.maxPending) : p'.pending ≤ p.config.maxPending := by
  cases h with
  | stays hnobody hwaits hpending hreply => omega
  | rejects user hevent hfull hreply hsame => rw [hsame]; exact hle
  | joins user hevent hroom hreply hnew hwaits hpending => omega
  | leaves user why hends hreply hwaits hpending hspares => omega

namespace Balanced

variable {limits : PoolConfig}

theorem config (h : Balanced limits p) : p.config = limits := by
  obtain ⟨leases, haccounts⟩ := h.accounts
  exact haccounts.config

/-- Steps keep the accounts, the count and the bound. -/
theorem run (h : Balanced limits p) (hle : p.pending ≤ limits.maxPending) (events : List Event) :
    Balanced limits (p.run events) ∧ (p.run events).pending ≤ limits.maxPending := by
  induction events generalizing p with
  | nil => exact ⟨h, hle⟩
  | cons e rest ih =>
      have hmove := h.counted.queueMove e
      rw [← h.config] at hle
      have hnext := hmove.pending_le hle
      rw [h.config] at hnext
      exact ih (h.step e) hnext

theorem queues (h : Balanced limits p) (hle : p.pending ≤ limits.maxPending) :
    Queues limits p where
  counted := h.counted
  bounded := hle
  permits := h.permits
  answer user hnew hopen hfree := by
    have hcounted : p.pending = p.queued := h.counted
    have hstart : p.step (.start user) = p.start user := rfl
    rw [← h.config] at hle ⊢
    rw [hstart, start, hnew, hopen, hfree]
    simp only [Option.isSome_none, Bool.false_eq_true, if_false, Nat.lt_irrefl]
    split
    · rw [if_pos (by omega)]
    · rw [if_neg (by omega)]
  moves := h.counted.queueMove

end Balanced

/-- In every run of a pool. -/
theorem run_queues (config : PoolConfig) (events : List Event) :
    Queues config ((ofConfig config).run events) := by
  obtain ⟨hbalanced, hle⟩ := (Balanced.ofConfig config).run (Nat.zero_le _) events
  exact hbalanced.queues hle

end Pool

end ObjectStore
