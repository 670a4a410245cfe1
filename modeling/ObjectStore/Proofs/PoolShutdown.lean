import ObjectStore.Proofs.Deliveries
import ObjectStore.Proofs.PoolRequests

/-!
# Pools that are closed

A closed pool has no idle channels and gets none any more: a channel whose lease ends is closed, in
whatever way it ends. New users are refused, and those who wait for a permit fail, also those who
were handed one and have not noticed. Only users who were connecting when the pool was closed may
still come to a channel.
-/

namespace ObjectStore

namespace Pool

variable {p p' q : Pool} {user : Nat}

/-- A pool that is closed, without idle channels. -/
structure IsShut (p : Pool) : Prop where
  closed : p.isClosed = true
  idle : p.idle = []

/-- Where a user stands. Of a leased channel only the number counts. -/
def standing? (p : Pool) (user : Nat) : Option Stage :=
  (p.stage? user).map (Stage.mapChannel fun c => Channel.opened c.id 0)

/-- The number of users who wait for a connection. -/
def connections (p : Pool) : Nat := p.users.count Stage.isConnecting

/-- What a step of a closed pool does: all users stay where they stand, one of them goes, or one
gets the connection that the user was waiting for. A user who waits for a permit goes away of
itself or is told that the pool is closed. -/
inductive Winds (p : Pool) (e : Event) (reply : Reply) : Pool → Prop
  | stays {p' : Pool} (hshut : p'.IsShut) (hstanding : ∀ v, p'.standing? v = p.standing? v)
      (hcreated : p'.created = p.created) (hconnections : p'.connections = p.connections) :
      Winds p e reply p'
  | leaves {p' : Pool} (user : Nat) (hshut : p'.IsShut)
      (hstanding : ∀ v, p'.standing? v = if v = user then none else p.standing? v)
      (hcreated : p'.created = p.created) (hconnections : p'.connections ≤ p.connections)
      (hanswer : ∀ s, p.stage? user = some s → s.isPending = true →
        e = .abandon user ∨ reply = .failed .closed) : Winds p e reply p'
  | connects {p' : Pool} {user deadline : Nat} {c : Channel} (hshut : p'.IsShut)
      (huser : p.stage? user = some (.connecting deadline))
      (hlease : p'.lease? user = some c)
      (hstanding : ∀ v, v ≠ user → p'.standing? v = p.standing? v)
      (hcreated : p'.created = p.created + 1)
      (hconnections : p'.connections + 1 = p.connections) : Winds p e reply p'

/-! ## Steps of a closed pool -/

theorem giveBack_of_isClosed (h : p.isClosed = true) : p.giveBack = { p with free := p.free + 1 } :=
  if_pos h

/-- Stages that do not hold a channel are told from where a user stands. -/
theorem standing?_eq_some {s : Stage} (hs : s.channel? = none) :
    p.standing? user = some s ↔ p.stage? user = some s := by
  unfold standing?
  cases p.stage? user with
  | none => simp
  | some t => cases t <;> cases s <;> simp [Stage.mapChannel] at hs ⊢

theorem standing?_eq_none : p.standing? user = none ↔ p.stage? user = none :=
  Option.map_eq_none_iff

namespace IsShut

variable {e : Event} {reply : Reply}

theorem winds_refl (h : p.IsShut) : Winds p e reply p := .stays h (fun _ => rfl) rfl rfl

/-- A user goes. -/
theorem winds_erase (h : p.IsShut) (hclosed : p'.isClosed = p.isClosed) (hidle : p'.idle = p.idle)
    (husers : p'.users = p.users.erase user) (hcreated : p'.created = p.created)
    (hanswer : ∀ s, p.stage? user = some s → s.isPending = true →
      e = .abandon user ∨ reply = .failed .closed) : Winds p e reply p' := by
  refine .leaves user ⟨hclosed.trans h.closed, hidle.trans h.idle⟩ (fun v => ?_) hcreated ?_ hanswer
  · have hstage : p'.stage? v = if v = user then none else p.stage? v := by
      rw [stage?, husers]
      exact p.users.find?_erase user v
    rw [standing?, hstage]
    split <;> rfl
  · have hcount := Registry.count_erase Stage.isConnecting p.users user
    rw [connections, husers, connections]
    omega

/-- A user goes whose permit comes back: nobody gets it. -/
theorem winds_erase_giveBack (h : p.IsShut) (hclosed : p'.isClosed = p.isClosed)
    (hidle : p'.idle = p.idle) (husers : p'.users = p.users.erase user)
    (hcreated : p'.created = p.created)
    (hanswer : ∀ s, p.stage? user = some s → s.isPending = true →
      e = .abandon user ∨ reply = .failed .closed) : Winds p e reply p'.giveBack := by
  rw [giveBack_of_isClosed (hclosed.trans h.closed)]
  exact h.winds_erase hclosed hidle husers hcreated hanswer

/-- Nobody is waiting for a permit in a stage past this wait. -/
theorem answer_of_stage {s : Stage} (hs : p.stage? user = some s) (hpending : s.isPending = false) :
    ∀ t, p.stage? user = some t → t.isPending = true →
      e = .abandon user ∨ reply = .failed .closed := by
  intro t ht htpending
  cases Option.some.inj (hs.symm.trans ht)
  rw [hpending] at htpending
  cases htpending

theorem winds_start (h : p.IsShut) (user : Nat) :
    Winds p e (p.start user).1 (p.start user).2 := by
  unfold start
  split
  · exact h.winds_refl
  · rw [if_pos h.closed]
    exact h.winds_refl

theorem winds_resume (h : p.IsShut) (user : Nat) :
    Winds p e (p.resume user).1 (p.resume user).2 := by
  unfold resume
  split
  · simp only
    rw [if_pos h.closed]
    exact h.winds_erase_giveBack rfl rfl rfl rfl fun _ _ _ => .inr rfl
  · rw [if_pos h.closed]
    exact h.winds_erase rfl rfl rfl rfl fun _ _ _ => .inr rfl
  · exact h.winds_refl

theorem winds_expire (h : p.IsShut) (user : Nat) :
    Winds p e (p.expire user).1 (p.expire user).2 := by
  unfold expire
  split
  · rw [if_pos h.closed]
    exact h.winds_resume user
  · exact h.winds_refl

theorem winds_connected (h : p.IsShut) (user : Nat) :
    Winds p e (p.connected user).1 (p.connected user).2 := by
  unfold connected
  split
  · next deadline hs =>
    have hcount := Registry.count_set Stage.isConnecting p.users user
      (.leased (.opened p.nextId p.now))
    have hstage : p.users.find? user = some (.connecting deadline) := hs
    rw [hstage] at hcount
    refine .connects (c := .opened p.nextId p.now) ⟨h.closed, h.idle⟩ hs ?_ (fun v hv => ?_) rfl
      hcount
    · exact (lease?_put p user _ user).trans (if_pos rfl)
    · exact congrArg _ ((stage?_put p user _ v).trans (if_neg hv))
  · exact h.winds_refl

theorem winds_connectFailed (h : p.IsShut) (user : Nat) (error : PoolError) :
    Winds p e (p.connectFailed user error).1 (p.connectFailed user error).2 := by
  unfold connectFailed
  split
  · next hs => exact h.winds_erase_giveBack rfl rfl rfl rfl (answer_of_stage hs rfl)
  · exact h.winds_refl

theorem winds_connectExpired (h : p.IsShut) (user : Nat) :
    Winds p e (p.connectExpired user).1 (p.connectExpired user).2 := by
  unfold connectExpired
  split
  · split
    · exact h.winds_connectFailed user _
    · exact h.winds_refl
  · exact h.winds_refl

/-- Whether it is given back or not, the channel of a lease that ends is closed. -/
theorem winds_release (h : p.IsShut) (user : Nat) : Winds p e reply (p.release user) := by
  unfold release
  split
  · next hs =>
    simp only
    rw [if_pos (by rw [remove, h.closed]; rfl)]
    exact h.winds_erase_giveBack rfl rfl rfl rfl (answer_of_stage hs rfl)
  · exact h.winds_refl

theorem winds_close (h : p.IsShut) (user : Nat) : Winds p e reply (p.close user) := by
  unfold close
  split
  · next hs => exact h.winds_erase_giveBack rfl rfl rfl rfl (answer_of_stage hs rfl)
  · exact h.winds_refl

theorem winds_abandon (h : p.IsShut) (user : Nat) :
    Winds p (.abandon user) reply (p.abandon user) := by
  unfold abandon
  split
  · exact h.winds_erase rfl rfl rfl rfl fun _ _ _ => .inl rfl
  · exact h.winds_erase_giveBack rfl rfl rfl rfl fun _ _ _ => .inl rfl
  · exact h.winds_erase_giveBack rfl rfl rfl rfl fun _ _ _ => .inl rfl
  · exact h.winds_close user
  · exact h.winds_refl

theorem standing_mapChannel {f : Channel → Channel} (hf : ∀ c, (f c).id = c.id) (s : Stage) :
    (s.mapChannel f).mapChannel (fun c => Channel.opened c.id 0) =
      s.mapChannel fun c => Channel.opened c.id 0 := by
  cases s <;> simp [Stage.mapChannel, hf]

theorem winds_update (h : p.IsShut) {f : Channel → Channel} (hf : ∀ c, (f c).id = c.id)
    (user : Nat) : Winds p e reply (p.update user f) := by
  refine .stays ⟨h.closed, h.idle⟩ (fun v => ?_) rfl
    (Registry.count_modify _ _ (Stage.isConnecting_mapChannel f) p.users user)
  rw [standing?, stage?_update, standing?]
  split
  · next hv =>
    rw [hv]
    cases p.stage? user with
    | none => rfl
    | some s => exact congrArg some (standing_mapChannel hf s)
  · rfl

theorem winds_peerClosed (h : p.IsShut) (id : Nat) : Winds p e reply (p.peerClosed id) := by
  refine .stays ⟨h.closed, congrArg (List.map _) h.idle⟩ (fun v => ?_) rfl
    (Registry.count_mapValues _ _ (Stage.isConnecting_mapChannel _) p.users)
  have hstage : (p.peerClosed id).stage? v = (p.stage? v).map (Stage.mapChannel _) :=
    p.users.find?_mapValues _ v
  rw [standing?, hstage, standing?]
  cases p.stage? v with
  | none => rfl
  | some s =>
      refine congrArg some (standing_mapChannel (fun c => ?_) s)
      split <;> rfl

theorem shutdown_eq (h : p.IsShut) : p.shutdown = p := if_pos h.closed

/-- What any step of a closed pool does. -/
theorem winds_step (h : p.IsShut) (e : Event) : Winds p e (p.step e).1 (p.step e).2 := by
  cases e with
  | start user => exact h.winds_start user
  | resume user => exact h.winds_resume user
  | expire user => exact h.winds_expire user
  | connected user => exact h.winds_connected user
  | refused user cause => exact h.winds_connectFailed user _
  | handshakeFailed user => exact h.winds_connectFailed user _
  | connectExpired user => exact h.winds_connectExpired user
  | send user => exact h.winds_update (f := (·.sent p.now)) (fun _ => rfl) user
  | received user => exact h.winds_update (f := Channel.answered) (fun _ => rfl) user
  | release user => exact h.winds_release user
  | close user => exact h.winds_close user
  | abandon user => exact h.winds_abandon user
  | peerClosed id => exact h.winds_peerClosed id
  | advance nanos => exact .stays ⟨h.closed, h.idle⟩ (fun _ => rfl) rfl rfl
  | evict => exact .stays ⟨h.closed, congrArg (List.filter _) h.idle⟩ (fun _ => rfl) rfl rfl
  | shutdown =>
      simp only [step, h.shutdown_eq]
      exact h.winds_refl

end IsShut

/-! ## Steps of an open pool -/

@[simp] theorem proceed_isClosed (p : Pool) (user : Nat) :
    (p.proceed user).2.isClosed = p.isClosed := by
  unfold proceed
  split <;> rfl

theorem resume_isClosed (p : Pool) (user : Nat) : (p.resume user).2.isClosed = p.isClosed := by
  unfold resume
  split
  · simp only
    split
    · exact giveBack_isClosed _
    · exact proceed_isClosed _ user
  · split <;> rfl
  · rfl

theorem connectFailed_isClosed (p : Pool) (user : Nat) (e : PoolError) :
    (p.connectFailed user e).2.isClosed = p.isClosed := by
  unfold connectFailed
  split
  · exact giveBack_isClosed _
  · rfl

theorem close_isClosed (p : Pool) (user : Nat) : (p.close user).isClosed = p.isClosed := by
  unfold close
  split
  · exact giveBack_isClosed _
  · rfl

theorem shutdown_isClosed (p : Pool) : p.shutdown.isClosed = true := by
  unfold shutdown
  split
  · next h => exact h
  · rfl

/-- Nothing but a shutdown closes a pool, and nothing opens it again. -/
theorem step_isClosed {e : Event} (h : e ≠ .shutdown) : (p.step e).2.isClosed = p.isClosed := by
  cases e with
  | start user =>
      simp only [step, start]
      split
      · rfl
      split
      · rfl
      split
      · exact proceed_isClosed _ user
      · split <;> rfl
  | resume user => exact resume_isClosed p user
  | expire user =>
      simp only [step, expire]
      split
      · split
        · exact resume_isClosed p user
        · split <;> rfl
      · rfl
  | connected user =>
      simp only [step, connected]
      split <;> rfl
  | refused user cause => exact connectFailed_isClosed p user _
  | handshakeFailed user => exact connectFailed_isClosed p user _
  | connectExpired user =>
      simp only [step, connectExpired]
      split
      · split
        · exact connectFailed_isClosed p user _
        · rfl
      · rfl
  | release user =>
      simp only [step, release]
      split
      · split
        · exact giveBack_isClosed _
        · exact giveBack_isClosed _
      · rfl
  | close user => exact close_isClosed p user
  | abandon user =>
      simp only [step, abandon]
      split
      · rfl
      · exact giveBack_isClosed _
      · exact giveBack_isClosed _
      · exact close_isClosed p user
      · rfl
  | send user | received user | peerClosed id | advance nanos | evict => rfl
  | shutdown => exact absurd rfl h

theorem Winds.isShut {e : Event} {reply : Reply} (h : Winds p e reply p') : p'.IsShut := by
  cases h <;> assumption

/-- No channel is idle once a pool is closed. -/
theorem idle_of_isClosed_step (h : p.isClosed = true → p.idle = []) (e : Event)
    (hclosed : (p.step e).2.isClosed = true) : (p.step e).2.idle = [] := by
  cases hp : p.isClosed with
  | true => exact (IsShut.winds_step ⟨hp, h hp⟩ e).isShut.idle
  | false =>
      by_cases he : e = .shutdown
      · subst he
        simp [step, shutdown, hp]
      · rw [step_isClosed he, hp] at hclosed
        cases hclosed

theorem idle_of_isClosed_run (h : p.isClosed = true → p.idle = []) (events : List Event)
    (hclosed : (p.run events).isClosed = true) : (p.run events).idle = [] := by
  induction events generalizing p with
  | nil => exact h hclosed
  | cons e rest ih => exact ih (idle_of_isClosed_step h e) hclosed

theorem run_append (p : Pool) (a b : List Event) : p.run (a ++ b) = (p.run a).run b :=
  List.foldl_append

/-- A pool right after it was closed, whatever came before. -/
theorem isShut_run_shutdown (config : PoolConfig) (before : List Event) :
    ((ofConfig config).run (before ++ [.shutdown])).IsShut := by
  have hopen : (ofConfig config).isClosed = true → (ofConfig config).idle = [] := nofun
  have hclosed : ((ofConfig config).run (before ++ [.shutdown])).isClosed = true := by
    rw [run_append]
    exact shutdown_isClosed _
  exact ⟨hclosed, idle_of_isClosed_run hopen _ hclosed⟩

/-! ## What follows a shutdown -/

/-- Users stand where they stood, have gone, or have got the connection that was to come. -/
def Follows (q p : Pool) : Prop :=
  ∀ user, p.standing? user = none ∨ p.standing? user = q.standing? user ∨
    (∃ deadline, q.stage? user = some (.connecting deadline)) ∧ ∃ c, p.lease? user = some c

/-- What becomes of a pool that was closed in the state `q`. -/
structure RunsDown (q p : Pool) : Prop where
  /-- No channel is idle. -/
  idle : p.idle = []
  /-- New users are refused, and nothing is done for them. -/
  refuses : ∀ user, p.stage? user = none → p.step (.start user) = (.failed .closed, p)
  /-- Users who wait for a permit, or have not noticed theirs, fail as soon as they look. -/
  fails : ∀ user s, p.stage? user = some s → s.isPending = true →
    (p.step (.resume user)).1 = .failed .closed ∧ (p.step (.resume user)).2.stage? user = none
  /-- Nothing else becomes of them, unless they go away of themselves. -/
  awaits : ∀ user s, p.stage? user = some s → s.isPending = true → ∀ e,
    (p.step e).2.stage? user = some s ∨
      (p.step e).2.stage? user = none ∧ (p.step e).2.created = p.created ∧
        (e = .abandon user ∨ (p.step e).1 = .failed .closed)
  /-- A lease that ends closes its channel. -/
  ends : ∀ user c, p.lease? user = some c →
    ∀ e ∈ [Event.release user, .close user, .abandon user], LeaseEnds user c false p (p.step e).2
  /-- Nobody gets a channel but those who were connecting. -/
  course : q.Follows p
  /-- No connections are opened but those that were to come. -/
  opens : p.created + p.connections ≤ q.created + q.connections
  /-- When no lease is left, all channels are closed. -/
  settles : (∀ user, p.lease? user = none) → p.created = p.closed
  /-- To close the pool again changes nothing. -/
  again : p.step .shutdown = (.nothing, p)

theorem IsShut.start_refused (h : p.IsShut) (hnew : p.stage? user = none) :
    p.step (.start user) = (.failed .closed, p) := by
  simp only [step, start, hnew]
  exact if_pos h.closed

/-- A user who waits for a permit, or has not noticed one, fails on the next look. -/
theorem IsShut.resume_fails (h : p.IsShut) {s : Stage} (hs : p.stage? user = some s)
    (hpending : s.isPending = true) :
    (p.resume user).1 = .failed .closed ∧ (p.resume user).2.stage? user = none := by
  cases s with
  | waiting deadline =>
      simp only [resume, hs, if_pos h.closed, true_and]
      exact (stage?_remove _ user user).trans (if_pos rfl)
  | granted =>
      simp only [resume, hs, if_pos h.closed, true_and]
      have hback := giveBack_of_isClosed (p := { p with pending := p.pending - 1 }.remove user)
        h.closed
      rw [hback]
      exact (stage?_remove _ user user).trans (if_pos rfl)
  | connecting deadline => cases hpending
  | leased c => cases hpending

theorem channel?_of_isPending {s : Stage} (h : s.isPending = true) : s.channel? = none := by
  cases s with
  | leased c => cases h
  | _ => rfl

/-- A user who waits for a permit goes on to wait, goes away, or is told that the pool is closed. -/
theorem IsShut.step_of_isPending (h : p.IsShut) {s : Stage} (hs : p.stage? user = some s)
    (hpending : s.isPending = true) (e : Event) :
    (p.step e).2.stage? user = some s ∨
      (p.step e).2.stage? user = none ∧ (p.step e).2.created = p.created ∧
        (e = .abandon user ∨ (p.step e).1 = .failed .closed) := by
  have hnone := channel?_of_isPending hpending
  have hstands := (standing?_eq_some hnone).2 hs
  cases h.winds_step e with
  | stays hshut hstanding hcreated hconnections =>
      exact .inl ((standing?_eq_some hnone).1 ((hstanding user).trans hstands))
  | leaves other hshut hstanding hcreated hconnections hanswer =>
      have hafter := hstanding user
      by_cases huser : user = other
      · subst huser
        rw [if_pos rfl] at hafter
        exact .inr ⟨standing?_eq_none.1 hafter, hcreated, hanswer s hs hpending⟩
      · rw [if_neg huser, hstands] at hafter
        exact .inl ((standing?_eq_some hnone).1 hafter)
  | @connects other deadline c hshut hother hlease hstanding hcreated hconnections =>
      have huser : user ≠ other := by
        rintro rfl
        cases Option.some.inj (hs.symm.trans hother)
        cases hpending
      exact .inl ((standing?_eq_some hnone).1 ((hstanding user huser).trans hstands))

/-- However a lease ends in a closed pool, its channel is closed. -/
theorem IsShut.leaseEnds (h : p.IsShut) {c : Channel} (hc : p.lease? user = some c)
    (hpos : 0 < p.acquired) :
    ∀ e ∈ [Event.release user, .close user, .abandon user],
      LeaseEnds user c false p (p.step e).2 := by
  have hrelease := leaseEnds_release hc hpos
  rw [h.closed, Bool.not_true, Bool.and_false] at hrelease
  have habandon : p.abandon user = p.close user := by
    unfold abandon
    rw [lease?_eq_some.1 hc]
  have hclose := leaseEnds_close hc hpos
  simp only [List.mem_cons, List.not_mem_nil, or_false]
  rintro e (rfl | rfl | rfl)
  · exact hrelease
  · exact hclose
  · simp only [step, habandon]
    exact hclose

/-- Whether a user has a channel is told from where the user stands. -/
theorem exists_lease_of_standing (h : p'.standing? user = p.standing? user)
    (hlease : ∃ c, p.lease? user = some c) : ∃ c, p'.lease? user = some c := by
  obtain ⟨c, hc⟩ := hlease
  rw [standing?, standing?, lease?_eq_some.1 hc] at h
  obtain ⟨s, hs, hsame⟩ := Option.map_eq_some_iff.1 h
  cases s with
  | leased d => exact ⟨d, lease?_eq_some.2 hs⟩
  | _ => cases hsame

theorem Winds.follows {e : Event} {reply : Reply} (h : Winds p e reply p') (hq : q.Follows p) :
    q.Follows p' := by
  intro v
  cases h with
  | stays hshut hstanding hcreated hconnections =>
      rcases hq v with hgone | hsame | ⟨hconnecting, hlease⟩
      · exact .inl ((hstanding v).trans hgone)
      · exact .inr (.inl ((hstanding v).trans hsame))
      · exact .inr (.inr ⟨hconnecting, exists_lease_of_standing (hstanding v) hlease⟩)
  | leaves user hshut hstanding hcreated hconnections hanswer =>
      have hafter := hstanding v
      split at hafter
      · exact .inl hafter
      · rcases hq v with hgone | hsame | ⟨hconnecting, hlease⟩
        · exact .inl (hafter.trans hgone)
        · exact .inr (.inl (hafter.trans hsame))
        · exact .inr (.inr ⟨hconnecting, exists_lease_of_standing hafter hlease⟩)
  | @connects user deadline c hshut huser hlease hstanding hcreated hconnections =>
      by_cases hv : v = user
      · subst hv
        have hstands : p.standing? v = some (.connecting deadline) :=
          (standing?_eq_some rfl).2 huser
        rcases hq v with hgone | hsame | ⟨hconnecting, -⟩
        · rw [hstands] at hgone
          cases hgone
        · have hbefore := (standing?_eq_some rfl).1 (hsame.symm.trans hstands)
          exact .inr (.inr ⟨⟨deadline, hbefore⟩, c, hlease⟩)
        · exact .inr (.inr ⟨hconnecting, c, hlease⟩)
      · rcases hq v with hgone | hsame | ⟨hconnecting, hother⟩
        · exact .inl ((hstanding v hv).trans hgone)
        · exact .inr (.inl ((hstanding v hv).trans hsame))
        · exact .inr (.inr ⟨hconnecting, exists_lease_of_standing (hstanding v hv) hother⟩)

theorem Winds.opens {e : Event} {reply : Reply} (h : Winds p e reply p') :
    p'.created + p'.connections ≤ p.created + p.connections := by
  cases h <;> omega

/-- What holds of a closed pool is kept up by any steps. -/
theorem IsShut.run (h : p.IsShut) (hfollows : q.Follows p) (events : List Event) :
    (p.run events).IsShut ∧ q.Follows (p.run events) ∧
      (p.run events).created + (p.run events).connections ≤ p.created + p.connections := by
  induction events generalizing p with
  | nil => exact ⟨h, hfollows, Nat.le_refl _⟩
  | cons e rest ih =>
      have hwinds := h.winds_step e
      obtain ⟨hshut, hrest, hopens⟩ := ih hwinds.isShut (hwinds.follows hfollows)
      exact ⟨hshut, hrest, Nat.le_trans hopens hwinds.opens⟩

/-- Without leases all channels of a closed pool are closed. -/
theorem IsShut.settles (h : p.IsShut) {limits : PoolConfig} {n : Nat}
    (haccounts : Accounts limits n 0 p) (hnone : ∀ user, p.lease? user = none) :
    p.created = p.closed := by
  have hcount : p.users.count Stage.isLeased = 0 := by
    apply Registry.count_eq_zero
    intro user s hs
    cases s with
    | leased c =>
        have hlease := hnone user
        rw [lease?_eq_some.2 hs] at hlease
        cases hlease
    | _ => rfl
  have hchannels := haccounts.channels
  rw [h.idle, haccounts.acquired, hcount] at hchannels
  exact hchannels

theorem IsShut.runsDown (h : q.IsShut) {limits : PoolConfig} {n : Nat} {after : List Event}
    (haccounts : Accounts limits n 0 (q.run after)) : RunsDown q (q.run after) := by
  obtain ⟨hshut, hfollows, hopens⟩ := h.run (q := q) (fun user => .inr (.inl rfl)) after
  exact {
    idle := hshut.idle
    refuses := fun user hnew => hshut.start_refused hnew
    fails := fun user s => hshut.resume_fails
    awaits := fun user s => hshut.step_of_isPending
    ends := fun user c hc => hshut.leaseEnds hc (haccounts.acquired_pos hc)
    course := hfollows
    opens := hopens
    settles := hshut.settles haccounts
    again := congrArg (Prod.mk Reply.nothing) hshut.shutdown_eq }

/-- Whatever happened before a pool is closed, and whatever happens after. -/
theorem shutdown_runsDown (config : PoolConfig) (before after : List Event) :
    RunsDown ((ofConfig config).run (before ++ [.shutdown]))
      ((ofConfig config).run (before ++ .shutdown :: after)) := by
  have haccounts := (Accounts.ofConfig config).run (before ++ [.shutdown] ++ after)
  rw [run_append] at haccounts
  rw [List.append_cons before _ after, run_append _ _ after]
  exact (isShut_run_shutdown config before).runsDown haccounts

end Pool

end ObjectStore
