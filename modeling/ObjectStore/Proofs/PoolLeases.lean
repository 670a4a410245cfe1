import ObjectStore.Proofs.PoolStages

/-!
# Leases of a pool

What the steps of a pool do to its channels, as relations between the pool before and after a
step: all leases stay, a user has no lease any more, a user gets a channel, a lease ends with its
channel among the idle ones, or a leased channel is marked. Of a channel only its number counts
here, and whether a response is still to come on it. From these relations: no channel is idle and
leased at once, or leased twice.
-/

namespace ObjectStore

/-- The number of a channel, and whether a response is still to come on it. -/
def Channel.view (c : Channel) : Nat × Bool := (c.id, c.unread)

/-- Whether a reply ends the wait of a user. -/
def Reply.isFinal : Reply → Bool
  | .leased _ | .failed _ => true
  | .nothing | .waiting | .connecting => false

namespace Pool

variable {p p' : Pool} {user : Nat}

/-- The channel that a user has leased. -/
def lease? (p : Pool) (user : Nat) : Option Channel := (p.stage? user).bind Stage.channel?

theorem lease?_eq_some {c : Channel} :
    p.lease? user = some c ↔ p.stage? user = some (.leased c) := by
  unfold lease?
  cases hs : p.stage? user with
  | none => simp
  | some s => cases s <;> simp

@[simp] theorem lease?_put (p : Pool) (user : Nat) (s : Stage) (v : Nat) :
    (p.put user s).lease? v = if v = user then s.channel? else p.lease? v := by
  simp only [lease?, stage?_put]
  split <;> rfl

@[simp] theorem lease?_remove (p : Pool) (user v : Nat) :
    (p.remove user).lease? v = if v = user then none else p.lease? v := by
  simp only [lease?, stage?_remove]
  split <;> rfl

@[simp] theorem lease?_giveBack (p : Pool) (v : Nat) : p.giveBack.lease? v = p.lease? v := by
  rcases giveBack_cases p with h | ⟨user, deadline, hs, h⟩
  · rw [h]
    rfl
  · rw [h, lease?_put]
    split
    · rename_i hv
      simp [hv, lease?, hs]
    · rfl

theorem lease?_update (p : Pool) (user : Nat) (f : Channel → Channel) (v : Nat) :
    (p.update user f).lease? v = if v = user then (p.lease? user).map f else p.lease? v := by
  simp only [lease?, stage?_update]
  split
  · cases p.stage? user <;> simp
  · rfl

/-- What of the leased channel of a user counts. -/
def view? (p : Pool) (user : Nat) : Option (Nat × Bool) := (p.lease? user).map Channel.view

/-- What of the idle channels counts. -/
def idleViews (p : Pool) : List (Nat × Bool) := p.idle.map Channel.view

/-! ## Relations between a pool before and after a step -/

/-- All leases stay, and no channel becomes idle. -/
structure Keeps (p p' : Pool) : Prop where
  view : ∀ v, p'.view? v = p.view? v
  idle : p'.idleViews.Sublist p.idleViews
  nextId : p'.nextId = p.nextId

/-- A user has no lease any more, and no channel becomes idle. -/
structure Leaves (user : Nat) (p p' : Pool) : Prop where
  view : ∀ v, p'.view? v = if v = user then none else p.view? v
  idle : p'.idleViews = p.idleViews
  nextId : p'.nextId = p.nextId

/-- The lease of a user ends, and its channel becomes idle. -/
structure Pools (user : Nat) (p p' : Pool) : Prop where
  view : ∀ v, p'.view? v = if v = user then none else p.view? v
  idle : ∃ c, p.view? user = some c ∧ p'.idleViews = c :: p.idleViews
  nextId : p'.nextId = p.nextId

/-- On the channel that a user has leased a response is now to come, or no more. -/
structure Marks (user : Nat) (unread : Bool) (p p' : Pool) : Prop where
  view : ∀ v, p'.view? v =
    if v = user then (p.view? user).map fun c => (c.1, unread) else p.view? v
  idle : p'.idleViews = p.idleViews
  nextId : p'.nextId = p.nextId

/-- A user without a channel gets one that was idle, or a new one. -/
inductive Gains (user : Nat) (c : Channel) (p p' : Pool) : Prop
  | reused (hnone : p.view? user = none)
      (hview : ∀ v, p'.view? v = if v = user then some c.view else p.view? v)
      (hidle : ∃ stale, p.idleViews = stale ++ c.view :: p'.idleViews)
      (hnext : p'.nextId = p.nextId)
  | opened (hnone : p.view? user = none) (hc : c.view = (p.nextId, false))
      (hview : ∀ v, p'.view? v = if v = user then some c.view else p.view? v)
      (hidle : p'.idleViews = p.idleViews) (hnext : p'.nextId = p.nextId + 1)

/-- What a step of a user who asks for a channel does, by the reply. -/
inductive Leasing (user : Nat) (p : Pool) : Reply → Pool → Prop
  | waits {reply : Reply} {p' : Pool} (hreply : reply.isFinal = false) (h : p.Keeps p') :
      Leasing user p reply p'
  | fails {e : PoolError} {p' : Pool} (h : Leaves user p p') : Leasing user p (.failed e) p'
  | leases {c : Channel} {p' : Pool} (h : Gains user c p p') : Leasing user p (.leased c) p'

theorem Keeps.refl (p : Pool) : p.Keeps p := ⟨fun _ => rfl, List.Sublist.refl _, rfl⟩

theorem leaves_refl (hnone : p.lease? user = none) : Leaves user p p := by
  refine ⟨?_, rfl, rfl⟩
  intro v
  split
  · rename_i hv
    rw [hv, view?, hnone]
    rfl
  · rfl

/-- A user goes whose permit, if there was one, comes back. -/
theorem leaves_of_lease (hlease : ∀ v, p'.lease? v = if v = user then none else p.lease? v)
    (hidle : p'.idle = p.idle) (hnext : p'.nextId = p.nextId) : Leaves user p p' := by
  refine ⟨?_, by rw [idleViews, hidle, idleViews], hnext⟩
  intro v
  rw [view?, hlease]
  split <;> rfl

theorem leaves_remove (p : Pool) (user : Nat) : Leaves user p (p.remove user) :=
  leaves_of_lease (lease?_remove p user) rfl rfl

theorem leaves_remove_giveBack (p : Pool) (user : Nat) :
    Leaves user p (p.remove user).giveBack :=
  leaves_of_lease (fun v => (lease?_giveBack _ v).trans (lease?_remove p user v))
    (giveBack_idle _) (giveBack_nextId _)

/-- A user without a channel goes on without one. -/
theorem keeps_put {s : Stage} (hnone : p.lease? user = none) (hs : s.channel? = none) :
    p.Keeps (p.put user s) := by
  refine ⟨?_, List.Sublist.refl _, rfl⟩
  intro v
  rw [view?, lease?_put, view?]
  split
  · rename_i hv
    rw [hv, hnone, hs]
  · rfl

/-! ## Users who ask for a channel -/

theorem leasing_refl {reply : Reply} (hreply : reply.isFinal = false) :
    Leasing user p reply p :=
  .waits hreply (Keeps.refl p)

theorem leasing_proceed (hnone : p.lease? user = none) :
    Leasing user p (p.proceed user).1 (p.proceed user).2 := by
  unfold proceed
  split
  · rename_i c left dropped ht
    obtain ⟨stale, hidle, -⟩ := takeIdle_eq_some ht
    refine .leases (.reused (by rw [view?, hnone]; rfl) ?_
      ⟨stale.map Channel.view, ?_⟩ rfl)
    · intro v
      refine (congrArg (Option.map Channel.view) (lease?_put _ user (.leased c) v)).trans ?_
      split <;> rfl
    · rw [idleViews, hidle, List.map_append, List.map_cons]
      rfl
  · rename_i left dropped ht
    obtain ⟨rfl, -⟩ := takeIdle_eq_none ht
    have hkeeps := keeps_put (s := .connecting (p.now + p.config.connectTimeout.nanos)) hnone rfl
    exact .waits rfl ⟨hkeeps.view, List.nil_sublist _, rfl⟩

/-- What a pool does for a user does not hang on its free permits or on the number of those who
wait. -/
theorem Leasing.congr {reply : Reply} {free pending : Nat}
    (h : Leasing user { p with free, pending } reply p') : Leasing user p reply p' := by
  cases h with
  | waits hreply h => exact .waits hreply ⟨h.view, h.idle, h.nextId⟩
  | fails h => exact .fails ⟨h.view, h.idle, h.nextId⟩
  | leases h =>
      cases h with
      | reused hnone hview hidle hnext => exact .leases (.reused hnone hview hidle hnext)
      | opened hnone hc hview hidle hnext => exact .leases (.opened hnone hc hview hidle hnext)

theorem leasing_start (p : Pool) (user : Nat) :
    Leasing user p (p.start user).1 (p.start user).2 := by
  unfold start
  split
  · exact leasing_refl rfl
  · rename_i hs
    have hnone : p.lease? user = none := by
      have hs : p.stage? user = none := by simpa using hs
      simp [lease?, hs]
    split
    · exact .fails (leaves_refl hnone)
    split
    · exact (leasing_proceed (p := { p with free := p.free - 1 }) hnone).congr
    split
    · exact .fails (leaves_refl hnone)
    · have hkeeps := keeps_put (s := .waiting (p.now + p.config.acquireTimeout.nanos)) hnone rfl
      exact .waits rfl ⟨hkeeps.view, hkeeps.idle, rfl⟩

theorem leasing_resume (p : Pool) (user : Nat) :
    Leasing user p (p.resume user).1 (p.resume user).2 := by
  unfold resume
  split
  · rename_i hs
    have hnone : p.lease? user = none := by simp [lease?, hs]
    simp only
    split
    · have hleaves := leaves_remove_giveBack { p with pending := p.pending - 1 } user
      exact .fails ⟨hleaves.view, hleaves.idle, hleaves.nextId⟩
    · exact (leasing_proceed (p := { p with pending := p.pending - 1 }) hnone).congr
  · split
    · have hleaves := leaves_remove p user
      exact .fails ⟨hleaves.view, hleaves.idle, hleaves.nextId⟩
    · exact leasing_refl rfl
  · exact leasing_refl rfl

theorem leasing_expire (p : Pool) (user : Nat) :
    Leasing user p (p.expire user).1 (p.expire user).2 := by
  unfold expire
  split
  · split
    · exact leasing_resume p user
    split
    · have hleaves := leaves_remove p user
      exact .fails ⟨hleaves.view, hleaves.idle, hleaves.nextId⟩
    · exact leasing_refl rfl
  · exact leasing_refl rfl

theorem leasing_connected (p : Pool) (user : Nat) :
    Leasing user p (p.connected user).1 (p.connected user).2 := by
  unfold connected
  split
  · rename_i deadline hs
    have hnone : p.view? user = none := by simp [view?, lease?, hs]
    refine .leases (.opened hnone rfl ?_ rfl rfl)
    intro v
    refine (congrArg (Option.map Channel.view) (lease?_put p user _ v)).trans ?_
    split <;> rfl
  · exact leasing_refl rfl

theorem leasing_connectFailed (p : Pool) (user : Nat) (e : PoolError) :
    Leasing user p (p.connectFailed user e).1 (p.connectFailed user e).2 := by
  unfold connectFailed
  split
  · exact .fails (leaves_remove_giveBack p user)
  · exact leasing_refl rfl

theorem leasing_connectExpired (p : Pool) (user : Nat) :
    Leasing user p (p.connectExpired user).1 (p.connectExpired user).2 := by
  unfold connectExpired
  split
  · split
    · exact leasing_connectFailed p user _
    · exact leasing_refl rfl
  · exact leasing_refl rfl

/-! ## Ends of leases -/

theorem lease?_eq_none_of_not_leased (hs : ∀ c, p.stage? user ≠ some (.leased c)) :
    p.lease? user = none := by
  cases hc : p.lease? user with
  | none => rfl
  | some c => exact absurd (lease?_eq_some.1 hc) (hs c)

theorem leaves_close (p : Pool) (user : Nat) : Leaves user p (p.close user) := by
  unfold close
  split
  · have hleaves := leaves_remove_giveBack
      { p with acquired := p.acquired - 1, closed := p.closed + 1 } user
    exact ⟨hleaves.view, hleaves.idle, hleaves.nextId⟩
  · rename_i hs
    exact leaves_refl (lease?_eq_none_of_not_leased hs)

theorem leaves_abandon (p : Pool) (user : Nat) : Leaves user p (p.abandon user) := by
  unfold abandon
  split
  · have hleaves := leaves_remove p user
    exact ⟨hleaves.view, hleaves.idle, hleaves.nextId⟩
  · have hleaves := leaves_remove_giveBack { p with pending := p.pending - 1 } user
    exact ⟨hleaves.view, hleaves.idle, hleaves.nextId⟩
  · exact leaves_remove_giveBack p user
  · exact leaves_close p user
  · rename_i hs
    exact leaves_refl (by simp [lease?, hs])

/-- A channel that is given back is closed or pooled. -/
theorem release_cases (p : Pool) (user : Nat) :
    Leaves user p (p.release user) ∨ Pools user p (p.release user) := by
  unfold release
  split
  · rename_i c hs
    simp only
    split
    · have hleaves := leaves_remove_giveBack
        { p with acquired := p.acquired - 1, closed := p.closed + 1 } user
      exact Or.inl ⟨hleaves.view, hleaves.idle, hleaves.nextId⟩
    · have hleaves := leaves_remove_giveBack { p with acquired := p.acquired - 1 } user
      refine Or.inr ⟨?_, ⟨c.view, ?_, ?_⟩, giveBack_nextId _⟩
      · intro v
        rw [view?, lease?_giveBack]
        exact (congrArg (Option.map Channel.view) (lease?_remove _ user v)).trans
          (by split <;> rfl)
      · rw [view?, lease?_eq_some.2 hs]
        rfl
      · rw [idleViews, giveBack_idle]
        rfl
  · rename_i hs
    exact Or.inl (leaves_refl (lease?_eq_none_of_not_leased hs))

/-! ## Changes of channels -/

theorem marks_update {unread : Bool} {f : Channel → Channel}
    (hf : ∀ c, (f c).view = (c.id, unread)) (p : Pool) (user : Nat) :
    Marks user unread p (p.update user f) := by
  refine ⟨?_, rfl, rfl⟩
  intro v
  rw [view?, lease?_update, view?, view?]
  split
  · cases p.lease? user with
    | none => rfl
    | some c => exact congrArg some (hf c)
  · rfl

theorem marks_send (p : Pool) (user : Nat) : Marks user true p (p.send user) :=
  marks_update (fun _ => rfl) p user

theorem marks_received (p : Pool) (user : Nat) : Marks user false p (p.received user) :=
  marks_update (fun _ => rfl) p user

/-- A leased channel may change in what does not count. -/
theorem keeps_put_leased {c d : Channel} (h : p.lease? user = some c) (hv : d.view = c.view) :
    p.Keeps (p.put user (.leased d)) := by
  refine ⟨?_, List.Sublist.refl _, rfl⟩
  intro v
  rw [view?, lease?_put, view?]
  split
  · rename_i hvu
    rw [hvu, h]
    exact congrArg some hv
  · rfl

theorem keeps_peerClosed (p : Pool) (id : Nat) : p.Keeps (p.peerClosed id) := by
  have hview (c : Channel) :
      (if c.id = id then { c with isOpen := false } else c).view = c.view := by
    split <;> rfl
  have hidle : (p.peerClosed id).idleViews = p.idleViews := by
    change (p.idle.map _).map Channel.view = _
    rw [List.map_map]
    exact List.map_congr_left fun c _ => hview c
  refine ⟨?_, hidle ▸ List.Sublist.refl _, rfl⟩
  intro v
  have hstage : (p.peerClosed id).stage? v = (p.stage? v).map (Stage.mapChannel _) :=
    p.users.find?_mapValues _ v
  rw [view?, lease?, hstage, view?, lease?]
  cases p.stage? v with
  | none => rfl
  | some s => cases s <;> simp [hview]

theorem keeps_advance (p : Pool) (nanos : Nat) : p.Keeps (p.advance nanos) :=
  ⟨fun _ => rfl, List.Sublist.refl _, rfl⟩

theorem keeps_evict (p : Pool) : p.Keeps p.evict.2 :=
  ⟨fun _ => rfl, List.filter_sublist.map _, rfl⟩

theorem keeps_shutdown (p : Pool) : p.Keeps p.shutdown := by
  unfold shutdown
  split
  · exact Keeps.refl p
  · exact ⟨fun _ => rfl, List.nil_sublist _, rfl⟩

/-! ## Exclusive leases -/

/-- The number of the channel that a user has leased. -/
def leaseId? (p : Pool) (user : Nat) : Option Nat := (p.view? user).map (·.1)

theorem leaseId?_eq_some {id : Nat} :
    p.leaseId? user = some id ↔ ∃ c, p.lease? user = some c ∧ c.id = id := by
  simp [leaseId?, view?, Channel.view]

/-- The numbers of the idle channels. -/
def idleIds (p : Pool) : List Nat := p.idleViews.map (·.1)

/-- Each channel is idle or leased once, under a number that was given out. -/
structure Exclusive (p : Pool) : Prop where
  idle_nodup : p.idleIds.Nodup
  idle_lt : ∀ i ∈ p.idleIds, i < p.nextId
  lease_lt : ∀ u i, p.leaseId? u = some i → i < p.nextId
  lease_idle : ∀ u i, p.leaseId? u = some i → i ∉ p.idleIds
  lease_inj : ∀ u v i, p.leaseId? u = some i → p.leaseId? v = some i → u = v

theorem Keeps.leaseId? (h : p.Keeps p') (v : Nat) : p'.leaseId? v = p.leaseId? v := by
  rw [Pool.leaseId?, h.view, Pool.leaseId?]

theorem Marks.leaseId? {unread : Bool} (h : Marks user unread p p') (v : Nat) :
    p'.leaseId? v = p.leaseId? v := by
  rw [Pool.leaseId?, h.view, Pool.leaseId?]
  split
  · rename_i hv
    rw [hv]
    cases p.view? user <;> rfl
  · rfl

theorem leaseId?_of_gone (h : ∀ v, p'.view? v = if v = user then none else p.view? v) (v : Nat) :
    p'.leaseId? v = if v = user then none else p.leaseId? v := by
  rw [leaseId?, h, leaseId?]
  split <;> rfl

theorem Leaves.leaseId? (h : Leaves user p p') (v : Nat) :
    p'.leaseId? v = if v = user then none else p.leaseId? v :=
  leaseId?_of_gone h.view v

theorem Pools.leaseId? (h : Pools user p p') (v : Nat) :
    p'.leaseId? v = if v = user then none else p.leaseId? v :=
  leaseId?_of_gone h.view v

theorem leaseId?_of_gained {c : Channel}
    (h : ∀ v, p'.view? v = if v = user then some c.view else p.view? v) (v : Nat) :
    p'.leaseId? v = if v = user then some c.id else p.leaseId? v := by
  rw [leaseId?, h, leaseId?]
  split <;> rfl

theorem Gains.leaseId? {c : Channel} (h : Gains user c p p') (v : Nat) :
    p'.leaseId? v = if v = user then some c.id else p.leaseId? v := by
  cases h with
  | reused _ hview _ _ => exact leaseId?_of_gained hview v
  | opened _ _ hview _ _ => exact leaseId?_of_gained hview v

namespace Exclusive

theorem ofConfig (config : PoolConfig) : Exclusive (Pool.ofConfig config) where
  idle_nodup := List.nodup_nil
  idle_lt := by simp [idleIds, idleViews, Pool.ofConfig]
  lease_lt := by intro u i h; cases h
  lease_idle := by intro u i h; cases h
  lease_inj := by intro u v i h; cases h

/-- Leases may end and idle channels may go. -/
theorem shrink (h : Exclusive p) (hlease : ∀ v i, p'.leaseId? v = some i → p.leaseId? v = some i)
    (hidle : p'.idleIds.Sublist p.idleIds) (hnext : p'.nextId = p.nextId) : Exclusive p' where
  idle_nodup := hidle.nodup h.idle_nodup
  idle_lt i hi := hnext ▸ h.idle_lt i (hidle.subset hi)
  lease_lt u i hu := hnext ▸ h.lease_lt u i (hlease u i hu)
  lease_idle u i hu hi := h.lease_idle u i (hlease u i hu) (hidle.subset hi)
  lease_inj u v i hu hv := h.lease_inj u v i (hlease u i hu) (hlease v i hv)

theorem keeps (h : Exclusive p) (hk : p.Keeps p') : Exclusive p' :=
  h.shrink (fun v _ hv => hk.leaseId? v ▸ hv) (hk.idle.map _) hk.nextId

theorem marks {unread : Bool} (h : Exclusive p) (hm : Marks user unread p p') : Exclusive p' :=
  h.shrink (fun v _ hv => hm.leaseId? v ▸ hv) (by rw [idleIds, hm.idle]; exact List.Sublist.refl _)
    hm.nextId

theorem leaves (h : Exclusive p) (hl : Leaves user p p') : Exclusive p' := by
  refine h.shrink ?_ (by rw [idleIds, hl.idle]; exact List.Sublist.refl _)
    hl.nextId
  intro v i hv
  rw [hl.leaseId?] at hv
  split at hv
  · cases hv
  · exact hv

theorem pools (h : Exclusive p) (hp : Pools user p p') : Exclusive p' := by
  obtain ⟨c, hc, hidle⟩ := hp.idle
  have hid : p.leaseId? user = some c.1 := by rw [Pool.leaseId?, hc]; rfl
  have hids : p'.idleIds = c.1 :: p.idleIds := by rw [idleIds, hidle]; rfl
  have hsub (v i : Nat) (hv : p'.leaseId? v = some i) : v ≠ user ∧ p.leaseId? v = some i := by
    rw [hp.leaseId?] at hv
    split at hv
    · cases hv
    · rename_i hne
      exact ⟨hne, hv⟩
  refine ⟨?_, ?_, ?_, ?_, ?_⟩
  · rw [hids]
    exact List.nodup_cons.2 ⟨h.lease_idle user c.1 hid, h.idle_nodup⟩
  · rw [hids, hp.nextId]
    intro i hi
    rcases List.mem_cons.1 hi with rfl | hi
    · exact h.lease_lt user _ hid
    · exact h.idle_lt i hi
  · intro u i hu
    exact hp.nextId ▸ h.lease_lt u i (hsub u i hu).2
  · intro u i hu hi
    obtain ⟨hne, hu⟩ := hsub u i hu
    rw [hids] at hi
    rcases List.mem_cons.1 hi with rfl | hi
    · exact hne (h.lease_inj u user _ hu hid)
    · exact h.lease_idle u i hu hi
  · intro u v i hu hv
    exact h.lease_inj u v i (hsub u i hu).2 (hsub v i hv).2

/-- A channel that nobody has, under a number given out by now, is leased. -/
private theorem gain (h : Exclusive p) {id : Nat}
    (hlease : ∀ v, p'.leaseId? v = if v = user then some id else p.leaseId? v)
    (hidle : p'.idleIds.Sublist p.idleIds) (hnext : p.nextId ≤ p'.nextId)
    (hlt : id < p'.nextId) (hnot : id ∉ p'.idleIds) (hother : ∀ v, p.leaseId? v ≠ some id) :
    Exclusive p' where
  idle_nodup := hidle.nodup h.idle_nodup
  idle_lt i hi := Nat.lt_of_lt_of_le (h.idle_lt i (hidle.subset hi)) hnext
  lease_lt u i hu := by
    rw [hlease] at hu
    split at hu
    · cases hu
      exact hlt
    · exact Nat.lt_of_lt_of_le (h.lease_lt u i hu) hnext
  lease_idle u i hu hi := by
    rw [hlease] at hu
    split at hu
    · cases hu
      exact hnot hi
    · exact h.lease_idle u i hu (hidle.subset hi)
  lease_inj u v i hu hv := by
    rw [hlease] at hu hv
    split at hu <;> split at hv
    · rename_i hu' hv'
      exact hu'.trans hv'.symm
    · cases hu
      exact absurd hv (hother v)
    · cases hv
      exact absurd hu (hother u)
    · exact h.lease_inj u v i hu hv

theorem gains {c : Channel} (h : Exclusive p) (hg : Gains user c p p') : Exclusive p' := by
  have hlease := hg.leaseId?
  cases hg with
  | reused hnone hview hidle hnext =>
      obtain ⟨stale, hidle⟩ := hidle
      have hids : p.idleIds = stale.map (·.1) ++ c.id :: p'.idleIds := by
        rw [idleIds, hidle, List.map_append, List.map_cons]
        rfl
      have hmem : c.id ∈ p.idleIds := by simp [hids]
      have hnodup := h.idle_nodup
      rw [hids] at hnodup
      refine h.gain hlease ?_ (Nat.le_of_eq hnext.symm) (hnext ▸ h.idle_lt _ hmem)
        (List.nodup_cons.1 (List.nodup_append.1 hnodup).2.1).1
        (fun v hv => h.lease_idle v _ hv hmem)
      rw [hids]
      exact (List.sublist_cons_self _ _).trans (List.sublist_append_right _ _)
  | opened hnone hc hview hidle hnext =>
      have hid : c.id = p.nextId := congrArg Prod.fst hc
      have hids : p'.idleIds = p.idleIds := by rw [idleIds, hidle, idleIds]
      refine h.gain hlease (hids ▸ List.Sublist.refl _) (by omega) (by omega) ?_
        ?_
      · intro hi
        rw [hids, hid] at hi
        exact Nat.lt_irrefl _ (h.idle_lt _ hi)
      · intro v hv
        rw [hid] at hv
        exact Nat.lt_irrefl _ (h.lease_lt v _ hv)

end Exclusive

end Pool

end ObjectStore
