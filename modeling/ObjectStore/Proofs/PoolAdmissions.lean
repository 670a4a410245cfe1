import ObjectStore.Proofs.PoolStages

/-!
# Users who go on with a permit

A user goes on with a permit that is free, or with one that was handed over in the queue. This is
the only way to a channel or a connection: every other step lets nobody come to one.
-/

namespace ObjectStore

/-- The stages of a user who went on with a permit. -/
def Stage.isServed : Stage → Bool
  | .connecting _ | .leased _ => true
  | .waiting _ | .granted => false

theorem Stage.isServed_mapChannel (f : Channel → Channel) (s : Stage) :
    (s.mapChannel f).isServed = s.isServed := by
  cases s <;> rfl

namespace Pool

variable {p p' : Pool} {user : Nat}

/-- A user goes on with a permit: a new user who finds a free one, or a user who notices the one
that was handed over. -/
inductive Admits (p : Pool) (user : Nat) : Event → Prop
  | free (hnew : p.stage? user = none) (hopen : p.isClosed = false) (hfree : 0 < p.free) :
      Admits p user (.start user)
  | handed (hstage : p.stage? user = some .granted) (hopen : p.isClosed = false) :
      Admits p user (.resume user)

theorem start_of_free (hnew : p.stage? user = none) (hopen : p.isClosed = false)
    (hfree : 0 < p.free) : p.start user = { p with free := p.free - 1 }.proceed user := by
  rw [start, hnew, hopen, if_neg (by simp), if_neg (by simp), if_pos hfree]

theorem resume_of_handed (hstage : p.stage? user = some .granted) (hopen : p.isClosed = false) :
    p.resume user = { p with pending := p.pending - 1 }.proceed user := by
  rw [resume, hstage]
  simp only [hopen, Bool.false_eq_true, if_false]

/-! ## Users who were let in -/

/-- Whether a user went on with a permit. -/
def served (p : Pool) (user : Nat) : Bool := (p.stage? user).any Stage.isServed

@[simp] theorem served_put (p : Pool) (user : Nat) (s : Stage) (v : Nat) :
    (p.put user s).served v = if v = user then s.isServed else p.served v :=
  any_stage?_put _ p user v s

@[simp] theorem served_remove (p : Pool) (user v : Nat) :
    (p.remove user).served v = if v = user then false else p.served v :=
  any_stage?_remove _ p user v

@[simp] theorem served_giveBack (p : Pool) (v : Nat) : p.giveBack.served v = p.served v :=
  any_stage?_giveBack _ p v fun _ => rfl

theorem served_update (p : Pool) (user : Nat) (f : Channel → Channel) (v : Nat) :
    (p.update user f).served v = p.served v :=
  any_stage?_update _ p user v f (Stage.isServed_mapChannel f)

theorem served_peerClosed (p : Pool) (id v : Nat) : (p.peerClosed id).served v = p.served v :=
  any_stage?_peerClosed _ p v id Stage.isServed_mapChannel

theorem served_proceed (p : Pool) (user v : Nat) :
    (p.proceed user).2.served v = if v = user then true else p.served v := by
  unfold proceed
  split
  · exact served_put _ user (.leased _) v
  · exact served_put _ user (.connecting _) v

/-- Nobody goes on with a permit. -/
def AdmitsNobody (p p' : Pool) : Prop := ∀ v, p'.served v = true → p.served v = true

theorem admitsNobody_of_eq (h : ∀ v, p'.served v = p.served v) : AdmitsNobody p p' :=
  fun v hv => (h v).symm.trans hv

/-- A user goes. -/
theorem admitsNobody_of_erased (husers : p'.users = p.users.erase user) : AdmitsNobody p p' := by
  intro v hv
  have herased : p'.served v = if v = user then false else p.served v := by
    rw [← served_remove, served, stage?, husers]
    rfl
  rw [herased] at hv
  split at hv
  · cases hv
  · exact hv

/-- A permit that comes back goes to nobody who notices it at once. -/
theorem AdmitsNobody.giveBack (h : AdmitsNobody p p') : AdmitsNobody p p'.giveBack :=
  fun v hv => h v ((served_giveBack p' v).symm.trans hv)

theorem admitsNobody_connected (p : Pool) (user : Nat) :
    AdmitsNobody p (p.connected user).2 := by
  unfold connected
  split
  · rename_i deadline hs
    intro v hv
    have hput := (served_put _ user (.leased _) v).symm.trans hv
    split at hput
    · rename_i hvu
      rw [served, hvu, hs]
      rfl
    · exact hput
  · exact admitsNobody_of_eq fun _ => rfl

theorem admitsNobody_connectFailed (p : Pool) (user : Nat) (e : PoolError) :
    AdmitsNobody p (p.connectFailed user e).2 := by
  unfold connectFailed
  split
  · exact .giveBack (admitsNobody_of_erased rfl)
  · exact admitsNobody_of_eq fun _ => rfl

theorem admitsNobody_connectExpired (p : Pool) (user : Nat) :
    AdmitsNobody p (p.connectExpired user).2 := by
  unfold connectExpired
  split
  · split
    · exact admitsNobody_connectFailed p user _
    · exact admitsNobody_of_eq fun _ => rfl
  · exact admitsNobody_of_eq fun _ => rfl

theorem admitsNobody_release (p : Pool) (user : Nat) : AdmitsNobody p (p.release user) := by
  unfold release
  split
  · simp only
    split
    · exact .giveBack (admitsNobody_of_erased rfl)
    · exact .giveBack (admitsNobody_of_erased rfl)
  · exact admitsNobody_of_eq fun _ => rfl

theorem admitsNobody_close (p : Pool) (user : Nat) : AdmitsNobody p (p.close user) := by
  unfold close
  split
  · exact .giveBack (admitsNobody_of_erased rfl)
  · exact admitsNobody_of_eq fun _ => rfl

theorem admitsNobody_abandon (p : Pool) (user : Nat) : AdmitsNobody p (p.abandon user) := by
  unfold abandon
  split
  · exact admitsNobody_of_erased rfl
  · exact .giveBack (admitsNobody_of_erased rfl)
  · exact .giveBack (admitsNobody_of_erased rfl)
  · exact admitsNobody_close p user
  · exact admitsNobody_of_eq fun _ => rfl

/-- A user who waits until the deadline gets no permit by that, also not in a closed pool. -/
theorem admitsNobody_expire (p : Pool) (user : Nat) : AdmitsNobody p (p.expire user).2 := by
  unfold expire
  split
  · rename_i deadline hs
    split
    · rename_i hclosed
      simp only [resume, hs, hclosed, if_true]
      exact admitsNobody_of_erased rfl
    split
    · exact admitsNobody_of_erased rfl
    · exact admitsNobody_of_eq fun _ => rfl
  · exact admitsNobody_of_eq fun _ => rfl

theorem AdmitsNobody.absurd {v : Nat} {q : Prop} (h : AdmitsNobody p p')
    (hbefore : p.served v = false) (hafter : p'.served v = true) : q := by
  rw [h v hafter] at hbefore
  cases hbefore

theorem eq_of_served_proceed {v : Nat} (hbefore : p.served v = false)
    (hafter : (p.proceed user).2.served v = true) : v = user := by
  rw [served_proceed] at hafter
  split at hafter
  · assumption
  · rw [hbefore] at hafter
    cases hafter

theorem admitsNobody_wait (users : Nat) (p : Pool) (user deadline : Nat) :
    AdmitsNobody p ({ p with pending := users }.put user (.waiting deadline)) := by
  intro v hv
  rw [served_put] at hv
  split at hv
  · cases hv
  · exact hv

theorem admitsNobody_shutdown (p : Pool) : AdmitsNobody p p.shutdown := by
  unfold shutdown
  split
  · exact admitsNobody_of_eq fun _ => rfl
  · exact admitsNobody_of_eq fun _ => rfl

theorem admits_start {v : Nat} (hbefore : p.served v = false)
    (hafter : (p.start user).2.served v = true) : p.Admits v (.start user) := by
  unfold start at hafter
  split at hafter
  · exact (admitsNobody_of_eq fun _ => rfl).absurd hbefore hafter
  rename_i hstage
  split at hafter
  · exact (admitsNobody_of_eq fun _ => rfl).absurd hbefore hafter
  rename_i hclosed
  split at hafter
  · rename_i hfree
    cases eq_of_served_proceed (p := { p with free := p.free - 1 }) hbefore hafter
    exact .free (by simpa using hstage) (by simpa using hclosed) hfree
  split at hafter
  · exact (admitsNobody_of_eq fun _ => rfl).absurd hbefore hafter
  · exact (admitsNobody_wait _ p user _).absurd hbefore hafter

theorem admits_resume {v : Nat} (hbefore : p.served v = false)
    (hafter : (p.resume user).2.served v = true) : p.Admits v (.resume user) := by
  unfold resume at hafter
  split at hafter
  · rename_i hstage
    simp only at hafter
    split at hafter
    · exact AdmitsNobody.absurd (.giveBack (admitsNobody_of_erased rfl)) hbefore hafter
    · rename_i hclosed
      cases eq_of_served_proceed (p := { p with pending := p.pending - 1 }) hbefore hafter
      exact .handed hstage (by simpa using hclosed)
  · split at hafter
    · exact AdmitsNobody.absurd (admitsNobody_of_erased rfl) hbefore hafter
    · exact (admitsNobody_of_eq fun _ => rfl).absurd hbefore hafter
  · exact (admitsNobody_of_eq fun _ => rfl).absurd hbefore hafter

/-- Users come to a channel or a connection only by going on with a permit. -/
theorem admits_of_served {e : Event} (hbefore : p.served user = false)
    (hafter : (p.step e).2.served user = true) : p.Admits user e := by
  cases e with
  | start other => exact admits_start hbefore hafter
  | resume other => exact admits_resume hbefore hafter
  | expire other => exact (admitsNobody_expire p other).absurd hbefore hafter
  | connected other => exact (admitsNobody_connected p other).absurd hbefore hafter
  | refused other cause => exact (admitsNobody_connectFailed p other _).absurd hbefore hafter
  | handshakeFailed other => exact (admitsNobody_connectFailed p other _).absurd hbefore hafter
  | connectExpired other => exact (admitsNobody_connectExpired p other).absurd hbefore hafter
  | send other =>
      exact (admitsNobody_of_eq (served_update p other _)).absurd hbefore hafter
  | received other =>
      exact (admitsNobody_of_eq (served_update p other _)).absurd hbefore hafter
  | release other => exact (admitsNobody_release p other).absurd hbefore hafter
  | close other => exact (admitsNobody_close p other).absurd hbefore hafter
  | abandon other => exact (admitsNobody_abandon p other).absurd hbefore hafter
  | peerClosed id =>
      exact (admitsNobody_of_eq (served_peerClosed p id)).absurd hbefore hafter
  | advance nanos => exact (admitsNobody_of_eq fun _ => rfl).absurd hbefore hafter
  | evict => exact (admitsNobody_of_eq fun _ => rfl).absurd hbefore hafter
  | shutdown => exact (admitsNobody_shutdown p).absurd hbefore hafter

end Pool

end ObjectStore
