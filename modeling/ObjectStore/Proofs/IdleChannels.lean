import Mathlib.Data.List.Nodup
import ObjectStore.Proofs.PoolLeases

/-!
# Idle channels from step to step

A channel that is given back is put before the other idle ones, with the time. It keeps this stamp
as long as it is idle, also when the other end closes it.
-/

namespace ObjectStore

namespace Pool

variable {p p' : Pool} {user : Nat}

/-- The numbers of the idle channels, each with the time of its last use. -/
def stamps (p : Pool) : List (Nat × Nat) := p.idle.map fun c => (c.id, c.lastUsed)

theorem idleIds_eq (p : Pool) : p.idleIds = p.idle.map (·.id) := List.map_map

theorem map_fst_stamps (p : Pool) : p.stamps.map (·.1) = p.idleIds := by
  rw [idleIds_eq]
  exact List.map_map

/-- What a step does to the idle channels: some of them go, while the clock may run, or one that a
user had leased is put before them now. -/
inductive IdleStep (p p' : Pool) : Prop
  | thins (hnow : p.now ≤ p'.now) (hstamps : p'.stamps.Sublist p.stamps)
  | pools {user id : Nat} (hnow : p'.now = p.now) (hlease : p.leaseId? user = some id)
      (hstamps : p'.stamps = (id, p.now) :: p.stamps)

theorem idleStep_of_sublist (hnow : p'.now = p.now) (hidle : p'.idle.Sublist p.idle) :
    IdleStep p p' :=
  .thins (Nat.le_of_eq hnow.symm) (hidle.map _)

theorem idleStep_of_eq (hnow : p'.now = p.now) (hidle : p'.idle = p.idle) : IdleStep p p' :=
  idleStep_of_sublist hnow (hidle ▸ List.Sublist.refl _)

/-- A permit that comes back does not concern the idle channels. -/
theorem IdleStep.giveBack (h : IdleStep p p') : IdleStep p p'.giveBack := by
  cases h with
  | thins hnow hstamps =>
      refine .thins ?_ ?_
      · rwa [giveBack_now]
      · rwa [stamps, giveBack_idle]
  | pools hnow hlease hstamps =>
      refine .pools ?_ hlease ?_
      · rwa [giveBack_now]
      · rwa [stamps, giveBack_idle]

/-- A user who goes on with a permit leaves the channels behind the one that the user gets. -/
theorem idleStep_proceed (hnow : p'.now = p.now) (hidle : p'.idle = p.idle) (user : Nat) :
    IdleStep p (p'.proceed user).2 := by
  unfold proceed
  split
  · rename_i c left dropped ht
    obtain ⟨stale, hsplit, -⟩ := takeIdle_eq_some ht
    refine idleStep_of_sublist hnow ?_
    rw [← hidle, hsplit]
    exact (List.sublist_cons_self c left).trans (List.sublist_append_right stale _)
  · rename_i left dropped ht
    obtain ⟨rfl, -⟩ := takeIdle_eq_none ht
    exact idleStep_of_sublist hnow (List.nil_sublist _)

theorem idleStep_start (p : Pool) (user : Nat) : IdleStep p (p.start user).2 := by
  unfold start
  split
  · exact idleStep_of_eq rfl rfl
  split
  · exact idleStep_of_eq rfl rfl
  split
  · refine idleStep_proceed ?_ ?_ user <;> rfl
  split
  · exact idleStep_of_eq rfl rfl
  · exact idleStep_of_eq rfl rfl

theorem idleStep_resume (p : Pool) (user : Nat) : IdleStep p (p.resume user).2 := by
  unfold resume
  split
  · simp only
    split
    · exact .giveBack (idleStep_of_eq rfl rfl)
    · refine idleStep_proceed ?_ ?_ user <;> rfl
  · split
    · exact idleStep_of_eq rfl rfl
    · exact idleStep_of_eq rfl rfl
  · exact idleStep_of_eq rfl rfl

theorem idleStep_expire (p : Pool) (user : Nat) : IdleStep p (p.expire user).2 := by
  unfold expire
  split
  · split
    · exact idleStep_resume p user
    split
    · exact idleStep_of_eq rfl rfl
    · exact idleStep_of_eq rfl rfl
  · exact idleStep_of_eq rfl rfl

theorem idleStep_connected (p : Pool) (user : Nat) : IdleStep p (p.connected user).2 := by
  unfold connected
  split
  · exact idleStep_of_eq rfl rfl
  · exact idleStep_of_eq rfl rfl

theorem idleStep_connectFailed (p : Pool) (user : Nat) (e : PoolError) :
    IdleStep p (p.connectFailed user e).2 := by
  unfold connectFailed
  split
  · exact .giveBack (idleStep_of_eq rfl rfl)
  · exact idleStep_of_eq rfl rfl

theorem idleStep_connectExpired (p : Pool) (user : Nat) :
    IdleStep p (p.connectExpired user).2 := by
  unfold connectExpired
  split
  · split
    · exact idleStep_connectFailed p user _
    · exact idleStep_of_eq rfl rfl
  · exact idleStep_of_eq rfl rfl

/-- A channel that is given back and stays open gets a new stamp. -/
theorem idleStep_release (p : Pool) (user : Nat) : IdleStep p (p.release user) := by
  unfold release
  split
  · rename_i c hs
    have hlease : p.leaseId? user = some c.id := leaseId?_eq_some.2 ⟨c, lease?_eq_some.2 hs, rfl⟩
    simp only
    split
    · exact .giveBack (idleStep_of_eq rfl rfl)
    · exact .giveBack (.pools rfl hlease rfl)
  · exact idleStep_of_eq rfl rfl

theorem idleStep_close (p : Pool) (user : Nat) : IdleStep p (p.close user) := by
  unfold close
  split
  · exact .giveBack (idleStep_of_eq rfl rfl)
  · exact idleStep_of_eq rfl rfl

theorem idleStep_abandon (p : Pool) (user : Nat) : IdleStep p (p.abandon user) := by
  unfold abandon
  split
  · exact idleStep_of_eq rfl rfl
  · exact .giveBack (idleStep_of_eq rfl rfl)
  · exact .giveBack (idleStep_of_eq rfl rfl)
  · exact idleStep_close p user
  · exact idleStep_of_eq rfl rfl

/-- A channel that the other end closes keeps its place and its stamp. -/
theorem idleStep_peerClosed (p : Pool) (id : Nat) : IdleStep p (p.peerClosed id) := by
  have hstamps : (p.peerClosed id).stamps = p.stamps := by
    unfold stamps peerClosed
    rw [List.map_map]
    refine List.map_congr_left fun c _ => ?_
    simp only [Function.comp]
    split <;> rfl
  exact .thins (Nat.le_refl _) (hstamps ▸ List.Sublist.refl _)

theorem idleStep_shutdown (p : Pool) : IdleStep p p.shutdown := by
  unfold shutdown
  split
  · exact idleStep_of_eq rfl rfl
  · exact idleStep_of_sublist rfl (List.nil_sublist _)

/-- Each step is one of the two. -/
theorem idleStep_step (p : Pool) (e : Event) : IdleStep p (p.step e).2 := by
  cases e with
  | start user => exact idleStep_start p user
  | resume user => exact idleStep_resume p user
  | expire user => exact idleStep_expire p user
  | connected user => exact idleStep_connected p user
  | refused user cause => exact idleStep_connectFailed p user _
  | handshakeFailed user => exact idleStep_connectFailed p user _
  | connectExpired user => exact idleStep_connectExpired p user
  | send user => exact idleStep_of_eq rfl rfl
  | received user => exact idleStep_of_eq rfl rfl
  | release user => exact idleStep_release p user
  | close user => exact idleStep_close p user
  | abandon user => exact idleStep_abandon p user
  | peerClosed id => exact idleStep_peerClosed p id
  | advance nanos => exact .thins (Nat.le_add_right _ _) (List.Sublist.refl _)
  | evict => exact idleStep_of_sublist rfl List.filter_sublist
  | shutdown => exact idleStep_shutdown p

/-- A stamp of an idle channel was there before, or is a new one: then the channel was not idle. -/
theorem stamp_cases (hexclusive : p.Exclusive) (h : IdleStep p p') {id time : Nat}
    (hmem : (id, time) ∈ p'.stamps) :
    (id, time) ∈ p.stamps ∨ id ∉ p.idleIds ∧ time = p'.now := by
  cases h with
  | thins hnow hstamps => exact .inl (hstamps.subset hmem)
  | pools hnow hlease hstamps =>
      rw [hstamps] at hmem
      rcases List.mem_cons.1 hmem with hnew | hold
      · obtain ⟨rfl, rfl⟩ := Prod.mk.inj hnew
        exact .inr ⟨hexclusive.lease_idle _ _ hlease, hnow.symm⟩
      · exact .inl hold

/-- A channel has one stamp. -/
theorem stamp_unique (hexclusive : p.Exclusive) {id time time' : Nat} (h : (id, time) ∈ p.stamps)
    (h' : (id, time') ∈ p.stamps) : time = time' := by
  have hnodup := hexclusive.idle_nodup
  rw [← map_fst_stamps] at hnodup
  exact congrArg Prod.snd (List.inj_on_of_nodup_map hnodup h h' rfl)

theorem mem_idleIds {id : Nat} : id ∈ p.idleIds ↔ ∃ time, (id, time) ∈ p.stamps := by
  rw [← map_fst_stamps]
  simp

end Pool

end ObjectStore
