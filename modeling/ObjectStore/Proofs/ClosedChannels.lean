import Mathlib.Data.Finset.Card
import Mathlib.Order.Interval.Finset.Nat
import ObjectStore.Proofs.IdleChannels
import ObjectStore.Proofs.PoolAccounts

/-!
# Closed channels

The numbers that a pool has given out and under which no channel is idle or leased any more. The
counter of closed channels says how many these are, so each channel is counted once. A number never
comes back: a new channel gets a new one.
-/

namespace ObjectStore

namespace Pool

variable {p p' : Pool} {user : Nat}

/-- The numbers of the channels that users have. -/
def leasedIds (p : Pool) : List Nat :=
  p.users.entries.filterMap fun e => e.2.channel?.map (·.id)

/-- The numbers of the channels that are idle or leased. -/
def heldIds (p : Pool) : List Nat := p.idleIds ++ p.leasedIds

/-- The numbers of the channels that were opened and are closed. -/
def gone (p : Pool) : Finset Nat := Finset.Ico 1 p.nextId \ p.heldIds.toFinset

/-! ## Channels that users have -/

/-- The lease of a user, where the user is found in the registry. -/
theorem leaseId?_of_mem {e : Nat × Stage} (he : e ∈ p.users.entries) :
    p.leaseId? e.1 = e.2.channel?.map (·.id) := by
  have hstage : p.stage? e.1 = some e.2 := Registry.find?_of_mem he
  rw [leaseId?, view?, lease?, hstage, Option.bind_some, Option.map_map]
  rfl

theorem mem_leasedIds {id : Nat} : id ∈ p.leasedIds ↔ ∃ user, p.leaseId? user = some id := by
  rw [leasedIds, List.mem_filterMap]
  constructor
  · rintro ⟨e, he, hid⟩
    exact ⟨e.1, (leaseId?_of_mem he).trans hid⟩
  · rintro ⟨user, hlease⟩
    obtain ⟨c, hc, rfl⟩ := leaseId?_eq_some.1 hlease
    exact ⟨(user, .leased c), Registry.mem_of_find? (lease?_eq_some.1 hc), rfl⟩

theorem length_leasedIds (p : Pool) : p.leasedIds.length = p.users.count Stage.isLeased := by
  rw [leasedIds, List.length_filterMap_eq_countP, Registry.count]
  congr 1
  funext e
  rw [Option.isSome_map, Stage.isLeased]

theorem Exclusive.leased_nodup (h : p.Exclusive) : p.leasedIds.Nodup := by
  have husers : p.users.entries.Pairwise fun e f => e.1 ≠ f.1 := List.pairwise_map.1 p.users.nodup
  refine List.pairwise_filterMap.2 (husers.imp_of_mem fun {e f} he hf hne i hi j hj hij => ?_)
  subst hij
  exact hne (h.lease_inj _ _ _ ((leaseId?_of_mem he).trans hi) ((leaseId?_of_mem hf).trans hj))

theorem mem_heldIds {id : Nat} :
    id ∈ p.heldIds ↔ id ∈ p.idleIds ∨ ∃ user, p.leaseId? user = some id := by
  rw [heldIds, List.mem_append, mem_leasedIds]

theorem Exclusive.held_nodup (h : p.Exclusive) : p.heldIds.Nodup := by
  refine List.nodup_append'.2 ⟨h.idle_nodup, h.leased_nodup, fun id hidle hleased => ?_⟩
  obtain ⟨user, hlease⟩ := mem_leasedIds.1 hleased
  exact h.lease_idle user id hlease hidle

theorem Exclusive.held_lt (h : p.Exclusive) {id : Nat} (hid : id ∈ p.heldIds) : id < p.nextId := by
  rcases mem_heldIds.1 hid with hidle | ⟨user, hlease⟩
  · exact h.idle_lt id hidle
  · exact h.lease_lt user id hlease

theorem mem_gone {id : Nat} : id ∈ p.gone ↔ (1 ≤ id ∧ id < p.nextId) ∧ id ∉ p.heldIds := by
  rw [gone, Finset.mem_sdiff, Finset.mem_Ico, List.mem_toFinset]

/-! ## Steps -/

/-- What a step does to the channels. -/
inductive Handles (p p' : Pool) : Prop
  | keeps (h : p.Keeps p')
  | marks {user : Nat} {unread : Bool} (h : Marks user unread p p')
  | leaves {user : Nat} (h : Leaves user p p')
  | pools {user : Nat} (h : Pools user p p')
  | gains {user : Nat} {c : Channel} (h : Gains user c p p')

theorem Leasing.handles {reply : Reply} (h : Leasing user p reply p') : Handles p p' := by
  cases h with
  | waits _ h => exact .keeps h
  | fails h => exact .leaves h
  | leases h => exact .gains h

theorem handles_step (p : Pool) (e : Event) : Handles p (p.step e).2 := by
  cases e with
  | start user => exact (leasing_start p user).handles
  | resume user => exact (leasing_resume p user).handles
  | expire user => exact (leasing_expire p user).handles
  | connected user => exact (leasing_connected p user).handles
  | refused user cause => exact (leasing_connectFailed p user _).handles
  | handshakeFailed user => exact (leasing_connectFailed p user _).handles
  | connectExpired user => exact (leasing_connectExpired p user).handles
  | send user => exact .marks (marks_send p user)
  | received user => exact .marks (marks_received p user)
  | release user =>
      rcases release_cases p user with h | h
      · exact .leaves h
      · exact .pools h
  | close user => exact .leaves (leaves_close p user)
  | abandon user => exact .leaves (leaves_abandon p user)
  | peerClosed id => exact .keeps (keeps_peerClosed p id)
  | advance nanos => exact .keeps (keeps_advance p nanos)
  | evict => exact .keeps (keeps_evict p)
  | shutdown => exact .keeps (keeps_shutdown p)

theorem Exclusive.handles (h : p.Exclusive) (hh : Handles p p') : p'.Exclusive := by
  cases hh with
  | keeps hk => exact h.keeps hk
  | marks hm => exact h.marks hm
  | leaves hl => exact h.leaves hl
  | pools hp => exact h.pools hp
  | gains hg => exact h.gains hg

theorem Handles.nextId_le (h : Handles p p') : p.nextId ≤ p'.nextId := by
  cases h with
  | keeps h => exact Nat.le_of_eq h.nextId.symm
  | marks h => exact Nat.le_of_eq h.nextId.symm
  | leaves h => exact Nat.le_of_eq h.nextId.symm
  | pools h => exact Nat.le_of_eq h.nextId.symm
  | gains h =>
      cases h with
      | reused _ _ _ hnext => exact Nat.le_of_eq hnext.symm
      | opened _ _ _ _ hnext => exact hnext ▸ Nat.le_succ _

theorem mem_heldIds_of_idle {id : Nat} (h : id ∈ p.idleIds) : id ∈ p.heldIds :=
  mem_heldIds.2 (.inl h)

theorem mem_heldIds_of_leased {id : Nat} (h : p.leaseId? user = some id) : id ∈ p.heldIds :=
  mem_heldIds.2 (.inr ⟨user, h⟩)

/-- A channel becomes idle only if it was leased. -/
theorem Handles.idle (h : Handles p p') {id : Nat} (hid : id ∈ p'.idleIds) : id ∈ p.heldIds := by
  have hsame (hviews : p'.idleViews.Sublist p.idleViews) : id ∈ p.heldIds :=
    mem_heldIds_of_idle ((hviews.map _).subset hid)
  cases h with
  | keeps h => exact hsame h.idle
  | marks h => exact hsame (h.idle ▸ List.Sublist.refl _)
  | leaves h => exact hsame (h.idle ▸ List.Sublist.refl _)
  | @pools user h =>
      obtain ⟨view, huser, hviews⟩ := h.idle
      rw [idleIds, hviews, List.map_cons] at hid
      rcases List.mem_cons.1 hid with rfl | hid
      · exact mem_heldIds.2 (.inr ⟨user, by rw [leaseId?, huser, Option.map_some]⟩)
      · exact mem_heldIds_of_idle hid
  | gains h =>
      cases h with
      | reused _ _ hidle _ =>
          obtain ⟨stale, hidle⟩ := hidle
          refine hsame ?_
          rw [hidle]
          exact (List.sublist_cons_self _ _).trans (List.sublist_append_right _ _)
      | opened _ _ _ hidle _ => exact hsame (hidle ▸ List.Sublist.refl _)

/-- A channel becomes leased only if it was idle, or if it is new. -/
theorem Handles.lease (h : Handles p p') {id v : Nat} (hid : p'.leaseId? v = some id) :
    id ∈ p.heldIds ∨ id = p.nextId := by
  cases h with
  | keeps h => exact .inl (mem_heldIds_of_leased (h.leaseId? v ▸ hid))
  | marks h => exact .inl (mem_heldIds_of_leased (h.leaseId? v ▸ hid))
  | leaves h =>
      rw [h.leaseId?, Option.ite_none_left_eq_some] at hid
      exact .inl (mem_heldIds_of_leased hid.2)
  | pools h =>
      rw [h.leaseId?, Option.ite_none_left_eq_some] at hid
      exact .inl (mem_heldIds_of_leased hid.2)
  | gains h =>
      rw [h.leaseId?] at hid
      split at hid
      · cases hid
        cases h with
        | reused _ _ hidle _ =>
            obtain ⟨stale, hidle⟩ := hidle
            refine .inl (mem_heldIds_of_idle ?_)
            simp [idleIds, hidle, Channel.view]
        | opened _ hc _ _ _ => exact .inr (congrArg Prod.fst hc)
      · exact .inl (mem_heldIds_of_leased hid)

theorem Handles.held (h : Handles p p') {id : Nat} (hid : id ∈ p'.heldIds) :
    id ∈ p.heldIds ∨ id = p.nextId := by
  rcases mem_heldIds.1 hid with hidle | ⟨v, hlease⟩
  · exact .inl (h.idle hidle)
  · exact h.lease hlease

/-- What is closed stays closed. -/
theorem gone_subset_run (p : Pool) (events : List Event) : p.gone ⊆ (p.run events).gone := by
  induction events generalizing p with
  | nil => exact Finset.Subset.refl _
  | cons e rest ih =>
      refine Finset.Subset.trans (fun id hid => ?_) (ih (p.step e).2)
      obtain ⟨⟨hpos, hlt⟩, hnot⟩ := mem_gone.1 hid
      have hstep := handles_step p e
      refine mem_gone.2 ⟨⟨hpos, Nat.lt_of_lt_of_le hlt hstep.nextId_le⟩, fun hheld => ?_⟩
      rcases hstep.held hheld with hbefore | hnew
      · exact hnot hbefore
      · exact Nat.ne_of_lt hlt hnew

/-! ## Numbers

The numbers are given out one after the other, from 1 on.
-/

/-- The next number is the one after those of the channels that were opened. -/
def Numbered (p : Pool) : Prop := p.nextId = p.created + 1

namespace Numbered

theorem giveBack (h : p.Numbered) : p.giveBack.Numbered := by
  rw [Numbered, giveBack_nextId, giveBack_created]
  exact h

theorem proceed (h : p.Numbered) (user : Nat) : (p.proceed user).2.Numbered := by
  unfold Pool.proceed
  split <;> exact h

theorem start (h : p.Numbered) (user : Nat) : (p.start user).2.Numbered := by
  unfold Pool.start
  split
  · exact h
  split
  · exact h
  split
  · exact proceed (p := { p with free := p.free - 1 }) h user
  · split <;> exact h

theorem resume (h : p.Numbered) (user : Nat) : (p.resume user).2.Numbered := by
  unfold Pool.resume
  split
  · simp only
    split
    · exact giveBack (p := { p with pending := p.pending - 1 }.remove user) h
    · exact proceed (p := { p with pending := p.pending - 1 }) h user
  · split <;> exact h
  · exact h

theorem expire (h : p.Numbered) (user : Nat) : (p.expire user).2.Numbered := by
  unfold Pool.expire
  split
  · split
    · exact h.resume user
    · split <;> exact h
  · exact h

theorem connected (h : p.Numbered) (user : Nat) : (p.connected user).2.Numbered := by
  unfold Pool.connected
  split
  · exact congrArg (· + 1) h
  · exact h

theorem connectFailed (h : p.Numbered) (user : Nat) (e : PoolError) :
    (p.connectFailed user e).2.Numbered := by
  unfold Pool.connectFailed
  split
  · exact giveBack (p := p.remove user) h
  · exact h

theorem connectExpired (h : p.Numbered) (user : Nat) : (p.connectExpired user).2.Numbered := by
  unfold Pool.connectExpired
  split
  · split
    · exact h.connectFailed user _
    · exact h
  · exact h

theorem release (h : p.Numbered) (user : Nat) : (p.release user).Numbered := by
  unfold Pool.release
  split
  · simp only
    split <;> exact giveBack h
  · exact h

theorem close (h : p.Numbered) (user : Nat) : (p.close user).Numbered := by
  unfold Pool.close
  split
  · exact giveBack h
  · exact h

theorem abandon (h : p.Numbered) (user : Nat) : (p.abandon user).Numbered := by
  unfold Pool.abandon
  split
  · exact h
  · exact giveBack (p := { p with pending := p.pending - 1 }.remove user) h
  · exact giveBack (p := p.remove user) h
  · exact h.close user
  · exact h

theorem shutdown (h : p.Numbered) : p.shutdown.Numbered := by
  unfold Pool.shutdown
  split <;> exact h

theorem step (h : p.Numbered) (e : Event) : (p.step e).2.Numbered := by
  cases e with
  | start user => exact h.start user
  | resume user => exact h.resume user
  | expire user => exact h.expire user
  | connected user => exact h.connected user
  | refused user cause => exact h.connectFailed user _
  | handshakeFailed user => exact h.connectFailed user _
  | connectExpired user => exact h.connectExpired user
  | release user => exact h.release user
  | close user => exact h.close user
  | abandon user => exact h.abandon user
  | send user | received user | peerClosed id | advance nanos | evict => exact h
  | shutdown => exact h.shutdown

end Numbered

/-- Each channel is idle or leased once, under one of the numbers that were given out. -/
structure WellNumbered (p : Pool) : Prop where
  exclusive : p.Exclusive
  numbered : p.Numbered
  pos : ∀ id ∈ p.heldIds, 1 ≤ id

theorem WellNumbered.ofConfig (config : PoolConfig) : (Pool.ofConfig config).WellNumbered :=
  ⟨.ofConfig config, rfl, nofun⟩

theorem WellNumbered.run (h : p.WellNumbered) (events : List Event) :
    (p.run events).WellNumbered := by
  induction events generalizing p with
  | nil => exact h
  | cons e rest ih =>
      have hstep := handles_step p e
      refine ih ⟨h.exclusive.handles hstep, h.numbered.step e, fun id hid => ?_⟩
      rcases hstep.held hid with hbefore | rfl
      · exact h.pos id hbefore
      · rw [h.numbered]
        exact Nat.le_add_left 1 _

/-- The channels that were opened are closed, or idle or leased. -/
theorem WellNumbered.card_gone (h : p.WellNumbered) : p.gone.card + p.heldIds.length = p.created := by
  have hsubset : p.heldIds.toFinset ⊆ Finset.Ico 1 p.nextId := fun id hid => by
    have hheld := List.mem_toFinset.1 hid
    exact Finset.mem_Ico.2 ⟨h.pos id hheld, h.exclusive.held_lt hheld⟩
  rw [gone, ← List.toFinset_card_of_nodup h.exclusive.held_nodup,
    Finset.card_sdiff_add_card_eq_card hsubset, Nat.card_Ico, h.numbered, Nat.add_sub_cancel]

/-! ## Sweeps -/

/-- The numbers of the channels that a sweep closes. -/
def swept (p : Pool) : Finset Nat := p.idleIds.toFinset \ p.evict.2.idleIds.toFinset

theorem evict_of_idle_nil (h : p.idle = []) : p.evict.2 = p := by
  cases p
  subst h
  rfl

theorem mem_swept {id : Nat} : id ∈ p.swept ↔ id ∈ p.idleIds ∧ id ∉ p.evict.2.idleIds := by
  rw [swept, Finset.mem_sdiff, List.mem_toFinset, List.mem_toFinset]

theorem disjoint_gone_swept (p : Pool) : Disjoint p.gone p.swept :=
  Finset.disjoint_left.2 fun _ hgone hswept =>
    (mem_gone.1 hgone).2 (mem_heldIds_of_idle (mem_swept.1 hswept).1)

/-- The channels that a sweep closes are all that are closed by it. -/
theorem WellNumbered.gone_evict (h : p.WellNumbered) : p.evict.2.gone = p.gone ∪ p.swept := by
  have hsublist : p.evict.2.idleIds.Sublist p.idleIds := (keeps_evict p).idle.map _
  ext id
  rw [Finset.mem_union, mem_gone, mem_gone, mem_swept, mem_heldIds, mem_heldIds]
  constructor
  · rintro ⟨hbounds, hnot⟩
    by_cases hidle : id ∈ p.idleIds
    · exact .inr ⟨hidle, fun hkept => hnot (.inl hkept)⟩
    · exact .inl ⟨hbounds, fun hheld => hnot (.inr (hheld.resolve_left hidle))⟩
  · rintro (⟨hbounds, hnot⟩ | ⟨hidle, hnot⟩)
    · exact ⟨hbounds, fun hheld => hnot (hheld.imp_left fun hkept => hsublist.subset hkept)⟩
    · have hheld := mem_heldIds_of_idle hidle
      refine ⟨⟨h.pos id hheld, h.exclusive.held_lt hheld⟩, ?_⟩
      rintro (hkept | ⟨user, hlease⟩)
      · exact hnot hkept
      · exact h.exclusive.lease_idle user id hlease hidle

/-- In every run of a pool the counter of closed channels says how many of the channels that were
opened are neither idle nor leased. -/
theorem closed_eq_card_gone (config : PoolConfig) (events : List Event) :
    ((ofConfig config).run events).closed = ((ofConfig config).run events).gone.card := by
  have hcard := ((WellNumbered.ofConfig config).run events).card_gone
  obtain ⟨-, hacquired, hcreated, -⟩ := run_accounts config events
  rw [heldIds, List.length_append, length_leasedIds, ← hacquired, idleIds_eq, List.length_map,
    hcreated] at hcard
  omega

end Pool

end ObjectStore
