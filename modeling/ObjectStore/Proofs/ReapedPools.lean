import Mathlib.Data.List.Induction
import ObjectStore.Pool.Reaped
import ObjectStore.Proofs.ClosedChannels
import ObjectStore.Proofs.PoolRecency
import ObjectStore.Proofs.PoolShutdown

/-!
# Idle times under a reaper

A channel that is idle for longer than the limit is closed by the next tick of the reaper. A tick
that spares a channel is followed by one after at most the limit, so no channel is idle for longer
than twice the limit. The stamp of a channel tells since when it is idle, whatever users did.
-/

namespace ObjectStore

namespace Reaped

variable {s t : Reaped} {m : Move} {moves : List Move} {config : PoolConfig} {limit : Duration}

/-! ## Moves -/

/-- What a move does. -/
inductive Moves (s : Reaped) : Move → Reaped → Prop
  | step (e : Pool.Event) (hdue : ∀ r ∈ s.reaper, (s.pool.step e).2.now ≤ r.next) :
      Moves s (.step e) ⟨(s.pool.step e).2, s.reaper⟩
  | stops {r : Reaper} (hreaper : s.reaper = some r) (hclosed : s.pool.isClosed = true) :
      Moves s .tick ⟨s.pool, none⟩
  | sweeps {r : Reaper} (hreaper : s.reaper = some r) (hnow : s.pool.now = r.next) :
      Moves s .tick ⟨s.pool.evict.2, some { r with next := r.next + r.period }⟩

theorem moves_of_move? (h : s.move? m = some t) : Moves s m t := by
  cases m with
  | step e =>
      simp only [move?, Option.all_eq_true, decide_eq_true_eq, Option.ite_none_right_eq_some,
        Option.some.injEq] at h
      obtain ⟨hdue, rfl⟩ := h
      exact .step e hdue
  | tick =>
      cases hreaper : s.reaper with
      | none => simp [move?, hreaper] at h
      | some r =>
          simp only [move?, hreaper, Option.ite_none_right_eq_some, Option.some.injEq] at h
          obtain ⟨hnow, rfl⟩ := h
          unfold Reaper.tick
          split
          · next hclosed => exact .stops hreaper hclosed
          · exact .sweeps hreaper hnow

theorem run?_append (s : Reaped) (before after : List Move) :
    s.run? (before ++ after) = (s.run? before).bind fun r => r.run? after :=
  List.foldlM_append

theorem run?_concat : s.run? (moves ++ [m]) = some t ↔
    ∃ r, s.run? moves = some r ∧ r.move? m = some t := by
  rw [run?_append, Option.bind_eq_some_iff]
  simp [run?]

/-- Each move is a step of the pool, or none. -/
theorem Moves.pool (h : Moves s m t) : ∃ events, t.pool = s.pool.run events := by
  cases h with
  | step e _ => exact ⟨[e], rfl⟩
  | stops _ _ => exact ⟨[], rfl⟩
  | sweeps _ _ => exact ⟨[.evict], rfl⟩

theorem pool_of_run? (h : s.run? moves = some t) : ∃ events, t.pool = s.pool.run events := by
  induction moves using List.reverseRecOn generalizing t with
  | nil => exact ⟨[], congrArg Reaped.pool (Option.some.inj h).symm⟩
  | append_singleton before m ih =>
      obtain ⟨r, hbefore, hmove⟩ := run?_concat.1 h
      obtain ⟨events, hevents⟩ := ih hbefore
      obtain ⟨more, hmore⟩ := (moves_of_move? hmove).pool
      exact ⟨events ++ more, by rw [hmore, hevents, Pool.run_append]⟩

/-- The pool of a run is one that users and sweeps alone have brought about. -/
theorem exists_events (h : (ofConfig config).run? moves = some s) :
    ∃ events, s.pool = (Pool.ofConfig config).run events :=
  pool_of_run? h

/-! ## Stamps -/

theorem Moves.idleStep (h : Moves s m t) : Pool.IdleStep s.pool t.pool := by
  cases h with
  | step e _ => exact Pool.idleStep_step s.pool e
  | stops _ _ => exact Pool.idleStep_of_eq rfl rfl
  | sweeps _ _ => exact Pool.idleStep_step s.pool .evict

theorem wellNumbered_of_run? (h : (ofConfig config).run? moves = some s) :
    s.pool.WellNumbered := by
  obtain ⟨events, hevents⟩ := exists_events h
  rw [hevents]
  exact (Pool.WellNumbered.ofConfig config).run events

/-- A stamp that is there after one more move was there before, or is a new one. -/
theorem stamp_cases {id time : Nat} (hrun : (ofConfig config).run? moves = some s)
    (hmove : s.move? m = some t) (hstamp : (id, time) ∈ t.pool.stamps) :
    (id, time) ∈ s.pool.stamps ∨ id ∉ s.pool.idleIds ∧ time = t.pool.now :=
  Pool.stamp_cases (wellNumbered_of_run? hrun).exclusive (moves_of_move? hmove).idleStep hstamp

theorem stamp_unique {id time time' : Nat} (hrun : (ofConfig config).run? moves = some s)
    (h : (id, time) ∈ s.pool.stamps) (h' : (id, time') ∈ s.pool.stamps) : time = time' :=
  Pool.stamp_unique (wellNumbered_of_run? hrun).exclusive h h'

/-- The time since when a channel is idle is that of its stamp. -/
theorem stamp_of_idleSince {id time : Nat} (h : IdleSince (ofConfig config) id moves time)
    (hrun : (ofConfig config).run? moves = some s) : (id, time) ∈ s.pool.stamps := by
  induction h generalizing s with
  | @enters moves m r t hbefore hmove hnot hafter =>
      -- Moves have one outcome, so the states told of are those of the run.
      obtain ⟨r', hr', ht⟩ := run?_concat.1 hrun
      cases hr'.symm.trans hbefore
      cases ht.symm.trans hmove
      rw [← Pool.idleIds_eq] at hnot hafter
      obtain ⟨time, hstamp⟩ := Pool.mem_idleIds.1 hafter
      rcases stamp_cases hbefore hmove hstamp with hold | ⟨-, rfl⟩
      · exact absurd (Pool.mem_idleIds.2 ⟨time, hold⟩) hnot
      · exact hstamp
  | @stays moves m t time h hrun' hafter ih =>
      cases hrun'.symm.trans hrun
      obtain ⟨r, hr, hmove⟩ := run?_concat.1 hrun
      have hbefore := ih hr
      rw [← Pool.idleIds_eq] at hafter
      obtain ⟨time', hstamp⟩ := Pool.mem_idleIds.1 hafter
      rcases stamp_cases hr hmove hstamp with hold | ⟨hnot, -⟩
      · rwa [stamp_unique hr hbefore hold]
      · exact absurd (Pool.mem_idleIds.2 ⟨time, hbefore⟩) hnot

/-- The stamp of an idle channel tells since when the channel is idle. -/
theorem idleSince_of_stamp {id time : Nat} (hrun : (ofConfig config).run? moves = some s)
    (hstamp : (id, time) ∈ s.pool.stamps) : IdleSince (ofConfig config) id moves time := by
  induction moves using List.reverseRecOn generalizing s with
  | nil =>
      cases hrun
      cases hstamp
  | append_singleton before m ih =>
      obtain ⟨r, hr, hmove⟩ := run?_concat.1 hrun
      have hafter : id ∈ s.pool.idle.map (·.id) :=
        Pool.idleIds_eq s.pool ▸ Pool.mem_idleIds.2 ⟨time, hstamp⟩
      rcases stamp_cases hr hmove hstamp with hold | ⟨hnot, rfl⟩
      · exact .stays (ih hr hold) hrun hafter
      · exact .enters hr hmove (Pool.idleIds_eq r.pool ▸ hnot) hafter

/-! ## The next tick -/

/-- The reaper goes on until the pool is closed. The next tick is at most the limit away, and before
any idle channel has been idle for twice the limit. -/
structure Timely (limit : Duration) (s : Reaped) : Prop where
  stopped : s.reaper = none → s.pool.isClosed = true
  period : ∀ r ∈ s.reaper, r.period = limit.nanos
  ahead : ∀ r ∈ s.reaper, s.pool.now ≤ r.next
  near : ∀ r ∈ s.reaper, r.next ≤ s.pool.now + limit.nanos
  soon : ∀ r ∈ s.reaper, ∀ c ∈ s.pool.stamps, r.next ≤ c.2 + 2 * limit.nanos

theorem timely_ofConfig (hlimit : config.maxIdle = some limit) (hpos : 0 < limit.nanos) :
    Timely limit (ofConfig config) := by
  have hreaper : (ofConfig config).reaper = some ⟨limit.nanos, 0 + limit.nanos, hpos⟩ := by
    simp only [ofConfig, Reaper.ofPool, Pool.ofConfig, hlimit]
    rw [dif_pos hpos]
  have hstamps : (ofConfig config).pool.stamps = [] := rfl
  refine ⟨?_, ?_, ?_, ?_, by simp [hstamps]⟩ <;> rw [hreaper]
  · simp
  · rintro r ⟨⟩
    rfl
  · rintro r ⟨⟩
    exact Nat.zero_le _
  · rintro r ⟨⟩
    exact Nat.le_refl _

theorem Timely.step (h : Timely limit s) {e : Pool.Event}
    (hdue : ∀ r ∈ s.reaper, (s.pool.step e).2.now ≤ r.next) :
    Timely limit ⟨(s.pool.step e).2, s.reaper⟩ := by
  have hmove := Pool.idleStep_step s.pool e
  have hnow : s.pool.now ≤ (s.pool.step e).2.now := by
    cases hmove with
    | thins hnow _ => exact hnow
    | pools hnow _ _ => exact Nat.le_of_eq hnow.symm
  refine ⟨fun hnone => ?_, h.period, hdue, fun r hr => ?_, fun r hr c hc => ?_⟩
  · by_cases he : e = .shutdown
    · subst he
      exact Pool.shutdown_isClosed s.pool
    · exact (Pool.step_isClosed he).trans (h.stopped hnone)
  · exact Nat.le_trans (h.near r hr) (Nat.add_le_add_right hnow _)
  · -- Only a stamp that is set now is new, and the next tick is at most the limit away.
    have hnear := h.near r hr
    cases hmove with
    | thins _ hstamps => exact h.soon r hr c (hstamps.subset hc)
    | pools _ _ hstamps =>
        rw [hstamps] at hc
        rcases List.mem_cons.1 hc with rfl | hold
        · dsimp only
          omega
        · exact h.soon r hr c hold

/-- A channel that a tick spares has been idle for no longer than the limit, and the next tick is
the limit away. -/
theorem Timely.sweeps (h : Timely limit s) (hlimit : s.pool.config.maxIdle = some limit)
    {r : Reaper} (hreaper : s.reaper = some r) (hnow : s.pool.now = r.next) :
    Timely limit ⟨s.pool.evict.2, some { r with next := r.next + r.period }⟩ := by
  have hperiod := h.period r hreaper
  refine ⟨by simp, ?_, ?_, ?_, ?_⟩
  · rintro _ ⟨⟩
    exact hperiod
  · rintro _ ⟨⟩
    change s.pool.now ≤ r.next + r.period
    omega
  · rintro _ ⟨⟩
    change r.next + r.period ≤ s.pool.now + limit.nanos
    omega
  · rintro _ ⟨⟩ _ hstamp
    obtain ⟨c, hc, rfl⟩ := List.mem_map.1 hstamp
    have hreusable := (List.mem_filter.1 hc).2
    rw [hlimit, Channel.isReusable_iff] at hreusable
    have hidle := hreusable.2 limit rfl
    change r.next + r.period ≤ c.lastUsed + 2 * limit.nanos
    omega

theorem Timely.move (h : Timely limit s) (hlimit : s.pool.config.maxIdle = some limit)
    (hmove : Moves s m t) : Timely limit t := by
  cases hmove with
  | step e hdue => exact h.step hdue
  | stops _ hclosed => exact ⟨fun _ => hclosed, by simp, by simp, by simp, by simp⟩
  | sweeps hreaper hnow => exact h.sweeps hlimit hreaper hnow

theorem config_of_run? (h : (ofConfig config).run? moves = some s) : s.pool.config = config := by
  obtain ⟨events, hevents⟩ := exists_events h
  rw [hevents]
  exact ((Pool.Accounts.ofConfig config).run events).config

theorem timely_of_run? (hlimit : config.maxIdle = some limit) (hpos : 0 < limit.nanos)
    (hrun : (ofConfig config).run? moves = some s) : Timely limit s := by
  induction moves using List.reverseRecOn generalizing s with
  | nil =>
      cases hrun
      exact timely_ofConfig hlimit hpos
  | append_singleton before m ih =>
      obtain ⟨r, hr, hmove⟩ := run?_concat.1 hrun
      exact (ih hr).move (config_of_run? hr ▸ hlimit) (moves_of_move? hmove)

/-! ## Sweeps -/

theorem idle_of_isClosed (hrun : (ofConfig config).run? moves = some s)
    (hclosed : s.pool.isClosed = true) : s.pool.idle = [] := by
  obtain ⟨events, hevents⟩ := exists_events hrun
  have hopen : (Pool.ofConfig config).isClosed = true → (Pool.ofConfig config).idle = [] := nofun
  rw [hevents] at hclosed ⊢
  exact Pool.idle_of_isClosed_run hopen events hclosed

/-- In a closed pool there is nothing to sweep, so the reaper may as well stop. -/
theorem pool_of_sweep (hrun : (ofConfig config).run? moves = some s) (hsweep : m.isSweep = true)
    (hmove : s.move? m = some t) : t.pool = s.pool.evict.2 := by
  cases moves_of_move? hmove with
  | step e _ =>
      obtain rfl : e = .evict := of_decide_eq_true hsweep
      rfl
  | stops _ hclosed => exact (Pool.evict_of_idle_nil (idle_of_isClosed hrun hclosed)).symm
  | sweeps _ _ => rfl

/-- A sweep spares an open channel that has been idle for no longer than the limit. -/
theorem mem_idle_of_sweep (hlimit : config.maxIdle = some limit)
    (hrun : (ofConfig config).run? moves = some s) (hsweep : m.isSweep = true)
    (hmove : s.move? m = some t) {c : Channel} (hc : c ∈ s.pool.idle) (hopen : c.isOpen = true)
    {time : Nat} (hsince : IdleSince (ofConfig config) c.id moves time)
    (hnow : s.pool.now ≤ time + limit.nanos) : c ∈ t.pool.idle := by
  have hstamp : (c.id, c.lastUsed) ∈ s.pool.stamps := List.mem_map_of_mem hc
  have htime : time = c.lastUsed :=
    stamp_unique hrun (stamp_of_idleSince hsince hrun) hstamp
  rw [pool_of_sweep hrun hsweep hmove]
  refine List.mem_filter.2 ⟨hc, Channel.isReusable_iff.2 ⟨hopen, fun limit' hlimit' => ?_⟩⟩
  rw [config_of_run? hrun, hlimit] at hlimit'
  cases hlimit'
  rwa [← htime]

theorem closed_of_run? (hrun : (ofConfig config).run? moves = some s) :
    s.pool.closed = s.pool.gone.card := by
  obtain ⟨events, hevents⟩ := exists_events hrun
  rw [hevents]
  exact Pool.closed_eq_card_gone config events

/-! ## The clock -/

theorem run?_cons (s : Reaped) (m : Move) (rest : List Move) :
    s.run? (m :: rest) = (s.move? m).bind fun t => t.run? rest := List.foldlM_cons

/-- The clock may run up to a time that is not past the next tick. -/
theorem move?_advance {p : Pool} {reaper : Option Reaper} {time : Nat} (hnow : p.now ≤ time)
    (hdue : ∀ r ∈ reaper, time ≤ r.next) :
    move? ⟨p, reaper⟩ (.step (.advance (time - p.now))) =
      some ⟨{ p with now := time }, reaper⟩ := by
  have htime : p.now + (time - p.now) = time := Nat.add_sub_of_le hnow
  simp only [move?, Pool.step, Pool.advance, htime]
  exact if_pos ((Option.all_eq_true _ _).2 fun r hr => decide_eq_true (hdue r hr))

theorem move?_tick {r : Reaper} {p : Pool} (hnow : p.now = r.next) :
    move? ⟨p, some r⟩ .tick = some (r.tick p) := if_pos hnow

/-- The clock runs up to the next tick, which follows. -/
theorem run?_tick {r : Reaper} {p : Pool} (hahead : p.now ≤ r.next) (later : List Move) :
    run? ⟨p, some r⟩ (.step (.advance (r.next - p.now)) :: .tick :: later) =
      (r.tick { p with now := r.next }).run? later := by
  rw [run?_cons, move?_advance hahead (by simp), Option.bind_some, run?_cons, move?_tick rfl,
    Option.bind_some]

/-- To let the clock run up to some time, with the ticks on the way, is a run of moves. -/
theorem run?_runTo (r : Reaper) (p : Pool) (time : Nat) (hahead : p.now ≤ r.next)
    (hnow : p.now ≤ time) : ∃ later, run? ⟨p, some r⟩ later =
      some ⟨(r.runTo p time).2, (r.runTo p time).1⟩ := by
  -- By the ticks that are left: none, the one that finds the pool closed, or one and the later ones.
  fun_induction Reaper.runTo r p time with
  | case1 r p hearly =>
      refine ⟨[.step (.advance (time - p.now))], ?_⟩
      rw [run?_cons, move?_advance hnow (by simpa using Nat.le_of_lt hearly)]
      rfl
  | case2 r p hlate q hclosed =>
      have htick : r.tick q = ⟨q, none⟩ := if_pos hclosed
      have hrest : q.now ≤ time := Nat.le_of_not_lt hlate
      refine ⟨_, (run?_tick hahead [.step (.advance (time - q.now))]).trans ?_⟩
      rw [htick, run?_cons, move?_advance hrest (by simp)]
      rfl
  | case3 r p hlate q hopen ih =>
      have htick : r.tick q = ⟨q.evict.2, some { r with next := r.next + r.period }⟩ :=
        if_neg hopen
      obtain ⟨later, hlater⟩ := ih (Nat.le_add_right _ _) (Nat.le_of_not_lt hlate)
      exact ⟨_, (run?_tick hahead later).trans (htick ▸ hlater)⟩

/-! ## Runs -/

/-- What a reaper brings about that was started with its pool. -/
structure Upkeep (config : PoolConfig) (limit : Duration) (moves : List Move) (s : Reaped) :
    Prop where
  /-- Each idle channel has been idle since a certain time. -/
  known : ∀ id ∈ s.pool.idleIds, ∃! time, IdleSince (ofConfig config) id moves time
  /-- No channel has been idle for longer than twice the limit. -/
  bounded : ∀ id time, IdleSince (ofConfig config) id moves time →
    s.pool.now ≤ time + 2 * limit.nanos
  /-- A sweep spares the open channels that have been idle for no longer than the limit. -/
  spared : ∀ m t, m.isSweep = true → s.move? m = some t → ∀ c ∈ s.pool.idle, c.isOpen = true →
    ∀ time, IdleSince (ofConfig config) c.id moves time → s.pool.now ≤ time + limit.nanos →
      c ∈ t.pool.idle
  /-- As many channels are counted as closed as are closed. -/
  counted : s.pool.closed = s.pool.gone.card
  /-- The channels that a sweep takes away were not closed before, and these alone are counted. -/
  swept : ∀ m t, m.isSweep = true → s.move? m = some t →
    Disjoint s.pool.gone (s.pool.idleIds.toFinset \ t.pool.idleIds.toFinset) ∧
      t.pool.gone = s.pool.gone ∪ (s.pool.idleIds.toFinset \ t.pool.idleIds.toFinset) ∧
      t.pool.closed =
        s.pool.closed + (s.pool.idleIds.toFinset \ t.pool.idleIds.toFinset).card
  /-- Whatever comes later, a channel that is closed stays so. -/
  lasting : ∀ later t, s.run? later = some t → s.pool.gone ⊆ t.pool.gone
  /-- To let the clock run to some time, with the ticks on the way, is a run of moves. -/
  timed : ∀ r time, s.reaper = some r → s.pool.now ≤ time → ∃ later,
    s.run? later = some ⟨(r.runTo s.pool time).2, (r.runTo s.pool time).1⟩

/-- In every run of a pool with a limit, the reaper of which was started with the pool: no channel
has been idle for longer than twice the limit, no sweep closes an open channel that has been idle
for no longer than the limit, and each channel that is closed is counted once. -/
theorem reaped_upkeep (hlimit : config.maxIdle = some limit) (hpos : 0 < limit.nanos)
    (hrun : (ofConfig config).run? moves = some s) : Upkeep config limit moves s where
  known id hid := by
    obtain ⟨time, hstamp⟩ := Pool.mem_idleIds.1 hid
    exact ⟨time, idleSince_of_stamp hrun hstamp, fun _ hsince =>
      stamp_unique hrun (stamp_of_idleSince hsince hrun) hstamp⟩
  bounded id time hsince := by
    have htimely := timely_of_run? hlimit hpos hrun
    have hstamp := stamp_of_idleSince hsince hrun
    cases hreaper : s.reaper with
    | none =>
        have hidle := idle_of_isClosed hrun (htimely.stopped hreaper)
        rw [Pool.stamps, hidle] at hstamp
        cases hstamp
    | some r => exact Nat.le_trans (htimely.ahead r hreaper) (htimely.soon r hreaper _ hstamp)
  spared m t hsweep hmove c hc hopen time hsince hnow :=
    mem_idle_of_sweep hlimit hrun hsweep hmove hc hopen hsince hnow
  counted := closed_of_run? hrun
  swept m t hsweep hmove := by
    have hdisjoint := Pool.disjoint_gone_swept s.pool
    have hgone := (wellNumbered_of_run? hrun).gone_evict
    rw [Pool.swept, ← pool_of_sweep hrun hsweep hmove] at hdisjoint hgone
    refine ⟨hdisjoint, hgone, ?_⟩
    rw [closed_of_run? (run?_concat.2 ⟨s, hrun, hmove⟩), closed_of_run? hrun, hgone,
      Finset.card_union_of_disjoint hdisjoint]
  lasting later t hlater := by
    obtain ⟨events, hevents⟩ := pool_of_run? hlater
    rw [hevents]
    exact Pool.gone_subset_run s.pool events
  timed r time hreaper hnow := by
    have hahead := (timely_of_run? hlimit hpos hrun).ahead r hreaper
    have hstate : s = ⟨s.pool, some r⟩ := by rw [← hreaper]
    rw [hstate]
    exact run?_runTo r s.pool time hahead hnow

/-- Idle channels stay good for 10 nanoseconds. -/
def shortLimit : PoolConfig := ⟨"", 1, 0, .zero, .zero, some (.cap 10)⟩

/-- A channel is given back right after a tick, and the clock runs up to the second tick after. -/
def lateRelease : List Move :=
  [.step (.start 1), .step (.connected 1), .step (.advance 10), .tick, .step (.release 1),
    .step (.advance 10), .tick, .step (.advance 10)]

/-- The tick between spares the channel, which is then idle for twice the limit. It is closed and
counted at the next tick. -/
theorem reaped_upkeep_lateRelease :
    shortLimit.maxIdle = some (.cap 10) ∧ 0 < (Duration.cap 10).nanos ∧
    ∃ s t, (ofConfig shortLimit).run? lateRelease = some s ∧ s.move? .tick = some t ∧
      IdleSince (ofConfig shortLimit) 1 lateRelease 10 ∧ s.pool.now = 30 ∧
      s.pool.now ≤ 10 + 2 * (Duration.cap 10).nanos ∧
      t.pool.gone = s.pool.gone ∪ {1} ∧ t.pool.closed = s.pool.closed + 1 := by
  have hpos : 0 < (Duration.cap 10).nanos := by decide
  obtain ⟨s, t, hrun, hnow, hstamp, htick, hswept⟩ : ∃ s t,
      (ofConfig shortLimit).run? lateRelease = some s ∧ s.pool.now = 30 ∧
      (1, 10) ∈ s.pool.stamps ∧ s.move? .tick = some t ∧
      s.pool.idleIds.toFinset \ t.pool.idleIds.toFinset = {1} :=
    ⟨_, _, rfl, rfl, by decide, rfl, by decide⟩
  have hsince : IdleSince (ofConfig shortLimit) 1 lateRelease 10 := idleSince_of_stamp hrun hstamp
  have hupkeep := reaped_upkeep rfl hpos hrun
  obtain ⟨-, hgone, hclosed⟩ := hupkeep.swept .tick t rfl htick
  rw [hswept] at hgone hclosed
  exact ⟨rfl, hpos, s, t, hrun, htick, hsince, hnow, hupkeep.bounded 1 10 hsince, hgone, hclosed⟩

end Reaped

end ObjectStore
