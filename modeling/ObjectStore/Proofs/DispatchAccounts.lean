import ObjectStore.Proofs.DispatchInvariant
import ObjectStore.Proofs.PoolRequests

/-!
# Accounts of dispatches

What the steps of a transport keep of its pool: the accounts and the count of pending users, and
that nobody asks the pool for a channel but a dispatch that has none yet. A dispatch that is over
has left nothing behind: it is no user of the pool and no owner of a channel.
-/

namespace ObjectStore

open Http

namespace Pool

/-- To put another channel into the place of a leased one is to change the channel. -/
theorem put_eq_update {p : Pool} {user : Nat} {c : Channel} (hs : p.stage? user = some (.leased c))
    (d : Channel) : p.put user (.leased d) = p.update user fun _ => d := by
  have hfind : p.users.find? user = some (.leased c) := hs
  rw [put, update, Registry.modify, hfind]
  rfl

end Pool

namespace Transport

variable {limits : PoolConfig} {t t' : Transport} {d : Nat}

/-- The accounts of the pool hold, and only dispatches without a channel ask for one. -/
structure Orderly (limits : PoolConfig) (t : Transport) : Prop where
  balanced : t.pool.Balanced limits
  asks : ∀ d, t.pool.asks d = true → t.phase? d = some .acquiring

theorem answers_of_acquisition {e : Event} {f : Pool → Reply × Pool}
    (h : e.acquisition? = some (d, f)) (p : Pool) : Pool.Answers d p (f p).1 (f p).2 := by
  cases e <;>
    simp only [Event.acquisition?, Option.some.injEq, Prod.mk.injEq, reduceCtorEq] at h <;>
    obtain ⟨rfl, rfl⟩ := h
  · exact Pool.answers_start p _
  · exact Pool.answers_resume p _
  · exact Pool.answers_expire p _
  · exact Pool.answers_connected p _
  · exact Pool.answers_connectFailed p _ _
  · exact Pool.answers_connectFailed p _ _
  · exact Pool.answers_connectExpired p _

theorem balanced_of_acquisition {e : Event} {f : Pool → Reply × Pool}
    (h : e.acquisition? = some (d, f)) {p : Pool} (hp : p.Balanced limits) :
    (f p).2.Balanced limits := by
  cases e <;>
    simp only [Event.acquisition?, Option.some.injEq, Prod.mk.injEq, reduceCtorEq] at h <;>
    obtain ⟨rfl, rfl⟩ := h
  · exact hp.step (.start _)
  · exact hp.step (.resume _)
  · exact hp.step (.expire _)
  · exact hp.step (.connected _)
  · exact hp.step (.refused _ _)
  · exact hp.step (.handshakeFailed _)
  · exact hp.step (.connectExpired _)

namespace Orderly

/-- A dispatch with a channel asks for none. -/
theorem quiet {q : Phase} (h : t.Orderly limits) (hd : t.phase? d = some q)
    (hq : q ≠ .acquiring) : t.pool.asks d = false := by
  rw [Bool.eq_false_iff]
  intro hasks
  rw [h.asks d hasks] at hd
  exact hq (Option.some.inj hd).symm

/-- A step of one dispatch, which asks for a channel afterwards only if it has none. -/
theorem move {q : Option Phase} (h : t.Orderly limits) (hp : t'.pool.Balanced limits)
    (hphase : ∀ v, t'.phase? v = if v = d then q else t.phase? v)
    (hothers : ∀ v, v ≠ d → t'.pool.asks v = t.pool.asks v)
    (hself : t'.pool.asks d = true → q = some .acquiring) : t'.Orderly limits where
  balanced := hp
  asks v hv := by
    rw [hphase]
    split
    · rename_i hvd
      exact hself (hvd ▸ hv)
    · rename_i hvd
      rw [hothers v hvd] at hv
      exact h.asks v hv

/-- A step of a dispatch that asks for no channel, neither before nor afterwards. -/
theorem goOn {q : Phase} {q' : Option Phase} (h : t.Orderly limits) (hd : t.phase? d = some q)
    (hq : q ≠ .acquiring) (hp : t'.pool.Balanced limits)
    (hphase : ∀ v, t'.phase? v = if v = d then q' else t.phase? v)
    (hasks : ∀ v, t'.pool.asks v = t.pool.asks v) : t'.Orderly limits := by
  refine h.move hp hphase (fun v _ => hasks v) ?_
  intro hself
  rw [hasks, h.quiet hd hq] at hself
  cases hself

/-- A step of the pool for nobody. -/
theorem onPool (h : t.Orderly limits) (f : Pool → Pool) (hp : (f t.pool).Balanced limits)
    (hasks : ∀ v, (f t.pool).asks v = t.pool.asks v) : (t.onPool f).Orderly limits where
  balanced := hp
  asks v hv := h.asks v ((hasks v).symm.trans hv)

theorem register (h : t.Orderly limits) (d : Nat) (request : Request) (parser : Parser) :
    (t.register d request parser).Orderly limits := by
  unfold Transport.register
  split
  · exact h
  · exact h.move h.balanced (phase?_set rfl) (fun _ _ => rfl) (fun _ => rfl)

theorem acquiring {f : Pool → Reply × Pool} (h : t.Orderly limits)
    (hp : (f t.pool).2.Balanced limits)
    (hanswers : Pool.Answers d t.pool (f t.pool).1 (f t.pool).2) :
    (t.acquiring d f).Orderly limits := by
  unfold Transport.acquiring
  split
  · rename_i hd
    cases hf : f t.pool with
    | mk reply p =>
        rw [hf] at hp hanswers
        have hover (hfinal : reply.isFinal = true) (q : Option Phase) (hasks : p.asks d = true) :
            q = some .acquiring := by
          rw [hanswers.final hfinal] at hasks
          cases hasks
        cases reply with
        | leased c =>
            exact h.move hp (phase?_enter_of_some hd) hanswers.others (hover rfl _)
        | failed e =>
            exact h.move hp (phase?_enter_of_some hd) hanswers.others (hover rfl _)
        | nothing | waiting | connecting =>
            refine ⟨hp, fun v hv => ?_⟩
            by_cases hvd : v = d
            · exact hvd ▸ hd
            · exact h.asks v ((hanswers.others v hvd).symm.trans hv)
  · exact h

theorem send (h : t.Orderly limits) (d : Nat) : (t.send d).Orderly limits := by
  unfold Transport.send
  split
  · rename_i channel x c hd hx hc
    have hlease : t.pool.stage? d = some (.leased c) :=
      Pool.lease?_eq_some.1 ((channel?_eq t d).symm.trans hc)
    have hput (c' : Channel) : (t.pool.put d (.leased c')).Balanced limits :=
      Pool.put_eq_update hlease c' ▸ h.balanced.update d _
    have hasks (c' : Channel) (v : Nat) :
        (t.pool.put d (.leased c')).asks v = t.pool.asks v := by
      rw [Pool.put_eq_update hlease c', Pool.asks_update]
    split
    · exact h.goOn hd nofun (h.balanced.step (.release d)) (phase?_enter_of_some hd)
        (Pool.asks_release t.pool d)
    · simp only
      split
      · exact h.goOn hd nofun ((hput _).step (.close d)) (phase?_enter_of_some hd)
          fun v => (Pool.asks_close _ d v).trans (hasks _ v)
      · exact h.goOn hd nofun ((hput _).step (.send d)) (phase?_enter_of_some hd)
          fun v => (Pool.asks_update _ d _ v).trans (hasks _ v)
  · exact h

theorem settle (h : t.Orderly limits) (d : Nat) (outcome : Outcome) :
    (t.settle d outcome).Orderly limits := by
  unfold Transport.settle
  split
  · rename_i channel deadline hd
    exact h.goOn hd nofun h.balanced (phase?_enter_of_some hd) fun _ => rfl
  · exact h

theorem receive (h : t.Orderly limits) (d : Nat) (r : Response) :
    (t.receive d r).Orderly limits := by
  unfold Transport.receive
  split
  · split
    · exact h.settle d _
    · have hread : (t.onPool (·.received d)).Orderly limits :=
        h.onPool (·.received d) (h.balanced.step (.received d)) (Pool.asks_update t.pool d _)
      exact hread.settle d _
  · exact h

theorem expire (h : t.Orderly limits) (d : Nat) : (t.expire d).Orderly limits := by
  unfold Transport.expire
  split
  · split
    · exact h.settle d _
    · exact h
  · exact h

/-- A dispatch that goes away asks for nothing any more. -/
theorem abandon {q : Phase} (h : t.Orderly limits) (hp : t'.pool = t.pool.abandon d)
    (hphase : ∀ v, t'.phase? v = if v = d then some q else t.phase? v) : t'.Orderly limits := by
  refine h.move (hp ▸ h.balanced.step (.abandon d)) hphase ?_ ?_
  · intro v hv
    rw [hp, Pool.asks_abandon, if_neg hv]
  · intro hasks
    rw [hp, Pool.asks_abandon, if_pos rfl] at hasks
    cases hasks

theorem cancel (h : t.Orderly limits) (d : Nat) : (t.cancel d).Orderly limits := by
  unfold Transport.cancel
  split
  · rename_i hd
    exact h.abandon rfl (phase?_enter_of_some hd)
  · exact h.settle d _
  · exact h

theorem drop (h : t.Orderly limits) (d : Nat) : (t.drop d).Orderly limits := by
  unfold Transport.drop
  split
  · rename_i hd
    exact h.abandon rfl (phase?_enter_of_some hd)
  · rename_i channel deadline hd
    exact h.goOn hd nofun (h.balanced.step (.close d)) (phase?_enter_of_some hd)
      (Pool.asks_close t.pool d)
  · exact h

theorem route (h : t.Orderly limits) (d : Nat) : (t.route d).Orderly limits := by
  unfold Transport.route
  split
  · rename_i channel outcome hd
    exact h.goOn hd nofun h.balanced (phase?_enter_of_some hd) fun _ => rfl
  · exact h

/-- A dispatch disposes of its channel and goes on. -/
theorem dispose {q : Phase} {q' : Option Phase} (h : t.Orderly limits) (hd : t.phase? d = some q)
    (hq : q ≠ .acquiring) (how : Disposal) (hp : t'.pool = t.pool.dispose d how)
    (hphase : ∀ v, t'.phase? v = if v = d then q' else t.phase? v) : t'.Orderly limits := by
  refine h.goOn hd hq ?_ hphase fun v => hp ▸ Pool.asks_dispose t.pool d how v
  rw [hp]
  cases how with
  | release => exact h.balanced.step (.release d)
  | close => exact h.balanced.step (.close d)

theorem tell (h : t.Orderly limits) (d : Nat) : (t.tell d).Orderly limits := by
  unfold Transport.tell
  split
  · rename_i channel owner r hd
    simp only
    split
    · exact h.dispose hd nofun (Completion.disposal r) rfl (phase?_enter_of_some hd)
    · exact h.dispose hd nofun (Completion.disposal r) rfl (phase?_enter_of_some hd)
  · rename_i channel owner e hd
    exact h.dispose hd nofun .close rfl (phase?_enter_of_some hd)
  · rename_i channel owner hd
    exact h.dispose hd nofun .close rfl (phase?_enter_of_some hd)
  · rename_i channel outcome hd
    exact h.dispose hd nofun .close rfl (phase?_enter_of_some hd)
  · exact h

theorem parse (h : t.Orderly limits) (d : Nat) : (t.parse d).Orderly limits := by
  unfold Transport.parse
  split
  · rename_i channel owner r hd
    exact h.goOn hd nofun h.balanced (phase?_enter_of_some hd) fun _ => rfl
  · exact h

theorem finish (h : t.Orderly limits) (d : Nat) : (t.finish d).Orderly limits := by
  unfold Transport.finish
  split
  · rename_i channel hd
    exact h.goOn hd nofun h.balanced (phase?_enter_of_some hd) fun _ => rfl
  · exact h

theorem forget (h : t.Orderly limits) (d : Nat) : (t.forget d).Orderly limits := by
  unfold Transport.forget
  split
  · rename_i hd
    exact h.goOn hd nofun h.balanced (phase?_erase rfl) fun _ => rfl
  · exact h

/-- Each step keeps the accounts, and leaves no request behind. -/
theorem step (h : t.Orderly limits) (e : Event) : (t.step e).Orderly limits := by
  have hacquire {d : Nat} {f : Pool → Reply × Pool} (he : e.acquisition? = some (d, f)) :
      (t.acquiring d f).Orderly limits :=
    h.acquiring (balanced_of_acquisition he h.balanced) (answers_of_acquisition he t.pool)
  cases e with
  | register d request parser => exact h.register d request parser
  | acquire d | resume d | acquireExpired d | connected d | refused d _ | handshakeFailed d
  | connectExpired d => exact hacquire rfl
  | send d => exact h.send d
  | response d r => exact h.receive d r
  | failure d e => exact h.settle d _
  | expire d => exact h.expire d
  | cancel d => exact h.cancel d
  | route d => exact h.route d
  | tell d => exact h.tell d
  | parse d => exact h.parse d
  | finish d => exact h.finish d
  | drop d => exact h.drop d
  | forget d => exact h.forget d
  | peerClosed c =>
      exact h.onPool (·.peerClosed c) (h.balanced.step (.peerClosed c)) (t.pool.asks_peerClosed c)
  | advance nanos =>
      exact h.onPool (·.advance nanos) (h.balanced.step (.advance nanos)) fun _ => rfl
  | evict => exact h.onPool (·.evict.2) (h.balanced.step .evict) fun _ => rfl
  | shutdown => exact h.onPool Pool.shutdown (h.balanced.step .shutdown) t.pool.asks_shutdown

theorem run (h : t.Orderly limits) (events : List Event) : (t.run events).Orderly limits := by
  induction events generalizing t with
  | nil => exact h
  | cons e rest ih => exact ih (h.step e)

theorem ofConfig {c : ClientConfig} {source : CredentialsSource} {epoch : Calendar.Instant}
    (h : Transport.ofConfig c source epoch = .ok t) : t.Orderly t.pool.config := by
  obtain ⟨⟨config, hpool⟩, -, -⟩ := ofConfig_eq_ok h
  rw [show t.pool.config = config from congrArg Pool.config hpool]
  refine ⟨hpool ▸ Pool.Balanced.ofConfig config, ?_⟩
  intro v hv
  rw [hpool] at hv
  cases hv

end Orderly

/-- A dispatch that needs no channel and asks for none is no user of the pool, and no channel
belongs to it. -/
theorem Sound.left_nothing (hs : t.Sound) (h : t.Orderly limits) (hheld : t.held? d = none)
    (hphase : t.phase? d ≠ some .acquiring) :
    t.pool.stage? d = none ∧ ∀ c, t.routes.owner? c ≠ some d := by
  constructor
  · cases hstage : t.pool.stage? d with
    | none => rfl
    | some s =>
        cases hleased : s.isLeased with
        | false =>
            refine absurd (h.asks d ?_) hphase
            rw [Pool.asks, hstage, Option.any_some, hleased]
            rfl
        | true =>
            obtain ⟨c, hc⟩ := Option.isSome_iff_exists.1 hleased
            have hlease := hs.lease d
            rw [hheld, Pool.leaseId?, Pool.view?, Pool.lease?, hstage, Option.bind_some, hc]
              at hlease
            cases hlease
  · intro c hc
    rw [attached?_held? (hs.owner c d hc)] at hheld
    cases hheld

end Transport

end ObjectStore
