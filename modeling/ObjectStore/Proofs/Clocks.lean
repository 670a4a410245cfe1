import ObjectStore.Client
import ObjectStore.Proofs.PoolStages

/-!
# What takes no time

There is one clock, that of the pool. Only the advance of the clock is a step that takes time, for a
pool, for a transport and for a client.
-/

namespace ObjectStore

namespace Pool

theorem now_proceed (p : Pool) (user : Nat) : (p.proceed user).2.now = p.now := by
  unfold proceed
  split <;> rfl

theorem now_start (p : Pool) (user : Nat) : (p.start user).2.now = p.now := by
  unfold start
  split
  · rfl
  split
  · rfl
  split
  · exact now_proceed { p with free := p.free - 1 } user
  split <;> rfl

theorem now_resume (p : Pool) (user : Nat) : (p.resume user).2.now = p.now := by
  unfold resume
  split
  · simp only
    split
    · exact giveBack_now _
    · exact now_proceed { p with pending := p.pending - 1 } user
  · split <;> rfl
  · rfl

theorem now_expire (p : Pool) (user : Nat) : (p.expire user).2.now = p.now := by
  unfold expire
  split
  · split
    · exact now_resume p user
    split <;> rfl
  · rfl

theorem now_connected (p : Pool) (user : Nat) : (p.connected user).2.now = p.now := by
  unfold connected
  split <;> rfl

theorem now_connectFailed (p : Pool) (user : Nat) (e : PoolError) :
    (p.connectFailed user e).2.now = p.now := by
  unfold connectFailed
  split
  · exact giveBack_now _
  · rfl

theorem now_connectExpired (p : Pool) (user : Nat) : (p.connectExpired user).2.now = p.now := by
  unfold connectExpired
  split
  · split
    · exact now_connectFailed p user _
    · rfl
  · rfl

theorem now_release (p : Pool) (user : Nat) : (p.release user).now = p.now := by
  unfold release
  split
  · simp only
    split <;> exact giveBack_now _
  · rfl

theorem now_close (p : Pool) (user : Nat) : (p.close user).now = p.now := by
  unfold close
  split
  · exact giveBack_now _
  · rfl

theorem now_dispose (p : Pool) (user : Nat) (how : Disposal) : (p.dispose user how).now = p.now := by
  cases how with
  | release => exact now_release p user
  | close => exact now_close p user

theorem now_abandon (p : Pool) (user : Nat) : (p.abandon user).now = p.now := by
  unfold abandon
  split
  · rfl
  · exact giveBack_now _
  · exact giveBack_now _
  · exact now_close p user
  · rfl

theorem now_shutdown (p : Pool) : p.shutdown.now = p.now := by
  unfold shutdown
  split <;> rfl

end Pool

namespace Transport

/-- Whether the clock runs in a step. -/
def Event.takesTime : Event → Bool
  | .advance _ => true
  | _ => false

theorem now_register (t : Transport) (d : Nat) (request : Request) (parser : Parser) :
    (t.register d request parser).pool.now = t.pool.now := by
  unfold register
  split <;> rfl

theorem now_acquiring (t : Transport) (d : Nat) {step : Pool → Reply × Pool}
    (h : (step t.pool).2.now = t.pool.now) : (t.acquiring d step).pool.now = t.pool.now := by
  unfold acquiring
  split
  · simp only
    split <;> exact h
  · rfl

theorem now_send (t : Transport) (d : Nat) : (t.send d).pool.now = t.pool.now := by
  unfold send
  split
  · split
    · exact Pool.now_release t.pool d
    · simp only
      split
      · exact Pool.now_close _ d
      · rfl
  · rfl

theorem now_settle (t : Transport) (d : Nat) (outcome : Outcome) :
    (t.settle d outcome).pool.now = t.pool.now := by
  unfold settle
  split <;> rfl

theorem now_receive (t : Transport) (d : Nat) (r : Http.Response) :
    (t.receive d r).pool.now = t.pool.now := by
  unfold receive
  split
  · split
    · exact now_settle t d _
    · exact now_settle (t.onPool (·.received d)) d _
  · rfl

theorem now_expire (t : Transport) (d : Nat) : (t.expire d).pool.now = t.pool.now := by
  unfold expire
  split
  · split
    · exact now_settle t d _
    · rfl
  · rfl

theorem now_cancel (t : Transport) (d : Nat) : (t.cancel d).pool.now = t.pool.now := by
  unfold cancel
  split
  · exact Pool.now_abandon t.pool d
  · exact now_settle t d _
  · rfl

theorem now_tell (t : Transport) (d : Nat) : (t.tell d).pool.now = t.pool.now := by
  unfold tell
  split
  · simp only
    split <;> exact Pool.now_dispose t.pool d _
  · exact Pool.now_close t.pool d
  · exact Pool.now_close t.pool d
  · exact Pool.now_close t.pool d
  · rfl

theorem now_drop (t : Transport) (d : Nat) : (t.drop d).pool.now = t.pool.now := by
  unfold drop
  split
  · exact Pool.now_abandon t.pool d
  · exact Pool.now_close t.pool d
  · rfl

theorem now_forget (t : Transport) (d : Nat) : (t.forget d).pool.now = t.pool.now := by
  unfold forget
  split <;> rfl

theorem now_step {e : Event} (h : e.takesTime = false) (t : Transport) :
    (t.step e).pool.now = t.pool.now := by
  cases e with
  | register d request parser => exact now_register t d request parser
  | acquire d => exact now_acquiring t d (Pool.now_start t.pool d)
  | resume d => exact now_acquiring t d (Pool.now_resume t.pool d)
  | acquireExpired d => exact now_acquiring t d (Pool.now_expire t.pool d)
  | connected d => exact now_acquiring t d (Pool.now_connected t.pool d)
  | refused d cause => exact now_acquiring t d (Pool.now_connectFailed t.pool d _)
  | handshakeFailed d => exact now_acquiring t d (Pool.now_connectFailed t.pool d _)
  | connectExpired d => exact now_acquiring t d (Pool.now_connectExpired t.pool d)
  | send d => exact now_send t d
  | response d r => exact now_receive t d r
  | failure d e => exact now_settle t d _
  | expire d => exact now_expire t d
  | cancel d => exact now_cancel t d
  | route d =>
      simp only [step, route]
      split <;> rfl
  | tell d => exact now_tell t d
  | parse d =>
      simp only [step, parse]
      split <;> rfl
  | finish d =>
      simp only [step, finish]
      split <;> rfl
  | drop d => exact now_drop t d
  | forget d => exact now_forget t d
  | peerClosed channel => rfl
  | advance nanos => cases h
  | evict => rfl
  | shutdown => exact Pool.now_shutdown t.pool

end Transport

namespace Client

/-- Whether the clock runs in a step. -/
def Event.takesTime : Event → Bool
  | .transport e => e.takesTime
  | _ => false

theorem now_conclude (c : Client) (j : Nat) (result : Result) :
    (c.conclude j result).now = c.now := by
  unfold conclude
  split
  · rfl
  · split <;> rfl

theorem now_attempt (c : Client) (j : Nat) : (c.attempt j).now = c.now := by
  unfold attempt
  split
  · split
    · exact now_conclude _ j _
    · exact Transport.now_register c.transport _ _ _
  · rfl

theorem now_collect (c : Client) (j : Nat) : (c.collect j).now = c.now := by
  unfold collect
  split
  · split
    · rfl
    · exact (now_conclude _ j _).trans (Transport.now_forget c.transport _)
  · rfl

theorem now_heed (c : Client) (j : Nat) : (c.heed j).now = c.now := by
  unfold heed
  split
  · rfl
  · exact Transport.now_cancel c.transport _
  · rfl

theorem now_abort (c : Client) (j : Nat) : (c.abort j).now = c.now := by
  unfold abort
  split
  · rfl
  split
  · rfl
  · rfl
  · split
    · exact (Transport.now_forget _ _).trans (Transport.now_drop c.transport _)
    · rfl
  · rfl

/-- Only a step of the transport that lets the clock run takes time. -/
theorem now_step {e : Event} (h : e.takesTime = false) (c : Client) :
    (c.step e).now = c.now := by
  cases e with
  | submit j call =>
      simp only [step, submit]
      split <;> rfl
  | attempt j => exact now_attempt c j
  | transport e =>
      simp only [step]
      split
      · exact Transport.now_step h c.transport
      · rfl
  | collect j => exact now_collect c j
  | wake j =>
      simp only [step, wake]
      split
      · split <;> rfl
      · rfl
  | cancel j => rfl
  | heed j => exact now_heed c j
  | close =>
      simp only [step, close]
      split
      · rfl
      · exact Pool.now_shutdown c.transport.pool
  | abort j => exact now_abort c j

theorem now_run {events : List Event} (h : ∀ e ∈ events, e.takesTime = false) (c : Client) :
    (c.run events).now = c.now := by
  induction events generalizing c with
  | nil => rfl
  | cons e rest ih =>
      obtain ⟨he, hrest⟩ := List.forall_mem_cons.1 h
      exact (ih hrest (c.step e)).trans (now_step he c)

end Client

end ObjectStore
