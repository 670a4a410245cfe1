import ObjectStore.Completion.Delivery
import ObjectStore.Proofs.PoolAccounts
import ObjectStore.Proofs.PoolLeases

/-!
# What comes of arrivals

The first arrival at a completion settles the result, and the receiver finds it once. Every lease
that comes with an arrival ends there, the late ones too: a completion disposes of the channel
whether or not the arrival counts.
-/

namespace ObjectStore

open Http

namespace Arrival

/-- The user whose lease comes with an arrival. -/
def user? : Arrival → Option Nat
  | .response _ user => some user
  | .failure _ user => user
  | .cancellation => none

/-- The result that an arrival stands for. -/
def result (parser : Parser) : Arrival → Result
  | .response r _ => parser.complete r
  | .failure e _ => .error e
  | .cancellation => .error .cancelled

/-- Whether a channel that comes with an arrival is to be pooled: it is that of a response which
lets the connection live, the other end keeps it open, and the pool is open. -/
def pools (p : Pool) (c : Channel) : Arrival → Bool
  | .response r _ => r.keepAlive && c.isOpen && !p.isClosed
  | .failure _ _ | .cancellation => false

end Arrival

namespace Pool

variable {limits : PoolConfig} {n : Nat} {p p' : Pool} {user : Nat} {c : Channel}

/-- The lease of a user on a channel ends: the channel becomes idle or is closed, and no other
user is concerned. -/
structure LeaseEnds (user : Nat) (c : Channel) (pooled : Bool) (p p' : Pool) : Prop where
  held : p.lease? user = some c
  ended : p'.lease? user = none
  others : ∀ v, v ≠ user → p'.lease? v = p.lease? v
  idle : p'.idle = if pooled then { c with lastUsed := p.now } :: p.idle else p.idle
  closed : p'.closed = if pooled then p.closed else p.closed + 1
  acquired : p'.acquired + 1 = p.acquired

/-- Whoever has a channel is counted. -/
theorem Accounts.acquired_pos (h : Accounts limits n 0 p) (hc : p.lease? user = some c) :
    0 < p.acquired := by
  have hcount := (counts_remove p user).2.1
  have hleased : (p.stage? user).any Stage.isLeased = true := by
    rw [lease?_eq_some.1 hc]
    rfl
  rw [hleased, Bool.toNat_true] at hcount
  rw [h.acquired]
  omega

/-- The lease is gone, and its channel has gone to one of the two places. -/
theorem leaseEnds_remove (hc : p.lease? user = some c) (hpos : 0 < p.acquired) {pooled : Bool}
    {idle : List Channel} {closed : Nat}
    (hidle : idle = if pooled then { c with lastUsed := p.now } :: p.idle else p.idle)
    (hclosed : closed = if pooled then p.closed else p.closed + 1) :
    LeaseEnds user c pooled p
      ({ p with acquired := p.acquired - 1, idle, closed }.remove user).giveBack := by
  refine ⟨hc, ?_, ?_, ?_, ?_, ?_⟩
  · rw [lease?_giveBack, lease?_remove, if_pos rfl]
  · intro v hv
    rw [lease?_giveBack, lease?_remove, if_neg hv]
    rfl
  · rw [giveBack_idle]
    exact hidle
  · rw [giveBack_closed]
    exact hclosed
  · rw [giveBack_acquired]
    exact Nat.sub_add_cancel hpos

theorem leaseEnds_release (hc : p.lease? user = some c) (hpos : 0 < p.acquired) :
    LeaseEnds user c (c.isOpen && !p.isClosed) p (p.release user) := by
  have hdead : (p.isClosed || !c.isOpen) = !(c.isOpen && !p.isClosed) := by
    cases c.isOpen <;> cases p.isClosed <;> rfl
  unfold release
  rw [lease?_eq_some.1 hc]
  change LeaseEnds user c _ p (if (p.isClosed || !c.isOpen) = true then _ else _)
  rw [hdead]
  cases c.isOpen && !p.isClosed with
  | true => exact leaseEnds_remove hc hpos rfl rfl
  | false => exact leaseEnds_remove hc hpos rfl rfl

theorem leaseEnds_close (hc : p.lease? user = some c) (hpos : 0 < p.acquired) :
    LeaseEnds user c false p (p.close user) := by
  unfold close
  rw [lease?_eq_some.1 hc]
  exact leaseEnds_remove hc hpos rfl rfl

end Pool

namespace Delivery

variable {config : PoolConfig} {parser : Parser} {n : Nat} {d : Delivery}

/-- The user whose lease comes with a step. -/
def Event.user? : Event → Option Nat
  | .arrival a => a.user?
  | .look | .pool _ => none

/-- Each lease that comes with an arrival is one that its user has at that moment. -/
def Granted (d : Delivery) : List Event → Prop
  | [] => True
  | e :: rest => (∀ user ∈ e.user?, (d.pool.lease? user).isSome) ∧ (d.step e).Granted rest

theorem Granted.of_append {before after : List Event} (h : d.Granted (before ++ after)) :
    (d.run before).Granted after := by
  induction before generalizing d with
  | nil => exact h
  | cons e rest ih => exact ih h.2

theorem Granted.of_prefix {before after : List Event} (h : d.Granted (before ++ after)) :
    d.Granted before := by
  induction before generalizing d with
  | nil => trivial
  | cons e rest ih => exact ⟨h.1, ih h.2⟩

/-- What an arrival does to the pool: the lease that comes with it ends, and nothing else
happens. -/
def Settles (a : Arrival) (p p' : Pool) : Prop :=
  match a.user? with
  | none => p' = p
  | some user => ∃ c, Pool.LeaseEnds user c (a.pools p c) p p'

theorem settles_arrive (a : Arrival) (hacc : Pool.Accounts config n 0 d.pool)
    (hheld : ∀ user ∈ a.user?, (d.pool.lease? user).isSome) :
    Settles a d.pool (d.arrive a).pool := by
  cases a with
  | response r user =>
      obtain ⟨c, hc⟩ := Option.isSome_iff_exists.1 (hheld user rfl)
      have hpos := hacc.acquired_pos hc
      have hpool : (d.arrive (.response r user)).pool =
          d.pool.dispose user (Completion.disposal r) := by
        simp only [arrive, Completion.arrive, Completion.onResponse]
        split <;> rfl
      refine ⟨c, ?_⟩
      rw [hpool, Completion.disposal, Arrival.pools]
      cases hk : r.keepAlive with
      | true =>
          rw [Bool.true_and]
          exact Pool.leaseEnds_release hc hpos
      | false =>
          rw [Bool.false_and, Bool.false_and]
          exact Pool.leaseEnds_close hc hpos
  | failure e user? =>
      cases user? with
      | none => rfl
      | some user =>
          obtain ⟨c, hc⟩ := Option.isSome_iff_exists.1 (hheld user rfl)
          exact ⟨c, Pool.leaseEnds_close hc (hacc.acquired_pos hc)⟩
  | cancellation => rfl

/-- A delivery changes its pool by steps of the pool. -/
theorem pool_step (d : Delivery) (e : Event) : ∃ events, (d.step e).pool = d.pool.run events := by
  cases e with
  | arrival a =>
      simp only [step, arrive]
      split
      · exact ⟨[], rfl⟩
      · rename_i user how _
        cases how with
        | release => exact ⟨[.release user], rfl⟩
        | close => exact ⟨[.close user], rfl⟩
  | look => exact ⟨[], rfl⟩
  | pool e => exact ⟨[e], rfl⟩

/-- The accounts of the pool hold all along. -/
theorem accounts_run (events : List Event) (hacc : Pool.Accounts config n 0 d.pool) :
    ∃ m, Pool.Accounts config m 0 (d.run events).pool := by
  induction events generalizing n d with
  | nil => exact ⟨n, hacc⟩
  | cons e rest ih =>
      obtain ⟨steps, hsteps⟩ := pool_step d e
      have hnext := hacc.run steps
      rw [← hsteps] at hnext
      exact ih hnext

theorem accounts_ofConfig (config : PoolConfig) (parser : Parser) (events : List Event) :
    ∃ m, Pool.Accounts config m 0 ((ofConfig config parser).run events).pool :=
  accounts_run events (Pool.Accounts.ofConfig config)

/-! ## The receiver -/

/-- How often the receiver looks. -/
def looks (events : List Event) : Nat :=
  events.countP fun
    | .look => true
    | .arrival _ | .pool _ => false

/-- What a receiver finds who looks so often after the result is settled: the result once. -/
def findings (r : Result) : Nat → List Receipt
  | 0 => []
  | k + 1 => .result r :: .replicate k .gone

/-- A completion that has a result and will have no other. -/
structure Decided (r : Result) (taken : Bool) (c : Completion) : Prop where
  claimed : c.claimed = true
  delivered : c.delivered = some r
  taken : c.taken = taken

/-- The first arrival decides. -/
theorem decided_first (parser : Parser) (a : Arrival) :
    Decided (a.result parser) false ((Completion.ofParser parser).arrive a).2 := by
  cases a <;> exact ⟨rfl, rfl, rfl⟩

theorem arrive_completion (d : Delivery) (a : Arrival) :
    (d.arrive a).completion = (d.completion.arrive a).2 := by
  simp only [arrive]
  split <;> simp [*]

/-- Late arrivals change nothing about the result. -/
theorem arrive_late {c : Completion} (a : Arrival) (h : c.claimed = true) : (c.arrive a).2 = c := by
  obtain ⟨parser, claimed, delivered, taken⟩ := c
  cases h
  cases a <;> rfl

theorem arrive_found (d : Delivery) (a : Arrival) : (d.arrive a).found = d.found := by
  simp only [arrive]
  split <;> rfl

/-- What the receiver finds before anything has arrived. -/
theorem found_of_no_arrival {events : List Event} (hnone : ∀ a, .arrival a ∉ events)
    (hc : d.completion = .ofParser parser) :
    (d.run events).completion = .ofParser parser ∧
      (d.run events).found = d.found ++ .replicate (looks events) .nothing := by
  induction events generalizing d with
  | nil => exact ⟨hc, (List.append_nil _).symm⟩
  | cons e rest ih =>
      have hrest : ∀ a, .arrival a ∉ rest := fun a ha => hnone a (List.mem_cons_of_mem _ ha)
      cases e with
      | arrival a => exact absurd List.mem_cons_self (hnone a)
      | pool e => exact ih (d := d.step (.pool e)) hrest hc
      | look =>
          have hlook : d.look = { d with found := d.found ++ [.nothing] } := by
            simp only [look, Completion.receive, hc]
            rfl
          obtain ⟨hcompletion, hfound⟩ := ih (d := d.look) hrest (by rw [hlook]; exact hc)
          refine ⟨hcompletion, ?_⟩
          change (d.look.run rest).found = _
          rw [hfound, hlook]
          simp [looks, List.replicate_succ]

/-- What the receiver finds once the result is settled. -/
theorem found_of_decided {r : Result} {taken : Bool} (events : List Event)
    (hd : Decided r taken d.completion) :
    (d.run events).found = d.found ++
      if taken then .replicate (looks events) .gone else findings r (looks events) := by
  induction events generalizing d taken with
  | nil => cases taken <;> exact (List.append_nil _).symm
  | cons e rest ih =>
      cases e with
      | arrival a =>
          have hsame : (d.arrive a).completion = d.completion := by
            rw [arrive_completion, arrive_late a hd.claimed]
          have hrest := ih (d := d.arrive a) (hsame ▸ hd)
          rw [arrive_found] at hrest
          exact hrest
      | pool e => exact ih (d := d.step (.pool e)) hd
      | look =>
          have htaken := hd.taken
          cases taken with
          | true =>
              have hlook : d.look = { d with found := d.found ++ [.gone] } := by
                simp only [look, Completion.receive, hd.delivered, htaken, if_true]
              have hnext : Decided r true d.look.completion := by
                rw [hlook]
                exact hd
              have hrest := ih hnext
              change (d.look.run rest).found = _
              rw [hrest, hlook]
              simp [looks, List.replicate_succ]
          | false =>
              have hlook : d.look =
                  { d with completion := { d.completion with taken := true }
                           found := d.found ++ [.result r] } := by
                simp only [look, Completion.receive, hd.delivered, htaken, Bool.false_eq_true,
                  if_false]
              have hnext : Decided r true d.look.completion := by
                rw [hlook]
                exact ⟨hd.claimed, hd.delivered, rfl⟩
              have hrest := ih hnext
              change (d.look.run rest).found = _
              rw [hrest, hlook]
              simp [looks, findings]

/-- The receiver finds nothing until the first arrival, then its result, and after that no
result any more. -/
theorem found_run {before after : List Event} {a : Arrival} (hfirst : ∀ b, .arrival b ∉ before) :
    ((ofConfig config parser).run (before ++ .arrival a :: after)).found =
      .replicate (looks before) .nothing ++ findings (a.result parser) (looks after) := by
  obtain ⟨hcompletion, hfound⟩ :=
    found_of_no_arrival (d := ofConfig config parser) hfirst rfl
  have hdecided : Decided (a.result parser) false
      (((ofConfig config parser).run before).arrive a).completion := by
    rw [arrive_completion, hcompletion]
    exact decided_first parser a
  have hafter := found_of_decided after hdecided
  rw [arrive_found, hfound] at hafter
  rw [run_append, run_cons]
  change (((ofConfig config parser).run before).arrive a |>.run after).found = _
  rw [hafter]
  rfl

/-! ## Leases -/

/-- As many leases are gone after some arrivals as came with them. -/
theorem acquired_run_arrivals (arrivals : List Arrival) (hacc : Pool.Accounts config n 0 d.pool)
    (hgranted : d.Granted (arrivals.map .arrival)) :
    (d.run (arrivals.map .arrival)).pool.acquired + (arrivals.filterMap Arrival.user?).length =
      d.pool.acquired := by
  induction arrivals generalizing n d with
  | nil => rfl
  | cons a rest ih =>
      obtain ⟨m, hnext⟩ := accounts_run [.arrival a] hacc
      have hrest := ih (d := d.arrive a) hnext hgranted.2
      have hsettles := settles_arrive a hacc hgranted.1
      change ((d.arrive a).run _).pool.acquired + _ = _
      cases hu : a.user? with
      | none =>
          simp only [Settles, hu] at hsettles
          rw [List.filterMap_cons_none hu, hrest, hsettles]
      | some user =>
          simp only [Settles, hu] at hsettles
          obtain ⟨c, hends⟩ := hsettles
          rw [List.filterMap_cons_some hu, List.length_cons, ← Nat.add_assoc, hrest]
          exact hends.acquired

/-- Whatever arrives at a completion, in whatever order and with whatever else happens to the pool
in between: the receiver finds the result of the first arrival, once; every lease that comes with
an arrival ends there, with its channel idle or closed; and no other lease is concerned. -/
theorem delivered_once (config : PoolConfig) (parser : Parser) (events : List Event)
    (hgranted : (ofConfig config parser).Granted events) :
    let start := ofConfig config parser
    (∀ before a after, events = before ++ .arrival a :: after → (∀ b, .arrival b ∉ before) →
      (start.run events).found =
        .replicate (looks before) .nothing ++ findings (a.result parser) (looks after)) ∧
    (∀ before a after, events = before ++ .arrival a :: after →
      Settles a (start.run before).pool (start.run (before ++ [.arrival a])).pool) ∧
    (∀ before (arrivals : List Arrival) after, events = before ++ (arrivals.map .arrival ++ after) →
      (start.run (before ++ arrivals.map .arrival)).pool.acquired
          + (arrivals.filterMap Arrival.user?).length
        = (start.run before).pool.acquired) := by
  intro start
  refine ⟨?_, ?_, ?_⟩
  · rintro before a after rfl hfirst
    exact found_run hfirst
  · rintro before a after rfl
    obtain ⟨m, hacc⟩ := accounts_ofConfig config parser before
    rw [run_append]
    exact settles_arrive a hacc hgranted.of_append.1
  · rintro before arrivals after rfl
    obtain ⟨m, hacc⟩ := accounts_ofConfig config parser before
    rw [run_append]
    exact acquired_run_arrivals arrivals hacc hgranted.of_append.of_prefix

/-- Room for two channels. -/
def twoChannels : PoolConfig where
  address := "localhost:80"
  maxConnections := 2
  maxPending := 0
  acquireTimeout := .zero
  connectTimeout := .ofMillis 1000
  maxIdle := none

/-- Two users connect, and the receiver looks in vain. -/
def beforeCancellation : List Event :=
  [.pool (.start 1), .pool (.connected 1), .pool (.start 2), .pool (.connected 2), .look]

/-- A response and a failure that come too late. -/
def late : List Arrival :=
  [.response { status := 200 } 1, .failure .channelInactive (some 2)]

/-- A cancellation, with a look after it, and then arrivals with the channels of both users. -/
def lateArrivals : List Event :=
  (beforeCancellation ++ [.arrival .cancellation, .look]) ++ (late.map .arrival ++ [.look])

/-- The receiver finds the cancellation only, and both leases end. -/
theorem delivered_once_late :
    (ofConfig twoChannels .deleted).Granted lateArrivals ∧
      ((ofConfig twoChannels .deleted).run lateArrivals).found =
        [.nothing, .result (.error .cancelled), .gone] ∧
      ((ofConfig twoChannels .deleted).run
          ((beforeCancellation ++ [.arrival .cancellation, .look]) ++ late.map .arrival)
        ).pool.acquired + 2 = 2 := by
  have hgranted : (ofConfig twoChannels .deleted).Granted lateArrivals := by
    refine ⟨?_, ?_, ?_, ?_, ?_, ?_, ?_, ?_, ?_, ?_, trivial⟩
    all_goals decide +kernel
  obtain ⟨hfound, -, hacquired⟩ := delivered_once twoChannels .deleted lateArrivals hgranted
  refine ⟨hgranted, ?_, ?_⟩
  · exact hfound beforeCancellation .cancellation _ rfl (by simp [beforeCancellation])
  · exact hacquired _ late [.look] rfl

end Delivery

end ObjectStore
