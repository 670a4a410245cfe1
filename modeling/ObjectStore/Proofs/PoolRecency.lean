import ObjectStore.Proofs.IdleChannels
import ObjectStore.Proofs.PoolAccounts
import ObjectStore.Proofs.PoolAdmissions

/-!
# Idle channels in the order of their last use

A channel that is given back is put before the other idle ones, and nothing else changes their
order, so the idle channels of a pool lie in the order of their last use. The search for a channel
stops at the first one that is usable: this is the usable channel that was used last. A sweep
before the search takes away only what the search passes over, or would have come to later.
-/

namespace ObjectStore

/-- An idle channel may be leased again: the other end keeps it open, and it has been idle for no
longer than the limit, if there is one. -/
def Channel.IsUsable (maxIdle : Option Duration) (now : Nat) (c : Channel) : Prop :=
  c.isOpen = true ∧ ∀ limit ∈ maxIdle, now ≤ c.lastUsed + limit.nanos

theorem Channel.isReusable_iff {maxIdle : Option Duration} {now : Nat} {c : Channel} :
    c.isReusable maxIdle now = true ↔ c.IsUsable maxIdle now := by
  cases maxIdle with
  | none => simp [isReusable, IsUsable]
  | some limit =>
      have hidle : now - c.lastUsed ≤ limit.nanos ↔ now ≤ c.lastUsed + limit.nanos :=
        Nat.sub_le_iff_le_add'
      simp only [isReusable, IsUsable, hidle, Bool.and_eq_true, decide_eq_true_eq, Option.mem_def,
        Option.some.injEq, forall_eq']

theorem Channel.isReusable_eq_false_iff {maxIdle : Option Duration} {now : Nat} {c : Channel} :
    c.isReusable maxIdle now = false ↔ ¬ c.IsUsable maxIdle now := by
  rw [← isReusable_iff, Bool.not_eq_true]

namespace Pool

variable {p p' : Pool} {user : Nat}

/-! ## The order of the idle channels -/

/-- When the idle channels were used last. -/
def idleTimes (p : Pool) : List Nat := p.idle.map (·.lastUsed)

/-- What a step does to the idle channels: some of them go, while the clock may run, or one that
was used just now is put before them. -/
inductive IdleMove (p p' : Pool) : Prop
  | thins (hnow : p.now ≤ p'.now) (hidle : p'.idleTimes.Sublist p.idleTimes)
  | gains (hnow : p'.now = p.now) (hidle : p'.idleTimes = p.now :: p.idleTimes)

/-- The idle channels lie in the order of their last use, the latest first, and none was used
after now. -/
structure IsOrdered (p : Pool) : Prop where
  ordered : p.idleTimes.Pairwise (· ≥ ·)
  past : ∀ t ∈ p.idleTimes, t ≤ p.now

theorem IsOrdered.move (h : p.IsOrdered) (hmove : IdleMove p p') : p'.IsOrdered := by
  cases hmove with
  | thins hnow hidle =>
      exact ⟨h.ordered.sublist hidle, fun t ht => Nat.le_trans (h.past t (hidle.subset ht)) hnow⟩
  | gains hnow hidle =>
      refine ⟨?_, ?_⟩
      · rw [hidle]
        exact h.ordered.cons h.past
      · rw [hidle, hnow]
        exact List.forall_mem_cons.2 ⟨Nat.le_refl _, h.past⟩

/-- Each step is a move of the idle channels. -/
theorem idleMove_step (p : Pool) (e : Event) : IdleMove p (p.step e).2 := by
  have htimes (q : Pool) : q.stamps.map (·.2) = q.idleTimes := List.map_map
  cases idleStep_step p e with
  | thins hnow hstamps => exact .thins hnow (htimes p ▸ htimes (p.step e).2 ▸ hstamps.map _)
  | pools hnow hlease hstamps =>
      refine .gains hnow ?_
      rw [← htimes, hstamps, ← htimes]
      rfl

/-- Each run keeps the order. -/
theorem IsOrdered.run (h : p.IsOrdered) (events : List Event) : (p.run events).IsOrdered := by
  induction events generalizing p with
  | nil => exact h
  | cons e rest ih => exact ih (h.move (idleMove_step p e))

/-! ## Users who go on with a permit -/

/-- What a user who goes on with a permit gets, and what becomes of the idle channels. -/
inductive Serves (p : Pool) (user : Nat) (reply : Reply) (p' : Pool) : Prop
  /-- The user leases the usable channel that was used last. The channels that were used later
  than this one are closed and counted. -/
  | leases {c : Channel} {dropped : List Channel} (hreply : reply = .leased c)
      (hstage : p'.stage? user = some (.leased c)) (hidle : p.idle = dropped ++ c :: p'.idle)
      (husable : c.IsUsable p.config.maxIdle p.now)
      (hlatest : ∀ d ∈ p.idle, d.IsUsable p.config.maxIdle p.now → d.lastUsed ≤ c.lastUsed)
      (hdropped : ∀ d ∈ dropped, ¬ d.IsUsable p.config.maxIdle p.now)
      (hclosed : p'.closed = p.closed + dropped.length)
  /-- No channel is usable. The user connects, and all channels are closed and counted. -/
  | connects (hreply : reply = .connecting)
      (hstage : p'.stage? user = some (.connecting (p.now + p.config.connectTimeout.nanos)))
      (hnone : ∀ d ∈ p.idle, ¬ d.IsUsable p.config.maxIdle p.now) (hidle : p'.idle = [])
      (hclosed : p'.closed = p.closed + p.idle.length)

theorem IsOrdered.pairwise (h : p.IsOrdered) :
    p.idle.Pairwise fun c d => d.lastUsed ≤ c.lastUsed :=
  List.pairwise_map.1 h.ordered

/-- Of the channels behind one that the search does not pass over, none was used later. -/
theorem IsOrdered.lastUsed_le (h : p.IsOrdered) {c d : Channel} {dropped rest : List Channel}
    (hidle : p.idle = dropped ++ c :: rest) (hd : d ∈ p.idle) (hkept : d ∉ dropped) :
    d.lastUsed ≤ c.lastUsed := by
  have hpairwise := h.pairwise
  rw [hidle] at hpairwise hd
  rcases List.mem_append.1 hd with hd | hd
  · exact absurd hd hkept
  · rcases List.mem_cons.1 hd with rfl | hd
    · exact Nat.le_refl _
    · exact (List.pairwise_cons.1 (List.pairwise_append.1 hpairwise).2.1).1 d hd

/-- The counts of permits and of users who wait do not concern the search. -/
theorem IsOrdered.serves_proceed (h : p.IsOrdered) (user free pending : Nat) :
    Serves p user ({ p with free, pending }.proceed user).1
      ({ p with free, pending }.proceed user).2 := by
  unfold proceed
  split
  · rename_i c left dropped ht
    obtain ⟨stale, hidle, hlength, hgood, hstale⟩ := takeIdle_eq_some ht
    have hdropped : ∀ d ∈ stale, ¬ d.IsUsable p.config.maxIdle p.now := fun d hd =>
      Channel.isReusable_eq_false_iff.1 (hstale d hd)
    refine .leases rfl ?_ hidle (Channel.isReusable_iff.1 hgood) ?_ hdropped ?_
    · exact (stage?_put _ user (.leased c) user).trans (if_pos rfl)
    · exact fun d hd husable => h.lastUsed_le hidle hd fun hstale => hdropped d hstale husable
    · exact congrArg (p.closed + ·) hlength.symm
  · rename_i left dropped ht
    obtain ⟨rfl, hlength, hstale⟩ := takeIdle_eq_none ht
    refine .connects rfl ?_ (fun d hd => Channel.isReusable_eq_false_iff.1 (hstale d hd)) rfl ?_
    · exact (stage?_put _ user (.connecting _) user).trans (if_pos rfl)
    · exact congrArg (p.closed + ·) hlength.symm

theorem IsOrdered.serves (h : p.IsOrdered) {e : Event} (he : p.Admits user e) :
    Serves p user (p.step e).1 (p.step e).2 := by
  cases he with
  | free hnew hopen hfree =>
      rw [step, start_of_free hnew hopen hfree]
      exact h.serves_proceed user (p.free - 1) p.pending
  | handed hstage hopen =>
      rw [step, resume_of_handed hstage hopen]
      exact h.serves_proceed user p.free (p.pending - 1)

/-! ## Sweeps before a search -/

/-- Among the good channels alone the search finds the same one, and drops nothing. -/
theorem takeIdle_filter (good : Channel → Bool) (idle : List Channel) :
    takeIdle good (idle.filter good) =
      ((takeIdle good idle).1, (takeIdle good idle).2.1.filter good, 0) := by
  induction idle with
  | nil => rfl
  | cons c rest ih =>
      by_cases hc : good c = true
      · rw [List.filter_cons_of_pos hc]
        simp [takeIdle, hc]
      · rw [List.filter_cons_of_neg hc, ih]
        simp [takeIdle, hc]

/-- A sweep before a user goes on with a permit, and one after it, come to the same. -/
theorem evict_proceed (p : Pool) (user : Nat) :
    (p.evict.2.proceed user).1 = (p.proceed user).1 ∧
      (p.evict.2.proceed user).2 = (p.proceed user).2.evict.2 := by
  have hswept := takeIdle_filter (Channel.isReusable p.config.maxIdle p.now) p.idle
  have hlengths := List.length_filter_le (Channel.isReusable p.config.maxIdle p.now)
  rw [proceed, proceed]
  simp only [evict]
  rw [hswept]
  cases ht : takeIdle (Channel.isReusable p.config.maxIdle p.now) p.idle with
  | mk found rest =>
      obtain ⟨left, dropped⟩ := rest
      cases found with
      | some c =>
          obtain ⟨stale, hidle, hlength, hgood, hstale⟩ := takeIdle_eq_some ht
          have hkept : p.idle.filter (Channel.isReusable p.config.maxIdle p.now) =
              c :: left.filter (Channel.isReusable p.config.maxIdle p.now) := by
            rw [hidle, List.filter_append, List.filter_eq_nil_iff.2 (by simpa using hstale),
              List.nil_append, List.filter_cons_of_pos hgood]
          have hcount := congrArg List.length hidle
          have hleft := hlengths left
          simp only [List.length_append, List.length_cons] at hcount
          refine ⟨rfl, ?_⟩
          simp only [put, hkept, List.length_cons]
          congr 1
          omega
      | none =>
          obtain ⟨rfl, hlength, hstale⟩ := takeIdle_eq_none ht
          have hkept : p.idle.filter (Channel.isReusable p.config.maxIdle p.now) = [] :=
            List.filter_eq_nil_iff.2 (by simpa using hstale)
          refine ⟨rfl, ?_⟩
          simp only [put, hkept, List.filter_nil, List.length_nil]
          congr 1
          omega

/-- A sweep right before a user goes on with a permit changes neither that the user does nor what
the user gets, and leaves nothing else for a sweep to do. -/
theorem evict_admits {e : Event} (he : p.Admits user e) :
    p.evict.2.Admits user e ∧ (p.evict.2.step e).1 = (p.step e).1 ∧
      (p.evict.2.step e).2 = (p.step e).2.evict.2 := by
  cases he with
  | free hnew hopen hfree =>
      have hswept : p.evict.2.Admits user (.start user) := .free hnew hopen hfree
      rw [step, step, start_of_free hnew hopen hfree,
        start_of_free (p := p.evict.2) hnew hopen hfree]
      exact ⟨hswept, evict_proceed { p with free := p.free - 1 } user⟩
  | handed hstage hopen =>
      have hswept : p.evict.2.Admits user (.resume user) := .handed hstage hopen
      rw [step, step, resume_of_handed hstage hopen,
        resume_of_handed (p := p.evict.2) hstage hopen]
      exact ⟨hswept, evict_proceed { p with pending := p.pending - 1 } user⟩

/-! ## Runs -/

/-- A pool whose idle channels lie in the order of their last use. -/
structure Recency (p : Pool) : Prop where
  /-- The idle channel that was used last is the first one. -/
  ordered : p.idle.Pairwise fun c d => d.lastUsed ≤ c.lastUsed
  past : ∀ c ∈ p.idle, c.lastUsed ≤ p.now
  /-- A user comes to a channel or a connection only by going on with a permit. -/
  admits : ∀ user e, p.served user = false → (p.step e).2.served user = true → p.Admits user e
  serves : ∀ user e, p.Admits user e → Serves p user (p.step e).1 (p.step e).2
  /-- A sweep at the same instant changes neither that the user goes on nor what the user gets. -/
  swept : ∀ user e, p.Admits user e → p.evict.2.Admits user e ∧
    (p.evict.2.step e).1 = (p.step e).1 ∧ (p.evict.2.step e).2 = (p.step e).2.evict.2

/-- In every run of a pool. -/
theorem run_recency (config : PoolConfig) (events : List Event) :
    Recency ((ofConfig config).run events) ∧
      ((ofConfig config).run events).config = config := by
  have hinitial : (ofConfig config).IsOrdered := ⟨List.Pairwise.nil, nofun⟩
  have h := hinitial.run events
  refine ⟨⟨h.pairwise, ?_, fun _ _ => admits_of_served, fun _ _ => h.serves,
    fun _ _ => evict_admits⟩, ((Accounts.ofConfig config).run events).config⟩
  intro c hc
  exact h.past _ (List.mem_map_of_mem hc)

/-- Two channels are idle, the one with the number 2 given back last. -/
def twoIdle : Pool :=
  (ofConfig ⟨"", 2, 1, .zero, .zero, some (.cap 10)⟩).run
    [.start 1, .connected 1, .start 2, .connected 2, .release 1, .advance 6, .release 2,
      .advance 6]

/-- A third user finds a free permit there, and gets the channel with the number 2. -/
theorem run_recency_twoIdle :
    twoIdle.Admits 3 (.start 3) ∧
      ∃ c, (twoIdle.step (.start 3)).1 = .leased c ∧ c.id = 2 ∧
        c.IsUsable twoIdle.config.maxIdle twoIdle.now ∧
        ∀ d ∈ twoIdle.idle, d.IsUsable twoIdle.config.maxIdle twoIdle.now →
          d.lastUsed ≤ c.lastUsed := by
  have hadmits : twoIdle.Admits 3 (.start 3) := .free rfl rfl (by decide)
  have hrecency : Recency twoIdle := (run_recency _ _).1
  refine ⟨hadmits, ?_⟩
  cases hrecency.serves 3 (.start 3) hadmits with
  | @leases c dropped hreply hstage hidle husable hlatest hdropped hclosed =>
      refine ⟨c, hreply, ?_, husable, hlatest⟩
      cases hreply
      rfl
  | connects hreply => cases hreply

example : (twoIdle.step (.start 3)).1 = .leased { id := 2, lastUsed := 6 } ∧
    ((twoIdle.peerClosed 2).step (.start 3)).1 = .connecting := by decide

end Pool

end ObjectStore
