import ObjectStore.Proofs.DispatchMoves

/-!
# Invariant of dispatches

What holds of a transport after every run: channels are leased to one dispatch at most, and a
dispatch has the lease that its phase says; the owner of a channel is the dispatch that is attached
to it; a dispatch tells no sink but its own. With it goes the frame of a step: what a step of one
dispatch leaves as it is for all others.
-/

namespace ObjectStore

namespace Transport

variable {t t' : Transport} {d g : Nat}

/-- The channel that a dispatch needs in its phase. -/
def held? (t : Transport) (d : Nat) : Option Nat := (t.phase? d).bind Phase.held?

/-- The channel to which a dispatch is attached. -/
def attached? (t : Transport) (d : Nat) : Option Nat := (t.phase? d).bind Phase.attached?

/-- The sink that a dispatch is about to tell. -/
def addressee? (t : Transport) (d : Nat) : Option Nat := (t.phase? d).bind Phase.addressee?

/-- What holds after every run. -/
structure Sound (t : Transport) : Prop where
  exclusive : t.pool.Exclusive
  lease : ∀ d, t.pool.leaseId? d = t.held? d
  owner : ∀ c d, t.routes.owner? c = some d → t.attached? d = some c
  addressee : ∀ d w, t.addressee? d = some w → w = d

@[simp] theorem phase?_enter (t : Transport) (d : Nat) (q : Phase) (v : Nat) :
    (t.enter d q).phase? v = if v = d then (t.phase? d).map fun _ => q else t.phase? v := by
  simp only [phase?, enter, Registry.find?_modify]
  split
  · cases t.dispatches.find? d <;> rfl
  · rfl

theorem phase?_set {x : Dispatch} (h : t'.dispatches = t.dispatches.set d x) (v : Nat) :
    t'.phase? v = if v = d then some x.phase else t.phase? v := by
  rw [phase?, h, Registry.find?_set]
  split <;> rfl

theorem phase?_erase (h : t'.dispatches = t.dispatches.erase d) (v : Nat) :
    t'.phase? v = if v = d then none else t.phase? v := by
  rw [phase?, h, Registry.find?_erase]
  split <;> rfl

/-- A dispatch that is there is in the phase that it entered. -/
theorem phase?_enter_of_some {q q' : Phase} (h : t.phase? d = some q) (v : Nat) :
    (t.enter d q').phase? v = if v = d then some q' else t.phase? v := by
  rw [phase?_enter, h]
  rfl

theorem held?_of_phase {q : Phase} (h : t.phase? d = some q) : t.held? d = q.held? := by
  rw [held?, h]
  rfl

theorem attached?_of_phase {q : Phase} (h : t.phase? d = some q) :
    t.attached? d = q.attached? := by
  rw [attached?, h]
  rfl

theorem addressee?_of_phase {q : Phase} (h : t.phase? d = some q) :
    t.addressee? d = q.addressee? := by
  rw [addressee?, h]
  rfl

theorem attached?_held? {c : Nat} (h : t.attached? d = some c) : t.held? d = some c := by
  unfold attached? at h
  unfold held?
  cases hq : t.phase? d with
  | none => simp [hq] at h
  | some q => cases q <;> simp_all [Phase.attached?, Phase.held?]

/-- A channel is held by one dispatch at most. -/
theorem Sound.held_inj {c : Nat} (h : t.Sound) (hd : t.held? d = some c)
    (hg : t.held? g = some c) : d = g :=
  h.exclusive.lease_inj d g c ((h.lease d).trans hd) ((h.lease g).trans hg)

/-- A channel that a dispatch holds has no owner but this dispatch. -/
theorem Sound.owner_of_held {c w : Nat} (h : t.Sound) (hd : t.held? d = some c)
    (hw : t.routes.owner? c = some w) : w = d :=
  h.held_inj (attached?_held? (h.owner c w hw)) hd

/-- A channel that is idle is held by no dispatch. -/
theorem Sound.not_held_of_idle {v : Nat × Bool} (h : t.Sound) (hv : v ∈ t.pool.idleViews)
    (d : Nat) : t.held? d ≠ some v.1 := by
  intro hd
  exact h.exclusive.lease_idle d v.1 ((h.lease d).trans hd) (List.mem_map_of_mem hv)

namespace Sound

/-- A dispatch goes on to a phase. What holds stays so if it does for this dispatch, and if no
other dispatch gets a channel or becomes the owner of one. -/
theorem enter {q : Option Phase} (h : t.Sound) (hexclusive : t'.pool.Exclusive)
    (hphase : ∀ v, t'.phase? v = if v = d then q else t.phase? v)
    (hlease : ∀ v, t'.pool.leaseId? v = if v = d then q.bind Phase.held? else t.pool.leaseId? v)
    (howner : ∀ c v, t'.routes.owner? c = some v → v ≠ d → t.routes.owner? c = some v)
    (hself : ∀ c, t'.routes.owner? c = some d → q.bind Phase.attached? = some c)
    (haddressee : ∀ w, q.bind Phase.addressee? = some w → w = d) : t'.Sound where
  exclusive := hexclusive
  lease v := by
    rw [hlease, held?, hphase]
    split
    · rfl
    · exact h.lease v
  owner c v hv := by
    rw [attached?, hphase]
    split
    · rename_i hvd
      exact hself c (hvd ▸ hv)
    · rename_i hvd
      exact h.owner c v (howner c v hv hvd)
  addressee v w hw := by
    rw [addressee?, hphase] at hw
    split at hw
    · rename_i hvd
      exact (haddressee w hw).trans hvd.symm
    · exact h.addressee v w hw

/-- A step that leaves the routes as they are. -/
theorem enter_same {q : Option Phase} (h : t.Sound) (hexclusive : t'.pool.Exclusive)
    (hphase : ∀ v, t'.phase? v = if v = d then q else t.phase? v)
    (hlease : ∀ v, t'.pool.leaseId? v = if v = d then q.bind Phase.held? else t.pool.leaseId? v)
    (hroutes : t'.routes = t.routes)
    (hattached : t.attached? d = none ∨ t.attached? d = q.bind Phase.attached?)
    (haddressee : ∀ w, q.bind Phase.addressee? = some w → w = d) : t'.Sound := by
  refine h.enter hexclusive hphase hlease (fun c v hv _ => hroutes ▸ hv) ?_
    haddressee
  intro c hc
  have hd := h.owner c d (hroutes ▸ hc)
  rcases hattached with hnone | hsame
  · rw [hnone] at hd
    cases hd
  · exact hsame ▸ hd

/-- A step that takes the owner of a channel out. -/
theorem enter_detach {c : Nat} {q : Option Phase} (h : t.Sound) (hexclusive : t'.pool.Exclusive)
    (hphase : ∀ v, t'.phase? v = if v = d then q else t.phase? v)
    (hlease : ∀ v, t'.pool.leaseId? v = if v = d then q.bind Phase.held? else t.pool.leaseId? v)
    (hroutes : t'.routes = (t.routes.detach c).2)
    (hattached : t.attached? d = none ∨ t.attached? d = some c)
    (haddressee : ∀ w, q.bind Phase.addressee? = some w → w = d) : t'.Sound := by
  have howner (e v : Nat) (hv : t'.routes.owner? e = some v) :
      e ≠ c ∧ t.routes.owner? e = some v := by
    rw [hroutes, Routes.owner?_detach] at hv
    split at hv
    · cases hv
    · rename_i hne
      exact ⟨hne, hv⟩
  refine h.enter hexclusive hphase hlease (fun e v hv _ => (howner e v hv).2) ?_
    haddressee
  intro e he
  obtain ⟨hne, he⟩ := howner e d he
  have hd := h.owner e d he
  rcases hattached with hnone | hsome
  · rw [hnone] at hd
    cases hd
  · rw [hsome] at hd
    exact absurd (Option.some.inj hd).symm hne

/-- A dispatch that keeps its lease, if it has one, still has the lease of its phase. -/
theorem lease_stays {q q' : Phase} {p : Pool} (h : t.Sound) (hd : t.phase? d = some q)
    (hp : ∀ v, p.leaseId? v = t.pool.leaseId? v) (hq : q'.held? = q.held?) (v : Nat) :
    p.leaseId? v = if v = d then (some q').bind Phase.held? else t.pool.leaseId? v := by
  rw [hp]
  split
  · rename_i hv
    rw [hv, h.lease, held?_of_phase hd]
    exact hq.symm
  · rfl

/-- The lease of a dispatch ends, with its channel closed or pooled. -/
theorem lease_ends {p : Pool} (hp : Pool.Leaves d t.pool p ∨ Pool.Pools d t.pool p) (v : Nat) :
    p.leaseId? v = if v = d then none else t.pool.leaseId? v := by
  rcases hp with hp | hp
  · exact hp.leaseId? v
  · exact hp.leaseId? v

theorem exclusive_of_poolMove {p : Pool} (h : t.Sound) (hp : t.PoolMove d p) : p.Exclusive := by
  cases hp with
  | keeps hp => exact h.exclusive.keeps hp
  | marks hp => exact h.exclusive.marks hp
  | leaves hp => exact h.exclusive.leaves hp
  | pools _ _ hp => exact h.exclusive.pools hp
  | gains hp => exact h.exclusive.gains hp

/-- A phase without an addressee tells nobody. -/
theorem tells_nobody (d w : Nat) (h : none = some w) : w = d := by
  cases h

theorem move {r : Report} (h : t.Sound) (hm : t.Move d r t') : t'.Sound := by
  have hexclusive := h.exclusive_of_poolMove hm.poolMove
  cases hm with
  | nothing => exact h
  | pool hp =>
      exact ⟨hexclusive, fun v => (hp.leaseId? v).trans (h.lease v), h.owner, h.addressee⟩
  | registered hd =>
      refine h.enter_same hexclusive (phase?_set rfl) (fun v => ?_) rfl (Or.inl ?_)
        (tells_nobody d)
      · split
        · rename_i hv
          rw [hv, h.lease, held?, hd]
          rfl
        · rfl
      · rw [attached?, hd]
        rfl
  | leased hd hp | unowned hd hp | droppedEarly hd hp =>
      exact h.enter_same hexclusive (phase?_enter_of_some hd) hp.leaseId? rfl
        (Or.inl (attached?_of_phase hd)) (tells_nobody d)
  | refused hd hq he hp =>
      refine h.enter_same hexclusive (phase?_enter_of_some hd) hp.leaseId? rfl (Or.inl ?_)
        (tells_nobody d)
      rw [attached?_of_phase hd]
      rcases hq with rfl | ⟨c, rfl⟩ <;> rfl
  | withheld hd hx hclaimed hp =>
      exact h.enter_same hexclusive (phase?_enter_of_some hd) (lease_ends hp) rfl
        (Or.inl (attached?_of_phase hd)) (tells_nobody d)
  | @sent c deadline wire s p hd hp =>
      -- Until it sends, a dispatch is attached to no channel and owns none.
      have hnone : t.attached? d = none := attached?_of_phase hd
      refine h.enter hexclusive (phase?_enter_of_some hd) (h.lease_stays hd hp.leaseId? rfl)
        (fun e v hv hne => ?_) (fun e he => ?_) (tells_nobody d)
      · have hv := (t.routes.owner?_attach c d e).symm.trans hv
        split at hv
        · exact absurd (Option.some.inj hv).symm hne
        · exact hv
      · have he := (t.routes.owner?_attach c d e).symm.trans he
        split at he
        · rename_i hec
          rw [hec]
          rfl
        · rw [h.owner e d he] at hnone
          cases hnone
  | answered hd hp =>
      exact h.enter_same hexclusive (phase?_enter_of_some hd) (h.lease_stays hd hp.leaseId? rfl)
        rfl (Or.inr (attached?_of_phase hd)) (tells_nobody d)
  | failed hd he =>
      exact h.enter_same hexclusive (phase?_enter_of_some hd)
        (h.lease_stays hd (fun _ => rfl) rfl) rfl (Or.inr (attached?_of_phase hd))
        (tells_nobody d)
  | routed hd =>
      exact h.enter_detach hexclusive (phase?_enter_of_some hd)
        (h.lease_stays hd (fun _ => rfl) rfl) rfl (Or.inr (attached?_of_phase hd))
        (fun w hw => h.owner_of_held (held?_of_phase hd) hw)
  | toldResponse hd hx hp =>
      have hlease := lease_ends (hp.imp id And.right)
      have howner := h.addressee d _ (addressee?_of_phase hd)
      split
      · exact h.enter_same hexclusive (phase?_enter_of_some hd) hlease rfl
          (Or.inl (attached?_of_phase hd)) (fun w hw => (Option.some.inj hw).symm.trans howner)
      · exact h.enter_same hexclusive (phase?_enter_of_some hd) hlease rfl
          (Or.inl (attached?_of_phase hd)) (tells_nobody d)
  | toldNobody hd hx hp =>
      have hlease := lease_ends (hp.imp id And.right)
      exact h.enter_same hexclusive (phase?_enter_of_some hd) hlease rfl
        (Or.inl (attached?_of_phase hd)) (tells_nobody d)
  | toldError hd he hp =>
      exact h.enter_same hexclusive (phase?_enter_of_some hd) hp.leaseId? rfl
        (Or.inl (attached?_of_phase hd)) (tells_nobody d)
  | parsed hd =>
      exact h.enter_same hexclusive (phase?_enter_of_some hd)
        (h.lease_stays hd (fun _ => rfl) rfl) rfl (Or.inl (attached?_of_phase hd))
        (tells_nobody d)
  | detached hd =>
      exact h.enter_detach hexclusive (phase?_enter_of_some hd)
        (h.lease_stays hd (fun _ => rfl) rfl) rfl (Or.inl (attached?_of_phase hd))
        (tells_nobody d)
  | droppedLate hd hp =>
      exact h.enter_detach hexclusive (phase?_enter_of_some hd) hp.leaseId? rfl
        (Or.inr (attached?_of_phase hd)) (tells_nobody d)
  | forgotten hd =>
      refine h.enter_same hexclusive (phase?_erase rfl) (fun v => ?_) rfl
        (Or.inl (attached?_of_phase hd)) (tells_nobody d)
      split
      · rename_i hv
        rw [hv, h.lease, held?_of_phase hd]
        rfl
      · rfl

theorem step (h : t.Sound) (e : Event) : (t.step e).Sound := by
  obtain ⟨d, hm⟩ := t.step_move e
  exact h.move hm

theorem run (h : t.Sound) (events : List Event) : (t.run events).Sound := by
  induction events generalizing t with
  | nil => exact h
  | cons e rest ih => exact ih (h.step e)

/-- What the steps of sound transports keep, with what is noted of their reports, a run keeps. -/
theorem run_fold {α : Type} {note : α → Report → α} {P : Transport → α → Prop}
    (hstep : ∀ (t : Transport) (a : α) (e : Event), t.Sound → P t a →
      P (t.step e) (note a (t.report e)))
    (h : t.Sound) {a : α} (ha : P t a) (events : List Event) :
    P (t.run events) ((t.reports events).foldl note a) := by
  induction events generalizing t a with
  | nil => exact ha
  | cons e rest ih => exact ih (h.step e) (hstep t a e h ha)

end Sound

/-- A transport begins with an empty pool and without dispatches. -/
theorem ofConfig_eq_ok {c : ClientConfig} {source : CredentialsSource} {epoch : Calendar.Instant}
    (h : ofConfig c source epoch = .ok t) :
    (∃ config, t.pool = .ofConfig config) ∧ t.routes = {} ∧ t.dispatches = .empty := by
  unfold ofConfig at h
  cases haddress : c.address with
  | error e => simp [haddress, bind, Except.bind] at h
  | ok address =>
      cases hconfig : PoolConfig.ofClientConfig c with
      | error e => simp [haddress, hconfig, bind, Except.bind] at h
      | ok config =>
          simp only [haddress, hconfig, bind, Except.bind, pure, Except.pure,
            Except.ok.injEq] at h
          subst h
          exact ⟨⟨config, rfl⟩, rfl, rfl⟩

theorem Sound.ofConfig {c : ClientConfig} {source : CredentialsSource}
    {epoch : Calendar.Instant} (h : Transport.ofConfig c source epoch = .ok t) : t.Sound := by
  obtain ⟨⟨config, hpool⟩, hroutes, hdispatches⟩ := ofConfig_eq_ok h
  have hphase (v : Nat) : t.phase? v = none := by
    rw [phase?, hdispatches, Registry.find?_empty]
    rfl
  refine ⟨hpool ▸ Pool.Exclusive.ofConfig config, ?_, ?_, ?_⟩
  · intro v
    rw [hpool, held?, hphase]
    rfl
  · intro e v hv
    rw [hroutes] at hv
    cases hv
  · intro v w hw
    rw [addressee?, hphase] at hw
    cases hw

/-- A client with a single connection. -/
def singleConnection : ClientConfig := { endpoint := "localhost", maxConnections := 1 }

/-- Credentials that do not change. -/
def fixedSource : CredentialsSource := .fixed { accessKey := "key", secretKey := "secret" }

/-- The transport of a client with a single connection. -/
def single : Transport where
  pool := .ofConfig
    { address := "localhost:80"
      maxConnections := 1
      maxPending := singleConnection.maxPendingAcquires
      acquireTimeout := singleConnection.acquireTimeout
      connectTimeout := singleConnection.connectTimeout
      maxIdle := singleConnection.maxIdleTime }
  host := "localhost"
  port := 80
  requestTimeout := singleConnection.requestTimeout
  maxContentLength := singleConnection.maxContentLength
  source := fixedSource
  epoch := ⟨0, 0⟩

theorem ofConfig_single : ofConfig singleConnection fixedSource ⟨0, 0⟩ = .ok single := rfl

/-! ## Frame of a step -/

/-- What a step of one dispatch leaves as it is for another one. The other may lose the ownership
of its channel, but only to the guard of the first. -/
structure Frame (d : Nat) (t : Transport) (r : Report) (t' : Transport) : Prop where
  phase : t'.phase? d = t.phase? d
  sink : t'.sinks.find? d = t.sinks.find? d
  owner : ∀ c, t.attached? d = some c → r.taken? ≠ some d →
    t'.routes.owner? c = t.routes.owner? c
  taken : r.taken? = some d → ∃ c, t.attached? d = some c ∧ t'.routes.owner? c = none
  subject : r.subject? ≠ some d

theorem find?_notify (t : Transport) (sink : Nat) (f : Completion → Completion) (v : Nat) :
    (t.notify sink f).sinks.find? v =
      if v = sink then (t.sinks.find? sink).map f else t.sinks.find? v :=
  t.sinks.find?_modify sink f v

namespace Frame

variable {r : Report} {q : Option Phase}

/-- A dispatch goes on to a phase, and the owners of channels that others hold stay. -/
theorem enter (hne : d ≠ g) (hphase : ∀ v, t'.phase? v = if v = g then q else t.phase? v)
    (hsink : t'.sinks.find? d = t.sinks.find? d)
    (howner : ∀ c, t.attached? d = some c → t'.routes.owner? c = t.routes.owner? c)
    (hr : r.subject? = none ∨ r.subject? = some g) (htaken : r.taken? = none) :
    Frame d t r t' where
  phase := by rw [hphase, if_neg hne]
  sink := hsink
  owner c hc _ := howner c hc
  taken h := by rw [htaken] at h; cases h
  subject := by
    rcases hr with hr | hr
    · rw [hr]
      exact nofun
    · rw [hr]
      exact fun h => hne (Option.some.inj h).symm

/-- A dispatch with a channel changes the owner of this channel only. -/
theorem owner_of_held {c e : Nat} (h : t.Sound) (hne : d ≠ g) (hg : t.held? g = some c)
    (hd : t.attached? d = some e) : e ≠ c := by
  rintro rfl
  exact hne (h.held_inj (attached?_held? hd) hg)

end Frame

/-- What a step of one dispatch leaves as it is for the others. -/
theorem Sound.frame {r : Report} (h : t.Sound) (hm : t.Move g r t') (hne : d ≠ g) :
    Frame d t r t' := by
  cases hm with
  | nothing => exact ⟨rfl, rfl, fun _ _ _ => rfl, nofun, nofun⟩
  | pool hp => exact ⟨rfl, rfl, fun _ _ _ => rfl, nofun, nofun⟩
  | registered hd =>
      exact .enter hne (phase?_set rfl) ((t.sinks.find?_set _ _ d).trans (if_neg hne))
        (fun _ _ => rfl) (Or.inr rfl) rfl
  | leased hd | answered hd | failed hd | unowned hd | droppedEarly hd =>
      exact .enter hne (phase?_enter_of_some hd) rfl (fun _ _ => rfl) (Or.inr rfl) rfl
  | withheld hd =>
      exact .enter hne (phase?_enter_of_some hd) rfl (fun _ _ => rfl) (Or.inl rfl) rfl
  | refused hd hq he hp =>
      exact .enter hne (phase?_enter_of_some hd) ((find?_notify _ _ _ d).trans (if_neg hne))
        (fun _ _ => rfl) (Or.inr rfl) rfl
  | sent hd hp =>
      refine .enter hne (phase?_enter_of_some hd) rfl (fun e he => ?_) (Or.inr rfl) rfl
      exact (t.routes.owner?_attach _ g e).trans
        (if_neg (Frame.owner_of_held h hne (held?_of_phase hd) he))
  | routed hd =>
      refine .enter hne (phase?_enter_of_some hd) rfl (fun e he => ?_) (Or.inl rfl) rfl
      exact (t.routes.owner?_detach _ e).trans
        (if_neg (Frame.owner_of_held h hne (held?_of_phase hd) he))
  | droppedLate hd hp =>
      refine .enter hne (phase?_enter_of_some hd) rfl (fun e he => ?_) (Or.inr rfl) rfl
      exact (t.routes.owner?_detach _ e).trans
        (if_neg (Frame.owner_of_held h hne (held?_of_phase hd) he))
  | toldResponse hd hx hp =>
      have howner := h.addressee g _ (addressee?_of_phase hd)
      subst howner
      exact .enter hne (phase?_enter_of_some hd) ((t.sinks.find?_set _ _ d).trans (if_neg hne))
        (fun _ _ => rfl) (Or.inr rfl) rfl
  | toldNobody hd hx hp =>
      have howner := h.addressee g _ (addressee?_of_phase hd)
      subst howner
      exact .enter hne (phase?_enter_of_some hd) rfl (fun _ _ => rfl) (Or.inr rfl) rfl
  | toldError hd he hp =>
      have howner := h.addressee g _ (addressee?_of_phase hd)
      subst howner
      exact .enter hne (phase?_enter_of_some hd) ((find?_notify _ _ _ d).trans (if_neg hne))
        (fun _ _ => rfl) (Or.inr rfl) rfl
  | parsed hd =>
      have howner := h.addressee g _ (addressee?_of_phase hd)
      subst howner
      exact .enter hne (phase?_enter_of_some hd) ((find?_notify _ _ _ d).trans (if_neg hne))
        (fun _ _ => rfl) (Or.inl rfl) rfl
  | @detached c hd =>
      -- Here the channel is no longer held by `g`, so its owner may be another dispatch.
      have howner := t.routes.owner?_detach c
      refine ⟨(phase?_enter_of_some hd d).trans (if_neg hne), rfl, fun e he hr => ?_, fun hr => ?_,
        fun hr => hne (Option.some.inj hr).symm⟩
      · refine (howner e).trans ?_
        split
        · rename_i hec
          cases ho : t.routes.owner? e with
          | none => rfl
          | some w =>
              have hw := h.owner_of_held (attached?_held? he) ho
              exact absurd ((congrArg t.routes.owner? hec.symm).trans (hw ▸ ho)) hr
        · rfl
      · exact ⟨c, h.owner c d hr, (howner c).trans (if_pos rfl)⟩
  | forgotten hd =>
      exact .enter hne (phase?_erase rfl) ((t.sinks.find?_erase _ d).trans (if_neg hne))
        (fun _ _ => rfl) (Or.inr rfl) rfl

end Transport

end ObjectStore
