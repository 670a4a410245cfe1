import ObjectStore.Proofs.DispatchTurns

/-!
# Endings of dispatches

The way to the end of a dispatch whose exchange was called off. It has no branches: the next step is
always the same one, and the result is a cancellation. The channel of the dispatch is not pooled, no
other dispatch gets it, and the one step that does something to the pool closes it.
-/

namespace ObjectStore

namespace Transport

variable {t t' : Transport} {d g : Nat}

/-! ## Dispatches on their way to the end -/

/-- The phases of a dispatch whose exchange was called off. -/
inductive CalledOff : Phase → Prop
  | settled (c : Nat) : CalledOff (.settled c .cancelled)
  | routed (c : Nat) (owner : Option Nat) : CalledOff (.routed c owner .cancelled)
  | returning (c : Nat) : CalledOff (.returning c)
  | ended : CalledOff .ended

/-- The steps that a dispatch still takes when its exchange was called off. -/
def lastSteps (d : Nat) : Phase → List Event
  | .settled _ _ => [.route d, .tell d, .finish d]
  | .routed _ _ _ => [.tell d, .finish d]
  | .returning _ => [.finish d]
  | .acquiring | .leased _ | .exchanging _ _ | .parsing _ _ _ | .ended => []

/-- Without steps to come a dispatch whose exchange was called off has ended. -/
theorem CalledOff.ended_of_lastSteps {q : Phase} (h : CalledOff q) (hq : lastSteps d q = []) :
    q = .ended := by
  cases h with
  | settled | routed | returning => cases hq
  | ended => rfl

/-- The last steps are steps of the dispatch that a client leaves to it. -/
theorem CalledOff.of_mem_lastSteps {q : Phase} {e : Event} (h : CalledOff q)
    (he : e ∈ lastSteps d q) : e.dispatch? = some d ∧ Client.isFree e = true := by
  have hsteps : lastSteps d q ⊆ [.route d, .tell d, .finish d] := by
    cases h with
    | settled | routed | returning | ended => simp [lastSteps]
  rcases List.mem_cons.1 (hsteps he) with rfl | he
  · exact ⟨rfl, rfl⟩
  rcases List.mem_cons.1 he with rfl | he
  · exact ⟨rfl, rfl⟩
  · obtain rfl := List.mem_singleton.1 he
    exact ⟨rfl, rfl⟩

/-- A sink that was told nothing but a cancellation. -/
def Hushed (sink : Option Completion) : Prop :=
  ∀ r, sink.bind (·.delivered) = some r → r = .error .cancelled

/-- A dispatch goes to its end with the result of a cancellation. -/
structure Surrenders (t : Transport) (d : Nat) (q : Phase) : Prop where
  phase : t.phase? d = some q
  calledOff : CalledOff q
  hushed : Hushed (t.sinks.find? d)

theorem hushed_ofParser (parser : Parser) : Hushed (some (.ofParser parser)) := nofun

theorem Hushed.onCancel {sink : Option Completion} (h : Hushed sink) :
    Hushed (sink.map (·.onFailure .cancelled)) := by
  intro r hr
  cases sink with
  | none => cases hr
  | some x =>
      obtain ⟨parser, claimed, delivered, taken⟩ := x
      cases claimed with
      | true => exact h r hr
      | false =>
          cases delivered with
          | none => exact (Option.some.inj hr).symm
          | some r' => exact h r hr

/-- The sink of a dispatch that waits was told nothing. -/
theorem Records.hushed {l : Ledger} (h : t.Records d l) {q : Phase} (hd : t.phase? d = some q)
    (hq : q = .acquiring ∨ ∃ c deadline, q = .exchanging c deadline) :
    Hushed (t.sinks.find? d) := by
  obtain ⟨parser, hagrees⟩ := h q hd
  have hsink : t.sinks.find? d = some (.ofParser parser) := by
    rcases hq with rfl | ⟨c, deadline, rfl⟩ <;> exact hagrees.1
  rw [hsink]
  exact hushed_ofParser parser

namespace Surrenders

variable {q : Phase}

/-- The result of a dispatch that went to its end is a cancellation. -/
theorem result (h : t.Surrenders d q) {r : Result} (hr : t.result? d = some r) :
    q = .ended ∧ r = .error .cancelled := by
  have hq := h.calledOff
  simp only [result?, h.phase] at hr
  cases hq with
  | settled | routed | returning => cases hr
  | ended =>
      refine ⟨rfl, ?_⟩
      cases hd : (t.sinks.find? d).bind (·.delivered) with
      | none =>
          rw [hd] at hr
          exact (Option.some.inj hr).symm
      | some r' =>
          rw [hd] at hr
          exact (Option.some.inj hr).symm.trans (h.hushed r' hd)

/-- At the end of the way the result is a cancellation. -/
theorem result_ended (h : t.Surrenders d .ended) : t.result? d = some (.error .cancelled) := by
  have hresult : (t.result? d).isSome = true := by
    rw [result?, h.phase]
    rfl
  obtain ⟨r, hr⟩ := Option.isSome_iff_exists.1 hresult
  rw [hr, (h.result hr).2]

theorem apart (h : t.Surrenders d q) (ha : Apart d t t') : t'.Surrenders d q :=
  ⟨ha.phase.trans h.phase, h.calledOff, ha.sink ▸ h.hushed⟩

/-- A dispatch on its way to the end does not wait, and is not called off again. -/
theorem not_waiting (h : t.Surrenders d q) :
    Client.waits t d = false ∧ t.cancel d = t := by
  have hq := h.calledOff
  constructor
  · rw [Client.waits, h.phase]
    cases hq <;> rfl
  · rw [cancel, h.phase]
    cases hq <;> rfl

/-- A dispatch enters a phase on its way to the end. -/
theorem enter {q' : Phase} (hd : t.phase? d = some q) (hq : CalledOff q')
    (hhushed : Hushed (t.sinks.find? d)) : (t.enter d q').Surrenders d q' :=
  ⟨(phase?_enter_of_some hd d).trans (if_pos rfl), hq, hhushed⟩

/-- The way to the end has no branches. -/
theorem move {r : Report} (h : t.Surrenders d q) (hs : t.Sound) (hm : t.Move d r t')
    (hr : r ≠ .forgotten d) :
    ∃ q', t'.Surrenders d q' ∧
      (lastSteps d q' = lastSteps d q ∨ lastSteps d q' = (lastSteps d q).tail) := by
  have hphase {q' : Phase} (hd : t.phase? d = some q') : q' = q :=
    Option.some.inj (hd.symm.trans h.phase)
  have hcalled := h.calledOff
  cases hm with
  | nothing => exact ⟨q, h, Or.inl rfl⟩
  | pool => exact ⟨q, ⟨h.phase, h.calledOff, h.hushed⟩, Or.inl rfl⟩
  | registered hd =>
      rw [h.phase] at hd
      cases hd
  | leased hd | withheld hd | sent hd | answered hd | failed hd | parsed hd | droppedEarly hd
  | droppedLate hd | toldResponse hd | toldNobody hd =>
      obtain rfl := hphase hd
      cases hcalled
  | refused hd hq =>
      obtain rfl := hphase hd
      rcases hq with rfl | ⟨c, rfl⟩ <;> cases hcalled
  | routed hd =>
      obtain rfl := hphase hd
      cases hcalled
      exact ⟨_, .enter hd (.routed _ _) h.hushed, Or.inr rfl⟩
  | @toldError c owner outcome e p hd he =>
      obtain rfl := hphase hd
      cases hcalled
      obtain rfl := hs.addressee d owner (addressee?_of_phase hd)
      obtain rfl : OperationError.cancelled = e := Option.some.inj he
      refine ⟨_, .enter hd (.returning c) ?_, Or.inr rfl⟩
      rw [find?_notify, if_pos rfl]
      exact h.hushed.onCancel
  | unowned hd =>
      obtain rfl := hphase hd
      cases hcalled
      exact ⟨_, .enter hd (.returning _) h.hushed, Or.inr rfl⟩
  | detached hd =>
      obtain rfl := hphase hd
      exact ⟨_, .enter hd .ended h.hushed, Or.inr rfl⟩
  | forgotten => exact absurd rfl hr

/-- The next of the last steps leads on. -/
theorem next (h : t.Surrenders d q) {e : Event} {rest : List Event}
    (he : lastSteps d q = e :: rest) {q' : Phase} (h' : (t.step e).phase? d = some q') :
    lastSteps d q' = rest := by
  have hq := h.calledOff
  have hd := h.phase
  have henter (u : Transport) (p : Phase) (hu : u.phase? d = some q)
      (heq : t.step e = u.enter d p) : q' = p := by
    rw [heq, phase?_enter_of_some hu, if_pos rfl] at h'
    exact (Option.some.inj h').symm
  cases hq with
  | settled c =>
      obtain ⟨rfl, rfl⟩ := List.cons.inj he
      obtain rfl := henter { t with routes := (t.routes.detach c).2 }
        (.routed c (t.routes.owner? c) .cancelled) hd (by simp only [step, route, hd]; rfl)
      rfl
  | routed c owner =>
      obtain ⟨rfl, rfl⟩ := List.cons.inj he
      cases owner with
      | none =>
          obtain rfl := henter (t.dispose d .close) (.returning c) hd
            (by simp only [step, tell, hd])
          rfl
      | some owner =>
          obtain rfl := henter ((t.notify owner Completion.onCancel).dispose d .close)
            (.returning c) hd (by simp only [step, tell, hd])
          rfl
  | returning c =>
      obtain ⟨rfl, rfl⟩ := List.cons.inj he
      obtain rfl := henter { t with routes := t.routes.dropGuard c } .ended hd
        (by simp only [step, finish, hd])
      rfl
  | ended => cases he

end Surrenders

/-! ## Channels that are withdrawn -/

/-- Nobody but one dispatch has a channel, and it is not idle. -/
structure Withdrawn (p : Pool) (channel d : Nat) : Prop where
  lt : channel < p.nextId
  idle : channel ∉ p.idleIds
  lease : ∀ u, p.leaseId? u = some channel → u = d

theorem Sound.withdrawn {channel : Nat} (h : t.Sound) (hd : t.held? d = some channel) :
    Withdrawn t.pool channel d where
  lt := h.exclusive.lease_lt d channel ((h.lease d).trans hd)
  idle := h.exclusive.lease_idle d channel ((h.lease d).trans hd)
  lease u hu := h.exclusive.lease_inj u d channel hu ((h.lease d).trans hd)

/-- The channel stays so, unless the dispatch pools it. -/
theorem Withdrawn.move {channel : Nat} {r : Report} (h : Withdrawn t.pool channel d)
    (hm : t.Move g r t') (hpools : ∀ q, t.phase? d = some q → q.mayPool = false) :
    Withdrawn t'.pool channel d := by
  cases hm.poolMove with
  | keeps hp =>
      refine ⟨hp.nextId ▸ h.lt, fun hi => h.idle ((hp.idle.map _).subset hi), fun u hu => ?_⟩
      exact h.lease u (hp.leaseId? u ▸ hu)
  | marks hp =>
      refine ⟨hp.nextId ▸ h.lt, ?_, fun u hu => h.lease u (hp.leaseId? u ▸ hu)⟩
      rw [Pool.idleIds, hp.idle]
      exact h.idle
  | leaves hp =>
      refine ⟨hp.nextId ▸ h.lt, ?_, fun u hu => ?_⟩
      · rw [Pool.idleIds, hp.idle]
        exact h.idle
      · rw [hp.leaseId?] at hu
        split at hu
        · cases hu
        · exact h.lease u hu
  | pools hd hq hp =>
      obtain ⟨c, hc, hidle⟩ := hp.idle
      refine ⟨hp.nextId ▸ h.lt, ?_, fun u hu => ?_⟩
      · rw [Pool.idleIds, hidle, List.map_cons, List.mem_cons, not_or]
        refine ⟨?_, h.idle⟩
        -- The channel that becomes idle is that of another dispatch.
        rintro rfl
        obtain rfl := h.lease g (by rw [Pool.leaseId?, hc]; rfl)
        rw [hpools _ hd] at hq
        cases hq
      · rw [hp.leaseId?] at hu
        split at hu
        · cases hu
        · exact h.lease u hu
  | @gains c hp =>
      have hlease := hp.leaseId?
      have hother : c.id ≠ channel ∧ t'.pool.idleIds.Sublist t.pool.idleIds ∧
          t.pool.nextId ≤ t'.pool.nextId := by
        cases hp with
        | reused hnone hview hidle hnext =>
            obtain ⟨stale, hidle⟩ := hidle
            have hids : t.pool.idleIds = stale.map (·.1) ++ c.id :: t'.pool.idleIds := by
              rw [Pool.idleIds, hidle, List.map_append, List.map_cons]
              rfl
            refine ⟨?_, ?_, Nat.le_of_eq hnext.symm⟩
            · rintro rfl
              exact h.idle (by simp [hids])
            · rw [hids]
              exact (List.sublist_cons_self _ _).trans (List.sublist_append_right _ _)
        | opened hnone hc hview hidle hnext =>
            refine ⟨?_, ?_, by omega⟩
            · have hid : c.id = t.pool.nextId := congrArg Prod.fst hc
              have hlt := h.lt
              omega
            · rw [Pool.idleIds, hidle]
              exact List.Sublist.refl _
      obtain ⟨hne, hsub, hle⟩ := hother
      refine ⟨Nat.lt_of_lt_of_le h.lt hle, fun hi => h.idle (hsub.subset hi), fun u hu => ?_⟩
      rw [hlease] at hu
      split at hu
      · exact absurd (Option.some.inj hu) hne
      · exact h.lease u hu

/-- To forget a dispatch does nothing to the pool. -/
theorem pool_forget (t : Transport) (d : Nat) : (t.forget d).pool = t.pool := by
  unfold forget
  split
  · rfl
  · rfl

/-- After its exchange was called off, the one step of a dispatch that does something to the pool is
the one that closes its channel. -/
theorem pool_step_of_calledOff {e : Event} (hd : ∀ q, t.phase? d = some q → CalledOff q)
    (he : e.dispatch? = some d) :
    (t.step e).pool = t.pool ∨ (t.step e).pool = t.pool.close d := by
  have hacquiring (f : Pool → Reply × Pool) : t.acquiring d f = t := by
    unfold acquiring
    split
    · rename_i hq
      cases hd _ hq
    · rfl
  have hsettle (outcome : Outcome) : t.settle d outcome = t := by
    unfold settle
    split
    · rename_i hq
      cases hd _ hq
    · rfl
  cases e with
  | register =>
      obtain rfl := Option.some.inj he
      refine Or.inl ?_
      simp only [step, register]
      split <;> rfl
  | acquire | resume | acquireExpired | connected | refused | handshakeFailed | connectExpired =>
      obtain rfl := Option.some.inj he
      exact Or.inl (by rw [step, hacquiring])
  | failure =>
      obtain rfl := Option.some.inj he
      exact Or.inl (by rw [step, hsettle])
  | tell =>
      obtain rfl := Option.some.inj he
      simp only [step, tell]
      split
      · rename_i hq
        cases hd _ hq
      · rename_i hq
        cases hd _ hq
      · exact Or.inr rfl
      · exact Or.inr rfl
      · exact Or.inl rfl
  | send =>
      obtain rfl := Option.some.inj he
      refine Or.inl ?_
      simp only [step, send]
      split
      · rename_i hq _ _
        cases hd _ hq
      · rfl
  | response | expire | cancel | drop | parse =>
      obtain rfl := Option.some.inj he
      refine Or.inl ?_
      simp only [step, receive, expire, cancel, drop, parse]
      split <;> first | rfl | (rename_i hq; cases hd _ hq)
  | route | finish =>
      obtain rfl := Option.some.inj he
      refine Or.inl ?_
      simp only [step, route, finish]
      split
      · rfl
      · rfl
  | forget =>
      obtain rfl := Option.some.inj he
      exact Or.inl (t.pool_forget _)
  | peerClosed | advance | evict | shutdown => cases he

theorem CalledOff.mayPool {q : Phase} (h : CalledOff q) : q.mayPool = false := by
  cases h <;> rfl

theorem Withdrawn.step {channel : Nat} (h : Withdrawn t.pool channel d)
    (hd : ∀ q, t.phase? d = some q → CalledOff q) (e : Event) :
    Withdrawn (t.step e).pool channel d := by
  obtain ⟨g, hm⟩ := t.step_move e
  exact h.move hm fun q hq => (hd q hq).mayPool

theorem Withdrawn.run {channel : Nat} {events : List Event} (h : Withdrawn t.pool channel d)
    (hs : t.Sound) (hd : ∀ q, t.phase? d = some q → CalledOff q)
    (he : ∀ e ∈ events, e.dispatch? ≠ some d) : Withdrawn (t.run events).pool channel d := by
  induction events generalizing t with
  | nil => exact h
  | cons e rest ih =>
      have hapart := hs.apart_step (he e List.mem_cons_self)
      exact ih (h.step hd e) (hs.step e) (fun q hq => hd q (hapart.phase ▸ hq))
        fun x hx => he x (List.mem_cons_of_mem e hx)

end Transport

end ObjectStore
