import ObjectStore.Proofs.DispatchOutcomes

/-!
# Traffic on channels

That no channel is leased again with a response still to come on it. What happens on a channel is
read off the reports of a run. On an idle channel each lease has sent nothing, or one request whose
response was read to its end and allowed the channel to stay; so a request goes out only on a
channel on which everything before it is over.
-/

namespace ObjectStore

open Http

/-- What happens on a channel. -/
inductive Traffic
  | lease (dispatch : Nat)
  | request (dispatch : Nat) (wire : WireRequest)
  /-- A response is read to its end. -/
  | response (dispatch : Nat) (r : Response)
  deriving Repr, DecidableEq

/-- What a report says of a channel. -/
def Report.traffic? (c : Nat) : Report → Option Traffic
  | .leased d e => if e = c then some (.lease d) else none
  | .sent d e wire => if e = c then some (.request d wire) else none
  | .settled d e (.response r) => if e = c then some (.response d r) else none
  | .settled _ _ (.failure _) | .settled _ _ .cancelled | .nothing | .registered _ _
  | .refused _ _ | .told _ _ | .unowned _ _ | .detached _ _ | .dropped _ | .forgotten _ => none

/-- The traffic on a channel goes on with what a report says of it. -/
def Report.extend (r : Report) (traffic : Nat → List Traffic) (c : Nat) : List Traffic :=
  (r.traffic? c).toList ++ traffic c

/-- Traffic, the last item first, in which each lease is over: nothing was sent in it, or a request
that was answered, with a response that let the channel stay. -/
inductive Quiet : List Traffic → Prop
  | fresh : Quiet []
  | unused {d : Nat} {past : List Traffic} (h : Quiet past) : Quiet (.lease d :: past)
  | answered {d : Nat} {wire : WireRequest} {r : Response} {past : List Traffic}
      (hkeep : r.keepAlive = true) (h : Quiet past) :
      Quiet (.response d r :: .request d wire :: .lease d :: past)

namespace Transport

variable {t t' : Transport} {d : Nat} {r : Report} {traffic : Nat → List Traffic}

/-- What the traffic on the channel of a dispatch is in each phase, and that no response is to come
where one was read or nothing was sent. -/
def Course (t : Transport) (d : Nat) (traffic : Nat → List Traffic) : Phase → Prop
  | .leased c =>
      t.pool.view? d = some (c, false) ∧ ∃ past, Quiet past ∧ traffic c = .lease d :: past
  | .exchanging c _ => ∃ past wire, Quiet past ∧ traffic c = .request d wire :: .lease d :: past
  | .settled c (.response r) | .routed c _ (.response r) =>
      t.pool.view? d = some (c, false) ∧ ∃ past wire, Quiet past ∧
        traffic c = .response d r :: .request d wire :: .lease d :: past
  | .settled _ (.failure _) | .settled _ .cancelled | .routed _ _ (.failure _)
  | .routed _ _ .cancelled | .acquiring | .parsing _ _ _ | .returning _ | .ended => True

/-- What holds of the traffic on the channels after every run. -/
structure Clean (t : Transport) (traffic : Nat → List Traffic) : Prop where
  idle : ∀ v ∈ t.pool.idleViews, v.2 = false ∧ Quiet (traffic v.1)
  fresh : ∀ c, t.pool.nextId ≤ c → traffic c = []
  course : ∀ d q, t.phase? d = some q → t.Course d traffic q

/-! ## Steps -/

/-- The channel that a step reports on is then the channel of its dispatch. -/
theorem Move.held_of_traffic {c : Nat} (hm : t.Move d r t') (hr : r.traffic? c ≠ none) :
    t'.held? d = some c := by
  have hc (e : Nat) (x : Traffic) (h : (if e = c then some x else none) ≠ none) : e = c :=
    Decidable.byContradiction fun hne => h (if_neg hne)
  cases hm with
  | leased hd | sent hd | answered hd =>
      obtain rfl := hc _ _ hr
      exact held?_of_phase ((phase?_enter_of_some hd d).trans (if_pos rfl))
  | @failed c' deadline outcome e hd he =>
      cases outcome with
      | response r => cases he
      | failure | cancelled => exact absurd rfl hr
  | _ => exact absurd rfl hr

/-- A dispatch that sends a request was past the wait for its channel. -/
theorem Move.phase_of_sent {c : Nat} {wire : WireRequest} (hm : t.Move d r t')
    (hr : r = .sent d c wire) : t.phase? d = some (.leased c) := by
  cases hm with
  | sent hd hp =>
      cases hr
      exact hd
  | _ => cases hr

/-- A step that says nothing of a channel leaves the traffic on it as it is. -/
theorem extend_of_not_held {c : Nat} (hm : t.Move d r t') (hc : t'.held? d ≠ some c) :
    r.extend traffic c = traffic c := by
  have hnone : r.traffic? c = none :=
    Decidable.byContradiction fun hr => hc (hm.held_of_traffic hr)
  rw [Report.extend, hnone]
  rfl

namespace PoolMove

variable {p : Pool}

theorem view_other {v : Nat} (h : t.PoolMove d p) (hne : v ≠ d) :
    p.view? v = t.pool.view? v := by
  cases h with
  | keeps h => exact h.view v
  | marks h => exact (h.view v).trans (if_neg hne)
  | leaves h => exact (h.view v).trans (if_neg hne)
  | pools _ _ h => exact (h.view v).trans (if_neg hne)
  | gains h =>
      cases h with
      | reused _ hview _ _ => exact (hview v).trans (if_neg hne)
      | opened _ _ hview _ _ => exact (hview v).trans (if_neg hne)

theorem nextId_le (h : t.PoolMove d p) : t.pool.nextId ≤ p.nextId := by
  cases h with
  | keeps h => exact Nat.le_of_eq h.nextId.symm
  | marks h => exact Nat.le_of_eq h.nextId.symm
  | leaves h => exact Nat.le_of_eq h.nextId.symm
  | pools _ _ h => exact Nat.le_of_eq h.nextId.symm
  | gains h =>
      cases h with
      | reused _ _ _ hnext => exact Nat.le_of_eq hnext.symm
      | opened _ _ _ _ hnext => omega

/-- A channel that is idle after a step was idle before, or it is the channel of the dispatch, in a
phase in which it may be pooled. -/
theorem idle_cases {v : Nat × Bool} (h : t.PoolMove d p) (hv : v ∈ p.idleViews) :
    v ∈ t.pool.idleViews ∨
      ∃ q, t.phase? d = some q ∧ q.mayPool = true ∧ t.pool.view? d = some v := by
  cases h with
  | keeps h => exact Or.inl (h.idle.subset hv)
  | marks h => exact Or.inl (h.idle ▸ hv)
  | leaves h => exact Or.inl (h.idle ▸ hv)
  | @pools q hd hq h =>
      obtain ⟨c, hc, hidle⟩ := h.idle
      rw [hidle] at hv
      rcases List.mem_cons.1 hv with rfl | hv
      · exact Or.inr ⟨q, hd, hq, hc⟩
      · exact Or.inl hv
  | gains h =>
      cases h with
      | reused _ _ hidle _ =>
          obtain ⟨stale, hidle⟩ := hidle
          apply Or.inl
          rw [hidle]
          exact List.mem_append_right _ (List.mem_cons_of_mem _ hv)
      | opened _ _ _ hidle _ => exact Or.inl (hidle ▸ hv)

end PoolMove

/-- The traffic on a channel that may be pooled, and that no response is to come on it. -/
theorem quiet_of_mayPool {q : Phase} {v : Nat × Bool} (h : t.Course d traffic q)
    (hq : q.mayPool = true) (hv : t.pool.view? d = some v) :
    v.2 = false ∧ ∃ past, Quiet past ∧ (traffic v.1 = .lease d :: past ∨
      ∃ wire r, r.keepAlive = true ∧
        traffic v.1 = .response d r :: .request d wire :: .lease d :: past) := by
  cases q with
  | leased c =>
      obtain ⟨hview, past, hpast, htraffic⟩ := h
      obtain rfl := Option.some.inj (hv.symm.trans hview)
      exact ⟨rfl, past, hpast, Or.inl htraffic⟩
  | routed c owner outcome =>
      cases outcome with
      | response r =>
          obtain ⟨hview, past, wire, hpast, htraffic⟩ := h
          obtain rfl := Option.some.inj (hv.symm.trans hview)
          exact ⟨rfl, past, hpast, Or.inr ⟨wire, r, hq, htraffic⟩⟩
      | failure | cancelled => cases hq
  | _ => cases hq

/-- The course of a dispatch depends on its lease and on the traffic on its channel only. -/
theorem Course.congr {traffic' : Nat → List Traffic} {q : Phase} (h : t.Course d traffic q)
    (hview : t'.pool.view? d = t.pool.view? d)
    (htraffic : ∀ c, q.held? = some c → traffic' c = traffic c) : t'.Course d traffic' q := by
  cases q with
  | leased c => rwa [Course, hview, htraffic c rfl]
  | exchanging c deadline => rwa [Course, htraffic c rfl]
  | settled c outcome =>
      cases outcome with
      | response r => rwa [Course, hview, htraffic c rfl]
      | failure | cancelled => trivial
  | routed c owner outcome =>
      cases outcome with
      | response r => rwa [Course, hview, htraffic c rfl]
      | failure | cancelled => trivial
  | _ => trivial

theorem course_enter {q q' : Phase} (hd : t.phase? d = some q)
    (h : (t.enter d q').Course d traffic q') :
    ∀ p, (t.enter d q').phase? d = some p → (t.enter d q').Course d traffic p := by
  intro p hp
  rw [phase?_enter_of_some hd, if_pos rfl] at hp
  cases hp
  exact h

namespace Clean

theorem idle_move (h : t.Clean traffic) (hs' : t'.Sound) (hm : t.Move d r t') :
    ∀ v ∈ t'.pool.idleViews, v.2 = false ∧ Quiet (r.extend traffic v.1) := by
  intro v hv
  rw [extend_of_not_held hm (hs'.not_held_of_idle hv d)]
  rcases hm.poolMove.idle_cases hv with hv | ⟨q, hd, hq, hview⟩
  · exact h.idle v hv
  · obtain ⟨hunread, past, hpast, htraffic⟩ := quiet_of_mayPool (h.course d q hd) hq hview
    refine ⟨hunread, ?_⟩
    rcases htraffic with htraffic | ⟨wire, r, hkeep, htraffic⟩
    · rw [htraffic]
      exact .unused hpast
    · rw [htraffic]
      exact .answered hkeep hpast

theorem fresh_move (h : t.Clean traffic) (hs' : t'.Sound) (hm : t.Move d r t') :
    ∀ c, t'.pool.nextId ≤ c → r.extend traffic c = [] := by
  intro c hc
  have hheld : t'.held? d ≠ some c := by
    intro hd
    have hlt := hs'.exclusive.lease_lt d c ((hs'.lease d).trans hd)
    omega
  rw [extend_of_not_held hm hheld]
  exact h.fresh c (Nat.le_trans hm.poolMove.nextId_le hc)

/-- A dispatch gets a channel on which all is over. -/
theorem quiet_of_gains {c : Channel} {p : Pool} (h : t.Clean traffic)
    (hp : Pool.Gains d c t.pool p) : p.view? d = some (c.id, false) ∧ Quiet (traffic c.id) := by
  cases hp with
  | reused _ hview hidle _ =>
      obtain ⟨stale, hidle⟩ := hidle
      have hmem : c.view ∈ t.pool.idleViews := by simp [hidle]
      obtain ⟨hunread, hquiet⟩ := h.idle c.view hmem
      refine ⟨?_, hquiet⟩
      rw [hview, if_pos rfl]
      exact congrArg some (Prod.ext rfl hunread)
  | opened _ hc hview _ _ =>
      have hid : c.id = t.pool.nextId := congrArg Prod.fst hc
      constructor
      · rw [hview, if_pos rfl, hc, hid]
      · rw [hid, h.fresh _ (Nat.le_refl _)]
        exact .fresh

theorem course_own (h : t.Clean traffic) (hs : t.Sound) (hm : t.Move d r t') :
    ∀ q, t'.phase? d = some q → t'.Course d (r.extend traffic) q := by
  cases hm with
  | nothing => exact h.course d
  | pool hp => exact fun q hq => (h.course d q hq).congr (hp.view d) (fun _ _ => rfl)
  | registered hd =>
      intro q hq
      rw [phase?_set rfl, if_pos rfl] at hq
      cases hq
      trivial
  | @leased c p hd hp =>
      obtain ⟨hview, hquiet⟩ := h.quiet_of_gains hp
      refine course_enter hd ⟨hview, traffic c.id, hquiet, ?_⟩
      rw [Report.extend, Report.traffic?, if_pos rfl]
      rfl
  | @sent c deadline wire s p hd hp =>
      obtain ⟨-, past, hpast, htraffic⟩ := h.course d _ hd
      refine course_enter hd ⟨past, wire, hpast, ?_⟩
      rw [Report.extend, Report.traffic?, if_pos rfl, htraffic]
      rfl
  | @answered c deadline r p hd hp =>
      obtain ⟨past, wire, hpast, htraffic⟩ := h.course d _ hd
      refine course_enter hd ⟨?_, past, wire, hpast, ?_⟩
      · have hlease : t.pool.leaseId? d = some c := (hs.lease d).trans (held?_of_phase hd)
        refine (hp.view d).trans ?_
        rw [if_pos rfl]
        rw [Pool.leaseId?] at hlease
        cases hv : t.pool.view? d with
        | none => rw [hv] at hlease; cases hlease
        | some v =>
            rw [hv] at hlease
            exact congrArg some (Prod.ext (Option.some.inj hlease) rfl)
      · rw [Report.extend, Report.traffic?, if_pos rfl, htraffic]
        rfl
  | @failed c deadline outcome e hd he =>
      apply course_enter hd
      cases outcome with
      | response r => cases he
      | failure | cancelled => trivial
  | @routed c outcome hd =>
      have hcourse := h.course d _ hd
      apply course_enter hd
      cases outcome with
      | response r => exact hcourse
      | failure | cancelled => trivial
  | toldResponse hd hx hp =>
      split
      · exact course_enter hd trivial
      · exact course_enter hd trivial
  | refused hd | withheld hd | toldNobody hd | toldError hd | unowned hd | parsed hd
  | detached hd | droppedEarly hd | droppedLate hd => exact course_enter hd trivial
  | forgotten hd =>
      intro q hq
      rw [phase?_erase rfl, if_pos rfl] at hq
      cases hq

theorem move (h : t.Clean traffic) (hs : t.Sound) (hm : t.Move d r t') :
    t'.Clean (r.extend traffic) := by
  have hs' := hs.move hm
  refine ⟨h.idle_move hs' hm, h.fresh_move hs' hm, ?_⟩
  intro v q hq
  by_cases hvd : v = d
  · subst hvd
    exact h.course_own hs hm q hq
  · have hframe := hs.frame hm hvd
    have hcourse := h.course v q (hframe.phase ▸ hq)
    apply hcourse.congr (hm.poolMove.view_other hvd)
    -- A report is about the channel of the dispatch that moves, which no other dispatch holds.
    intro c hc
    apply extend_of_not_held hm
    intro hd
    exact hvd (hs'.held_inj ((held?_of_phase hq).trans hc) hd)

theorem step (h : t.Clean traffic) (hs : t.Sound) (e : Event) :
    (t.step e).Clean ((t.report e).extend traffic) := by
  obtain ⟨d, hm⟩ := t.step_move e
  exact h.move hs hm

theorem run (h : t.Clean traffic) (hs : t.Sound) (events : List Event) :
    (t.run events).Clean ((t.reports events).foldl (fun traffic r => r.extend traffic) traffic) :=
  hs.run_fold (P := Clean) (fun _ _ e hs h => h.step hs e) h events

/-- A channel that becomes idle was leased by a dispatch that has sent nothing on it, or one request
whose response was read and lets the channel stay. -/
theorem pooled (h : t.Clean traffic) (hs : t.Sound) (e : Event) {v : Nat × Bool}
    (hv : v ∈ (t.step e).pool.idleViews) (hnew : v.1 ∉ t.pool.idleIds) :
    ∃ d, t.pool.leaseId? d = some v.1 ∧ ∃ past, Quiet past ∧
      ((t.report e).extend traffic v.1 = .lease d :: past ∨
        ∃ wire r, r.keepAlive = true ∧ (t.report e).extend traffic v.1 =
          .response d r :: .request d wire :: .lease d :: past) := by
  obtain ⟨d, hm⟩ := t.step_move e
  rw [extend_of_not_held hm ((hs.move hm).not_held_of_idle hv d)]
  rcases hm.poolMove.idle_cases hv with hv | ⟨q, hd, hq, hview⟩
  · exact absurd (List.mem_map_of_mem hv) hnew
  · obtain ⟨-, hquiet⟩ := quiet_of_mayPool (h.course d q hd) hq hview
    exact ⟨d, by rw [Pool.leaseId?, hview]; rfl, hquiet⟩

/-- A request goes out on a channel on which no response is to come, and everything before the lease
is over. -/
theorem sent (h : t.Clean traffic) (e : Event) :
    (t.step e).sent = t.sent ∨ ∃ s, (t.step e).sent = s :: t.sent ∧
      t.pool.view? s.dispatch = some (s.channel, false) ∧
      ∃ past, Quiet past ∧ traffic s.channel = .lease s.dispatch :: past := by
  obtain ⟨d, hm⟩ := t.step_move e
  rcases hm.sent_cases with hsame | ⟨c, wire, hr, hsent⟩
  · exact Or.inl hsame
  · exact Or.inr ⟨_, hsent, h.course d _ (hm.phase_of_sent hr)⟩

end Clean

/-- The traffic on a channel in a run, the last item first. -/
def trafficOn (t : Transport) (events : List Event) (c : Nat) : List Traffic :=
  (t.reports events).foldl (fun traffic r => r.extend traffic) (fun _ => []) c

theorem trafficOn_append (t : Transport) (events : List Event) (e : Event) :
    t.trafficOn (events ++ [e]) = ((t.run events).report e).extend (t.trafficOn events) := by
  funext c
  rw [trafficOn, reports_append, List.foldl_append]
  rfl

theorem clean_ofConfig {c : ClientConfig} {source : CredentialsSource}
    {epoch : Calendar.Instant} (h : ofConfig c source epoch = .ok t) (events : List Event) :
    (t.run events).Clean (t.trafficOn events) := by
  obtain ⟨⟨config, hpool⟩, -, hdispatches⟩ := ofConfig_eq_ok h
  refine Clean.run ⟨?_, fun _ _ => rfl, ?_⟩ (Sound.ofConfig h) events
  · intro v hv
    rw [hpool] at hv
    cases hv
  · intro d q hq
    rw [phase?, hdispatches, Registry.find?_empty] at hq
    cases hq

/-- On an idle channel everything is over. A channel becomes idle only when the lease that ends has
sent nothing, or one request whose response was read to its end and lets the channel stay. A request
goes out only on a channel on which no response is to come and everything before is over. -/
theorem traffic_over {c : ClientConfig} {source : CredentialsSource} {epoch : Calendar.Instant}
    (h : ofConfig c source epoch = .ok t) (events : List Event) :
    (∀ x ∈ (t.run events).pool.idle, x.unread = false ∧ Quiet (t.trafficOn events x.id)) ∧
    (∀ e, ∀ x ∈ ((t.run events).step e).pool.idle, x.id ∉ (t.run events).pool.idleIds →
      ∃ d, (t.run events).pool.leaseId? d = some x.id ∧ ∃ past, Quiet past ∧
        (t.trafficOn (events ++ [e]) x.id = .lease d :: past ∨
          ∃ wire r, r.keepAlive = true ∧ t.trafficOn (events ++ [e]) x.id =
            .response d r :: .request d wire :: .lease d :: past)) ∧
    (∀ e, ((t.run events).step e).sent = (t.run events).sent ∨
      ∃ s, ((t.run events).step e).sent = s :: (t.run events).sent ∧
        (t.run events).pool.view? s.dispatch = some (s.channel, false) ∧
        ∃ past, Quiet past ∧ t.trafficOn events s.channel = .lease s.dispatch :: past) := by
  have hclean := clean_ofConfig h events
  have hsound := (Sound.ofConfig h).run events
  refine ⟨?_, ?_, ?_⟩
  · intro x hx
    exact hclean.idle x.view (List.mem_map_of_mem hx)
  · intro e x hx hnew
    rw [trafficOn_append]
    exact hclean.pooled hsound e (v := x.view) (List.mem_map_of_mem hx) hnew
  · exact hclean.sent

/-! ## A channel that is leased again -/

/-- Two dispatches on a single connection. The first is answered and gives its channel back, and the
second leases it. -/
def leasedAgain : List Event := firstLeases ++ .send 1 :: secondLeases

/-- The run from the first request on. -/
theorem run_firstLeases (rest : List Event) :
    single.run (firstLeases ++ .send 1 :: rest) = firstSent.run rest := by
  have hfirst : (single.run firstLeases).step (.send 1) = firstSent := send_first.1
  rw [run_append_cons, hfirst]

/-- The traffic on the channel that is leased again. -/
theorem trafficOn_leasedAgain : ∃ wire, single.trafficOn leasedAgain 1 =
    [.lease 2, .response 1 { status := 204 }, .request 1 wire, .lease 1] := by
  have hfirst : (single.run firstLeases).step (.send 1) = firstSent := send_first.1
  obtain ⟨wire, hwire⟩ := send_first.2
  refine ⟨wire, ?_⟩
  rw [trafficOn, leasedAgain, reports_append, reports, hfirst, hwire]
  rfl

/-- In each part of the run, which goes on until the channel that was pooled after a complete
response is leased again. -/
theorem traffic_over_single : ofConfig singleConnection fixedSource ⟨0, 0⟩ = .ok single ∧
    (single.run (leasedAgain.take 9)).pool.idleIds = [1] ∧
    (single.run leasedAgain).pool.leaseId? 2 = some 1 ∧
    (∃ wire, single.trafficOn leasedAgain 1 =
      [.lease 2, .response 1 { status := 204 }, .request 1 wire, .lease 1]) ∧
    ∀ n,
      let events := leasedAgain.take n
      let t := single.run events
      (∀ x ∈ t.pool.idle, x.unread = false ∧ Quiet (single.trafficOn events x.id)) ∧
      (∀ e, ∀ x ∈ (t.step e).pool.idle, x.id ∉ t.pool.idleIds →
        ∃ d, t.pool.leaseId? d = some x.id ∧ ∃ past, Quiet past ∧
          (single.trafficOn (events ++ [e]) x.id = .lease d :: past ∨
            ∃ wire r, r.keepAlive = true ∧ single.trafficOn (events ++ [e]) x.id =
              .response d r :: .request d wire :: .lease d :: past)) ∧
      (∀ e, (t.step e).sent = t.sent ∨
        ∃ s, (t.step e).sent = s :: t.sent ∧ t.pool.view? s.dispatch = some (s.channel, false) ∧
          ∃ past, Quiet past ∧
            single.trafficOn events s.channel = .lease s.dispatch :: past) := by
  refine ⟨ofConfig_single, ?_, ?_, trafficOn_leasedAgain, ?_⟩
  · have hpart : leasedAgain.take 9 = firstLeases ++ .send 1 :: secondLeases.take 3 := rfl
    rw [hpart, run_firstLeases]
    decide +kernel
  · rw [leasedAgain, run_firstLeases]
    decide +kernel
  · intro n
    exact traffic_over ofConfig_single (leasedAgain.take n)

end Transport

end ObjectStore
