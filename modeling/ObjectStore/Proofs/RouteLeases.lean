import ObjectStore.Proofs.DispatchTurns
import ObjectStore.Transport.Teardown

/-!
# Routes and leases

A channel is on the routes only while the dispatch that was attached to it has leased it, so no
attach call finds a channel with an owner. A dispatch that is dropped while it waits for its
response loses the guard of its attachment first and its channel after that; others may take their
steps between the two, and the invariant holds there as well.
-/

namespace ObjectStore

namespace Teardown

/-- What a moment can do. -/
inductive Change (s : Teardown) : Teardown → Prop
  | nothing : Change s s
  | took {e : Transport.Event} (he : ∀ d ∈ s.falling, e.dispatch? ≠ some d) : Change s (s.take e)
  | lostGuard {d channel deadline : Nat}
      (hd : s.transport.phase? d = some (.exchanging channel deadline)) :
      Change s (s.dropGuard d channel)
  | lostChannel {d : Nat} (hd : d ∈ s.falling) : Change s (s.dropChannel d)

theorem change_step (s : Teardown) (m : Moment) : Change s (s.step m) := by
  cases m with
  | step e =>
      by_cases he : s.falling.any (e.dispatch? == some ·) = true
      · rw [step, if_pos he]
        exact .nothing
      · rw [step, if_neg he]
        apply Change.took
        intro d hd hed
        exact he (List.any_eq_true.2 ⟨d, hd, beq_iff_eq.2 hed⟩)
  | loseGuard d =>
      simp only [step]
      split
      · rename_i channel deadline hd
        split
        · exact .nothing
        · exact .lostGuard hd
      · exact .nothing
  | loseChannel d =>
      by_cases hd : s.falling.contains d = true
      · rw [step, if_pos hd]
        exact .lostChannel (List.contains_iff_mem.1 hd)
      · rw [step, if_neg hd]
        exact .nothing

end Teardown

/-! ## Routes that lose channels -/

/-- No channel gets an owner. -/
def Routes.Thins {S : Type} (r s : Routes S) : Prop :=
  ∀ c, s.owner? c = r.owner? c ∨ s.owner? c = none

namespace Routes

variable {S : Type} {r s : Routes S} {c : Nat}

theorem Thins.refl (r : Routes S) : r.Thins r := fun _ => Or.inl rfl

theorem thins_detach (r : Routes S) (channel : Nat) : r.Thins (r.detach channel).2 := by
  intro c
  rw [owner?_detach]
  split
  · exact Or.inr rfl
  · exact Or.inl rfl

theorem thins_dropGuard (r : Routes S) (channel : Nat) : r.Thins (r.dropGuard channel) :=
  r.thins_detach channel

theorem Thins.owner?_eq_some {a : S} (h : r.Thins s) (ha : s.owner? c = some a) :
    r.owner? c = some a := by
  rcases h c with hc | hc
  · exact hc.symm.trans ha
  · rw [hc] at ha
    cases ha

theorem Thins.owner?_eq_none (h : r.Thins s) (hc : r.owner? c = none) : s.owner? c = none :=
  (h c).elim (fun hs => hs.trans hc) id

end Routes

namespace Transport

variable {t t' : Transport} {d g : Nat}

/-- A move attaches its dispatch to the channel that this one has leased, or gives no channel an
owner. -/
theorem Move.routes_cases {r : Report} (hm : t.Move g r t') :
    (∃ c wire, r = .sent g c wire ∧ t.phase? g = some (.leased c) ∧
        t'.routes = t.routes.attach c g) ∨
      ((∀ d c wire, r ≠ .sent d c wire) ∧ t.routes.Thins t'.routes) := by
  cases hm with
  | @sent c deadline wire s p hd hp => exact Or.inl ⟨c, wire, rfl, hd, rfl⟩
  | @routed c outcome hd =>
      exact Or.inr ⟨nofun, t.routes.thins_detach c⟩
  | @detached c hd => exact Or.inr ⟨nofun, t.routes.thins_dropGuard c⟩
  | @droppedLate c deadline p hd hp => exact Or.inr ⟨nofun, t.routes.thins_dropGuard c⟩
  | _ => exact Or.inr ⟨nofun, Routes.Thins.refl t.routes⟩

namespace Sound

/-- The owner of a channel has leased it. -/
theorem leaseId?_of_owner {c : Nat} (h : t.Sound) (hc : t.routes.owner? c = some d) :
    t.pool.leaseId? d = some c :=
  (h.lease d).trans (attached?_held? (h.owner c d hc))

/-- A channel that was leased and not attached to has no owner. -/
theorem unowned_of_leased {c : Nat} (h : t.Sound) (hd : t.phase? d = some (.leased c)) :
    t.routes.owner? c = none := by
  cases hw : t.routes.owner? c with
  | none => rfl
  | some w =>
      have hattached := h.owner c w hw
      rw [h.owner_of_held (held?_of_phase hd) hw, attached?_of_phase hd] at hattached
      cases hattached

theorem thinned {routes : Routes Nat} (h : t.Sound) (hthin : t.routes.Thins routes) :
    Sound { t with routes } :=
  ⟨h.exclusive, h.lease, fun c d hc => h.owner c d (hthin.owner?_eq_some hc), h.addressee⟩

/-- A dispatch whose guard is gone may lose its channel too. -/
theorem loses_channel {c deadline : Nat} (h : t.Sound)
    (hd : t.phase? d = some (.exchanging c deadline)) (hnone : t.routes.owner? c = none) :
    ((t.onPool (·.close d)).enter d .ended).Sound := by
  have hleaves := Pool.leaves_close t.pool d
  refine h.enter (h.exclusive.leaves hleaves) (phase?_enter_of_some hd) hleaves.leaseId?
    (fun _ _ hv _ => hv) ?_ (tells_nobody d)
  intro e he
  have hattached := h.owner e d he
  rw [attached?_of_phase hd] at hattached
  cases hattached
  cases hnone.symm.trans he

/-- What a dispatch is attached to, and who owns it, stays in the steps of others, unless they take
the owner out. -/
theorem unowned_stays {c deadline : Nat} {e : Event} (h : t.Sound) (he : e.dispatch? ≠ some d)
    (hd : t.phase? d = some (.exchanging c deadline)) (hnone : t.routes.owner? c = none) :
    (t.step e).phase? d = some (.exchanging c deadline) ∧
      (t.step e).routes.owner? c = none := by
  obtain ⟨g, hne, hm⟩ := step_move_ne he t
  have hframe := h.frame hm hne
  refine ⟨hframe.phase.trans hd, ?_⟩
  by_cases htaken : (t.report e).taken? = some d
  · obtain ⟨c', hc', howner⟩ := hframe.taken htaken
    rw [attached?_of_phase hd] at hc'
    cases hc'
    exact howner
  · rw [hframe.owner c (attached?_of_phase hd) htaken, hnone]

end Sound

end Transport

namespace Teardown

variable {s : Teardown} {t : Transport} {d : Nat}

theorem attaching_of_sent {e : Transport.Event} {c : Nat} {wire : WireRequest}
    (h : t.report e = .sent d c wire) : attaching t e = some ⟨d, c, t.routes.owner? c⟩ := by
  simp only [attaching, h]

theorem attaching_of_not_sent {e : Transport.Event}
    (h : ∀ d c wire, t.report e ≠ .sent d c wire) : attaching t e = none := by
  unfold attaching
  split
  · rename_i d c wire hsent
    exact absurd hsent (h d c wire)
  · rfl

/-- What holds at every moment. -/
structure Sound (s : Teardown) : Prop where
  transport : s.transport.Sound
  /-- A dispatch that is being dropped still has its channel, which has no owner any more. -/
  falling : ∀ d ∈ s.falling, ∃ c deadline,
    s.transport.phase? d = some (.exchanging c deadline) ∧ s.transport.routes.owner? c = none
  attached : ∀ c d, s.transport.routes.owner? c = some d → s.attachedLast? c = some d
  found : ∀ call ∈ s.calls, call.found = none

namespace Sound

/-- A dispatch that is being dropped is left alone by the steps of others. -/
theorem falling_take {e : Transport.Event} (h : s.Sound)
    (he : ∀ d ∈ s.falling, e.dispatch? ≠ some d) : ∀ d ∈ (s.take e).falling, ∃ c deadline,
      (s.take e).transport.phase? d = some (.exchanging c deadline) ∧
        (s.take e).transport.routes.owner? c = none := by
  intro d hd
  obtain ⟨c, deadline, hphase, hnone⟩ := h.falling d hd
  exact ⟨c, deadline, h.transport.unowned_stays (he d hd) hphase hnone⟩

theorem take {e : Transport.Event} (h : s.Sound) (he : ∀ d ∈ s.falling, e.dispatch? ≠ some d) :
    (s.take e).Sound := by
  obtain ⟨g, hm⟩ := s.transport.step_move e
  rcases hm.routes_cases with ⟨c, wire, hr, hphase, hroutes⟩ | ⟨hr, hthin⟩
  · have hnone := h.transport.unowned_of_leased hphase
    have hcalls : (s.take e).calls = ⟨g, c, none⟩ :: s.calls := by
      rw [Teardown.take, attaching_of_sent hr, hnone]
      rfl
    constructor
    · exact h.transport.step e
    · exact h.falling_take he
    · -- The call of this step is now the last one for its channel.
      intro c' d hc
      change (s.transport.step e).routes.owner? c' = some d at hc
      rw [hroutes, Routes.owner?_attach] at hc
      rw [attachedLast?, hcalls]
      by_cases hcc : c' = c
      · rw [if_pos hcc] at hc
        simp [hcc, Option.some.inj hc]
      · rw [if_neg hcc] at hc
        rw [List.find?_cons_of_neg (by simpa using Ne.symm hcc)]
        exact h.attached c' d hc
    · rw [hcalls]
      exact List.forall_mem_cons.2 ⟨rfl, h.found⟩
  · have hcalls : (s.take e).calls = s.calls := by
      rw [Teardown.take, attaching_of_not_sent hr]
      rfl
    constructor
    · exact h.transport.step e
    · exact h.falling_take he
    · intro c d hc
      rw [attachedLast?, hcalls]
      exact h.attached c d (hthin.owner?_eq_some hc)
    · rw [hcalls]
      exact h.found

theorem dropGuard {c deadline : Nat} (h : s.Sound)
    (hd : s.transport.phase? d = some (.exchanging c deadline)) : (s.dropGuard d c).Sound := by
  have hthin := s.transport.routes.thins_dropGuard c
  constructor
  · exact h.transport.thinned hthin
  · intro v hv
    rcases List.mem_cons.1 hv with rfl | hv
    · exact ⟨c, deadline, hd, (s.transport.routes.owner?_detach c c).trans (if_pos rfl)⟩
    · obtain ⟨c', deadline', hphase, hnone⟩ := h.falling v hv
      exact ⟨c', deadline', hphase, hthin.owner?_eq_none hnone⟩
  · exact fun e v hv => h.attached e v (hthin.owner?_eq_some hv)
  · exact h.found

theorem dropChannel (h : s.Sound) (hd : d ∈ s.falling) : (s.dropChannel d).Sound := by
  obtain ⟨c, deadline, hphase, hnone⟩ := h.falling d hd
  constructor
  · exact h.transport.loses_channel hphase hnone
  · intro v hv
    obtain ⟨hv, hne⟩ := List.mem_filter.1 hv
    obtain ⟨c', deadline', hphase', hnone'⟩ := h.falling v hv
    refine ⟨c', deadline', ?_, hnone'⟩
    calc ((s.transport.onPool (·.close d)).enter d .ended).phase? v
        = s.transport.phase? v := by
          rw [Transport.phase?_enter, if_neg (by simpa using hne)]
          rfl
      _ = some (.exchanging c' deadline') := hphase'
  · exact h.attached
  · exact h.found

theorem change {s' : Teardown} (h : s.Sound) (hchange : Change s s') : s'.Sound := by
  cases hchange with
  | nothing => exact h
  | took he => exact h.take he
  | lostGuard hd => exact h.dropGuard hd
  | lostChannel hd => exact h.dropChannel hd

theorem run (h : s.Sound) (moments : List Moment) : (s.run moments).Sound := by
  induction moments generalizing s with
  | nil => exact h
  | cons m rest ih => exact ih (h.change (s.change_step m))

/-- No sink is put in the place of another one. -/
theorem thins {s' : Teardown} (h : s.Sound) (hchange : Change s s') {c : Nat}
    (hc : s.transport.routes.owner? c = some d) :
    s'.transport.routes.owner? c = some d ∨ s'.transport.routes.owner? c = none := by
  have hthins {r : Routes Nat} (hr : s.transport.routes.Thins r) :
      r.owner? c = some d ∨ r.owner? c = none := (hr c).imp_left fun hsame => hsame.trans hc
  cases hchange with
  | nothing => exact Or.inl hc
  | @took e he =>
      obtain ⟨g, hm⟩ := s.transport.step_move e
      rcases hm.routes_cases with ⟨c', wire, -, hphase, hroutes⟩ | ⟨-, hthin⟩
      · have hne : c ≠ c' := by
          rintro rfl
          cases hc.symm.trans (h.transport.unowned_of_leased hphase)
        left
        calc (s.transport.step e).routes.owner? c
            = s.transport.routes.owner? c := by rw [hroutes, Routes.owner?_attach, if_neg hne]
          _ = some d := hc
      · exact hthins hthin
  | lostGuard hd => exact hthins (s.transport.routes.thins_dropGuard _)
  | lostChannel hd => exact Or.inl hc

end Sound

theorem Sound.ofConfig {c : ClientConfig} {source : CredentialsSource} {epoch : Calendar.Instant}
    (h : Transport.ofConfig c source epoch = .ok t) : (ofTransport t).Sound := by
  constructor
  · exact Transport.Sound.ofConfig h
  · exact nofun
  · intro c d hc
    change t.routes.owner? c = some d at hc
    rw [(Transport.ofConfig_eq_ok h).2.1] at hc
    cases hc
  · exact nofun

theorem run_concat (s : Teardown) (moments : List Moment) (m : Moment) :
    s.run (moments ++ [m]) = (s.run moments).step m := List.foldl_append

/-- As long as no dispatch is being dropped, the steps are those of the transport. -/
theorem run_steps (h : s.falling = []) (events : List Transport.Event) :
    (s.run (events.map .step)).transport = s.transport.run events ∧
      (s.run (events.map .step)).falling = [] := by
  induction events generalizing s with
  | nil => exact ⟨rfl, h⟩
  | cons e rest ih =>
      have hstep : s.step (.step e) = s.take e := by
        rw [step, h]
        rfl
      have hrest := ih (s := s.take e) h
      rw [List.map_cons, run, List.foldl_cons, hstep]
      exact hrest

theorem step_loseGuard {c deadline : Nat}
    (hd : s.transport.phase? d = some (.exchanging c deadline)) (hnew : d ∉ s.falling) :
    s.step (.loseGuard d) = s.dropGuard d c := by
  simp only [step, hd, List.contains_iff_mem, hnew, if_false]

/-- The two parts in turn are the drop of a dispatch that waits for its response. -/
theorem run_parts {c deadline : Nat}
    (hd : s.transport.phase? d = some (.exchanging c deadline)) (hnew : d ∉ s.falling) :
    s.run [.loseGuard d, .loseChannel d] =
      { s with transport := s.transport.step (.drop d) } := by
  have hchannel : (s.dropGuard d c).step (.loseChannel d) = (s.dropGuard d c).dropChannel d :=
    if_pos (List.contains_iff_mem.2 List.mem_cons_self)
  have hfalling : (d :: s.falling).filter (· != d) = s.falling := by
    rw [List.filter_cons_of_neg (by simp), List.filter_eq_self]
    intro v hv
    exact bne_iff_ne.2 fun hvd => hnew (hvd ▸ hv)
  calc s.run [.loseGuard d, .loseChannel d]
      = (s.dropGuard d c).dropChannel d := by rw [← hchannel, ← step_loseGuard hd hnew]; rfl
    _ = { s with transport := s.transport.step (.drop d) } := by
      rw [dropChannel, dropGuard, hfalling]
      simp only [Transport.step, Transport.drop, hd]

/-- What the routes have to do with the leases. -/
structure WithinLeases (s : Teardown) : Prop where
  /-- A channel on the routes is leased by its owner, the dispatch that was attached to it last. -/
  leased : ∀ c d, s.transport.routes.owner? c = some d →
    s.attachedLast? c = some d ∧ s.transport.pool.leaseId? d = some c
  /-- No attach call has found an owner. -/
  found : ∀ call ∈ s.calls, call.found = none
  /-- Whatever comes next leaves an owner where it is or takes it out. -/
  kept : ∀ m c d, s.transport.routes.owner? c = some d →
    (s.step m).transport.routes.owner? c = some d ∨ (s.step m).transport.routes.owner? c = none

/-- At every moment of every run the routes stay within the leases, also between the two parts of
the drop of a dispatch. -/
theorem routes_within_leases {config : ClientConfig} {source : CredentialsSource}
    {epoch : Calendar.Instant} (h : Transport.ofConfig config source epoch = .ok t)
    (moments : List Moment) : ((ofTransport t).run moments).WithinLeases := by
  have hs := (Sound.ofConfig h).run moments
  constructor
  · intro c d hc
    exact ⟨hs.attached c d hc, hs.transport.leaseId?_of_owner hc⟩
  · exact hs.found
  · intro m c d hc
    exact hs.thins (change_step _ m) hc

/-- Two dispatches on a single connection begin, and the first sends its request. -/
def firstSends : List Moment := (Transport.firstLeases ++ [Transport.Event.send 1]).map .step

/-- The first dispatch waits for its response. -/
def begun : Teardown := (ofTransport Transport.single).run firstSends

/-- The first dispatch has lost its guard, and not yet its channel. -/
def halfway : Teardown := (ofTransport Transport.single).run (firstSends ++ [.loseGuard 1])

theorem transport_begun : begun.transport = Transport.firstSent ∧ begun.falling = [] := by
  have hsend : (Transport.single.run Transport.firstLeases).step (.send 1) = Transport.firstSent :=
    Transport.send_first.1
  obtain ⟨htransport, hfalling⟩ := run_steps (s := ofTransport Transport.single) rfl
    (Transport.firstLeases ++ [Transport.Event.send 1])
  rw [Transport.run_append_cons, ofTransport, hsend] at htransport
  exact ⟨htransport, hfalling⟩

theorem halfway_eq : halfway = begun.dropGuard 1 1 := by
  obtain ⟨htransport, hfalling⟩ := transport_begun
  have hphase : Transport.firstSent.phase? 1 = some (.exchanging 1 10000000000) := by
    decide +kernel
  have hstep : begun.step (.loseGuard 1) = begun.dropGuard 1 1 := by
    apply step_loseGuard
    · rw [htransport]
      exact hphase
    · rw [hfalling]
      exact List.not_mem_nil
  rw [← hstep, halfway, run_concat, begun]

/-- A dispatch is dropped while it waits for its response: the channel has no owner any more while
it is still leased. -/
theorem routes_within_leases_halfway :
    Transport.ofConfig Transport.singleConnection Transport.fixedSource ⟨0, 0⟩ =
      .ok Transport.single ∧
    begun.WithinLeases ∧ begun.transport.routes.owner? 1 = some 1 ∧
    halfway.WithinLeases ∧ halfway.transport.routes.owner? 1 = none ∧
    halfway.transport.pool.leaseId? 1 = some 1 := by
  refine ⟨Transport.ofConfig_single, ?_, ?_, ?_, ?_, ?_⟩
  · rw [begun]
    exact routes_within_leases Transport.ofConfig_single firstSends
  · rw [transport_begun.1]
    decide +kernel
  · rw [halfway]
    exact routes_within_leases Transport.ofConfig_single _
  · rw [halfway_eq, dropGuard, transport_begun.1]
    decide +kernel
  · rw [halfway_eq, dropGuard, transport_begun.1]
    decide +kernel

end Teardown

end ObjectStore
