import ObjectStore.Client.Course
import ObjectStore.Proofs.DispatchAccounts
import ObjectStore.Proofs.DispatchOutcomes

/-!
# Turns of dispatches

Whose turn a step of a transport is, and what the steps of others leave as it is. A dispatch that is
not there comes by its registration only, and only a dispatch with a channel sends a request.
-/

namespace ObjectStore

namespace Transport

variable {t t' : Transport} {d g : Nat}

/-! ## Whose turn it is -/

/-- A step is a move of its dispatch. A step of no dispatch is a move of any. -/
theorem step_move_of {e : Event} (h : e.dispatch? = some d ∨ e.dispatch? = none)
    (t : Transport) : t.Move d (t.report e) (t.step e) := by
  have hdispatch {g : Nat} (hg : e.dispatch? = some g) : g = d := by
    rcases h with h | h
    · exact Option.some.inj (hg.symm.trans h)
    · rw [hg] at h
      cases h
  cases e with
  | register g request parser =>
      obtain rfl := hdispatch rfl
      exact move_register t g request parser
  | acquire g | resume g | acquireExpired g | connected g | refused g _ | handshakeFailed g
  | connectExpired g =>
      obtain rfl := hdispatch rfl
      exact move_of_acquisition rfl t
  | send g =>
      obtain rfl := hdispatch rfl
      exact move_send t g
  | response g r =>
      obtain rfl := hdispatch rfl
      exact move_response t g r
  | failure g e =>
      obtain rfl := hdispatch rfl
      exact move_failure t g e
  | expire g =>
      obtain rfl := hdispatch rfl
      exact move_expire t g
  | cancel g =>
      obtain rfl := hdispatch rfl
      exact move_cancel t g
  | route g =>
      obtain rfl := hdispatch rfl
      exact move_route t g
  | tell g =>
      obtain rfl := hdispatch rfl
      exact move_tell t g
  | parse g =>
      obtain rfl := hdispatch rfl
      exact move_parse t g
  | finish g =>
      obtain rfl := hdispatch rfl
      exact move_finish t g
  | drop g =>
      obtain rfl := hdispatch rfl
      exact move_drop t g
  | forget g =>
      obtain rfl := hdispatch rfl
      exact move_forget t g
  | peerClosed c => exact .pool (Pool.keeps_peerClosed t.pool c)
  | advance nanos => exact .pool (Pool.keeps_advance t.pool nanos)
  | evict => exact .pool (Pool.keeps_evict t.pool)
  | shutdown => exact .pool (Pool.keeps_shutdown t.pool)

/-- A step that is no step of a dispatch is a move of another one. -/
theorem step_move_ne {e : Event} (h : e.dispatch? ≠ some d) (t : Transport) :
    ∃ g, d ≠ g ∧ t.Move g (t.report e) (t.step e) := by
  cases he : e.dispatch? with
  | none => exact ⟨d + 1, Nat.ne_of_lt (Nat.lt_succ_self d), step_move_of (Or.inr he) t⟩
  | some g => exact ⟨g, fun hdg => h (hdg ▸ he), step_move_of (Or.inl he) t⟩

/-- What the steps of others leave as it is for a dispatch. -/
structure Apart (d : Nat) (t t' : Transport) : Prop where
  phase : t'.phase? d = t.phase? d
  sink : t'.sinks.find? d = t.sinks.find? d
  sentBy : t'.sentBy d = t.sentBy d

theorem Move.sentBy_of_ne {r : Report} (hm : t.Move g r t') (hne : d ≠ g) :
    t'.sentBy d = t.sentBy d := by
  unfold sentBy
  rcases hm.sent_cases with h | ⟨c, wire, -, h⟩
  · rw [h]
  · rw [h, List.filter_cons_of_neg]
    simpa using Ne.symm hne

theorem Sound.apart_step {e : Event} (hs : t.Sound) (he : e.dispatch? ≠ some d) :
    Apart d t (t.step e) := by
  obtain ⟨g, hne, hm⟩ := step_move_ne he t
  have hframe := hs.frame hm hne
  exact ⟨hframe.phase, hframe.sink, hm.sentBy_of_ne hne⟩

theorem Sound.apart_run {events : List Event} (hs : t.Sound)
    (he : ∀ e ∈ events, e.dispatch? ≠ some d) : Apart d t (t.run events) := by
  induction events generalizing t with
  | nil => exact ⟨rfl, rfl, rfl⟩
  | cons e rest ih =>
      have hfirst := hs.apart_step (he e List.mem_cons_self)
      have hrest := ih (hs.step e) fun x hx => he x (List.mem_cons_of_mem e hx)
      exact ⟨hrest.phase.trans hfirst.phase, hrest.sink.trans hfirst.sink,
        hrest.sentBy.trans hfirst.sentBy⟩

/-! ## Dispatches that are not there -/

/-- A dispatch comes by its registration only. -/
theorem Move.comes {r : Report} {v : Nat} (hm : t.Move g r t')
    (hv : (t'.phase? v).isSome = true) :
    (t.phase? v).isSome = true ∨ ∃ parser, r = .registered v parser := by
  have hstays {q : Option Phase} {q' : Phase}
      (hphase : ∀ w, t'.phase? w = if w = g then q else t.phase? w)
      (hd : t.phase? g = some q') : (t.phase? v).isSome = true := by
    by_cases hvg : v = g
    · rw [hvg, hd]
      rfl
    · rw [hphase, if_neg hvg] at hv
      exact hv
  cases hm with
  | nothing => exact Or.inl hv
  | pool => exact Or.inl hv
  | @registered request parser hd =>
      by_cases hvg : v = g
      · exact Or.inr ⟨parser, hvg ▸ rfl⟩
      · rw [phase?_set rfl, if_neg hvg] at hv
        exact Or.inl hv
  | leased hd | refused hd | withheld hd | sent hd | answered hd | failed hd | routed hd
  | toldResponse hd | toldNobody hd | toldError hd | unowned hd | parsed hd | detached hd
  | droppedEarly hd | droppedLate hd => exact Or.inl (hstays (phase?_enter_of_some hd) hd)
  | forgotten hd => exact Or.inl (hstays (phase?_erase rfl) hd)

/-- Dispatches are registered and forgotten, and requests sent, by the events that say so. -/
theorem event_of_report {e : Event} {r : Report} (h : t.report e = r) :
    match r with
    | .registered d parser => ∃ request, e = .register d request parser
    | .sent d _ _ => e = .send d
    | .forgotten d => e = .forget d
    | _ => True := by
  cases e with
  | register d request parser =>
      simp only [report] at h
      split at h <;> subst h
      · trivial
      · exact ⟨request, rfl⟩
  | acquire | resume | acquireExpired | connected | refused | handshakeFailed | connectExpired =>
      simp only [report, Event.acquisition?, acquired] at h
      split at h <;> subst h <;> trivial
  | send d =>
      simp only [report] at h
      split at h <;> subst h
      · trivial
      · rfl
      · trivial
  | forget d =>
      simp only [report] at h
      split at h <;> subst h
      · rfl
      · trivial
  | response | failure | cancel | tell | finish | drop =>
      simp only [report] at h
      split at h <;> subst h <;> trivial
  | expire =>
      simp only [report] at h
      split at h
      · split at h <;> subst h <;> trivial
      · subst h
        trivial
  | route | parse | peerClosed | advance | evict | shutdown =>
      subst h
      trivial

/-- Without a registration a dispatch that is not there does not come. -/
theorem absent_step {e : Event} (h : t.phase? d = none)
    (he : ∀ request parser, e ≠ .register d request parser) : (t.step e).phase? d = none := by
  obtain ⟨g, hm⟩ := t.step_move e
  cases hphase : (t.step e).phase? d with
  | none => rfl
  | some q =>
      rcases hm.comes (v := d) (by rw [hphase]; rfl) with hsome | ⟨parser, hr⟩
      · rw [h] at hsome
        cases hsome
      · obtain ⟨request, rfl⟩ := event_of_report hr
        exact absurd rfl (he request parser)

/-- A dispatch with a result has ended. -/
theorem ended_of_result {r : Result} (h : t.result? d = some r) : t.phase? d = some .ended := by
  unfold result? at h
  split at h
  · assumption
  · cases h

/-- A dispatch that has ended is forgotten. -/
theorem phase?_forget (h : t.phase? d = some .ended) : (t.forget d).phase? d = none := by
  unfold forget
  rw [h]
  exact (phase?_erase rfl d).trans (if_pos rfl)

/-- A dispatch that waits ends when it is dropped. -/
theorem phase?_drop (h : Client.waits t d = true) : (t.drop d).phase? d = some .ended := by
  rw [Client.waits] at h
  rw [drop]
  cases hd : t.phase? d with
  | none =>
      rw [hd] at h
      cases h
  | some q =>
      rw [hd] at h
      cases q with
      | acquiring | exchanging => exact (phase?_enter_of_some hd d).trans (if_pos rfl)
      | leased | settled | routed | parsing | returning | ended => cases h

/-! ## Dispatches that send nothing -/

/-- Only a dispatch with a channel sends a request. -/
theorem Move.sentBy_of_phase {r : Report} (hm : t.Move d r t')
    (hd : ∀ c, t.phase? d ≠ some (.leased c)) : t'.sentBy d = t.sentBy d := by
  unfold sentBy
  rcases hm.sent_cases with h | ⟨c, wire, rfl, h⟩
  · rw [h]
  · cases hm with
    | sent hleased => exact absurd hleased (hd c)

theorem sentBy_step (e : Event) (hd : ∀ c, t.phase? d ≠ some (.leased c)) :
    (t.step e).sentBy d = t.sentBy d := by
  obtain ⟨g, hm⟩ := t.step_move e
  by_cases hg : d = g
  · subst hg
    exact hm.sentBy_of_phase hd
  · exact hm.sentBy_of_ne hg

/-- Only the event that says so sends a request. -/
theorem sent_of_ne {e : Event} (he : ∀ d, e ≠ .send d) : (t.step e).sent = t.sent := by
  obtain ⟨g, hm⟩ := t.step_move e
  rcases hm.sent_cases with h | ⟨c, wire, hr, -⟩
  · exact h
  · exact absurd (event_of_report hr) (he g)

theorem sent_run_of_ne {events : List Event} (he : ∀ e ∈ events, ∀ d, e ≠ .send d) :
    (t.run events).sent = t.sent := by
  induction events generalizing t with
  | nil => rfl
  | cons e rest ih =>
      exact (ih fun x hx => he x (List.mem_cons_of_mem e hx)).trans
        (sent_of_ne (he e List.mem_cons_self))

end Transport

end ObjectStore
