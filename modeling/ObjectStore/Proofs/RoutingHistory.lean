import ObjectStore.Proofs.Registries
import ObjectStore.Transport

/-!
# Histories of routes

What becomes of the sinks on the routes over any sequence of calls. Each attach call has a number,
which its sink and its guard carry. A sink should stay until an outcome of its channel is routed,
the channel is detached, or its own guard is dropped. A guard knows its channel only, so this
holds in just those histories in which no guard is dropped while a later sink of its channel stands.
-/

namespace ObjectStore

/-- A sink with the number of the call that attached it. -/
structure Attachment (S : Type) where
  number : Nat
  sink : S
  deriving Repr, DecidableEq

/-- The calls on the routes. -/
inductive RoutingCall (S : Type)
  /-- A sink is attached to a channel. -/
  | attach (channel : Nat) (sink : S)
  /-- The sink of a channel is taken out. -/
  | detach (channel : Nat)
  /-- The sink of a channel is taken out and told of a response, a failure or the end of the
  channel. -/
  | route (channel : Nat) (outcome : Outcome)
  /-- The guard of an attach call is dropped. -/
  | drop (number : Nat)
  deriving Repr, DecidableEq

/-- The routes with the guards that are held, and with what was told. -/
structure RouteTable (S : Type) where
  routes : Routes (Attachment S) := {}
  /-- The channels of the guards by the numbers of their attach calls. -/
  guards : Registry Nat := .empty
  /-- The number of the next attach call. -/
  next : Nat := 0
  /-- What sinks were told, the last notice first. -/
  told : List (Attachment S × Outcome) := []

namespace RouteTable

variable {S : Type} {t : RouteTable S} {history past : List (RoutingCall S)}

/-- One call. -/
def step (t : RouteTable S) : RoutingCall S → RouteTable S
  | .attach c sink =>
      { t with
        routes := t.routes.attach c ⟨t.next, sink⟩
        guards := t.guards.set t.next c
        next := t.next + 1 }
  | .detach c => { t with routes := (t.routes.detach c).2 }
  | .route c outcome =>
      { t with
        routes := (t.routes.detach c).2
        told := ((t.routes.detach c).1.map (·, outcome)).toList ++ t.told }
  | .drop n =>
      match t.guards.find? n with
      | none => t
      | some c => { t with routes := t.routes.dropGuard c, guards := t.guards.erase n }

/-- The routes after a history, which has its last call first. -/
def after : List (RoutingCall S) → RouteTable S
  | [] => {}
  | call :: past => (after past).step call

/-- The sink that was attached last to a channel, if no route, no detach and not its own guard has
taken it out since. -/
def rightful : List (RoutingCall S) → Nat → Option (Attachment S)
  | [], _ => none
  | .attach c sink :: past, e => if e = c then some ⟨(after past).next, sink⟩ else rightful past e
  | .detach c :: past, e | .route c _ :: past, e => if e = c then none else rightful past e
  | .drop n :: past, e => (rightful past e).filter (·.number != n)

/-- Whether an outcome was routed or the sink taken out since a sink was attached last. -/
def released : List (RoutingCall S) → Nat → Bool
  | [], _ => true
  | .attach c _ :: past, e => e != c && released past e
  | .detach c :: past, e | .route c _ :: past, e => e == c || released past e
  | .drop _ :: past, e => released past e

/-- A channel is attached again only after its sink was taken out by a route or a detach. -/
def exclusive : List (RoutingCall S) → Bool
  | [] => true
  | .attach c _ :: past => released past c && exclusive past
  | .detach _ :: past | .route _ _ :: past | .drop _ :: past => exclusive past

/-- No guard is dropped while a later sink of its channel stands. -/
def punctual : List (RoutingCall S) → Bool
  | [] => true
  | .drop n :: past =>
      (((after past).guards.find? n).bind (rightful past)).all (·.number == n) && punctual past
  | .attach _ _ :: past | .detach _ :: past | .route _ _ :: past => punctual past

/-- What the sinks on the routes rely on. -/
structure Lawful (history : List (RoutingCall S)) : Prop where
  /-- A guard takes out the sink of its own attach call only. -/
  guard : ∀ n past, .drop n :: past <:+ history → ∀ c,
    (after (.drop n :: past)).routes.owner? c ≠ (after past).routes.owner? c →
    ∃ sink, (after past).routes.owner? c = some ⟨n, sink⟩
  /-- A sink is taken out only by a route or a detach of its channel or by its own guard. -/
  taken : ∀ call past, call :: past <:+ history → ∀ c a,
    (after past).routes.owner? c = some a → (after (call :: past)).routes.owner? c ≠ some a →
    (∃ outcome, call = .route c outcome) ∨ call = .detach c ∨ call = .drop a.number
  /-- An outcome reaches the sink that was attached last. -/
  reach : ∀ c outcome past, .route c outcome :: past <:+ history →
    (after (.route c outcome :: past)).told =
      ((rightful past c).map (·, outcome)).toList ++ (after past).told

/-- A guard that is dropped has no effect any more, and leaves all others. -/
theorem guards_step_drop (t : RouteTable S) (n m : Nat) :
    (t.step (.drop n)).guards.find? m = if m = n then none else t.guards.find? m := by
  cases hg : t.guards.find? n with
  | none =>
      simp only [step, hg]
      split
      · rename_i hmn
        rw [hmn, hg]
      · rfl
  | some c =>
      simp only [step, hg]
      exact t.guards.find?_erase n m

theorem next_step_drop (t : RouteTable S) (n : Nat) : (t.step (.drop n)).next = t.next := by
  cases hg : t.guards.find? n <;> simp only [step, hg]

/-- The numbers of guards were given out. -/
theorem number_lt {n c : Nat} (h : (after history).guards.find? n = some c) :
    n < (after history).next := by
  induction history generalizing n with
  | nil => cases h
  | cons call past ih =>
      cases call with
      | attach e sink =>
          rw [after, step, Registry.find?_set] at h
          change n < (after past).next + 1
          split at h
          · omega
          · exact Nat.lt_succ_of_lt (ih h)
      | detach | route => exact ih h
      | drop m =>
          rw [after, guards_step_drop] at h
          rw [after, next_step_drop]
          split at h
          · cases h
          · exact ih h

/-- The guard of a sink that stands is held, and it knows the channel of the sink. -/
theorem guard_of_rightful {c : Nat} {a : Attachment S} (h : rightful history c = some a) :
    (after history).guards.find? a.number = some c := by
  induction history with
  | nil => cases h
  | cons call past ih =>
      cases call with
      | attach e sink =>
          rw [after, step, Registry.find?_set]
          rw [rightful] at h
          split at h
          · rename_i hce
            cases h
            rw [if_pos rfl, hce]
          · have hlt := number_lt (ih h)
            rw [if_neg (Nat.ne_of_lt hlt), ih h]
      | detach e | route e =>
          rw [rightful] at h
          split at h
          · cases h
          · exact ih h
      | drop n =>
          rw [rightful, Option.filter_eq_some_iff] at h
          obtain ⟨h, hne⟩ := h
          rw [after, guards_step_drop, if_neg (by simpa using hne), ih h]

/-- A channel whose sink was released has none. -/
theorem rightful_of_released {c : Nat} (h : released history c = true) :
    rightful history c = none := by
  induction history with
  | nil => rfl
  | cons call past ih =>
      cases call with
      | attach e sink =>
          rw [released, Bool.and_eq_true, bne_iff_ne] at h
          rw [rightful, if_neg h.1, ih h.2]
      | detach e | route e =>
          rw [released, Bool.or_eq_true, beq_iff_eq] at h
          rw [rightful]
          split
          · rfl
          · rename_i hne
            exact ih (h.resolve_left hne)
      | drop n => rw [rightful, ih h, Option.filter_none]

/-- A guard whose channel has no other sink takes its own sink out. -/
theorem owner?_drop {n : Nat}
    (hown : ((after past).guards.find? n).bind (rightful past) |>.all (·.number == n))
    (h : ∀ c, (after past).routes.owner? c = rightful past c) (c : Nat) :
    (after (.drop n :: past)).routes.owner? c = rightful (.drop n :: past) c := by
  -- A sink with the number of the guard stands on the channel of the guard.
  have hkeep (hne : (after past).guards.find? n ≠ some c) :
      (rightful past c).filter (·.number != n) = rightful past c := by
    cases hr : rightful past c with
    | none => rfl
    | some a =>
        have hna : a.number ≠ n := fun ha => hne (ha ▸ guard_of_rightful hr)
        exact Option.filter_some_pos (bne_iff_ne.2 hna)
  rw [rightful]
  cases hg : (after past).guards.find? n with
  | none =>
      have hsame : after (.drop n :: past) = after past := by simp only [after, step, hg]
      rw [hsame, h, hkeep (by rw [hg]; exact nofun)]
  | some e =>
      have howner := (after past).routes.owner?_detach e c
      have hroutes : (after (.drop n :: past)).routes = ((after past).routes.detach e).2 := by
        simp only [after, step, hg]
        rfl
      rw [hroutes, howner]
      by_cases hce : c = e
      · rw [if_pos hce, hce]
        rw [hg, Option.bind_some] at hown
        cases hr : rightful past e with
        | none => rfl
        | some a =>
            rw [hr, Option.all_some, beq_iff_eq] at hown
            exact (Option.filter_some_neg (by simp [hown])).symm
      · rw [if_neg hce, h, hkeep]
        rw [hg]
        exact fun he => hce (Option.some.inj he).symm

/-- As long as no guard is dropped late, the owner of each channel is the one that it should be. -/
theorem owner?_eq_rightful (h : punctual history = true) (c : Nat) :
    (after history).routes.owner? c = rightful history c := by
  induction history generalizing c with
  | nil => rfl
  | cons call past ih =>
      cases call with
      | attach e sink => rw [after, step, Routes.owner?_attach, rightful, ih h]
      | detach e | route e => rw [after, step, Routes.owner?_detach, rightful, ih h]
      | drop n =>
          rw [punctual, Bool.and_eq_true] at h
          exact owner?_drop h.1 (ih h.2) c

theorem punctual_of_suffix (h : punctual history = true) (hs : past <:+ history) :
    punctual past = true := by
  induction history with
  | nil => rw [List.suffix_nil.1 hs]; rfl
  | cons call rest ih =>
      rcases List.suffix_cons_iff.1 hs with rfl | hs
      · exact h
      · refine ih ?_ hs
        cases call with
        | drop n => exact (Bool.and_eq_true _ _ ▸ h).2
        | attach | detach | route => exact h

theorem released_of_suffix {c : Nat} {sink : S} (h : exclusive history = true)
    (hs : .attach c sink :: past <:+ history) : released past c = true := by
  induction history with
  | nil => cases List.suffix_nil.1 hs
  | cons call rest ih =>
      rcases List.suffix_cons_iff.1 hs with heq | hs
      · cases heq
        rw [exclusive, Bool.and_eq_true] at h
        exact h.1
      · refine ih ?_ hs
        cases call with
        | attach e s => exact (Bool.and_eq_true _ _ ▸ h).2
        | drop | detach | route => exact h

/-- What the guard of an attach call takes out is the sink of this call. -/
theorem number_of_drop {n c : Nat}
    (h : rightful (.drop n :: past) c ≠ rightful past c) :
    ∃ sink, rightful past c = some ⟨n, sink⟩ := by
  rw [rightful] at h
  cases hr : rightful past c with
  | none =>
      rw [hr] at h
      exact absurd rfl h
  | some a =>
      by_cases hn : a.number = n
      · exact ⟨a.sink, by rw [← hn]⟩
      · have hkept : (some a).filter (·.number != n) = some a :=
          Option.filter_some_pos (bne_iff_ne.2 hn)
        rw [hr, hkept] at h
        exact absurd rfl h

theorem lawful_of_punctual (hexclusive : exclusive history = true)
    (h : punctual history = true) : Lawful history where
  guard n past hs c hne := by
    have hpast := punctual_of_suffix h ((List.suffix_cons _ past).trans hs)
    rw [owner?_eq_rightful hpast] at hne ⊢
    rw [owner?_eq_rightful (punctual_of_suffix h hs)] at hne
    exact number_of_drop hne
  taken call past hs c a ha hne := by
    have hpast := punctual_of_suffix h ((List.suffix_cons _ past).trans hs)
    rw [owner?_eq_rightful hpast] at ha
    rw [owner?_eq_rightful (punctual_of_suffix h hs)] at hne
    cases call with
    | attach e sink =>
        rw [rightful] at hne
        split at hne
        · rename_i hce
          have hnone := rightful_of_released (released_of_suffix hexclusive hs)
          rw [hce, hnone] at ha
          cases ha
        · exact absurd ha hne
    | detach e =>
        rw [rightful] at hne
        split at hne
        · rename_i hce
          exact Or.inr (Or.inl (by rw [hce]))
        · exact absurd ha hne
    | route e outcome =>
        rw [rightful] at hne
        split at hne
        · rename_i hce
          exact Or.inl ⟨outcome, by rw [hce]⟩
        · exact absurd ha hne
    | drop n =>
        rw [← ha] at hne
        obtain ⟨sink, hsink⟩ := number_of_drop hne
        rw [ha] at hsink
        cases hsink
        exact Or.inr (Or.inr rfl)
  reach c outcome past hs := by
    have hpast := punctual_of_suffix h ((List.suffix_cons _ past).trans hs)
    rw [← owner?_eq_rightful hpast]
    rfl

theorem Lawful.tail {call : RoutingCall S} (h : Lawful (call :: past)) : Lawful past where
  guard n p hs := h.guard n p (hs.trans (List.suffix_cons call past))
  taken e p hs := h.taken e p (hs.trans (List.suffix_cons call past))
  reach c outcome p hs := h.reach c outcome p (hs.trans (List.suffix_cons call past))

theorem Lawful.punctual (h : Lawful history) : punctual history = true := by
  induction history with
  | nil => rfl
  | cons call past ih =>
      have hpast := ih h.tail
      cases call with
      | attach | detach | route => exact hpast
      | drop n =>
          rw [RouteTable.punctual, hpast, Bool.and_true]
          cases hg : (after past).guards.find? n with
          | none => rfl
          | some c =>
              rw [Option.bind_some]
              cases hr : rightful past c with
              | none => rfl
              | some a =>
                  have howner := (owner?_eq_rightful hpast c).trans hr
                  have hdropped : (after (.drop n :: past)).routes.owner? c = none := by
                    simp only [after, step, hg]
                    exact ((after past).routes.owner?_detach c c).trans (if_pos rfl)
                  obtain ⟨sink, hsink⟩ := h.guard n past (List.suffix_refl _) c
                    (by rw [hdropped, howner]; exact nofun)
                  rw [howner] at hsink
                  cases hsink
                  exact beq_self_eq_true n

/-- If channels are attached one sink at a time, sinks may rely on the routes in just those
histories in which no guard is dropped while a later sink of its channel stands. -/
theorem lawful_iff_punctual (h : exclusive history = true) :
    Lawful history ↔ punctual history = true :=
  ⟨Lawful.punctual, lawful_of_punctual h⟩

/-- A channel is attached, routed and attached again before the first guard is dropped. -/
def lateDrop : List (RoutingCall String) :=
  [.route 7 (.response { status := 200 }), .drop 0, .attach 7 "second",
   .route 7 (.response { status := 200 }), .attach 7 "first"]

theorem lawful_iff_punctual_lateDrop :
    exclusive lateDrop = true ∧ (Lawful lateDrop ↔ punctual lateDrop = true) ∧
      exclusive (lateDrop.drop 2) = true ∧
      (Lawful (lateDrop.drop 2) ↔ punctual (lateDrop.drop 2) = true) :=
  ⟨by decide, lawful_iff_punctual (by decide), by decide, lawful_iff_punctual (by decide)⟩

/-- The first guard takes the second sink out, and a response is routed to nobody. -/
theorem late_drop_takes_later_sink :
    exclusive lateDrop = true ∧
    (after (lateDrop.drop 2)).routes.owner? 7 = some ⟨1, "second"⟩ ∧
    (after (lateDrop.drop 1)).routes.owner? 7 = none ∧
    (after lateDrop).told = [(⟨0, "first"⟩, .response { status := 200 })] ∧
    ¬ Lawful lateDrop := by
  refine ⟨by decide, by decide, by decide, by decide, ?_⟩
  intro h
  have hreach := h.reach 7 _ _ (List.suffix_refl lateDrop)
  exact absurd hreach (by decide)

end RouteTable

end ObjectStore
